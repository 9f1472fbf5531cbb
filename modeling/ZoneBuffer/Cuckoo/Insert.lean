import ZoneBuffer.Cuckoo.Path
import ZoneBuffer.Cuckoo.Doubling
import Mathlib.Tactic.Linarith

set_option autoImplicit false

/-! # Finding and inserting

An operation takes the locks of the two buckets of its key, and while it holds them what it reads
is the view (`Taken`). So a key is found if and only if the table holds it (`cuckooFind_spec`), and
`cuckoo_insert` returns the slot of the key, or an empty one in one of its buckets, or that there
is no path (`cuckooInsert_spec`). In the last case `cuckoo_insert_loop` doubles the table and tries
again. It comes to an end because a table of more than twenty slots to an element is not doubled
(`cuckooInsertLoop_spec`). -/

namespace ZoneBuffer.Cuckoo

open Outcome CuckooMap

variable {K V : Type} {hash : K → UInt64} {m m' : CuckooMap K V} {key : K} {i₁ i₂ n : Nat}
  {b : Nat → Option (Slot K V)}

/-! ## The two buckets of a key -/

/-- `i₁` and `i₂` are the buckets of `key`, and their locks have been taken. -/
structure Taken (hash : K → UInt64) (m : CuckooMap K V) (key : K) (i₁ i₂ : Nat) : Prop where
  first : i₁ = indexHash m.hashpower (hash key)
  second : i₂ = altIndex m.hashpower (partialKey (hash key)) i₁
  migrated₁ : (m.locks (lockInd i₁)).isMigrated = true
  migrated₂ : (m.locks (lockInd i₂)).isMigrated = true

theorem Taken.bucketOf_iff (h : Taken hash m key i₁ i₂) {i : Nat} :
    BucketOf hash m.hashpower key i ↔ i = i₁ ∨ i = i₂ := by
  unfold BucketOf
  rw [h.second, h.first]

theorem Taken.migrated (h : Taken hash m key i₁ i₂) {i : Nat} (hi : i = i₁ ∨ i = i₂) :
    (m.locks (lockInd i)).isMigrated = true := by
  rcases hi with rfl | rfl
  · exact h.migrated₁
  · exact h.migrated₂

theorem Taken.read (h : Taken hash m key i₁ i₂) {i : Nat} (hi : i = i₁ ∨ i = i₂) :
    m.buckets.slot i = m.view hash i := (view_of_migrated (h.migrated hi)).symm

theorem Taken.kept (h : Taken hash m key i₁ i₂) (hk : Kept hash m m') : Taken hash m' key i₁ i₂ where
  first := by
    rw [hk.hashpower]
    exact h.first
  second := by
    rw [hk.hashpower]
    exact h.second
  migrated₁ := hk.migrated _ h.migrated₁
  migrated₂ := hk.migrated _ h.migrated₂

theorem snapshotAndLockTwo_spec (h : Inv hash m) (key : K) :
    ∃ i₁ i₂ m', m.snapshotAndLockTwo hash (hashedKey hash key) = .ok (i₁, i₂, m') ∧ Inv hash m' ∧
      Rehashed hash m m' ∧ Taken hash m' key i₁ i₂ := by
  obtain ⟨m', hok, hinv, hre, h₁, h₂⟩ := lockTwo_spec h (indexHash m.hashpower (hash key))
    (altIndex m.hashpower (partialKey (hash key)) (indexHash m.hashpower (hash key)))
  refine ⟨_, _, m', ?_, hinv, hre, ?_, ?_, h₁, h₂⟩
  · unfold snapshotAndLockTwo hashedKey
    simp only [hok, ok_bind]
  · rw [hre.hashpower]
  · rw [hre.hashpower]

/-! ## Sound tables -/

/-- A table that may be doubled is not much larger than the number of its elements. -/
theorem hashpower_lt (hmin : m.minimumLoadFactor = 5 / 100)
    (hload : m.minimumLoadFactor ≤ (n : Rat) / m.capacity) : m.hashpower < n + 3 := by
  have hcap : m.capacity = 4 * 2 ^ m.hashpower := by
    show hashsize m.hashpower * 4 = _
    rw [hashsize_eq, Nat.mul_comm]
  have hpos : (0 : Rat) < m.capacity := by
    rw [hcap]
    exact_mod_cast Nat.mul_pos (by omega) (Nat.two_pow_pos _)
  have hbound : 2 ^ m.hashpower ≤ 5 * n := by
    rw [hmin, le_div_iff₀ hpos, hcap] at hload
    have hcast : ((2 ^ m.hashpower : Nat) : Rat) ≤ ((5 * n : Nat) : Rat) := by
      push_cast at hload ⊢
      linarith
    exact_mod_cast hcast
  by_contra hge
  have hle : 2 ^ (n + 3) ≤ 2 ^ m.hashpower := Nat.pow_le_pow_right (by omega) (by omega)
  have hlt : n < 2 ^ n := Nat.lt_two_pow_self
  rw [Nat.pow_add] at hle
  omega

/-- What an operation may rely on: the invariant, the count, and the limits the constructor
sets. -/
structure Sound (hash : K → UInt64) (m : CuckooMap K V) (n : Nat) : Prop where
  inv : Inv hash m
  counts : Counts hash m n
  minimumLoadFactor : m.minimumLoadFactor = 5 / 100
  maximumHashpower : m.maximumHashpower = none

theorem Sound.kept (h : Sound hash m n) (hinv : Inv hash m') (hk : Kept hash m m') :
    Sound hash m' n :=
  ⟨hinv, hk.counts h.counts, hk.minimumLoadFactor.trans h.minimumLoadFactor,
    hk.maximumHashpower.trans h.maximumHashpower⟩

/-! ## Finding -/

variable [DecidableEq K]

theorem tryReadFromBucket_eq_some {j : Nat} (h : tryReadFromBucket b key = some j) :
    ∃ s, b j = some s ∧ s.key = key := by
  have hany := List.find?_some h
  cases hb : b j with
  | none => simp [hb] at hany
  | some s => exact ⟨s, rfl, by simpa [hb] using hany⟩

theorem tryReadFromBucket_eq_none (h : tryReadFromBucket b key = none) {j : Nat} {s : Slot K V}
    (hj : j < SLOT_PER_BUCKET) (hs : b j = some s) : s.key ≠ key := by
  intro hkey
  have hnone := List.find?_eq_none.1 h j (List.mem_range.2 hj)
  rw [hs] at hnone
  simp [hkey] at hnone

/-- **`cuckoo_find`** finds a key that the table holds. -/
theorem cuckooFind_spec (h : Inv hash m) (ht : Taken hash m key i₁ i₂) :
    match m.cuckooFind key i₁ i₂ with
    | some pos => (pos.index = i₁ ∨ pos.index = i₂) ∧
        ∃ s, m.view hash pos.index pos.slot = some s ∧ s.key = key
    | none => ∀ w, ¬ m.Holds hash key w := by
  unfold cuckooFind
  rw [ht.read (Or.inl rfl), ht.read (Or.inr rfl)]
  cases h₁ : tryReadFromBucket (m.view hash i₁) key with
  | some j => exact ⟨Or.inl rfl, tryReadFromBucket_eq_some h₁⟩
  | none =>
      cases h₂ : tryReadFromBucket (m.view hash i₂) key with
      | some j => exact ⟨Or.inr rfl, tryReadFromBucket_eq_some h₂⟩
      | none =>
          rintro w ⟨i, j, s, hs, rfl, -⟩
          obtain ⟨hj, hbucket, -⟩ := h.placed i j s hs
          rcases ht.bucketOf_iff.1 hbucket with rfl | rfl
          · exact tryReadFromBucket_eq_none h₁ hj hs rfl
          · exact tryReadFromBucket_eq_none h₂ hj hs rfl

/-! ## Inserting -/

theorem findRoom_spec (b : Nat → Option (Slot K V)) (key : K) (js : List Nat) (o : Option Nat) :
    match findRoom b key js o with
    | .duplicated j => ∃ s, b j = some s ∧ s.key = key
    | .room o' => (∀ j ∈ js, ∀ s, b j = some s → s.key ≠ key) ∧
        ∀ j, o' = some j → o = some j ∨ (j ∈ js ∧ b j = none) := by
  induction js generalizing o with
  | nil => exact ⟨by simp, fun j hj => Or.inl hj⟩
  | cons j js ih =>
      unfold findRoom
      cases hb : b j with
      | some s =>
          by_cases hkey : s.key = key
          · simp only [if_pos hkey]
            exact ⟨s, hb, hkey⟩
          · have hrest := ih o
            simp only [if_neg hkey]
            cases hfind : findRoom b key js o with
            | duplicated j' =>
                rw [hfind] at hrest
                exact hrest
            | room o' =>
                rw [hfind] at hrest
                refine ⟨List.forall_mem_cons.2 ⟨fun t ht => ?_, hrest.1⟩, fun j' hj' => ?_⟩
                · rw [hb] at ht
                  cases ht
                  exact hkey
                · exact (hrest.2 j' hj').imp_right fun h => ⟨List.mem_cons_of_mem j h.1, h.2⟩
      | none =>
          have hrest := ih (some j)
          cases hfind : findRoom b key js (some j) with
          | duplicated j' =>
              rw [hfind] at hrest
              exact hrest
          | room o' =>
              rw [hfind] at hrest
              refine ⟨List.forall_mem_cons.2 ⟨fun t ht => ?_, hrest.1⟩, fun j' hj' => ?_⟩
              · rw [hb] at ht
                cases ht
              · rcases hrest.2 j' hj' with hsome | ⟨hmem, hfree⟩
                · cases hsome
                  exact Or.inr ⟨List.mem_cons_self, hb⟩
                · exact Or.inr ⟨List.mem_cons_of_mem j hmem, hfree⟩

/-- What an answer of `cuckoo_insert` says of the table. -/
def Settled (hash : K → UInt64) (m : CuckooMap K V) (key : K) (i₁ i₂ : Nat) : CuckooStatus → Prop
  | .ok pos => (pos.index = i₁ ∨ pos.index = i₂) ∧ pos.slot < SLOT_PER_BUCKET ∧
      m.view hash pos.index pos.slot = none ∧ ∀ w, ¬ m.Holds hash key w
  | .failureKeyDuplicated pos => (pos.index = i₁ ∨ pos.index = i₂) ∧
      ∃ s, m.view hash pos.index pos.slot = some s ∧ s.key = key
  | .failureTableFull => True

/-- Where neither bucket has room. -/
theorem cuckooInsertFull_spec (h : Inv hash m) (ht : Taken hash m key i₁ i₂) :
    ∃ status m', cuckooInsertFull hash key i₁ i₂ m = .ok (status, m') ∧ Inv hash m' ∧
      Kept hash m m' ∧ Settled hash m' key i₁ i₂ status := by
  obtain ⟨r, m', hok, hinv, hkept, -, hres⟩ := runCuckoo_spec h i₁ i₂
  unfold cuckooInsertFull
  rw [hok, ok_bind]
  cases r with
  | none => exact ⟨_, m', rfl, hinv, hkept, trivial⟩
  | some pos =>
      obtain ⟨hindex, hslot, hfree, -, -⟩ := hres pos rfl
      have ht' := ht.kept hkept
      have hbucket : isBucketOf m'.hashpower (hashedKey hash key) pos.index = true :=
        isBucketOf_iff.2 (ht'.bucketOf_iff.2 hindex)
      have hfind := cuckooFind_spec hinv ht'
      simp only [hbucket, not_true_eq_false, if_false]
      cases hpos : m'.cuckooFind key i₁ i₂ with
      | some pos' =>
          rw [hpos] at hfind
          exact ⟨_, m', rfl, hinv, hkept, hfind⟩
      | none =>
          rw [hpos] at hfind
          exact ⟨_, m', rfl, hinv, hkept, hindex, hslot, hfree, hfind⟩

/-- **`cuckoo_insert`.** -/
theorem cuckooInsert_spec (h : Inv hash m) (ht : Taken hash m key i₁ i₂) :
    ∃ status m', cuckooInsert hash key i₁ i₂ m = .ok (status, m') ∧ Inv hash m' ∧
      Kept hash m m' ∧ Settled hash m' key i₁ i₂ status := by
  have hself : Kept hash m m := (Rehashed.refl m).kept
  have hroom₁ := findRoom_spec (m.view hash i₁) key (List.range SLOT_PER_BUCKET) none
  have hroom₂ := findRoom_spec (m.view hash i₂) key (List.range SLOT_PER_BUCKET) none
  unfold cuckooInsert tryFindInsertBucket
  rw [ht.read (Or.inl rfl), ht.read (Or.inr rfl)]
  cases hfind₁ : findRoom (m.view hash i₁) key (List.range SLOT_PER_BUCKET) none with
  | duplicated j =>
      rw [hfind₁] at hroom₁
      exact ⟨_, m, rfl, h, hself, Or.inl rfl, hroom₁⟩
  | room room₁ =>
      rw [hfind₁] at hroom₁
      cases hfind₂ : findRoom (m.view hash i₂) key (List.range SLOT_PER_BUCKET) none with
      | duplicated j =>
          rw [hfind₂] at hroom₂
          exact ⟨_, m, rfl, h, hself, Or.inr rfl, hroom₂⟩
      | room room₂ =>
          rw [hfind₂] at hroom₂
          have habsent : ∀ w, ¬ m.Holds hash key w := by
            rintro w ⟨i, j, s, hs, rfl, -⟩
            obtain ⟨hj, hbucket, -⟩ := h.placed i j s hs
            rcases ht.bucketOf_iff.1 hbucket with rfl | rfl
            · exact hroom₁.1 j (List.mem_range.2 hj) s hs rfl
            · exact hroom₂.1 j (List.mem_range.2 hj) s hs rfl
          cases room₁ with
          | some j =>
              obtain ⟨hj, hfree⟩ := (hroom₁.2 j rfl).resolve_left (by simp)
              exact ⟨_, m, rfl, h, hself, Or.inl rfl, List.mem_range.1 hj, hfree, habsent⟩
          | none =>
              cases room₂ with
              | some j =>
                  obtain ⟨hj, hfree⟩ := (hroom₂.2 j rfl).resolve_left (by simp)
                  exact ⟨_, m, rfl, h, hself, Or.inr rfl, List.mem_range.1 hj, hfree, habsent⟩
              | none => exact cuckooInsertFull_spec h ht

/-! ## The loop -/

/-- **The loop of `cuckoo_insert_loop`** ends, unless the load factor gets too low. -/
theorem cuckooInsertLoop_spec (rounds : Nat) (h : Sound hash m n) (ht : Taken hash m key i₁ i₂)
    (hpos : 0 < rounds) (hrounds : n + 4 ≤ rounds + m.hashpower) :
    Yields (cuckooInsertLoop hash key rounds i₁ i₂ m) (· = .loadFactorTooLow)
      fun r => Sound hash r.2 n ∧ (∀ k w, r.2.Holds hash k w ↔ m.Holds hash k w) ∧
        r.1 ≠ .failureTableFull ∧
        ∃ i₁' i₂', Taken hash r.2 key i₁' i₂' ∧ Settled hash r.2 key i₁' i₂' r.1 := by
  induction rounds generalizing i₁ i₂ m with
  | zero => exact absurd hpos (Nat.lt_irrefl 0)
  | succ rounds ih =>
      obtain ⟨status, m₁, hok, hinv, hkept, hset⟩ := cuckooInsert_spec h.inv ht
      have hsound := h.kept hinv hkept
      unfold cuckooInsertLoop
      rw [hok, ok_bind]
      cases status with
      | ok pos =>
          exact ⟨hsound, hkept.holds, by simp, i₁, i₂, ht.kept hkept, hset⟩
      | failureKeyDuplicated pos =>
          exact ⟨hsound, hkept.holds, by simp, i₁, i₂, ht.kept hkept, hset⟩
      | failureTableFull =>
          refine ((cuckooFastDouble_spec hinv hsound.counts hsound.maximumHashpower).mono
            (fun e he => he.1) fun _ h => h).bind ?_
          rintro m₂ ⟨hinv₂, hcounts₂, hdoubled, hload⟩
          have hlt := hashpower_lt hsound.minimumLoadFactor hload
          obtain ⟨i₁', i₂', m₃, hlock, hinv₃, hre, ht₃⟩ := snapshotAndLockTwo_spec hinv₂ key
          have hsound₂ : Sound hash m₂ n := ⟨hinv₂, hcounts₂,
            hdoubled.minimumLoadFactor.trans hsound.minimumLoadFactor,
            hdoubled.maximumHashpower.trans hsound.maximumHashpower⟩
          have hhp : m₃.hashpower = m.hashpower + 1 := by
            rw [hre.hashpower, hdoubled.hashpower, hkept.hashpower]
          rw [hkept.hashpower] at hlt
          rw [hlock, ok_bind]
          refine (ih (hsound₂.kept hinv₃ hre.kept) ht₃ (by omega) (by omega)).imp ?_
          rintro ⟨status, m'⟩ ⟨hsound', hholds, hne, hrest⟩
          refine ⟨hsound', fun k w => ?_, hne, hrest⟩
          show m'.Holds hash k w ↔ _
          rw [hholds, hre.holds, hdoubled.holds, hkept.holds]

end ZoneBuffer.Cuckoo
