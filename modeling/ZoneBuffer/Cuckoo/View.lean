import ZoneBuffer.Cuckoo.Spread
import Mathlib.Data.Finset.Card

set_option autoImplicit false

/-! # The table as its keys see it

After a doubling the buckets of a lock stay where they were until the lock is taken. `view` is the
table with all of them moved: where the lock of a bucket has been migrated it is the bucket, and
else what `move_bucket` will make of the old ones. Taking a lock leaves the view as it is and shows
it in the buckets of that lock (`lockOne_spec`). Everything that follows speaks of the view. -/

namespace ZoneBuffer.Cuckoo

open Outcome

variable {K V : Type} {hash : K → UInt64} {old : Buckets K V} {i j l : Nat}

/-! ## Locks and their buckets -/

theorem kMaxNumLocks_eq : kMaxNumLocks = 2 ^ 16 := by decide

theorem kMaxNumLocks_pos : 0 < kMaxNumLocks := by decide

theorem lockInd_eq (i : Nat) : lockInd i = i % kMaxNumLocks := by
  unfold lockInd
  rw [kMaxNumLocks_eq, Nat.and_two_pow_sub_one_eq_mod]

theorem lockInd_lt (i : Nat) : lockInd i < kMaxNumLocks := by
  rw [lockInd_eq]
  exact Nat.mod_lt _ kMaxNumLocks_pos

theorem mem_ownBuckets {size : Nat} (hl : l < kMaxNumLocks) :
    i ∈ ownBuckets l size ↔ i < size ∧ lockInd i = l := by
  have hpos := kMaxNumLocks_pos
  unfold ownBuckets
  rw [lockInd_eq]
  simp only [List.mem_map, List.mem_range]
  constructor
  · rintro ⟨q, hq, rfl⟩
    rw [Nat.lt_div_iff_mul_lt hpos] at hq
    rw [Nat.add_mul_mod_self_right, Nat.mod_eq_of_lt hl]
    omega
  · rintro ⟨hlt, hmod⟩
    have hdiv := Nat.mod_add_div' i kMaxNumLocks
    rw [hmod] at hdiv
    refine ⟨i / kMaxNumLocks, ?_, hdiv⟩
    rw [Nat.lt_div_iff_mul_lt hpos]
    omega

theorem nodup_ownBuckets (l size : Nat) : (ownBuckets l size).Nodup := by
  unfold ownBuckets
  refine List.Nodup.map ?_ List.nodup_range
  intro q q' h
  have hmul : q * kMaxNumLocks = q' * kMaxNumLocks := Nat.add_left_cancel h
  exact Nat.eq_of_mul_eq_mul_right kMaxNumLocks_pos hmul

/-- In a table as large as the lock array, the remainder of a bucket has the same lock. -/
theorem lockInd_mod {hp : Nat} (h : kMaxNumLocks ≤ hashsize hp) (i : Nat) :
    lockInd (i % hashsize hp) = lockInd i := by
  rw [kMaxNumLocks_eq, hashsize_eq] at h
  have hle : 16 ≤ hp := (Nat.pow_le_pow_iff_right (by omega)).1 h
  rw [lockInd_eq, lockInd_eq, kMaxNumLocks_eq, hashsize_eq]
  exact Nat.mod_mod_of_dvd i (pow_dvd_pow 2 hle)

/-! ## The view -/

namespace CuckooMap

variable (hash) in
/-- The slots of the table, all buckets moved. -/
def view (m : CuckooMap K V) (i j : Nat) : Option (Slot K V) :=
  if (m.locks (lockInd i)).isMigrated then m.buckets.slot i j
  else
    match m.oldBuckets with
    | some old => spread hash old i j
    | none => none

variable {m m' m'' : CuckooMap K V}

theorem view_of_migrated (h : (m.locks (lockInd i)).isMigrated = true) :
    m.view hash i = m.buckets.slot i := by
  unfold view
  simp [h]

theorem view_of_pending (h : (m.locks (lockInd i)).isMigrated = false)
    (hold : m.oldBuckets = some old) : m.view hash i = spread hash old i := by
  unfold view
  simp [h, hold]

variable (hash) in
/-- The buckets of lock `l` have not been moved yet. -/
structure Pending (m : CuckooMap K V) (l : Nat) (old : Buckets K V) : Prop where
  lt : l < m.numLocks
  oldBuckets : m.oldBuckets = some old
  can : m.CanRehash old
  placed : Placed hash old
  empty : ∀ i j, lockInd i = l → m.buckets.slot i j = none

variable (hash) in
/-- The invariant of the table, but for the number of locks left to migrate. -/
structure Core (m : CuckooMap K V) : Prop where
  placed : ∀ i j s, m.view hash i j = some s → j < SLOT_PER_BUCKET ∧
    BucketOf hash m.hashpower s.key i ∧ s.partialKey = partialKey (hash s.key)
  unique : ∀ i j s i' j' s', m.view hash i j = some s → m.view hash i' j' = some s' →
    s.key = s'.key → i = i' ∧ j = j'
  numLocks : m.numLocks = min kMaxNumLocks (hashsize m.hashpower)
  pending : ∀ l, (m.locks l).isMigrated = false → ∃ old, m.Pending hash l old

/-- The locks left to migrate. -/
def unmigrated (m : CuckooMap K V) : Finset Nat :=
  (Finset.range m.numLocks).filter fun l => (m.locks l).isMigrated = false

variable (hash) in
/-- The invariant. -/
structure Inv (m : CuckooMap K V) : Prop extends Core hash m where
  remaining : m.numRemainingLazyRehashLocks = m.unmigrated.card

variable (hash) in
/-- Nothing has changed but where some buckets are kept. -/
structure Rehashed (m m' : CuckooMap K V) : Prop where
  view : m'.view hash = m.view hash
  hashpower : m'.hashpower = m.hashpower
  numLocks : m'.numLocks = m.numLocks
  counter : ∀ l, (m'.locks l).elemCounter = (m.locks l).elemCounter
  migrated : ∀ l, (m.locks l).isMigrated = true → (m'.locks l).isMigrated = true
  minimumLoadFactor : m'.minimumLoadFactor = m.minimumLoadFactor
  maximumHashpower : m'.maximumHashpower = m.maximumHashpower

theorem Rehashed.refl (m : CuckooMap K V) : Rehashed hash m m :=
  ⟨rfl, rfl, rfl, fun _ => rfl, fun _ h => h, rfl, rfl⟩

theorem Rehashed.trans (h : Rehashed hash m m') (h' : Rehashed hash m' m'') :
    Rehashed hash m m'' :=
  ⟨h'.view.trans h.view, h'.hashpower.trans h.hashpower, h'.numLocks.trans h.numLocks,
    fun l => (h'.counter l).trans (h.counter l), fun l hl => h'.migrated l (h.migrated l hl),
    h'.minimumLoadFactor.trans h.minimumLoadFactor, h'.maximumHashpower.trans h.maximumHashpower⟩

theorem setMigrated_isMigrated (m : CuckooMap K V) (l l' : Nat) :
    ((m.setMigrated true l).locks l').isMigrated
      = if l' = l then true else (m.locks l').isMigrated := by
  have h : (m.setMigrated true l).locks l'
      = if l' = l then { m.locks l with isMigrated := true } else m.locks l' :=
    Function.update_apply ..
  rw [h]
  split <;> rfl

theorem setMigrated_elemCounter (m : CuckooMap K V) (l l' : Nat) :
    ((m.setMigrated true l).locks l').elemCounter = (m.locks l').elemCounter := by
  have h : (m.setMigrated true l).locks l'
      = if l' = l then { m.locks l with isMigrated := true } else m.locks l' :=
    Function.update_apply ..
  rw [h]
  split
  case isTrue hl => rw [hl]
  case isFalse => rfl

/-- Nothing is spread beyond twice the size of the old table. -/
theorem spread_eq_none (hplaced : Placed hash old) (hi : 2 * old.size ≤ i) :
    spread hash old i j = none := by
  have hpos := old.size_pos
  have hnone : ∀ j, old.slot (i - old.size) j = none := by
    intro j
    rw [Option.eq_none_iff_forall_ne_some]
    intro s hs
    have hlt : i - old.size < old.size := (hplaced _ _ s hs).2.1.lt
    omega
  unfold spread
  rw [if_neg (by omega)]
  simp [moversIn, hnone]

/-! ## Taking a lock -/

/-- The table after the buckets of lock `l` have been moved. -/
def moved (hash : K → UInt64) (m : CuckooMap K V) (l : Nat) (old : Buckets K V) : CuckooMap K V :=
  { m with
    buckets := spreadAll hash old m.buckets (ownBuckets l old.size) }.setMigrated true l

theorem moved_slot (hl : l < kMaxNumLocks) (hcan : kMaxNumLocks ≤ old.size)
    (hplaced : Placed hash old) (hempty : ∀ i j, lockInd i = l → m.buckets.slot i j = none) :
    (m.moved hash l old).buckets.slot i j
      = if lockInd i = l then spread hash old i j else m.buckets.slot i j := by
  have hmod : lockInd (i % old.size) = lockInd i := lockInd_mod hcan i
  show (if i < 2 * old.size ∧ i % old.size ∈ ownBuckets l old.size then spread hash old i j
    else m.buckets.slot i j) = _
  have hlt : i % old.size < old.size := Nat.mod_lt _ old.size_pos
  simp only [mem_ownBuckets hl, hmod]
  by_cases hi : lockInd i = l
  · by_cases hsize : i < 2 * old.size
    · simp [hi, hsize, hlt]
    · rw [if_neg (by omega), if_pos hi, hempty i j hi, spread_eq_none hplaced (by omega)]
  · simp [hi]

theorem moved_rehashed (hl : (m.locks l).isMigrated = false) (hp : m.Pending hash l old) :
    Rehashed hash m (m.moved hash l old) := by
  have hlt : l < kMaxNumLocks := hp.can.1 ▸ hp.lt
  refine ⟨?_, rfl, rfl, setMigrated_elemCounter _ l, fun l' hl' => ?_, rfl, rfl⟩
  · funext i j
    have hslot := moved_slot (i := i) (j := j) hlt hp.can.2.2 hp.placed hp.empty
    have hmig := setMigrated_isMigrated { m with
      buckets := spreadAll hash old m.buckets (ownBuckets l old.size) } l (lockInd i)
    unfold view
    by_cases hi : lockInd i = l
    · rw [if_pos hi] at hslot hmig
      have hpend : (m.locks (lockInd i)).isMigrated = false := by rw [hi]; exact hl
      rw [hpend, hp.oldBuckets]
      unfold moved at hslot ⊢
      rw [hmig, if_pos rfl, hslot]
      rfl
    · rw [if_neg hi] at hslot hmig
      unfold moved at hslot ⊢
      rw [hmig, hslot]
      rfl
  · unfold moved
    rw [setMigrated_isMigrated]
    split
    · rfl
    · exact hl'

/-- What `rehash_lock` does to a lock that has not been migrated, up to the count. -/
theorem rehashLock_eq (hl : (m.locks l).isMigrated = false) (hp : m.Pending hash l old)
    (isLazy : Bool) : m.rehashLock hash isLazy l =
      if isLazy then (m.moved hash l old).decrementNumRemaining else .ok (m.moved hash l old) := by
  have hlt : l < kMaxNumLocks := hp.can.1 ▸ hp.lt
  have hown : ∀ i ∈ ownBuckets l old.size, i < old.size ∧ lockInd i = l :=
    fun i hi => (mem_ownBuckets hlt).1 hi
  have hloop : (ownBuckets l old.size).foldlM (moveBucket hash old) m.buckets
      = .ok (spreadAll hash old m.buckets (ownBuckets l old.size)) := by
    refine moveBuckets_eq hp.placed (nodup_ownBuckets l _) (fun i hi => (hown i hi).1) ?_
    intro i hi j
    obtain ⟨hsize, hlock⟩ := hown i hi
    refine ⟨hp.empty i j hlock, hp.empty (i + old.size) j ?_⟩
    -- the bucket a table's size further has the same lock
    have hmod := lockInd_mod hp.can.2.2 (i + old.size)
    have hsz : hashsize old.hashpower = old.size := rfl
    rw [hsz, Nat.add_mod_right, Nat.mod_eq_of_lt hsize] at hmod
    rw [← hmod]
    exact hlock
  unfold rehashLock
  rw [hl, if_neg Bool.false_ne_true, hp.oldBuckets]
  simp only [if_pos hp.can, hloop, ok_bind]
  rw [← hp.oldBuckets]
  rfl

theorem Pending.moved {l' : Nat} {old' : Buckets K V} (hp : m.Pending hash l old)
    (hp' : m.Pending hash l' old') (hne : l' ≠ l) : (m.moved hash l old).Pending hash l' old' where
  lt := hp'.lt
  oldBuckets := hp'.oldBuckets
  can := hp'.can
  placed := hp'.placed
  empty i j hi := by
    have hlt : l < kMaxNumLocks := hp.can.1 ▸ hp.lt
    rw [moved_slot hlt hp.can.2.2 hp.placed hp.empty, if_neg (by rw [hi]; exact hne)]
    exact hp'.empty i j hi

theorem Core.moved (h : Core hash m) (hl : (m.locks l).isMigrated = false)
    (hp : m.Pending hash l old) : Core hash (m.moved hash l old) := by
  have hre := moved_rehashed hl hp
  refine ⟨?_, ?_, h.numLocks, fun l' hl' => ?_⟩
  · rw [hre.view]
    exact h.placed
  · rw [hre.view]
    exact h.unique
  · unfold CuckooMap.moved at hl'
    rw [setMigrated_isMigrated] at hl'
    split at hl'
    case isTrue => cases hl'
    case isFalse hne =>
      obtain ⟨old', hp'⟩ := h.pending l' hl'
      exact ⟨old', hp.moved hp' hne⟩

variable (hash old) in
theorem unmigrated_moved (hl : (m.locks l).isMigrated = false) (hlt : l < m.numLocks) :
    (m.moved hash l old).unmigrated.card + 1 = m.unmigrated.card := by
  have hmem : l ∈ m.unmigrated := Finset.mem_filter.2 ⟨Finset.mem_range.2 hlt, hl⟩
  have herase : (m.moved hash l old).unmigrated = m.unmigrated.erase l := by
    ext l'
    unfold unmigrated CuckooMap.moved
    simp only [Finset.mem_filter, Finset.mem_erase, Finset.mem_range, setMigrated_isMigrated]
    by_cases h : l' = l
    · simp [h]
    · rw [if_neg h]
      simp only [ne_eq, h, not_false_eq_true, true_and]
      exact Iff.rfl
  rw [herase, Finset.card_erase_add_one hmem]

/-- Where no lock is left to migrate, all are migrated. -/
theorem Core.all_migrated (h : Core hash m) (hnone : m.unmigrated = ∅) (l : Nat) :
    (m.locks l).isMigrated = true := by
  rw [← Bool.not_eq_false]
  intro hl
  obtain ⟨old, hp⟩ := h.pending l hl
  have hmem : l ∈ m.unmigrated := Finset.mem_filter.2 ⟨Finset.mem_range.2 hp.lt, hl⟩
  rw [hnone] at hmem
  exact absurd hmem (Finset.notMem_empty l)

/-- The old buckets may be given up once no lock is left to migrate. -/
theorem Core.setNumRemaining_rehashed (h : Core hash m) {n : Nat} (hn : n = 0 → m.unmigrated = ∅) :
    Rehashed hash m (m.setNumRemaining n) := by
  refine ⟨?_, rfl, rfl, fun _ => rfl, fun _ hl => hl, rfl, rfl⟩
  funext i j
  unfold view setNumRemaining
  cases hl : (m.locks (lockInd i)).isMigrated with
  | true => simp
  | false =>
      have hne : n ≠ 0 := by
        intro h0
        rw [h.all_migrated (hn h0)] at hl
        cases hl
      simp [hne]

theorem Core.setNumRemaining (h : Core hash m) {n : Nat} (hn : n = 0 → m.unmigrated = ∅) :
    Core hash (m.setNumRemaining n) := by
  have hre := h.setNumRemaining_rehashed hn
  refine ⟨?_, ?_, h.numLocks, fun l hl => ?_⟩
  · rw [hre.view]
    exact h.placed
  · rw [hre.view]
    exact h.unique
  · have hne : n ≠ 0 := by
      intro h0
      have hmig := h.all_migrated (hn h0) l
      cases hmig.symm.trans hl
    obtain ⟨old, hp⟩ := h.pending l hl
    refine ⟨old, hp.lt, ?_, hp.can, hp.placed, hp.empty⟩
    unfold CuckooMap.setNumRemaining
    rw [if_neg hne]
    exact hp.oldBuckets

/-- **Taking a lock.** -/
theorem rehashLock_spec (h : Inv hash m) (l : Nat) :
    ∃ m', m.rehashLock hash true l = .ok m' ∧ Inv hash m' ∧ Rehashed hash m m' ∧
      (m'.locks l).isMigrated = true := by
  cases hl : (m.locks l).isMigrated with
  | true =>
      refine ⟨m, ?_, h, Rehashed.refl m, hl⟩
      unfold rehashLock
      rw [hl, if_pos rfl]
  | false =>
      obtain ⟨old, hp⟩ := h.pending l hl
      have hcard := unmigrated_moved hash old hl hp.lt
      have hcore := h.toCore.moved hl hp
      have hre := moved_rehashed hl hp
      have hmig : ((m.moved hash l old).locks l).isMigrated = true := by
        unfold CuckooMap.moved
        rw [setMigrated_isMigrated, if_pos rfl]
      have hrem : (m.moved hash l old).numRemainingLazyRehashLocks = m.unmigrated.card :=
        h.remaining
      have hnum : m.unmigrated.card - 1 = (m.moved hash l old).unmigrated.card := by omega
      have hnone : m.unmigrated.card - 1 = 0 → (m.moved hash l old).unmigrated = ∅ :=
        fun h0 => Finset.card_eq_zero.1 (hnum ▸ h0)
      rw [rehashLock_eq hl hp, if_pos rfl]
      unfold decrementNumRemaining
      rw [if_neg (by omega), hrem]
      exact ⟨_, rfl, ⟨hcore.setNumRemaining hnone, hnum⟩,
        hre.trans (hcore.setNumRemaining_rehashed hnone), hmig⟩

theorem lockOne_spec (h : Inv hash m) (i : Nat) :
    ∃ m', m.lockOne hash i = .ok m' ∧ Inv hash m' ∧ Rehashed hash m m' ∧
      (m'.locks (lockInd i)).isMigrated = true := rehashLock_spec h (lockInd i)

/-- A list of locks taken one after the other. -/
theorem rehashLocks_spec (h : Inv hash m) (ls : List Nat) :
    ∃ m', ls.foldlM (fun m l => m.rehashLock hash true l) m = .ok m' ∧ Inv hash m' ∧
      Rehashed hash m m' ∧ ∀ l ∈ ls, (m'.locks l).isMigrated = true := by
  induction ls generalizing m with
  | nil => exact ⟨m, rfl, h, Rehashed.refl m, fun l hl => absurd hl List.not_mem_nil⟩
  | cons l ls ih =>
      obtain ⟨m₁, hok₁, hinv₁, hre₁, hmig₁⟩ := rehashLock_spec h l
      obtain ⟨m', hok, hinv, hre, hmig⟩ := ih hinv₁
      refine ⟨m', ?_, hinv, hre₁.trans hre, ?_⟩
      · rw [List.foldlM_cons, hok₁, ok_bind]
        exact hok
      · exact List.forall_mem_cons.2 ⟨hre.migrated l hmig₁, hmig⟩

variable (hash) in
theorem lockTwo_eq (i₁ i₂ : Nat) (m : CuckooMap K V) : ∃ l₁ l₂,
    m.lockTwo hash i₁ i₂ = [l₁, l₂].foldlM (fun m l => m.rehashLock hash true l) m ∧
      lockInd i₁ ∈ [l₁, l₂] ∧ lockInd i₂ ∈ [l₁, l₂] := by
  unfold lockTwo
  by_cases h : lockInd i₂ < lockInd i₁
  · refine ⟨lockInd i₂, lockInd i₁, ?_, by simp, by simp⟩
    simp only [if_pos h, List.foldlM_cons, List.foldlM_nil, bind_pure]
  · refine ⟨lockInd i₁, lockInd i₂, ?_, by simp, by simp⟩
    simp only [if_neg h, List.foldlM_cons, List.foldlM_nil, bind_pure]

/-- **Two locks.** -/
theorem lockTwo_spec (h : Inv hash m) (i₁ i₂ : Nat) :
    ∃ m', m.lockTwo hash i₁ i₂ = .ok m' ∧ Inv hash m' ∧ Rehashed hash m m' ∧
      (m'.locks (lockInd i₁)).isMigrated = true ∧ (m'.locks (lockInd i₂)).isMigrated = true := by
  obtain ⟨l₁, l₂, heq, h₁, h₂⟩ := lockTwo_eq hash i₁ i₂ m
  obtain ⟨m', hok, hinv, hre, hmig⟩ := rehashLocks_spec h [l₁, l₂]
  exact ⟨m', heq.trans hok, hinv, hre, hmig _ h₁, hmig _ h₂⟩

theorem mem_sortThree (a b c : Nat) : ∀ l ∈ [a, b, c],
    l ∈ [(sortThree (a, b, c)).1, (sortThree (a, b, c)).2.1, (sortThree (a, b, c)).2.2] := by
  intro l hl
  unfold sortThree
  simp only [List.mem_cons, List.not_mem_nil, or_false] at hl ⊢
  split_ifs <;> grind

/-- **Three locks.** -/
theorem lockThree_spec (h : Inv hash m) (i₁ i₂ i₃ : Nat) :
    ∃ m', m.lockThree hash i₁ i₂ i₃ = .ok m' ∧ Inv hash m' ∧ Rehashed hash m m' ∧
      (m'.locks (lockInd i₁)).isMigrated = true ∧ (m'.locks (lockInd i₂)).isMigrated = true ∧
      (m'.locks (lockInd i₃)).isMigrated = true := by
  have hmem := mem_sortThree (lockInd i₁) (lockInd i₂) (lockInd i₃)
  obtain ⟨m', hok, hinv, hre, hmig⟩ := rehashLocks_spec h
    [(sortThree (lockInd i₁, lockInd i₂, lockInd i₃)).1,
      (sortThree (lockInd i₁, lockInd i₂, lockInd i₃)).2.1,
      (sortThree (lockInd i₁, lockInd i₂, lockInd i₃)).2.2]
  refine ⟨m', ?_, hinv, hre, hmig _ (hmem _ (by simp)), hmig _ (hmem _ (by simp)),
    hmig _ (hmem _ (by simp))⟩
  unfold lockThree
  simp only [List.foldlM_cons, List.foldlM_nil, bind_pure] at hok
  exact hok

end CuckooMap

end ZoneBuffer.Cuckoo
