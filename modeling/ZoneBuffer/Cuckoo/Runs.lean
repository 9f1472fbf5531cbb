import ZoneBuffer.Cuckoo.Insert
import ZoneBuffer.Lib.Machine
import ZoneBuffer.Lib.PartialMap

set_option autoImplicit false

/-! # The table refines a finite map

Each operation has one lemma for what it does to a finite map with the same content, and
`run_refines` compares whole runs from the constructor on. The hash function may be any. What can
go wrong is one thing only: an `insert` for whose key there is no room, not even in a table of
twenty times as many slots as it has elements, throws `load_factor_too_low`. -/

namespace ZoneBuffer.Cuckoo

open Outcome Machine CuckooMap

variable {K V : Type} {hash : K → UInt64} {m m' : CuckooMap K V} {n : Nat}
  {t : PartialMap K V} {key : K}

/-! ## The map a table stands for -/

/-- The table is sound and holds the entries of `t`. -/
def Sim (hash : K → UInt64) (m : CuckooMap K V) (t : PartialMap K V) : Prop :=
  ∃ n, Sound hash m n ∧ ∀ k w, t k = some w ↔ m.Holds hash k w

theorem Sim.kept (h : Sim hash m t) (hinv : Inv hash m') (hk : Kept hash m m') :
    Sim hash m' t := by
  obtain ⟨n, hsound, hcontent⟩ := h
  exact ⟨n, hsound.kept hinv hk, fun k w => (hcontent k w).trans (hk.holds k w).symm⟩

theorem Sim.inv (h : Sim hash m t) : Inv hash m := by
  obtain ⟨n, hsound, -⟩ := h
  exact hsound.inv

/-- A new table is empty. -/
theorem sim_new (hash : K → UInt64) (n : Nat) : Sim hash (.new n : CuckooMap K V) .empty := by
  have hinv : Inv hash (.new n : CuckooMap K V) := by
    refine ⟨⟨?_, ?_, ?_, fun l hl => by cases hl⟩, ?_⟩
    · intro i j s hs
      cases hs
    · intro i j s i' j' s' hs
      cases hs
    · exact Nat.min_comm ..
    · exact (Finset.card_eq_zero.2 (Finset.filter_eq_empty_iff.2 fun l _ h => by cases h)).symm
  refine ⟨0, ⟨hinv, ⟨∅, fun k => ?_, rfl, Finset.sum_const_zero⟩, rfl, rfl⟩, fun k w => ?_⟩
  · constructor
    · intro h
      exact absurd h (Finset.notMem_empty k)
    · rintro ⟨w, i, j, s, hs, -⟩
      cases hs
  · constructor
    · intro h
      cases h
    · rintro ⟨i, j, s, hs, -⟩
      cases hs

/-- An operation on a key starts with the taking of locks and a search. -/
theorem Sim.taken (h : Sim hash m t) (key : K) :
    ∃ i₁ i₂ m', m.snapshotAndLockTwo hash (hashedKey hash key) = .ok (i₁, i₂, m') ∧ Sim hash m' t ∧
      Taken hash m' key i₁ i₂ := by
  obtain ⟨i₁, i₂, m', hok, hinv, hre, ht⟩ := snapshotAndLockTwo_spec h.inv key
  exact ⟨i₁, i₂, m', hok, h.kept hinv hre.kept, ht⟩

variable [DecidableEq K]

/-- What `cuckoo_find` finds in the map. -/
theorem Sim.cuckooFind (h : Sim hash m t) {i₁ i₂ : Nat} (ht : Taken hash m key i₁ i₂) :
    match m.cuckooFind key i₁ i₂ with
    | some pos => (pos.index = i₁ ∨ pos.index = i₂) ∧ ∃ s,
        m.view hash pos.index pos.slot = some s ∧ s.key = key ∧ t key = some s.mapped
    | none => t key = none := by
  obtain ⟨n, hsound, hcontent⟩ := h
  have hfind := cuckooFind_spec hsound.inv ht
  cases hpos : m.cuckooFind key i₁ i₂ with
  | some pos =>
      rw [hpos] at hfind
      obtain ⟨hindex, s, hs, hkey⟩ := hfind
      exact ⟨hindex, s, hs, hkey, (hcontent key s.mapped).2 ⟨_, _, s, hs, hkey, rfl⟩⟩
  | none =>
      rw [hpos] at hfind
      apply Option.eq_none_iff_forall_ne_some.2
      intro w hw
      exact hfind w ((hcontent key w).1 hw)

/-! ## The operations -/

/-- **`find(key, val)`.** -/
theorem find?_spec (h : Sim hash m t) (key : K) :
    ∃ m', m.find? hash key = .ok (t key, m') ∧ Sim hash m' t := by
  obtain ⟨i₁, i₂, m', hok, hsim, ht⟩ := h.taken key
  have hfind := hsim.cuckooFind ht
  refine ⟨m', ?_, hsim⟩
  unfold find?
  simp only [hok, ok_bind]
  cases hpos : m'.cuckooFind key i₁ i₂ with
  | some pos =>
      rw [hpos] at hfind
      obtain ⟨hindex, s, hs, -, hmapped⟩ := hfind
      rw [← ht.read hindex] at hs
      unfold mappedAt
      simp only [hs, ok_bind, hmapped]
  | none =>
      rw [hpos] at hfind
      simp only [hfind]

/-- **`find(key)`** throws where there is nothing to find. -/
theorem find_spec (h : Sim hash m t) (key : K) :
    match t key with
    | some v => ∃ m', m.find hash key = .ok (v, m')
    | none => m.find hash key = .error .outOfRange := by
  obtain ⟨i₁, i₂, m', hok, hsim, ht⟩ := h.taken key
  have hfind := hsim.cuckooFind ht
  unfold find
  simp only [hok, ok_bind]
  cases hpos : m'.cuckooFind key i₁ i₂ with
  | some pos =>
      rw [hpos] at hfind
      obtain ⟨hindex, s, hs, -, hmapped⟩ := hfind
      rw [← ht.read hindex] at hs
      refine hmapped ▸ ⟨m', ?_⟩
      unfold mappedAt
      simp only [hs, ok_bind]
  | none =>
      rw [hpos] at hfind
      simp only [hfind]

theorem addToBucket_spec (h : Sound hash m n) {i₁ i₂ : Nat} (ht : Taken hash m key i₁ i₂)
    {pos : Position} (hset : Settled hash m key i₁ i₂ (.ok pos)) (val : V) :
    ∃ m', m.addToBucket pos ⟨partialKey (hash key), key, val⟩ = .ok m' ∧ Sound hash m' (n + 1) ∧
      ∀ k w, m'.Holds hash k w ↔ m.Holds hash k w ∨ (k = key ∧ w = val) := by
  obtain ⟨hindex, hslot, hfree, habsent⟩ := hset
  have hbucket := ht.bucketOf_iff.2 hindex
  obtain ⟨hinv, hholds⟩ := fill_spec (s := ⟨partialKey (hash key), key, val⟩) h.inv
    (ht.migrated hindex) hfree hslot hbucket rfl habsent
  have hread : m.buckets.slot pos.index pos.slot = none := by
    rw [ht.read hindex]
    exact hfree
  refine ⟨(m.put pos.index pos.slot (some ⟨partialKey (hash key), key, val⟩)).addCounter 1
    (lockInd pos.index), ?_, ⟨hinv.addCounter 1 _, ?_, h.minimumLoadFactor, h.maximumHashpower⟩,
    fun k w => holds_addCounter.trans (hholds k w)⟩
  · unfold addToBucket
    rw [Buckets.setKV_eq hread]
    rfl
  · obtain ⟨keys, hkeys, hcard, hsum⟩ := h.counts
    have hnew : key ∉ keys := fun hmem => by
      obtain ⟨w, hw⟩ := (hkeys key).1 hmem
      exact habsent w hw
    refine ⟨insert key keys, fun k => ?_, by rw [Finset.card_insert_of_notMem hnew, hcard], ?_⟩
    · simp only [Finset.mem_insert, hkeys, holds_addCounter, hholds]
      constructor
      · rintro (rfl | ⟨w, hw⟩)
        · exact ⟨val, Or.inr ⟨rfl, rfl⟩⟩
        · exact ⟨w, Or.inl hw⟩
      · rintro ⟨w, hw | ⟨rfl, -⟩⟩
        · exact Or.inr ⟨w, hw⟩
        · exact Or.inl rfl
    · have hl := h.inv.lockInd_lt hbucket.lt
      refine (sum_addCounter (m := m.put pos.index pos.slot _) hl 1).trans ?_
      show ∑ l ∈ Finset.range m.numLocks, (m.locks l).elemCounter + 1 = _
      rw [hsum, Nat.cast_succ]

theorem assignAt_spec (h : Sound hash m n) {i₁ i₂ : Nat} (ht : Taken hash m key i₁ i₂)
    {pos : Position} (hset : Settled hash m key i₁ i₂ (.failureKeyDuplicated pos)) (f : V → V) :
    ∃ m' u, m.assignAt f pos = .ok m' ∧ m.Holds hash key u ∧ Sound hash m' n ∧
      ∀ k w, m'.Holds hash k w ↔ (m.Holds hash k w ∧ k ≠ key) ∨ (k = key ∧ w = f u) := by
  obtain ⟨hindex, s, hs, rfl⟩ := hset
  obtain ⟨hinv, hholds⟩ := assign_spec h.inv (ht.migrated hindex) hs (f s.mapped)
  refine ⟨_, s.mapped, ?_, ⟨_, _, s, hs, rfl, rfl⟩,
    ⟨hinv, ?_, h.minimumLoadFactor, h.maximumHashpower⟩, hholds⟩
  · unfold assignAt
    rw [ht.read hindex]
    simp only [hs]
    rfl
  · obtain ⟨keys, hkeys, hcard, hsum⟩ := h.counts
    refine ⟨keys, fun k => ?_, hcard, hsum⟩
    simp only [hkeys, hholds]
    constructor
    · rintro ⟨w, hw⟩
      by_cases hk : k = s.key
      · exact ⟨f s.mapped, Or.inr ⟨hk, rfl⟩⟩
      · exact ⟨w, Or.inl ⟨hw, hk⟩⟩
    · rintro ⟨w, ⟨hw, -⟩ | ⟨rfl, -⟩⟩
      · exact ⟨w, hw⟩
      · exact ⟨s.mapped, _, _, s, hs, rfl, rfl⟩

theorem delFromBucket_spec (h : Sound hash m n) {i₁ i₂ : Nat} (ht : Taken hash m key i₁ i₂)
    {pos : Position} (hset : Settled hash m key i₁ i₂ (.failureKeyDuplicated pos)) :
    ∃ m', m.delFromBucket pos = .ok m' ∧ Sound hash m' (n - 1) ∧
      ∀ k w, m'.Holds hash k w ↔ m.Holds hash k w ∧ k ≠ key := by
  obtain ⟨hindex, s, hs, rfl⟩ := hset
  obtain ⟨hinv, hholds⟩ := clear_spec h.inv (ht.migrated hindex) hs
  have hread : m.buckets.slot pos.index pos.slot = some s := by
    rw [ht.read hindex]
    exact hs
  refine ⟨(m.put pos.index pos.slot none).addCounter (-1) (lockInd pos.index), ?_,
    ⟨hinv.addCounter (-1) _, ?_, h.minimumLoadFactor, h.maximumHashpower⟩,
    fun k w => holds_addCounter.trans (hholds k w)⟩
  · unfold delFromBucket
    rw [Buckets.eraseKV_eq hread]
    rfl
  · obtain ⟨keys, hkeys, hcard, hsum⟩ := h.counts
    have hmem : s.key ∈ keys := (hkeys s.key).2 ⟨s.mapped, _, _, s, hs, rfl, rfl⟩
    refine ⟨keys.erase s.key, fun k => ?_, by rw [Finset.card_erase_of_mem hmem, hcard], ?_⟩
    · simp only [Finset.mem_erase, hkeys, holds_addCounter, hholds]
      constructor
      · rintro ⟨hne, w, hw⟩
        exact ⟨w, hw, hne⟩
      · rintro ⟨w, hw, hne⟩
        exact ⟨hne, w, hw⟩
    · have hl := h.inv.lockInd_lt (h.inv.placed _ _ s hs).2.1.lt
      have hpos : 0 < n := hcard ▸ Finset.card_pos.2 ⟨_, hmem⟩
      refine (sum_addCounter (m := m.put pos.index pos.slot none) hl (-1)).trans ?_
      show ∑ l ∈ Finset.range m.numLocks, (m.locks l).elemCounter + -1 = _
      rw [hsum]
      omega

/-- **`upsert`.** -/
theorem upsert_spec (h : Sim hash m t) (key : K) (f : V → V) (val : V) :
    Yields (m.upsert hash key f val) (· = .loadFactorTooLow) fun r =>
      r.1 = (t key).isNone ∧ Sim hash r.2 (t.insertOrAssign key ((t key).elim val f)) := by
  obtain ⟨i₁, i₂, m₁, hok, hsim, ht⟩ := h.taken key
  obtain ⟨n, hsound, hcontent⟩ := hsim
  unfold upsert rounds
  simp only [hok, ok_bind, hsound.counts.size]
  refine (cuckooInsertLoop_spec (n + 4) hsound ht (by omega) (by omega)).bind ?_
  rintro ⟨status, m₂⟩ ⟨hsound₂, hholds₂, hne, i₁', i₂', ht₂, hset⟩
  cases status with
  | failureTableFull => exact absurd rfl hne
  | ok pos =>
      obtain ⟨m', hadd, hsound', hholds'⟩ := addToBucket_spec hsound₂ ht₂ hset val
      have hnone : t key = none := by
        apply Option.eq_none_iff_forall_ne_some.2
        intro w hw
        exact hset.2.2.2 w ((hholds₂ key w).2 ((hcontent key w).1 hw))
      have hkey : (hashedKey hash key).partialKey = partialKey (hash key) := rfl
      simp only [hkey, hadd, ok_bind]
      refine ⟨by rw [hnone]; rfl, n + 1, hsound', fun k w => ?_⟩
      rw [hnone, PartialMap.insertOrAssign_eq_some, hholds', hholds₂, ← hcontent]
      constructor
      · rintro (⟨rfl, rfl⟩ | ⟨-, hw⟩)
        · exact Or.inr ⟨rfl, rfl⟩
        · exact Or.inl hw
      · rintro (hw | ⟨rfl, rfl⟩)
        · refine Or.inr ⟨fun hk => ?_, hw⟩
          rw [hk, hnone] at hw
          cases hw
        · exact Or.inl ⟨rfl, rfl⟩
  | failureKeyDuplicated pos =>
      obtain ⟨m', u, hassign, hu, hsound', hholds'⟩ := assignAt_spec hsound₂ ht₂ hset f
      have hsome : t key = some u := (hcontent key u).2 ((hholds₂ key u).1 hu)
      simp only [hassign, ok_bind]
      refine ⟨by rw [hsome]; rfl, n, hsound', fun k w => ?_⟩
      rw [hsome, PartialMap.insertOrAssign_eq_some, hholds', hholds₂, ← hcontent]
      constructor
      · rintro (⟨rfl, rfl⟩ | ⟨hk, hw⟩)
        · exact Or.inr ⟨rfl, rfl⟩
        · exact Or.inl ⟨hw, hk⟩
      · rintro (⟨hw, hk⟩ | ⟨rfl, rfl⟩)
        · exact Or.inr ⟨hk, hw⟩
        · exact Or.inl ⟨rfl, rfl⟩

/-- **`insert`** leaves a key that is there alone. -/
theorem insert_spec (h : Sim hash m t) (key : K) (val : V) :
    Yields (m.insert hash key val) (· = .loadFactorTooLow) fun r =>
      r.1 = (t key).isNone ∧ Sim hash r.2 (t.insert key val) := by
  refine (upsert_spec h key (fun v => v) val).imp ?_
  rintro ⟨b, m'⟩ ⟨hb, hsim⟩
  refine ⟨hb, ?_⟩
  have hsame : t.insert key val = t.insertOrAssign key ((t key).elim val fun v => v) := by
    unfold PartialMap.insert
    cases ht : t key with
    | none => rfl
    | some u =>
        funext k
        rw [PartialMap.insertOrAssign_apply]
        split
        case isTrue hk =>
          rw [hk]
          exact ht
        case isFalse => rfl
  rw [hsame]
  exact hsim

/-- **`insert_or_assign`.** -/
theorem insertOrAssign_spec (h : Sim hash m t) (key : K) (val : V) :
    Yields (m.insertOrAssign hash key val) (· = .loadFactorTooLow) fun r =>
      r.1 = (t key).isNone ∧ Sim hash r.2 (t.insertOrAssign key val) := by
  refine (upsert_spec h key (fun _ => val) val).imp ?_
  rintro ⟨b, m'⟩ ⟨hb, hsim⟩
  refine ⟨hb, ?_⟩
  have hval : (t key).elim val (fun _ => val) = val := by
    cases t key <;> rfl
  rw [hval] at hsim
  exact hsim

/-- **`erase`.** -/
theorem erase_spec (h : Sim hash m t) (key : K) :
    ∃ m', m.erase hash key = .ok ((t key).isSome, m') ∧ Sim hash m' (t.erase key) := by
  obtain ⟨i₁, i₂, m₁, hok, hsim, ht⟩ := h.taken key
  have hfind := hsim.cuckooFind ht
  obtain ⟨n, hsound, hcontent⟩ := hsim
  unfold CuckooMap.erase
  simp only [hok, ok_bind]
  cases hpos : m₁.cuckooFind key i₁ i₂ with
  | some pos =>
      rw [hpos] at hfind
      obtain ⟨hindex, s, hs, hkey, hmapped⟩ := hfind
      obtain ⟨m', hdel, hsound', hholds'⟩ := delFromBucket_spec hsound ht
        (show Settled hash m₁ key i₁ i₂ (.failureKeyDuplicated pos) from ⟨hindex, s, hs, hkey⟩)
      refine ⟨m', by simp only [hdel, ok_bind, hmapped, Option.isSome_some], n - 1, hsound',
        fun k w => ?_⟩
      rw [PartialMap.erase_eq_some, hholds', hcontent, and_comm]
  | none =>
      rw [hpos] at hfind
      refine ⟨m₁, by rw [hfind]; rfl, n, hsound, fun k w => ?_⟩
      rw [PartialMap.erase_eq_some, ← hcontent]
      constructor
      · exact fun h => h.2
      · refine fun hw => ⟨fun hk => ?_, hw⟩
        rw [hk, hfind] at hw
        cases hw

/-! ## Runs -/

inductive Call (K V : Type) where
  | find (key : K)
  | insert (key : K) (val : V)
  | insertOrAssign (key : K) (val : V)
  | erase (key : K)

/-- A call, its answer being dropped. -/
def step (hash : K → UInt64) : Call K V → CuckooMap K V → Except Stop (CuckooMap K V)
  | .find key, m => Prod.snd <$> m.find? hash key
  | .insert key val, m => Prod.snd <$> m.insert hash key val
  | .insertOrAssign key val, m => Prod.snd <$> m.insertOrAssign hash key val
  | .erase key, m => Prod.snd <$> m.erase hash key

/-- What a call does to the map. -/
def mapStep : Call K V → PartialMap K V → PartialMap K V
  | .find _, t => t
  | .insert key val, t => t.insert key val
  | .insertOrAssign key val, t => t.insertOrAssign key val
  | .erase key, t => t.erase key

/-- What each call answers in a table that stands for `t`. -/
structure Refines (hash : K → UInt64) (m : CuckooMap K V) (t : PartialMap K V) : Prop where
  find? : ∀ k, ∃ m', m.find? hash k = .ok (t k, m')
  find_some : ∀ k v, t k = some v → ∃ m', m.find hash k = .ok (v, m')
  find_none : ∀ k, t k = none → m.find hash k = .error .outOfRange
  insert : ∀ k v, m.insert hash k v = .error .loadFactorTooLow ∨
    ∃ m', m.insert hash k v = .ok ((t k).isNone, m')
  insertOrAssign : ∀ k v, m.insertOrAssign hash k v = .error .loadFactorTooLow ∨
    ∃ m', m.insertOrAssign hash k v = .ok ((t k).isNone, m')
  erase : ∀ k, ∃ m', m.erase hash k = .ok ((t k).isSome, m')
  size : ∃ keys : Finset K, (∀ k, k ∈ keys ↔ t k ≠ none) ∧ m.size = .ok keys.card

omit [DecidableEq K] in
/-- An answer that is yielded is the answer given. -/
theorem answer_of_yields {x : Except Stop (Bool × CuckooMap K V)} {b : Bool}
    {Q : CuckooMap K V → Prop} (h : Yields x (· = .loadFactorTooLow) fun r => r.1 = b ∧ Q r.2) :
    x = .error .loadFactorTooLow ∨ ∃ m', x = .ok (b, m') := by
  rcases h.ok_or_error with ⟨⟨b', m'⟩, rfl, rfl, -⟩ | ⟨e, rfl, rfl⟩
  · exact Or.inr ⟨m', rfl⟩
  · exact Or.inl rfl

theorem Sim.refines (h : Sim hash m t) : Refines hash m t where
  find? k := by
    obtain ⟨m', hok, -⟩ := find?_spec h k
    exact ⟨m', hok⟩
  find_some k v hk := by
    have hfind := find_spec h k
    rw [hk] at hfind
    exact hfind
  find_none k hk := by
    have hfind := find_spec h k
    rw [hk] at hfind
    exact hfind
  insert k v := answer_of_yields (Q := (Sim hash · (t.insert k v))) (insert_spec h k v)
  insertOrAssign k v :=
    answer_of_yields (Q := (Sim hash · (t.insertOrAssign k v))) (insertOrAssign_spec h k v)
  erase k := by
    obtain ⟨m', hok, -⟩ := erase_spec h k
    exact ⟨m', hok⟩
  size := by
    obtain ⟨n, hsound, hcontent⟩ := h
    have hsize := hsound.counts.size
    obtain ⟨keys, hkeys, hcard, -⟩ := hsound.counts
    refine ⟨keys, fun k => ?_, by rw [hcard]; exact hsize⟩
    rw [hkeys, Option.ne_none_iff_exists']
    exact exists_congr fun w => (hcontent k w).symm

/-- **What one call does.** -/
theorem step_spec (h : Sim hash m t) (call : Call K V) :
    Yields (step hash call m) (· = .loadFactorTooLow) fun m' => Sim hash m' (mapStep call t) := by
  cases call with
  | find key =>
      obtain ⟨m', hok, hsim⟩ := find?_spec h key
      show Yields (Prod.snd <$> m.find? hash key) _ _
      rw [hok]
      exact hsim
  | insert key val =>
      exact (insert_spec h key val).bind fun r hr => hr.2
  | insertOrAssign key val =>
      exact (insertOrAssign_spec h key val).bind fun r hr => hr.2
  | erase key =>
      obtain ⟨m', hok, hsim⟩ := erase_spec h key
      show Yields (Prod.snd <$> m.erase hash key) _ _
      rw [hok]
      exact hsim

theorem run_sim (hash : K → UInt64) (n : Nat) (calls : List (Call K V)) :
    Yields (run (step hash) calls (.new n)) (· = .loadFactorTooLow)
      fun m => Sim hash m (specRun mapStep calls .empty) :=
  run_yields (Sim hash) (fun _ _ call h _ => step_spec h call) calls _ _ (sim_new hash n)
    (legal_true mapStep calls .empty)

/-- **The table refines a finite map**, whatever the hash function and the size it starts with. -/
theorem run_refines_map (hash : K → UInt64) (n : Nat) (calls : List (Call K V)) :
    Yields (run (step hash) calls (.new n)) (· = .loadFactorTooLow)
      fun m => Refines hash m (specRun mapStep calls .empty) :=
  (run_sim hash n calls).imp fun _ h => h.refines

end ZoneBuffer.Cuckoo
