import ZoneBuffer.Cuckoo.View
import Mathlib.Algebra.BigOperators.Group.Finset.Piecewise

set_option autoImplicit false

/-! # What the table holds

A table holds a value under a key if a slot of the view does (`Holds`). Only two changes are ever
made to a slot: it is cleared or, being empty, filled. What either does to the content is
`clear_spec` and `fill_spec`; a key that moves and a value assigned to are a clearing and a
filling. The count of elements is right as a sum over all locks only (`Counts`), for a key that
moves to a bucket of another lock is not counted anew. -/

namespace ZoneBuffer.Cuckoo.CuckooMap

open Outcome

variable {K V : Type} {hash : K → UInt64} {m m' m'' : CuckooMap K V} {i j : Nat} {k : K} {w : V}
  {s t : Slot K V} {o : Option (Slot K V)}

/-- The table holds value `w` under key `k`. -/
def Holds (hash : K → UInt64) (m : CuckooMap K V) (k : K) (w : V) : Prop :=
  ∃ i j s, m.view hash i j = some s ∧ s.key = k ∧ s.mapped = w

theorem Core.holds_unique (h : Core hash m) {w' : V} (hw : m.Holds hash k w)
    (hw' : m.Holds hash k w') : w = w' := by
  obtain ⟨i, j, s, hs, hk, rfl⟩ := hw
  obtain ⟨i', j', s', hs', hk', rfl⟩ := hw'
  obtain ⟨rfl, rfl⟩ := h.unique i j s i' j' s' hs hs' (hk.trans hk'.symm)
  rw [hs] at hs'
  cases hs'
  rfl

/-- The content and all else that operations read is as it was. -/
structure Kept (hash : K → UInt64) (m m' : CuckooMap K V) : Prop where
  holds : ∀ k w, m'.Holds hash k w ↔ m.Holds hash k w
  hashpower : m'.hashpower = m.hashpower
  numLocks : m'.numLocks = m.numLocks
  counter : ∀ l, (m'.locks l).elemCounter = (m.locks l).elemCounter
  migrated : ∀ l, (m.locks l).isMigrated = true → (m'.locks l).isMigrated = true
  minimumLoadFactor : m'.minimumLoadFactor = m.minimumLoadFactor
  maximumHashpower : m'.maximumHashpower = m.maximumHashpower

theorem Kept.trans (h : Kept hash m m') (h' : Kept hash m' m'') : Kept hash m m'' :=
  ⟨fun k w => (h'.holds k w).trans (h.holds k w), h'.hashpower.trans h.hashpower,
    h'.numLocks.trans h.numLocks, fun l => (h'.counter l).trans (h.counter l),
    fun l hl => h'.migrated l (h.migrated l hl),
    h'.minimumLoadFactor.trans h.minimumLoadFactor, h'.maximumHashpower.trans h.maximumHashpower⟩

theorem Rehashed.holds (h : Rehashed hash m m') : m'.Holds hash k w ↔ m.Holds hash k w := by
  unfold Holds
  rw [h.view]

theorem Rehashed.kept (h : Rehashed hash m m') : Kept hash m m' :=
  ⟨fun _ _ => h.holds, h.hashpower, h.numLocks, h.counter, h.migrated, h.minimumLoadFactor,
    h.maximumHashpower⟩

/-! ## Changing a slot -/

/-- The table with slot `j` of bucket `i` changed. -/
def put (m : CuckooMap K V) (i j : Nat) (o : Option (Slot K V)) : CuckooMap K V :=
  { m with buckets := m.buckets.set i j o }

theorem put_slot (m : CuckooMap K V) (i j : Nat) (o : Option (Slot K V)) (i' j' : Nat) :
    (m.put i j o).buckets.slot i' j' = if i' = i ∧ j' = j then o else m.buckets.slot i' j' := rfl

theorem put_put (m : CuckooMap K V) (i j : Nat) (o o' : Option (Slot K V)) :
    (m.put i j o).put i j o' = m.put i j o' := by
  unfold put Buckets.set
  congr 2
  funext i' j'
  by_cases h : i' = i ∧ j' = j
  · simp [h]
  · simp [h]

/-- Changes to two slots may be made in either order. -/
theorem put_comm {i' j' : Nat} (hne : ¬ (i' = i ∧ j' = j)) (o o' : Option (Slot K V)) :
    (m.put i j o).put i' j' o' = (m.put i' j' o').put i j o := by
  unfold put Buckets.set
  congr 2
  funext a b
  by_cases h : a = i ∧ b = j
  · obtain ⟨rfl, rfl⟩ := h
    have hne' : ¬ (a = i' ∧ b = j') := fun h => hne ⟨h.1.symm, h.2.symm⟩
    simp [hne']
  · simp [h]

theorem view_put (hmig : (m.locks (lockInd i)).isMigrated = true) (o : Option (Slot K V))
    (i' j' : Nat) :
    (m.put i j o).view hash i' j' = if i' = i ∧ j' = j then o else m.view hash i' j' := by
  unfold view
  rw [put_slot]
  by_cases h : i' = i
  · have hmig' : ((m.put i j o).locks (lockInd i')).isMigrated = true := by
      rw [h]
      exact hmig
    rw [if_pos hmig', h, if_pos hmig]
  · have hne : ¬ (i' = i ∧ j' = j) := fun h' => h h'.1
    simp only [if_neg hne]
    rfl

/-- The invariant is kept if the slot is changed to nothing or to a key that belongs there and is
nowhere else. -/
theorem Inv.put (h : Inv hash m) (hmig : (m.locks (lockInd i)).isMigrated = true)
    (hplaced : ∀ s, o = some s → j < SLOT_PER_BUCKET ∧ BucketOf hash m.hashpower s.key i ∧
      s.partialKey = partialKey (hash s.key))
    (hfresh : ∀ s, o = some s → ∀ i' j' s', m.view hash i' j' = some s' → s'.key = s.key →
      i' = i ∧ j' = j) : Inv hash (m.put i j o) where
  placed i' j' s hs := by
    rw [view_put hmig] at hs
    split at hs
    case isTrue heq =>
      rw [heq.1, heq.2]
      exact hplaced s hs
    case isFalse => exact h.placed i' j' s hs
  unique i₁ j₁ s₁ i₂ j₂ s₂ h₁ h₂ hkey := by
    rw [view_put hmig] at h₁ h₂
    split at h₁ <;> split at h₂
    case isTrue.isTrue heq₁ heq₂ => exact ⟨heq₁.1.trans heq₂.1.symm, heq₁.2.trans heq₂.2.symm⟩
    case isTrue.isFalse heq₁ hne => exact absurd (hfresh s₁ h₁ i₂ j₂ s₂ h₂ hkey.symm) hne
    case isFalse.isTrue hne heq₂ => exact absurd (hfresh s₂ h₂ i₁ j₁ s₁ h₁ hkey) hne
    case isFalse.isFalse => exact h.unique i₁ j₁ s₁ i₂ j₂ s₂ h₁ h₂ hkey
  numLocks := h.numLocks
  pending l hl := by
    obtain ⟨old, hp⟩ := h.pending l hl
    refine ⟨old, hp.lt, hp.oldBuckets, hp.can, hp.placed, fun i' j' hi' => ?_⟩
    -- the bucket that changes has another lock, for that one is migrated
    have hne : ¬ (i' = i ∧ j' = j) := by
      rintro ⟨rfl, rfl⟩
      rw [hi'] at hmig
      exact absurd (hmig.symm.trans hl) (by simp)
    rw [put_slot, if_neg hne]
    exact hp.empty i' j' hi'
  remaining := h.remaining

/-- **A slot is cleared.** -/
theorem clear_spec (h : Inv hash m) (hmig : (m.locks (lockInd i)).isMigrated = true)
    (hs : m.view hash i j = some s) : Inv hash (m.put i j none) ∧
      ∀ k w, (m.put i j none).Holds hash k w ↔ m.Holds hash k w ∧ k ≠ s.key := by
  refine ⟨h.put hmig (fun s hs => by cases hs) (fun s hs => by cases hs), fun k w => ?_⟩
  unfold Holds
  simp only [view_put hmig]
  constructor
  · rintro ⟨i', j', s', hs', rfl, rfl⟩
    split at hs'
    case isTrue => cases hs'
    case isFalse hne =>
      exact ⟨⟨i', j', s', hs', rfl, rfl⟩, fun hkey => hne (h.unique i' j' s' i j s hs' hs hkey)⟩
  · rintro ⟨⟨i', j', s', hs', rfl, rfl⟩, hne⟩
    refine ⟨i', j', s', ?_, rfl, rfl⟩
    rw [if_neg]
    · exact hs'
    · rintro ⟨rfl, rfl⟩
      rw [hs] at hs'
      cases hs'
      exact hne rfl

/-- **An empty slot is filled.** -/
theorem fill_spec (h : Inv hash m) (hmig : (m.locks (lockInd i)).isMigrated = true)
    (hfree : m.view hash i j = none) (hj : j < SLOT_PER_BUCKET)
    (hb : BucketOf hash m.hashpower s.key i) (hp : s.partialKey = partialKey (hash s.key))
    (habsent : ∀ w, ¬ m.Holds hash s.key w) : Inv hash (m.put i j (some s)) ∧
      ∀ k w, (m.put i j (some s)).Holds hash k w
        ↔ m.Holds hash k w ∨ (k = s.key ∧ w = s.mapped) := by
  refine ⟨h.put hmig (fun t ht => ?_) (fun t ht i' j' s' hs' hkey => ?_), fun k w => ?_⟩
  · cases ht
    exact ⟨hj, hb, hp⟩
  · cases ht
    exact absurd ⟨i', j', s', hs', hkey, rfl⟩ (habsent s'.mapped)
  · unfold Holds
    simp only [view_put hmig]
    constructor
    · rintro ⟨i', j', s', hs', rfl, rfl⟩
      split at hs'
      case isTrue =>
        cases hs'
        exact Or.inr ⟨rfl, rfl⟩
      case isFalse => exact Or.inl ⟨i', j', s', hs', rfl, rfl⟩
    · rintro (⟨i', j', s', hs', rfl, rfl⟩ | ⟨rfl, rfl⟩)
      · refine ⟨i', j', s', ?_, rfl, rfl⟩
        rw [if_neg]
        · exact hs'
        · rintro ⟨rfl, rfl⟩
          rw [hfree] at hs'
          cases hs'
      · exact ⟨i, j, s, if_pos ⟨rfl, rfl⟩, rfl, rfl⟩

/-- **An occupied slot is put into an empty one**, in a bucket that its key may be in. -/
theorem move_spec (h : Inv hash m) {i' j' : Nat} (hmig : (m.locks (lockInd i)).isMigrated = true)
    (hmig' : (m.locks (lockInd i')).isMigrated = true) (hs : m.view hash i j = some s)
    (hfree : m.view hash i' j' = none) (hj : j' < SLOT_PER_BUCKET)
    (hb : BucketOf hash m.hashpower s.key i') :
    Inv hash ((m.put i' j' (some s)).put i j none) ∧
      Kept hash m ((m.put i' j' (some s)).put i j none) := by
  have hne : ¬ (i = i' ∧ j = j') := by
    rintro ⟨rfl, rfl⟩
    rw [hs] at hfree
    cases hfree
  obtain ⟨hinv, hholds⟩ := clear_spec h hmig hs
  have hfree' : (m.put i j none).view hash i' j' = none := by
    rw [view_put hmig, if_neg fun heq => hne ⟨heq.1.symm, heq.2.symm⟩]
    exact hfree
  obtain ⟨hinv', hholds'⟩ := fill_spec hinv hmig' hfree' hj hb (h.placed i j s hs).2.2
    fun w hw => ((hholds _ w).1 hw).2 rfl
  rw [put_comm hne]
  refine ⟨hinv', fun k w => ?_, rfl, rfl, fun _ => rfl, fun _ hl => hl, rfl, rfl⟩
  rw [hholds' k w, hholds k w]
  constructor
  · rintro (⟨hw, -⟩ | ⟨rfl, rfl⟩)
    · exact hw
    · exact ⟨i, j, s, hs, rfl, rfl⟩
  · intro hw
    by_cases hk : k = s.key
    · subst hk
      exact Or.inr ⟨rfl, h.holds_unique hw ⟨i, j, s, hs, rfl, rfl⟩⟩
    · exact Or.inl ⟨hw, hk⟩

/-- **The value in a slot is assigned to.** -/
theorem assign_spec (h : Inv hash m) (hmig : (m.locks (lockInd i)).isMigrated = true)
    (hs : m.view hash i j = some s) (w : V) :
    Inv hash (m.put i j (some { s with mapped := w })) ∧ ∀ k w',
      (m.put i j (some { s with mapped := w })).Holds hash k w'
        ↔ (m.Holds hash k w' ∧ k ≠ s.key) ∨ (k = s.key ∧ w' = w) := by
  obtain ⟨hj, hb, hp⟩ := h.placed i j s hs
  obtain ⟨hinv, hholds⟩ := clear_spec h hmig hs
  have hfree : (m.put i j none).view hash i j = none := by
    rw [view_put hmig, if_pos ⟨rfl, rfl⟩]
  obtain ⟨hinv', hholds'⟩ := fill_spec (s := { s with mapped := w }) hinv hmig hfree hj hb hp
    fun w' hw => ((hholds _ w').1 hw).2 rfl
  rw [put_put] at hinv' hholds'
  refine ⟨hinv', fun k w' => ?_⟩
  rw [hholds', hholds]

/-! ## Counting -/

/-- The counts add up to the number `n` of keys. -/
def Counts (hash : K → UInt64) (m : CuckooMap K V) (n : Nat) : Prop :=
  ∃ keys : Finset K, (∀ k, k ∈ keys ↔ ∃ w, m.Holds hash k w) ∧ keys.card = n ∧
    ∑ l ∈ Finset.range m.numLocks, (m.locks l).elemCounter = n

theorem Counts.size {n : Nat} (h : Counts hash m n) : m.size = .ok n := by
  obtain ⟨keys, -, -, hsum⟩ := h
  unfold CuckooMap.size
  rw [hsum]
  simp

theorem Kept.counts {n : Nat} (h : Kept hash m m') (hc : Counts hash m n) : Counts hash m' n := by
  obtain ⟨keys, hkeys, hcard, hsum⟩ := hc
  refine ⟨keys, fun k => ?_, hcard, ?_⟩
  · rw [hkeys]
    exact exists_congr fun w => (h.holds k w).symm
  · rw [h.numLocks, ← hsum]
    exact Finset.sum_congr rfl fun l _ => h.counter l

theorem addCounter_elemCounter (d : Int) (l l' : Nat) (m : CuckooMap K V) :
    ((m.addCounter d l).locks l').elemCounter
      = (m.locks l').elemCounter + if l' = l then d else 0 := by
  have h : (m.addCounter d l).locks l' = if l' = l then
      { m.locks l with elemCounter := (m.locks l).elemCounter + d } else m.locks l' :=
    Function.update_apply ..
  rw [h]
  split
  case isTrue hl => rw [hl]
  case isFalse => exact (Int.add_zero _).symm

theorem addCounter_isMigrated (d : Int) (l l' : Nat) (m : CuckooMap K V) :
    ((m.addCounter d l).locks l').isMigrated = (m.locks l').isMigrated := by
  have h : (m.addCounter d l).locks l' = if l' = l then
      { m.locks l with elemCounter := (m.locks l).elemCounter + d } else m.locks l' :=
    Function.update_apply ..
  rw [h]
  split
  case isTrue hl => rw [hl]
  case isFalse => rfl

theorem view_addCounter (d : Int) (l : Nat) (m : CuckooMap K V) :
    (m.addCounter d l).view hash = m.view hash := by
  funext i j
  unfold view
  rw [addCounter_isMigrated]
  rfl

theorem holds_addCounter {d : Int} {l : Nat} :
    (m.addCounter d l).Holds hash k w ↔ m.Holds hash k w := by
  unfold Holds
  rw [view_addCounter]

theorem Inv.addCounter (h : Inv hash m) (d : Int) (l : Nat) : Inv hash (m.addCounter d l) where
  placed := by
    rw [view_addCounter]
    exact h.placed
  unique := by
    rw [view_addCounter]
    exact h.unique
  numLocks := h.numLocks
  pending l' hl' := by
    rw [addCounter_isMigrated] at hl'
    obtain ⟨old, hp⟩ := h.pending l' hl'
    exact ⟨old, hp.lt, hp.oldBuckets, hp.can, hp.placed, hp.empty⟩
  remaining := by
    have hsame : (m.addCounter d l).unmigrated = m.unmigrated := by
      unfold unmigrated
      simp only [addCounter_isMigrated]
      rfl
    rw [hsame]
    exact h.remaining

/-- The lock of a bucket is one of those in use. -/
theorem Core.lockInd_lt (h : Core hash m) (hi : i < hashsize m.hashpower) :
    lockInd i < m.numLocks := by
  rw [h.numLocks]
  refine Nat.lt_min.2 ⟨Cuckoo.lockInd_lt i, ?_⟩
  rw [lockInd_eq]
  exact Nat.lt_of_le_of_lt (Nat.mod_le ..) hi

theorem sum_addCounter {l : Nat} (hl : l < m.numLocks) (d : Int) :
    ∑ l' ∈ Finset.range (m.addCounter d l).numLocks, ((m.addCounter d l).locks l').elemCounter
      = ∑ l' ∈ Finset.range m.numLocks, (m.locks l').elemCounter + d := by
  show ∑ l' ∈ Finset.range m.numLocks, _ = _
  simp only [addCounter_elemCounter, Finset.sum_add_distrib, Finset.sum_ite_eq',
    Finset.mem_range, if_pos hl]

end ZoneBuffer.Cuckoo.CuckooMap
