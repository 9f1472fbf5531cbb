import ZoneBuffer.Cuckoo.Content
import Mathlib.Data.Rat.Floor

set_option autoImplicit false

/-! # Doubling the table

`cuckoo_fast_double` first moves whatever an earlier doubling has left to move. Then it moves all
buckets of a small table at once (`doubleNow_spec`), and of a table as large as the lock array none
(`doubleLater_spec`). In the view the two end in the same table: the spread of the old one. -/

namespace ZoneBuffer.Cuckoo

open Outcome CuckooMap

variable {K V : Type} {hash : K → UInt64} {m m' : CuckooMap K V} {n : Nat}

/-! ## Moving what is left -/

theorem rehashNow_spec (h : Core hash m) (l : Nat) :
    ∃ m', m.rehashLock hash false l = .ok m' ∧ Core hash m' ∧ Rehashed hash m m' ∧
      (m'.locks l).isMigrated = true := by
  cases hl : (m.locks l).isMigrated with
  | true =>
      refine ⟨m, ?_, h, Rehashed.refl m, hl⟩
      unfold rehashLock
      rw [hl, if_pos rfl]
  | false =>
      obtain ⟨old, hp⟩ := h.pending l hl
      refine ⟨m.moved hash l old, ?_, h.moved hl hp, moved_rehashed hl hp, ?_⟩
      · rw [rehashLock_eq hl hp]
        rfl
      · unfold moved
        rw [setMigrated_isMigrated, if_pos rfl]

/-- **All locks taken one after the other.** -/
theorem rehashAll_spec (h : Core hash m) :
    ∃ m', (List.range m.numLocks).foldlM (fun m l => m.rehashLock hash false l) m = .ok m' ∧
      Core hash m' ∧ Rehashed hash m m' ∧ ∀ l, (m'.locks l).isMigrated = true := by
  have hloop : Yields ((List.range m.numLocks).foldlM (fun m l => m.rehashLock hash false l) m)
      (fun _ => False) fun m' => Core hash m' ∧ Rehashed hash m m' ∧
        ∀ l ∈ List.range m.numLocks, (m'.locks l).isMigrated = true := by
    refine Yields.foldlM_upto (fun done m' => Core hash m' ∧ Rehashed hash m m' ∧
      ∀ l ∈ done, (m'.locks l).isMigrated = true) _ _ ⟨h, Rehashed.refl m, by simp⟩ ?_
    rintro done l todo m₁ - ⟨hcore, hre, hdone⟩
    obtain ⟨m₂, hok, hcore', hre', hmig⟩ := rehashNow_spec hcore l
    rw [hok]
    refine ⟨hcore', hre.trans hre', fun l' hl' => ?_⟩
    rcases List.mem_append.1 hl' with hl' | hl'
    · exact hre'.migrated l' (hdone l' hl')
    · rw [List.mem_singleton.1 hl']
      exact hmig
  obtain ⟨m', hok, hcore, hre, hmig⟩ := hloop.exists_ok
  refine ⟨m', hok, hcore, hre, hcore.all_migrated ?_⟩
  apply Finset.filter_eq_empty_iff.2
  intro l hl
  rw [hre.numLocks] at hl
  rw [hmig l (List.mem_range.2 (Finset.mem_range.1 hl))]
  simp

/-! ## More locks -/

theorem maybeResizeLocks_migrated (h : ∀ l, (m.locks l).isMigrated = true) (c l : Nat) :
    ((m.maybeResizeLocks c).locks l).isMigrated = true := by
  unfold maybeResizeLocks
  split
  · show (if l < m.numLocks then m.locks l else ⟨0, true⟩).isMigrated = true
    split
    · exact h l
    · rfl
  · exact h l

theorem maybeResizeLocks_numLocks {hp : Nat}
    (h : m.numLocks = min kMaxNumLocks (hashsize hp)) :
    (m.maybeResizeLocks (hashsize (hp + 1))).numLocks
      = min kMaxNumLocks (hashsize (hp + 1)) := by
  have hpos := hashsize_pos hp
  rw [hashsize_succ]
  unfold maybeResizeLocks
  split
  · rfl
  · show m.numLocks = _
    omega

/-- The new locks count nothing. -/
theorem maybeResizeLocks_sum (m : CuckooMap K V) (c : Nat) :
    ∑ l ∈ Finset.range (m.maybeResizeLocks c).numLocks,
        ((m.maybeResizeLocks c).locks l).elemCounter
      = ∑ l ∈ Finset.range m.numLocks, (m.locks l).elemCounter := by
  unfold maybeResizeLocks
  split
  case isTrue hgrow =>
    show ∑ l ∈ Finset.range (min kMaxNumLocks c),
      (if l < m.numLocks then m.locks l else ⟨0, true⟩ : Spinlock).elemCounter = _
    have hle : m.numLocks ≤ min kMaxNumLocks c := by omega
    rw [← Finset.sum_subset (Finset.range_subset_range.2 hle)]
    · exact Finset.sum_congr rfl fun l hl => by rw [if_pos (Finset.mem_range.1 hl)]
    · intro l _ hl
      rw [if_neg fun h => hl (Finset.mem_range.2 h)]
  case isFalse => rfl

/-! ## The new buckets -/

/-- The table with its buckets put aside, before any of them is moved. -/
def CuckooMap.setAside (m : CuckooMap K V) : CuckooMap K V :=
  { (m.setNumRemaining 0).maybeResizeLocks (hashsize (m.hashpower + 1)) with
    oldBuckets := some m.buckets
    buckets := .new (m.hashpower + 1) }

theorem setAside_migrated (h : ∀ l, (m.locks l).isMigrated = true) (l : Nat) :
    (m.setAside.locks l).isMigrated = true :=
  maybeResizeLocks_migrated (m := m.setNumRemaining 0) h _ l

theorem setAside_numLocks (h : Core hash m) :
    m.setAside.numLocks = min kMaxNumLocks (hashsize (m.hashpower + 1)) :=
  maybeResizeLocks_numLocks (m := m.setNumRemaining 0) h.numLocks

theorem setAside_sum (m : CuckooMap K V) :
    ∑ l ∈ Finset.range m.setAside.numLocks, (m.setAside.locks l).elemCounter
      = ∑ l ∈ Finset.range m.numLocks, (m.locks l).elemCounter :=
  maybeResizeLocks_sum (m.setNumRemaining 0) _

theorem maybeResizeLocks_rest (m : CuckooMap K V) (c : Nat) :
    (m.maybeResizeLocks c).buckets = m.buckets ∧
      (m.maybeResizeLocks c).minimumLoadFactor = m.minimumLoadFactor ∧
      (m.maybeResizeLocks c).maximumHashpower = m.maximumHashpower := by
  unfold maybeResizeLocks
  split <;> exact ⟨rfl, rfl, rfl⟩

/-! ## The new table -/

/-- A table with all buckets moved, as large and with as many locks as the doubled one. -/
structure Grown (hash : K → UInt64) (old : Buckets K V) (m : CuckooMap K V) : Prop where
  placed : Placed hash old
  unique : old.Unique
  view : m.view hash = spread hash old
  hashpower : m.hashpower = old.hashpower + 1
  numLocks : m.numLocks = min kMaxNumLocks (hashsize m.hashpower)

/-- The invariant of a table with such a view. -/
theorem Grown.core {old : Buckets K V} (h : Grown hash old m)
    (hpending : ∀ l, (m.locks l).isMigrated = false → ∃ old, m.Pending hash l old) :
    Core hash m where
  placed i j s hs := by
    rw [h.view] at hs
    rw [h.hashpower]
    exact spread_placed h.placed hs
  unique i j s i' j' s' hs hs' hkey := by
    rw [h.view] at hs hs'
    exact spread_unique h.unique hs hs' hkey
  numLocks := h.numLocks
  pending := hpending

theorem Grown.holds {old : Buckets K V} (h : Grown hash old m) (k : K) (w : V) :
    m.Holds hash k w ↔ ∃ i j s, old.slot i j = some s ∧ s.key = k ∧ s.mapped = w := by
  unfold Holds
  rw [h.view]
  constructor
  · rintro ⟨i, j, s, hs, hk, hw⟩
    obtain ⟨i', j', hslot, -⟩ := spread_source hs
    exact ⟨i', j', s, hslot, hk, hw⟩
  · rintro ⟨i, j, s, hs, hk, hw⟩
    obtain ⟨i', j', hspread⟩ := exists_spread h.placed hs
    exact ⟨i', j', s, hspread, hk, hw⟩

/-- The new buckets of a small table. -/
theorem doubleNow_spec {old : Buckets K V} (hplaced : Placed hash old) (hunique : old.Unique)
    (hmig : ∀ l, (m.locks l).isMigrated = true) (hbuckets : m.buckets = .new (old.hashpower + 1))
    (hnum : m.numLocks = min kMaxNumLocks (hashsize (old.hashpower + 1))) :
    ∃ b, (List.range old.size).foldlM (moveBucket hash old) m.buckets = .ok b ∧
      Inv hash ({ m with buckets := b }.setNumRemaining 0) ∧
      Grown hash old ({ m with buckets := b }.setNumRemaining 0) := by
  have hempty : ∀ i j, m.buckets.slot i j = none := by
    rw [hbuckets]
    exact fun _ _ => rfl
  refine ⟨spreadAll hash old m.buckets (List.range old.size), ?_, ?_⟩
  · exact moveBuckets_eq hplaced List.nodup_range (fun i hi => List.mem_range.1 hi)
      fun i _ j => ⟨hempty i j, hempty (i + old.size) j⟩
  have hgrown : Grown hash old ({ m with
      buckets := spreadAll hash old m.buckets (List.range old.size) }.setNumRemaining 0) := by
    refine ⟨hplaced, hunique, ?_, ?_, ?_⟩
    · funext i j
      refine (congrFun (view_of_migrated ?_) j).trans ?_
      · exact hmig (lockInd i)
      show (if i < 2 * old.size ∧ i % old.size ∈ List.range old.size then spread hash old i j
        else m.buckets.slot i j) = _
      by_cases hi : i < 2 * old.size
      · rw [if_pos ⟨hi, List.mem_range.2 (Nat.mod_lt _ old.size_pos)⟩]
      · rw [if_neg fun h => hi h.1, hempty, spread_eq_none hplaced (by omega)]
    · show m.buckets.hashpower = _
      rw [hbuckets]
      rfl
    · show m.numLocks = min kMaxNumLocks (hashsize m.buckets.hashpower)
      rw [hnum, hbuckets]
      rfl
  refine ⟨⟨hgrown.core fun l hl => ?_, ?_⟩, hgrown⟩
  · exact absurd ((hmig l).symm.trans hl) (by simp)
  · symm
    apply Finset.card_eq_zero.2
    apply Finset.filter_eq_empty_iff.2
    intro l _
    show ¬ (m.locks l).isMigrated = false
    rw [hmig l]
    simp

/-- The locks of a large table. -/
theorem doubleLater_spec {old : Buckets K V} (hplaced : Placed hash old) (hunique : old.Unique)
    (hlarge : kMaxNumLocks ≤ old.size) (hbuckets : m.buckets = .new (old.hashpower + 1))
    (hold : m.oldBuckets = some old) (hmig : ∀ l, (m.locks l).isMigrated = true)
    (hnum : m.numLocks = min kMaxNumLocks (hashsize (old.hashpower + 1))) :
    Inv hash (m.unmigrateLocks.setNumRemaining m.numLocks) ∧
      Grown hash old (m.unmigrateLocks.setNumRemaining m.numLocks) := by
  have hpos := kMaxNumLocks_pos
  have hsize : hashsize (old.hashpower + 1) = 2 * old.size := hashsize_succ _
  have hall : m.numLocks = kMaxNumLocks := by omega
  have hflag : ∀ l, ((m.unmigrateLocks.setNumRemaining m.numLocks).locks l).isMigrated
      = decide (m.numLocks ≤ l) := by
    intro l
    show (if l < m.numLocks then { m.locks l with isMigrated := false }
      else m.locks l : Spinlock).isMigrated = _
    by_cases hl : l < m.numLocks
    · rw [if_pos hl]
      simp [hl]
    · rw [if_neg hl, hmig l]
      simp [Nat.le_of_not_lt hl]
  have hold' : (m.unmigrateLocks.setNumRemaining m.numLocks).oldBuckets = some old := by
    show (if m.numLocks = 0 then none else m.oldBuckets) = some old
    rw [if_neg (by omega)]
    exact hold
  have hhp : m.buckets.hashpower = old.hashpower + 1 := by
    rw [hbuckets]
    rfl
  have hpending : ∀ l, ((m.unmigrateLocks.setNumRemaining m.numLocks).locks l).isMigrated = false →
      (m.unmigrateLocks.setNumRemaining m.numLocks).Pending hash l old := by
    intro l hl
    rw [hflag, decide_eq_false_iff_not, Nat.not_le] at hl
    refine ⟨hl, hold', ⟨hall, hhp.symm, hlarge⟩, hplaced, fun i j _ => ?_⟩
    show m.buckets.slot i j = none
    rw [hbuckets]
    rfl
  have hgrown : Grown hash old (m.unmigrateLocks.setNumRemaining m.numLocks) := by
    refine ⟨hplaced, hunique, ?_, hhp, ?_⟩
    · funext i j
      have hlt := lockInd_lt i
      rw [view_of_pending (by rw [hflag]; simp; omega) hold']
    · show m.numLocks = min kMaxNumLocks (hashsize m.buckets.hashpower)
      rw [hhp]
      exact hnum
  refine ⟨⟨hgrown.core fun l hl => ⟨old, hpending l hl⟩, ?_⟩, hgrown⟩
  have hrange : (m.unmigrateLocks.setNumRemaining m.numLocks).unmigrated
      = Finset.range m.numLocks := by
    apply Finset.filter_true_of_mem
    intro l hl
    have hlt : l < m.numLocks := Finset.mem_range.1 hl
    rw [hflag]
    simp [hlt]
  rw [hrange, Finset.card_range]
  rfl

/-! ## The doubling -/

/-- A table with the same content, twice the size. -/
structure Doubled (hash : K → UInt64) (m m' : CuckooMap K V) : Prop where
  holds : ∀ k w, m'.Holds hash k w ↔ m.Holds hash k w
  hashpower : m'.hashpower = m.hashpower + 1
  minimumLoadFactor : m'.minimumLoadFactor = m.minimumLoadFactor
  maximumHashpower : m'.maximumHashpower = m.maximumHashpower

theorem checkResizeValidity_eq (hc : Counts hash m n) (hmax : m.maximumHashpower = none)
    (hp : Nat) : m.checkResizeValidity hp =
      if (n : Rat) / m.capacity < m.minimumLoadFactor then .error .loadFactorTooLow else .ok () := by
  unfold checkResizeValidity loadFactor
  rw [hmax, hc.size]
  rfl

/-- **`cuckoo_fast_double`** keeps the content, unless the load factor is too low. -/
theorem cuckooFastDouble_spec (h : Inv hash m) (hc : Counts hash m n)
    (hmax : m.maximumHashpower = none) :
    Yields (cuckooFastDouble hash m.hashpower m)
      (fun e => e = .loadFactorTooLow ∧ (n : Rat) / m.capacity < m.minimumLoadFactor)
      fun m' => Inv hash m' ∧ Counts hash m' n ∧ Doubled hash m m' ∧
        m.minimumLoadFactor ≤ (n : Rat) / m.capacity := by
  unfold cuckooFastDouble
  rw [checkResizeValidity_eq hc hmax]
  by_cases hload : (n : Rat) / m.capacity < m.minimumLoadFactor
  · rw [if_pos hload]
    exact ⟨rfl, hload⟩
  rw [if_neg hload, ok_bind]
  obtain ⟨m₁, hok, hcore, hre, hmig⟩ := rehashAll_spec h.toCore
  rw [hok, ok_bind]
  -- the table with its old buckets put aside, before any of them is moved
  have hview : m₁.view hash = m₁.buckets.slot := by
    funext i
    exact view_of_migrated (hmig _)
  have hplaced : Placed hash m₁.buckets := by
    intro i j s hs
    rw [← hview] at hs
    exact hcore.placed i j s hs
  have hunique : m₁.buckets.Unique := by
    intro i j s i' j' s' hs hs' hkey
    rw [← hview] at hs hs'
    exact hcore.unique i j s i' j' s' hs hs' hkey
  have hhp : m.hashpower = m₁.buckets.hashpower := hre.hashpower.symm
  have hbuckets := (maybeResizeLocks_rest (m₁.setNumRemaining 0)
    (hashsize (m₁.buckets.hashpower + 1))).1
  have hlimits := (maybeResizeLocks_rest (m₁.setNumRemaining 0)
    (hashsize (m₁.buckets.hashpower + 1))).2
  have hmig₂ := setAside_migrated hmig
  have hnum := setAside_numLocks hcore
  -- what a table grown from it holds
  have hdone : ∀ m', Grown hash m₁.buckets m' →
      ∑ l ∈ Finset.range m'.numLocks, (m'.locks l).elemCounter
        = ∑ l ∈ Finset.range m₁.setAside.numLocks, (m₁.setAside.locks l).elemCounter →
      m'.minimumLoadFactor = m₁.setAside.minimumLoadFactor →
      m'.maximumHashpower = m₁.setAside.maximumHashpower →
      Counts hash m' n ∧ Doubled hash m m' := by
    intro m' hgrown hsum hmin hmax'
    have hholds : ∀ k w, m'.Holds hash k w ↔ m.Holds hash k w := by
      intro k w
      rw [hgrown.holds, ← hre.holds]
      unfold Holds
      rw [hview]
    refine ⟨?_, hholds, ?_, ?_, ?_⟩
    · obtain ⟨keys, hkeys, hcard, hcount⟩ := hre.kept.counts hc
      refine ⟨keys, fun k => ?_, hcard, ?_⟩
      · rw [hkeys]
        exact exists_congr fun w => hre.holds.trans (hholds k w).symm
      · rw [hsum, setAside_sum, hcount]
    · rw [hgrown.hashpower, hhp]
    · exact hmin.trans (hlimits.1.trans hre.minimumLoadFactor)
    · exact hmax'.trans (hlimits.2.trans hre.maximumHashpower)
  rw [hhp]
  simp only [hbuckets]
  show Yields (if m₁.buckets.size < kMaxNumLocks then do
      let b ← (List.range m₁.buckets.size).foldlM (moveBucket hash m₁.buckets) m₁.setAside.buckets
      .ok ({ m₁.setAside with buckets := b }.setNumRemaining 0)
    else .ok (m₁.setAside.unmigrateLocks.setNumRemaining m₁.setAside.numLocks)) _ _
  by_cases hsmall : m₁.buckets.size < kMaxNumLocks
  · obtain ⟨b, hmove, hinv, hgrown⟩ := doubleNow_spec hplaced hunique hmig₂ rfl hnum
    rw [if_pos hsmall, hmove, ok_bind]
    obtain ⟨hcounts, hdoubled⟩ := hdone _ hgrown rfl rfl rfl
    exact ⟨hinv, hcounts, hdoubled, not_lt.1 hload⟩
  · obtain ⟨hinv, hgrown⟩ := doubleLater_spec hplaced hunique (Nat.le_of_not_lt hsmall) rfl rfl
      hmig₂ hnum
    rw [if_neg hsmall]
    obtain ⟨hcounts, hdoubled⟩ := hdone _ hgrown (Finset.sum_congr rfl fun l _ => by
      show (if l < m₁.setAside.numLocks then { m₁.setAside.locks l with isMigrated := false }
        else m₁.setAside.locks l : Spinlock).elemCounter = _
      split <;> rfl) rfl rfl
    exact ⟨hinv, hcounts, hdoubled, not_lt.1 hload⟩

end ZoneBuffer.Cuckoo
