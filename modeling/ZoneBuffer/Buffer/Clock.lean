import ZoneBuffer.Buffer.Largest
import ZoneBuffer.Buffer.Supply
import ZoneBuffer.Lib.Ghost
import ZoneBuffer.Lib.Stamp

set_option autoImplicit false

/-! # The clock of the access history

`evict_victim_ach` measures time in pages evicted and inserted. The true time of a run is kept here
in a record without bounds, `Clock`. The counters of the manager have 32 bits of it, and the history
has the times of the last evictions read as signed numbers (`Keeps`). -/

namespace ZoneBuffer

open Outcome Machine

/-- How many pages have been evicted and inserted, and when each page was evicted last. -/
structure Clock where
  evicted : Nat
  inserted : Nat
  last : PartialMap PageId Nat
  past : ∀ p t, last p = some t → t ≤ evicted + inserted

namespace Clock

variable {k : Clock} {p : PageId} {t : Nat}

def time (k : Clock) : Nat := k.evicted + k.inserted

def start : Clock := ⟨0, 0, .empty, nofun⟩

/-- The pages `ps` are evicted at the time it is. -/
def evict (k : Clock) (ps : List PageId) : Clock where
  evicted := k.evicted + ps.length
  inserted := k.inserted
  last p := if p ∈ ps then some k.time else k.last p
  past p t h := by
    have htime : t ≤ k.evicted + k.inserted := by
      split at h
      · cases h
        exact le_refl _
      · exact k.past p t h
    omega

theorem evict_last_of_mem {ps : List PageId} (h : p ∈ ps) :
    (k.evict ps).last p = some k.time := if_pos h

theorem evict_last_of_notMem {ps : List PageId} (h : p ∉ ps) :
    (k.evict ps).last p = k.last p := if_neg h

/-- `n` pages are inserted. -/
def insert (k : Clock) (n : Nat) : Clock where
  evicted := k.evicted
  inserted := k.inserted + n
  last := k.last
  past p t h := by
    have htime := k.past p t h
    omega

end Clock

namespace Buffer

variable {cfg : Config} {s s' s₁ : Buffer} {cs : List FrameId} {c : Call} {k : Clock}
  {p : PageId} {f : FrameId}

/-! ## The record -/

/-- The frames whose pages a call evicts. -/
def evictees (cfg : Config) (c : Call) (s : Buffer) : List FrameId :=
  if c.Misses s then
    match s.isEvict cfg, s.strategy.getCandidate cfg.defBufSize cfg.workRegSize with
    | .ok true, .ok cs => cs
    | _, _ => []
  else []

/-- What a call enters in the record: first the eviction, then the page inserted. -/
def noteClock (cfg : Config) (c : Call) (s _ : Buffer) (k : Clock) : Clock :=
  (k.evict ((evictees cfg c s).map s.getPageId)).insert c.inserted.toList.length

/-- The machine with its clock. -/
def stepClock (cfg : Config) : Call → Buffer × Clock → Except Fault (Buffer × Clock) :=
  ghost (step cfg) (noteClock cfg)

theorem evictees_of_hit (h : ¬ c.Misses s) : evictees cfg c s = [] := by
  unfold evictees
  rw [if_neg h]

/-- A call that misses evicts the frames behind the working region, if that is due. -/
theorem evictees_of_miss (hl : ZalpLists cfg [] s) (h : c.Misses s) :
    evictees cfg c s = if Due cfg s.frameDirty s.strategy then
      s.strategy.lruOrder.drop cfg.workRegSize else [] := by
  unfold evictees
  rw [if_pos h, isEvict_eq hl.lists]
  by_cases hdue : Due cfg s.frameDirty s.strategy
  · rw [if_pos hdue, decide_eq_true hdue, hl.lists.getCandidate_eq hdue.free hdue.dirty]
  · rw [if_neg hdue, decide_eq_false hdue]

/-! ## What the manager keeps -/

/-- The time `t` as an `ACCTIME`. -/
def accTime (t : Nat) : AccTime := (UInt32.ofNat t).toInt32

/-- The counters and the history have the time as far as their types allow. -/
structure Keeps (s : Buffer) (k : Clock) : Prop where
  evictCount : s.evictCount = UInt32.ofNat k.evicted
  insertCount : s.insertCount = UInt32.ofNat k.inserted
  history : ∀ p, (s.accessH p).map Prod.snd = (k.last p).map accTime

theorem Keeps.init (cfg : Config) (mem : Memory) : Keeps (Buffer.init cfg mem) .start :=
  ⟨rfl, rfl, fun _ => rfl⟩

theorem Keeps.accessTime (h : Keeps s k) : s.accessTime = accTime k.time := by
  unfold Buffer.accessTime accTime Clock.time
  rw [h.evictCount, h.insertCount, UInt32.ofNat_add]

theorem Keeps.lastAccess {t : Nat} (h : Keeps s k) (ht : k.last p = some t) :
    lastAccess s.accessH p = accTime t := by
  have hp := h.history p
  rw [ht, Option.map_some, Option.map_eq_some_iff] at hp
  obtain ⟨⟨a, b⟩, hab, hb⟩ := hp
  unfold Buffer.lastAccess
  rw [hab]
  exact hb

/-- The flush of the three levels changes the store and the counters. -/
theorem flushAch_any (hok : s.flushAch cfg cs = .ok s') : ∃ z counts,
    s' = ({ s.recordAccesses cs with zdsm := z, flushCount := counts } : Buffer).countEvicted
      cs.length := by
  obtain ⟨s₁, hloop, hok⟩ := bind_eq_ok.1 hok
  cases hok
  have hall : Yields ([0, 1, 2].foldlM (flushLevel cfg cs) (s.recordAccesses cs)) (fun _ => True)
      fun s₁ => ∃ z counts, s₁ = { s.recordAccesses cs with zdsm := z, flushCount := counts } := by
    refine Yields.foldlM (fun s₁ : Buffer => ∃ z counts, s₁ = { s.recordAccesses cs with
      zdsm := z, flushCount := counts }) _ _ ⟨_, _, rfl⟩ ?_
    rintro s₁ lv - ⟨z, counts, rfl⟩
    rw [yields_partial_iff]
    intro s₂ hs₂
    obtain ⟨vs, -, hs₂⟩ := bind_eq_ok.1 hs₂
    obtain ⟨z', -, hs₂⟩ := bind_eq_ok.1 hs₂
    cases hs₂
    exact ⟨z', _, rfl⟩
  obtain ⟨z, counts, rfl⟩ := hall.of_ok hloop
  exact ⟨z, counts, rfl⟩

/-- **An eviction records the accesses and counts the pages.** -/
theorem evictVictimAch_recorded
    (hcs : s.strategy.getCandidate cfg.defBufSize cfg.workRegSize = .ok cs)
    (hok : s.evictVictimAch cfg = .ok s') :
    s'.accessH = (s.recordAccesses cs).accessH ∧
      s'.evictCount = s.evictCount + UInt32.ofNat cs.length ∧ s'.insertCount = s.insertCount := by
  rw [evictVictimAch, hcs, ok_bind] at hok
  obtain ⟨s₁, hflush, hok⟩ := bind_eq_ok.1 hok
  obtain ⟨s₂, hcold, hok⟩ := bind_eq_ok.1 hok
  obtain ⟨z, -, hok⟩ := bind_eq_ok.1 hok
  obtain ⟨d, counts, rfl⟩ := flushAch_any hflush
  obtain ⟨d₂, n, rfl⟩ := (detectCold_any _).of_ok hcold
  obtain ⟨d₃, rfl⟩ := (detectGarbage_any _).of_ok hok
  rw [unmapVictims_eq]
  exact ⟨rfl, rfl, rfl⟩

/-- The last access recorded for a page is the eviction, if it is among the candidates. -/
theorem recordAccesses_snd (s : Buffer) (cs : List FrameId) (p : PageId) :
    ((s.recordAccesses cs).accessH p).map Prod.snd =
      if p ∈ cs.map s.getPageId then some s.accessTime else (s.accessH p).map Prod.snd := by
  have hfold := foldl_recordAccess s.accessTime (cs.map s.getPageId) s.accessH p
  rw [List.foldl_map] at hfold
  have hrec : (s.recordAccesses cs).accessH p = _ := hfold
  rw [hrec]
  by_cases hp : p ∈ cs.map s.getPageId
  · rw [if_pos hp, if_neg (List.count_pos_iff.2 hp).ne', Option.map_some]
  · rw [if_neg hp, if_pos (List.count_eq_zero_of_not_mem hp)]

/-- The manager keeps the time over an eviction. -/
theorem Keeps.evict (h : Keeps s k)
    (hrec : s'.accessH = (s.recordAccesses cs).accessH)
    (hevict : s'.evictCount = s.evictCount + UInt32.ofNat cs.length)
    (hins : s'.insertCount = s.insertCount) : Keeps s' (k.evict (cs.map s.getPageId)) where
  evictCount := by
    rw [hevict, h.evictCount, ← UInt32.ofNat_add]
    show _ = UInt32.ofNat (k.evicted + (cs.map s.getPageId).length)
    rw [List.length_map]
  insertCount := hins.trans h.insertCount
  history p := by
    rw [hrec, recordAccesses_snd, h.accessTime, h.history]
    by_cases hp : p ∈ cs.map s.getPageId
    · rw [if_pos hp, Clock.evict_last_of_mem hp, Option.map_some]
    · rw [if_neg hp, Clock.evict_last_of_notMem hp]

theorem Keeps.insert (h : Keeps s k) (n : Nat) (hrec : s'.accessH = s.accessH)
    (hevict : s'.evictCount = s.evictCount)
    (hins : s'.insertCount = s.insertCount + UInt32.ofNat n) : Keeps s' (k.insert n) where
  evictCount := hevict.trans h.evictCount
  insertCount := by
    rw [hins, h.insertCount]
    exact (UInt32.ofNat_add _ _).symm
  history p := by
    rw [hrec]
    exact h.history p

/-! ## Calls -/

/-- No page is evicted. -/
theorem Keeps.evict_nil (h : Keeps s k) : Keeps s (k.evict []) := by
  have hnone : s.accessH = (s.recordAccesses []).accessH := rfl
  exact h.evict hnone (UInt32.add_zero _).symm rfl

theorem makeRoom_keeps (hach : cfg.mode = .achOnly) (hl : ZalpLists cfg [] s) (h : Keeps s k)
    (hc : c.Misses s) (hok : s.makeRoom cfg = .ok s₁) :
    Keeps s₁ (k.evict ((evictees cfg c s).map s.getPageId)) := by
  rw [evictees_of_miss hl hc]
  unfold makeRoom at hok
  rw [isEvict_eq hl.lists, ok_bind] at hok
  by_cases hdue : Due cfg s.frameDirty s.strategy
  · rw [decide_eq_true hdue, if_pos rfl, Buffer.evict, if_pos hach] at hok
    rw [if_pos hdue]
    obtain ⟨hrec, hevict, hins⟩ :=
      evictVictimAch_recorded (hl.lists.getCandidate_eq hdue.free hdue.dirty) hok
    exact h.evict hrec hevict hins
  · rw [decide_eq_false hdue, if_neg Bool.false_ne_true] at hok
    cases hok
    rw [if_neg hdue]
    exact h.evict_nil

theorem inserts_eq (c : Call) : c.inserts = UInt32.ofNat c.inserted.toList.length := by
  cases c with
  | fixNewPage p b => rfl
  | writePage p b => rfl
  | readPage p => rfl

/-- **The manager keeps the time.** -/
theorem step_keeps (hach : cfg.mode = .achOnly) (hl : ZalpLists cfg [] s) (h : Keeps s k)
    (hok : step cfg c s = .ok s') : Keeps s' (noteClock cfg c s s' k) := by
  have hran := (step_ran hl (achOnly_ne_lru hach) hok).1
  unfold noteClock
  cases hran with
  | hit f hc hp hfront htag =>
      rw [evictees_of_hit hc]
      refine h.evict_nil.insert _ hfront.accessH hfront.evictCount ?_
      rw [← inserts_eq]
      exact hfront.insertCount
  | miss f s₁ s₂ hc hroom hlists hroomed htake htook hfront hload htag =>
      have hkeeps := makeRoom_keeps hach hl h hc hroom
      have hsame := htook.same
      refine hkeeps.insert _ ?_ ?_ ?_
      · rw [hfront.accessH, hsame]
      · rw [hfront.evictCount, hsame]
      · rw [hfront.insertCount, hsame, inserts_eq]

/-! ## Runs -/

/-- The machine with its clock is in order. -/
def InStep (cfg : Config) (r : Buffer × Clock) : Prop := ZalpLists cfg [] r.1 ∧ Keeps r.1 r.2

theorem stepClock_inStep {r r' : Buffer × Clock} (hach : cfg.mode = .achOnly)
    (h : InStep cfg r) (hok : stepClock cfg c r = .ok r') : InStep cfg r' := by
  obtain ⟨hl, hk⟩ := h
  obtain ⟨hstep, hnote⟩ := ghost_eq_ok.1 hok
  refine ⟨(step_ran hl (achOnly_ne_lru hach) hstep).2, ?_⟩
  rw [hnote]
  exact step_keeps hach hl hk hstep

theorem InStep.init (cfg : Config) (mem : Memory) : InStep cfg (Buffer.init cfg mem, .start) :=
  ⟨ZalpLists.init cfg mem, Keeps.init cfg mem⟩

/-- **In a run of any length** the counters are the true ones modulo `2^32`, and the history has
the true times of the last evictions as values of `ACCTIME`. -/
theorem run_inStep (hach : cfg.mode = .achOnly) {mem : Memory} {calls : List Call}
    {r : Buffer × Clock}
    (hrun : run (stepClock cfg) calls (Buffer.init cfg mem, .start) = .ok r) : InStep cfg r := by
  have hyields : Yields (run (stepClock cfg) calls (Buffer.init cfg mem, .start)) (fun _ => True)
      (InStep cfg) :=
    run_yields_cond (InStep cfg) (fun r c h _ =>
      yields_partial_iff.2 fun r' hr' => stepClock_inStep hach h hr') calls _
      (InStep.init cfg mem) (along_true (stepClock cfg) calls _)
  exact hyields.of_ok hrun

end Buffer

end ZoneBuffer
