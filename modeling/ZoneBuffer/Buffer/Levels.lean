import ZoneBuffer.Buffer.History
import ZoneBuffer.Buffer.Runs
import Mathlib.Algebra.BigOperators.Group.Finset.Piecewise

set_option autoImplicit false

/-! # What an eviction by access history writes

`evict_victim_ach` is meant to write every candidate once. It does exactly when every candidate's
page has been evicted before (`evictsOnce_iff`): a page evicted for the first time is on the level
of such pages and, its earlier time being the sentinel `-1`, on one of the other two as well. -/

namespace ZoneBuffer

open Outcome Machine

/-- Sums of `int`s wrap around. -/
instance instAddCommMonoidInt32 : AddCommMonoid Int32 where
  add_assoc := Int32.add_assoc
  zero_add := Int32.zero_add
  add_zero := Int32.add_zero
  add_comm := Int32.add_comm
  nsmul := nsmulRec

namespace Buffer

variable {cfg : Config} {s s' : Buffer} {cs vs : List FrameId}

/-- The sum of `flush_count`. -/
def flushTotal (cfg : Config) (s : Buffer) : Int32 :=
  ∑ i ∈ Finset.range cfg.g.clusterNum, s.flushCount i

/-- Every candidate is on one level and in one list of victims, the device is sent it once, and
the counters agree. -/
structure EvictsOnce (cfg : Config) (s : Buffer) (cs : List FrameId) : Prop where
  level : ∀ f ∈ cs, ∃ acht, (s.recordAccesses cs).accessH (s.getPageId f) = some acht ∧
    ∃! lv, lv < 3 ∧ achClutser cfg lv acht = true
  list : ∀ f ∈ cs, ∃! lv, lv < 3 ∧
    ∃ vs, (s.recordAccesses cs).achVictims cfg lv cs = .ok vs ∧ f ∈ vs
  device : ∀ s', s.flushAch cfg cs = .ok s' →
    ∃ pages, Controller.Logged s.zdsm s'.zdsm pages ∧ pages.Perm (cs.map s.buffer)
  counts : ∀ s', s.evictVictimAch cfg = .ok s' →
    s'.flushTotal cfg = s.flushTotal cfg + Int32.ofNat cs.length ∧
      s'.evictCount = s.evictCount + UInt32.ofNat cs.length

/-- Frame `f` has been evicted before: the history has its page, or, if the page is recorded
twice in this eviction, the time is not that of the sentinel. -/
def Seen (s : Buffer) (cs : List FrameId) (f : FrameId) : Prop :=
  if (cs.map s.getPageId).count (s.getPageId f) = 1 then
    ∃ acht, s.accessH (s.getPageId f) = some acht ∧ acht.2 ≠ -1
  else s.accessTime ≠ -1

instance (s : Buffer) (cs : List FrameId) (f : FrameId) : Decidable (s.Seen cs f) := by
  unfold Seen
  infer_instance

theorem historyOf_fst_iff (s : Buffer) (cs : List FrameId) (f : FrameId) :
    (s.historyOf cs f).1 ≠ -1 ↔ s.Seen cs f := by
  rw [historyOf, Seen]
  split
  case isTrue =>
    rw [lastAccess]
    cases s.accessH (s.getPageId f) with
    | none => simp
    | some acht => simp
  case isFalse => rfl

/-! ## The flush -/

/-- What a flush of the frames `vs` of `s` has done, however they were grouped. -/
structure Sent (cfg : Config) (s s' : Buffer) (vs : List FrameId) : Prop where
  logged : Controller.Logged s.zdsm s'.zdsm (vs.map s.buffer)
  total : s'.flushTotal cfg = s.flushTotal cfg + Int32.ofNat vs.length
  evictCount : s'.evictCount = s.evictCount
  buffer : s'.buffer = s.buffer
  frameToPage : s'.frameToPage = s.frameToPage
  accessH : s'.accessH = s.accessH

theorem flushTotal_addFlushCount (s : Buffer) {lv n : Nat} (hlv : lv < cfg.g.clusterNum) :
    (s.addFlushCount lv n).flushTotal cfg = s.flushTotal cfg + Int32.ofNat n := by
  have hmem : lv ∈ Finset.range cfg.g.clusterNum := Finset.mem_range.2 hlv
  show ∑ i ∈ Finset.range cfg.g.clusterNum,
    Function.update s.flushCount ((lv : Int).toNat)
      (s.flushCount (lv : Int).toNat + Int32.ofNat n) i = _
  rw [Int.toNat_natCast, Finset.sum_update_of_mem hmem, flushTotal,
    ← Finset.add_sum_erase _ _ hmem, Finset.sdiff_singleton_eq_erase, add_right_comm]

/-- A flush of the victims of one level. -/
theorem writeVictims_sent {lv : Nat} (hlv : lv < cfg.g.clusterNum)
    (h : s.writeVictims cfg lv vs = .ok s') : Sent cfg s s' vs := by
  obtain ⟨c, hc, h⟩ := bind_eq_ok.1 h
  cases h
  refine ⟨?_, flushTotal_addFlushCount _ hlv, rfl, rfl, rfl, rfl⟩
  exact Controller.writeCluster_logged (by rw [List.length_map, List.length_map]) hc

/-- **The three levels flushed.** -/
theorem flushAch_sent (hach : cfg.mode = .achOnly) (h : s.flushAch cfg cs = .ok s') :
    Controller.Logged s.zdsm s'.zdsm (([0, 1, 2].flatMap (s.onLevel cfg cs)).map s.buffer) ∧
      s'.flushTotal cfg
        = s.flushTotal cfg + Int32.ofNat ([0, 1, 2].flatMap (s.onLevel cfg cs)).length ∧
      s'.evictCount = s.evictCount + UInt32.ofNat cs.length := by
  have hnum : cfg.g.clusterNum = 3 := by
    rw [cfg.cluster_eq, hach]
    rfl
  set s₀ := s.recordAccesses cs with hs₀
  have hloop : Yields ([0, 1, 2].foldlM (flushLevel cfg cs) s₀) (fun _ => True) fun s₁ =>
      Sent cfg s₀ s₁ ([0, 1, 2].flatMap (s.onLevel cfg cs)) := by
    refine Yields.foldlM_upto (fun done s₁ =>
      Sent cfg s₀ s₁ (done.flatMap (s.onLevel cfg cs))) _ _
      ⟨Controller.Logged.of_eq rfl, by simp, rfl, rfl, rfl, rfl⟩ ?_
    intro done lv todo s₁ hsplit hs₁
    have hlv : lv < cfg.g.clusterNum := by
      have hmem : lv ∈ [0, 1, 2] := by
        rw [hsplit]
        simp
      simp only [List.mem_cons, List.not_mem_nil, or_false] at hmem
      omega
    rw [flushLevel_eq hs₁.accessH hs₁.frameToPage, yields_partial_iff]
    intro s₂ hs₂
    have hsent := writeVictims_sent hlv hs₂
    rw [List.flatMap_append, List.flatMap_cons, List.flatMap_nil, List.append_nil]
    refine ⟨?_, ?_, hsent.evictCount.trans hs₁.evictCount, hsent.buffer.trans hs₁.buffer,
      hsent.frameToPage.trans hs₁.frameToPage, hsent.accessH.trans hs₁.accessH⟩
    · rw [List.map_append]
      have hlog := hsent.logged
      rw [hs₁.buffer] at hlog
      exact hs₁.logged.trans hlog
    · rw [hsent.total, hs₁.total, List.length_append, Int32.ofNat_add, add_assoc]
  obtain ⟨s₁, hs₁, h⟩ := bind_eq_ok.1 h
  cases h
  have hsent := hloop.of_ok hs₁
  refine ⟨hsent.logged, hsent.total, ?_⟩
  show s₁.evictCount + _ = _
  rw [hsent.evictCount]
  rfl

/-- What follows the flush leaves the counters alone. -/
theorem evictVictimAch_counts
    (hcs : s.strategy.getCandidate cfg.defBufSize cfg.workRegSize = .ok cs)
    (h : s.evictVictimAch cfg = .ok s') :
    ∃ s₁, s.flushAch cfg cs = .ok s₁ ∧ s'.flushCount = s₁.flushCount ∧
      s'.evictCount = s₁.evictCount := by
  rw [evictVictimAch, hcs, ok_bind] at h
  obtain ⟨s₁, hs₁, h⟩ := bind_eq_ok.1 h
  obtain ⟨s₂, hcold, h⟩ := bind_eq_ok.1 h
  obtain ⟨z, -, h⟩ := bind_eq_ok.1 h
  obtain ⟨c, -, h⟩ := bind_eq_ok.1 h
  cases h
  have heq := unmapVictims_eq cs s₁
  refine ⟨s₁, hs₁, ?_⟩
  rw [heq, detectCold] at hcold
  split at hcold
  case isTrue =>
    obtain ⟨c', -, hcold⟩ := bind_eq_ok.1 hcold
    cases hcold
    exact ⟨rfl, rfl⟩
  case isFalse =>
    cases hcold
    exact ⟨rfl, rfl⟩

/-! ## The exact condition -/

/-- **An eviction by access history writes every candidate exactly once if and only if every
candidate has been evicted before.** -/
theorem evictsOnce_iff (cfg : Config) (hach : cfg.mode = .achOnly) (s : Buffer)
    (cs : List FrameId)
    (hcs : s.strategy.getCandidate cfg.defBufSize cfg.workRegSize = .ok cs) :
    EvictsOnce cfg s cs ↔ ∀ f ∈ cs, s.Seen cs f := by
  constructor
  · intro h f hf
    obtain ⟨acht, hacht, hone⟩ := h.level f hf
    rw [recordAccesses_candidate s hf, Option.some.injEq] at hacht
    rw [← historyOf_fst_iff, hacht]
    exact (level_iff cfg acht).1 hone
  · intro hseen
    have hfirst : ∀ f ∈ cs, (s.historyOf cs f).1 ≠ -1 := fun f hf =>
      (historyOf_fst_iff s cs f).2 (hseen f hf)
    have hperm := levels_perm cfg hfirst
    have hlen := hperm.length_eq
    refine ⟨fun f hf => ⟨_, recordAccesses_candidate s hf, (level_iff cfg _).2 (hfirst f hf)⟩,
      fun f hf => ?_, fun s' hs' => ?_, fun s' hs' => ?_⟩
    · have hiff : ∀ lv, (∃ vs, (s.recordAccesses cs).achVictims cfg lv cs = .ok vs ∧ f ∈ vs) ↔
          achClutser cfg lv (s.historyOf cs f) = true := by
        intro lv
        rw [achVictims_eq rfl rfl]
        simp [onLevel, hf]
      simp only [hiff]
      exact (level_iff cfg _).2 (hfirst f hf)
    · exact ⟨_, (flushAch_sent hach hs').1, hperm.map s.buffer⟩
    · obtain ⟨s₁, hs₁, hflush, hevict⟩ := evictVictimAch_counts hcs hs'
      obtain ⟨-, htotal, hcount⟩ := flushAch_sent hach hs₁
      refine ⟨?_, hevict.trans hcount⟩
      rw [flushTotal, hflush, ← hlen]
      exact htotal

/-- After an eviction the pages evicted are read and written again, and the one that has not been
evicted is read last. -/
@[irreducible] def returnCalls : List Call :=
  fillCalls ++ [.fixNewPage 5 (frameOf 5 1), .readPage 0, .readPage 1, .readPage 2, .readPage 3,
    .writePage 2 (frameOf 2 3), .writePage 1 (frameOf 1 3), .writePage 0 (frameOf 0 3),
    .writePage 3 (frameOf 3 3), .readPage 5]

/-- The second eviction writes each candidate once. -/
theorem evictsOnce_iff_return :
    ∃ s cs, run (step (.small .achOnly)) returnCalls (smallBuffer .achOnly) = .ok s ∧
      s.isEvict (.small .achOnly) = .ok true ∧ s.strategy.getCandidate 5 1 = .ok cs ∧
      cs.length = 4 ∧ EvictsOnce (.small .achOnly) s cs := by
  obtain ⟨⟨s, due, cs⟩, hok, hdue, hlen, hseen⟩ : ∃ r : Buffer × Bool × List FrameId, (do
      let s ← run (step (.small .achOnly)) returnCalls (smallBuffer .achOnly)
      let due ← s.isEvict (.small .achOnly)
      let cs ← s.strategy.getCandidate 5 1
      Except.ok (s, due, cs)) = .ok r ∧ r.2.1 = true ∧ r.2.2.length = 4 ∧
        ∀ f ∈ r.2.2, r.1.Seen r.2.2 f := exists_ok_of_decide (by decide +kernel)
  obtain ⟨s₁, hs, hok⟩ := bind_eq_ok.1 hok
  obtain ⟨due₁, hd, hok⟩ := bind_eq_ok.1 hok
  obtain ⟨cs₁, hcs, hok⟩ := bind_eq_ok.1 hok
  cases hok
  exact ⟨s, cs, hs, hd.trans (congrArg _ hdue), hcs, hlen,
    (evictsOnce_iff (.small .achOnly) rfl s cs hcs).2 hseen⟩

/-- The first eviction after the buffer has filled up: no page has been evicted before, and the
four candidates are written twice. -/
theorem first_eviction_writes_twice : Legal Call.Pre Call.spec fillCalls .empty ∧
    ∃ s cs s', run (step (.small .achOnly)) fillCalls (smallBuffer .achOnly) = .ok s ∧
      s.isEvict (.small .achOnly) = .ok true ∧ s.strategy.getCandidate 5 1 = .ok cs ∧
      s.evictVictimAch (.small .achOnly) = .ok s' ∧
      s'.flushTotal (.small .achOnly)
        = s.flushTotal (.small .achOnly) + Int32.ofNat (2 * cs.length) ∧
      ¬ EvictsOnce (.small .achOnly) s cs := by
  refine ⟨by decide +kernel, ?_⟩
  obtain ⟨⟨s, due, cs, s'⟩, hok, hdue, htotal, hlen⟩ : ∃ r : Buffer × Bool × List FrameId × Buffer,
      (do
        let s ← run (step (.small .achOnly)) fillCalls (smallBuffer .achOnly)
        let due ← s.isEvict (.small .achOnly)
        let cs ← s.strategy.getCandidate 5 1
        let s' ← s.evictVictimAch (.small .achOnly)
        Except.ok (s, due, cs, s')) = .ok r ∧ r.2.1 = true ∧
      r.2.2.2.flushTotal (.small .achOnly)
        = r.1.flushTotal (.small .achOnly) + Int32.ofNat (2 * r.2.2.1.length) ∧
      r.2.2.1.length = 4 :=
    exists_ok_of_decide (by decide +kernel)
  obtain ⟨s₁, hs, hok⟩ := bind_eq_ok.1 hok
  obtain ⟨due₁, hd, hok⟩ := bind_eq_ok.1 hok
  obtain ⟨cs₁, hcs, hok⟩ := bind_eq_ok.1 hok
  obtain ⟨s₂, hevict, hok⟩ := bind_eq_ok.1 hok
  cases hok
  refine ⟨s, cs, s', hs, hd.trans (congrArg _ hdue), hcs, hevict, htotal, fun h => ?_⟩
  have honce := (h.counts s' hevict).1
  simp only at htotal hlen
  rw [htotal, hlen, Int32.add_right_inj] at honce
  exact absurd honce (by decide)

end Buffer

end ZoneBuffer
