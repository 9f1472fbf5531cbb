import ZoneBuffer.Buffer.Tags
import ZoneBuffer.Zone.Faults
import ZoneBuffer.Zone.Log

set_option autoImplicit false

/-! # Eviction of the largest cluster

`evict_victim` counts, looks for the largest count and filters in three copies, one for each way to
sort the frames into clusters. `EvictsLargest` is what all of them do; `evictVictim_largest` shows
it of a state with the lists in order, and `evicts_largest` of every state a run of any calls
reaches. -/

namespace ZoneBuffer

open Outcome Machine

namespace Buffer

variable {cfg : Config} {s s' : Buffer} {vs cs : List FrameId} {cf : Nat}

/-! ## The flush -/

/-- The victims' pages have been written, by `write_page` if there is one victim and by
`write_cluster` otherwise, and the device has been sent their frames, in order. -/
structure VictimsWritten (cfg : Config) (s : Buffer) (cf : Int) (vs : List FrameId)
    (c : Controller) : Prop where
  single : ∀ v, vs = [v] → s.zdsm.writePage cfg.g 1 cf (s.getPageId v) (s.buffer v) = .ok c
  cluster : vs.length ≠ 1 →
    s.zdsm.writeCluster cfg.g 1 cf (vs.map s.buffer) (vs.map s.getPageId) = .ok c
  logged : Controller.Logged s.zdsm c (vs.map s.buffer)

/-- Whatever the store answers, the flush changes the store and `flush_count` alone. -/
theorem flushVictims_any (cf : Int) (vs : List FrameId) (s : Buffer) :
    Yields (s.flushVictims cfg cf vs) Fault.OfStore fun s' => ∃ c, VictimsWritten cfg s cf vs c ∧
      s' = ({ s with zdsm := c } : Buffer).addFlushCount cf vs.length := by
  have hcluster : vs.length ≠ 1 → Yields (s.writeVictims cfg cf vs) Fault.OfStore fun s' =>
      ∃ c, VictimsWritten cfg s cf vs c ∧
        s' = ({ s with zdsm := c } : Buffer).addFlushCount cf vs.length := by
    intro hlen
    refine (s.zdsm.contained_writeCluster 1 cf _ _).bind_of_ok fun c hc _ => ?_
    refine ⟨c, ⟨?_, fun _ => hc, ?_⟩, rfl⟩
    · rintro v rfl
      exact absurd rfl hlen
    · exact Controller.writeCluster_logged (by rw [List.length_map, List.length_map]) hc
  match vs, hcluster with
  | [], hcluster => exact hcluster (by simp)
  | [v], _ =>
      refine (s.zdsm.contained_writePage 1 cf _ _).bind_of_ok fun c hc _ => ?_
      refine ⟨c, ⟨?_, fun hlen => absurd rfl hlen, Controller.writePage_logged hc⟩, rfl⟩
      intro w hw
      cases hw
      exact hc
  | _ :: _ :: _, hcluster => exact hcluster (by simp)

/-- The detectors change the store and `cd_count` alone. -/
theorem detectCold_any (s : Buffer) : Yields (s.detectCold cfg) Fault.OfStore fun s' =>
    ∃ c n, s' = { s with cdCount := n, zdsm := c } := by
  unfold detectCold
  split
  · refine Yields.bind (s.zdsm.contained_cdDetect cfg.tests) fun c _ => ?_
    exact ⟨c, _, rfl⟩
  · exact ⟨s.zdsm, s.cdCount, rfl⟩

theorem detectGarbage_any (s : Buffer) : Yields (s.detectGarbage cfg) Fault.OfStore fun s' =>
    ∃ c, s' = { s with zdsm := c } := by
  refine Yields.bind (s.zdsm.contained_garbageCollectionDetect cfg.tests) fun c _ => ?_
  exact ⟨c, rfl⟩

/-! ## What an eviction does -/

/-- The frames other than `vs` keep their dirty flags, and the lists they are in. -/
structure LeavesOthers (s s' : Buffer) (vs : List FrameId) : Prop where
  dirty : ∀ x, x ∉ vs → s'.frameDirty x = s.frameDirty x
  lru : ∀ x, x ∉ vs → (x ∈ s'.strategy.lruOrder ↔ x ∈ s.strategy.lruOrder)
  free : ∀ x, x ∉ vs → (x ∈ s'.strategy.freeFrames ↔ x ∈ s.strategy.freeFrames)
  clean : ∀ x, x ∉ vs → (x ∈ s'.strategy.cleanFrames ↔ x ∈ s.strategy.cleanFrames)
  dirtyList : ∀ x, x ∉ vs → (x ∈ s'.strategy.dirtyFrames ↔ x ∈ s.strategy.dirtyFrames)

/-- The candidates in cluster `cf`. -/
def inCluster (cfg : Config) (s : Buffer) (cs : List FrameId) (cf : Nat) : List FrameId :=
  cs.filter fun f => s.levelOf cfg cs f = cf

/-- Of the candidates `cs` those in the cluster `cf` have been evicted. -/
structure EvictsLargest (cfg : Config) (s : Buffer) (cs : List FrameId) (cf : Nat) (s' : Buffer) :
    Prop where
  /-- The candidates are the frames behind the working region, in the order of `lList`. -/
  candidates : s.strategy.getCandidate cfg.defBufSize cfg.workRegSize = .ok cs
  order : cs = s.strategy.lruOrder.drop cfg.workRegSize
  /-- The clusters of the candidates index the counts. In mode `zalp` they are the tags. -/
  index : ∀ f ∈ cs, s.levelOf cfg cs f < cfg.g.clusterNum ∧
    (cfg.mode = .zalp → (s.levelOf cfg cs f : Int) = (s.clusterFlag f).toInt)
  /-- The cluster flushed is the last of the largest ones, or the hot one if it is large enough. -/
  cluster : cf < cfg.g.clusterNum
  chosen : Chosen cfg (fun j => (inCluster cfg s cs j).length) cf
  ne_nil : inCluster cfg s cs cf ≠ []
  /-- The victims are written, and after that the detectors run. -/
  written : ∃ (c : Controller) (s₁ s₂ : Buffer), VictimsWritten cfg s cf (inCluster cfg s cs cf) c ∧
    s₁.zdsm = c ∧ s₁.detectCold cfg = .ok s₂ ∧ s₂.detectGarbage cfg = .ok s'
  unmapped : ∀ p f, s'.page2frame p = some f ↔
    s.page2frame p = some f ∧ ∀ v ∈ inCluster cfg s cs cf, s.frameToPage v ≠ p
  cleaned : ∀ v ∈ inCluster cfg s cs cf, s'.frameDirty v = false
  flushCount : s'.flushCount = Function.update s.flushCount cf
    (s.flushCount cf + Int32.ofNat (inCluster cfg s cs cf).length)
  evictCount : s'.evictCount = s.evictCount + UInt32.ofNat (inCluster cfg s cs cf).length
  others : LeavesOthers s s' (inCluster cfg s cs cf)

/-- The victims leave the other frames in their lists. -/
theorem Picked.leavesOthers (h : Picked cfg s.frameDirty s.strategy vs s'.strategy)
    (hord : Ordered cfg.defBufSize s.frameDirty [] s.strategy)
    (hdirty : s'.frameDirty = cleared s.frameDirty vs) : LeavesOthers s s' vs := by
  have hd : ∀ x, x ∉ vs → s'.frameDirty x = s.frameDirty x := fun x hx => by
    rw [hdirty, Ordered.cleared_of_notMem hx]
  have hl : ∀ x, x ∉ vs → (x ∈ s'.strategy.lruOrder ↔ x ∈ s.strategy.lruOrder) := by
    intro x hx
    rw [h.lru]
    cases cfg.mode.releases <;> simp [hx]
  refine ⟨hd, hl, fun x hx => ?_, fun x hx => ?_, fun x hx => ?_⟩
  · rw [h.free]
    cases cfg.mode.releases <;> simp [hx]
  · rw [h.ordered.shows.clean, hord.shows.clean, List.mem_filter, List.mem_filter, hl x hx,
      Ordered.cleared_of_notMem hx]
  · rw [h.ordered.shows.dirty, hord.shows.dirty, List.mem_filter, List.mem_filter, hl x hx,
      Ordered.cleared_of_notMem hx]

theorem count_levels (s : Buffer) (cs : List FrameId) (j : Nat) :
    (cs.map (s.levelOf cfg cs)).count j = (inCluster cfg s cs j).length := by
  rw [inCluster, List.count_eq_length_filter, List.filter_map, List.length_map]
  rfl

/-- What `evict_victim` does with the cluster it has chosen. -/
theorem evictVictim_any {z : Zalp} (hchoose : s.chooseVictims cfg = .ok ((cf : Int), vs, z)) :
    Yields (s.evictVictim cfg) Fault.OfStore fun s' => s'.strategy = z ∧
      s'.frameDirty = cleared s.frameDirty vs ∧
      (∀ p f, s'.page2frame p = some f ↔
        s.page2frame p = some f ∧ ∀ v ∈ vs, s.frameToPage v ≠ p) ∧
      s'.flushCount = Function.update s.flushCount cf (s.flushCount cf + Int32.ofNat vs.length) ∧
      s'.evictCount = s.evictCount + UInt32.ofNat vs.length ∧
      ∃ (c : Controller) (s₁ s₂ : Buffer), VictimsWritten cfg s cf vs c ∧ s₁.zdsm = c ∧
        s₁.detectCold cfg = .ok s₂ ∧ s₂.detectGarbage cfg = .ok s' := by
  refine Yields.bind_ok hchoose ?_
  refine (flushVictims_any (cf : Int) vs _).bind ?_
  rintro s₁ ⟨c, hc, rfl⟩
  have hc' : VictimsWritten cfg s cf vs c := ⟨hc.single, hc.cluster, hc.logged⟩
  set s₁ := ((({ s with strategy := z } : Buffer).countEvicted vs.length).addFlushCount cf
    vs.length) with hs₁
  have heq := unmapVictims_eq vs { s₁ with zdsm := c }
  refine (detectCold_any _).bind_of_ok ?_
  rintro s₂ hcold ⟨c₂, n, hs₂⟩
  refine (detectGarbage_any s₂).imp_ok ?_
  rintro s₃ hgarbage ⟨c₃, hs₃⟩
  have htable : s₃.page2frame = (unmapVictims vs { s₁ with zdsm := c }).page2frame := by
    rw [hs₃, hs₂]
    rfl
  refine ⟨?_, ?_, fun p f => ?_, ?_, ?_, c, _, s₂, hc', ?_, hcold, hgarbage⟩
  · rw [hs₃, hs₂]
    exact congrArg Buffer.strategy heq
  · rw [hs₃, hs₂]
    exact congrArg Buffer.frameDirty heq
  · rw [htable]
    exact unmapVictims_page2frame vs _ p f
  · rw [hs₃, hs₂]
    exact congrArg Buffer.flushCount heq
  · rw [hs₃, hs₂]
    exact congrArg Buffer.evictCount heq
  · exact congrArg Buffer.zdsm heq

/-- **`evict_victim` evicts a largest cluster** of a state in which an eviction is due. -/
theorem evictVictim_largest (h : ZalpLists cfg [] s)
    (hm : cfg.mode = .zalp ∨ cfg.mode.isZalpWc = true)
    (hdue : Due cfg s.frameDirty s.strategy) (hflag : s.FlagsInRange cfg) :
    Yields (s.evictVictim cfg) Fault.OfStore fun s' => ∃ cs cf, EvictsLargest cfg s cs cf s' := by
  obtain ⟨hach, hcflru, hlru⟩ := ne_of_tagged hm.symm
  have hcand := h.lists.getCandidate_eq hdue.free hdue.dirty
  set cs := s.strategy.lruOrder.drop cfg.workRegSize with hcs
  have hlen : cs.length = cfg.defBufSize - cfg.workRegSize := by
    have hall := h.lists.length_lru
    rw [hdue.free] at hall
    simp only [List.length_nil] at hall
    rw [hcs, List.length_drop]
    omega
  have hzalp : cfg.mode.isZalpWc = false → cfg.mode = .zalp := fun hwc =>
    hm.resolve_right (by rw [hwc]; exact Bool.false_ne_true)
  have hlevel : ∀ f ∈ cs, s.levelOf cfg cs f < cfg.g.clusterNum := fun f hf =>
    levelOf_lt cs f fun hwc => hflag (hzalp hwc) f hf
  obtain ⟨i, hi, hcf, ⟨v, hv, hvi⟩, hchosen⟩ := clusterOf_spec hlen hlevel
  simp only [count_levels] at hchosen
  -- the victims are the candidates of the cluster
  have hvictims : s.victims cfg = inCluster cfg s cs i := by
    have hof : s.victims cfg = s.victimsOf cfg cs := by
      unfold victims
      cases hmode : cfg.mode <;> simp_all
    rw [hof, victimsOf, inCluster, hcf]
    exact List.filter_congr fun f _ => by simp
  obtain ⟨j, z, hchoose, hpicked⟩ := chooseVictims_spec h.lists hdue hach hlru hflag
  have hj : j = i := by
    have hok := hchoose
    rw [chooseVictims, if_neg hcflru, chooseCluster, hcand, ok_bind] at hok
    split at hok
    case isTrue => cases hok
    case isFalse =>
      split at hok
      case isTrue => cases hok
      case isFalse =>
        obtain ⟨z', -, hok⟩ := bind_eq_ok.1 hok
        exact (Prod.mk.inj (Except.ok.inj hok)).1.symm.trans hcf
  rw [hvictims] at hchoose hpicked
  subst hj
  refine (evictVictim_any hchoose).imp ?_
  rintro s' ⟨hz, hdirty, htable, hflush, hcount, hwritten⟩
  refine ⟨cs, i, hcand, hcs, fun f hf => ⟨hlevel f hf, fun hmode => ?_⟩, hi, hchosen,
    hpicked.ne_nil, hwritten, htable, fun w hw => ?_, hflush, hcount,
    Picked.leavesOthers (hz ▸ hpicked) h.lists hdirty⟩
  · have hrange := (hflag hmode f hf).1
    have hwc : ¬ cfg.mode.isZalpWc = true := by
      rw [hmode]
      decide
    rw [levelOf, if_neg hwc]
    exact Int.toNat_of_nonneg hrange
  · rw [hdirty, Ordered.cleared_of_mem hw]

/-! ## Runs -/

/-- In mode `zalp` all flags index the counts. -/
def AllFlagsInRange (cfg : Config) (s : Buffer) : Prop :=
  cfg.mode = .zalp → ∀ f, 0 ≤ (s.clusterFlag f).toInt ∧ (s.clusterFlag f).toInt < cfg.g.clusterNum

/-- A call about a page whose id is not negative keeps the flags in range. -/
theorem Ran.allFlagsInRange {c : Call} (h : Ran cfg s c s') (hp : 0 ≤ c.page)
    (hflag : AllFlagsInRange cfg s) : AllFlagsInRange cfg s' := by
  intro hz x
  have hwc : ¬ cfg.mode.isZalpWc = true := by
    rw [hz]
    decide
  cases h with
  | hit f hc hpf hfront htag =>
      rw [htag, if_neg hwc]
      exact hflag hz x
  | miss f s₁ s₂ hc hroom hlists hroomed htake htook hfront hload htag =>
      have hspared := htook.spared hlists hroomed.spared
      rw [htag, hspared.clusterFlag]
      by_cases hx : x = f
      · subst hx
        cases hw : c.writes with
        | false =>
            obtain ⟨v, hv, -, hrange⟩ := tagGiven_spec (Or.inr hz) hw hload
            rw [hv]
            simp only [retag, Function.update_self]
            exact hrange hz hp
        | true =>
            have hnone : tagGiven cfg s₂ c = none := tagGiven_of_writes hw
            rw [hnone]
            exact hflag hz x
      · rw [retag_of_ne hx]
        exact hflag hz x

/-- **Whenever `evict_victim` runs, it evicts a largest cluster**, whatever calls about pages with
ids that are not negative were made before. Only the store can stop it, and if the calls were legal
it does so only for want of an empty zone. -/
theorem evicts_largest (cfg : Config) (hm : cfg.mode = .zalp ∨ cfg.mode.isZalpWc = true)
    (mem : Memory) (calls : List Call) (hpages : ∀ c ∈ calls, 0 ≤ c.page) (s : Buffer)
    (hrun : run (step cfg) calls (Buffer.init cfg mem) = .ok s)
    (hevict : s.isEvict cfg = .ok true) :
    Yields (s.evictVictim cfg)
      (fun e => e.OfStore ∧ (Legal Call.Pre Call.spec calls .empty → AllHeaded calls → e = .noZone))
      fun s' => ∃ cs cf, EvictsLargest cfg s cs cf s' := by
  obtain ⟨hach, -, hlru⟩ := ne_of_tagged hm.symm
  have hl : Legal (fun (_ : Unit) (c : Call) => 0 ≤ c.page) (fun _ t => t) calls () :=
    (legal_true (fun _ t => t) calls ()).imp fun c hc _ _ => hpages c hc
  have hinv : Yields (run (step cfg) calls (Buffer.init cfg mem)) (fun _ => True) fun s =>
      ZalpLists cfg [] s ∧ AllFlagsInRange cfg s := by
    refine run_yields (fun s (_ : Unit) => ZalpLists cfg [] s ∧ AllFlagsInRange cfg s) ?_ calls _ ()
      ⟨ZalpLists.init cfg mem, (Inv.init cfg False mem).flags⟩ hl
    rintro s - c ⟨hlists, hflag⟩ hp
    rw [yields_partial_iff]
    intro s' hs'
    obtain ⟨hran, hlists'⟩ := step_ran hlists hlru hs'
    exact ⟨hlists', hran.allFlagsInRange hp hflag⟩
  obtain ⟨hlists, hflag⟩ := hinv.of_ok hrun
  rw [isEvict_eq hlists.lists] at hevict
  have hdue : Due cfg s.frameDirty s.strategy := of_decide_eq_true (Except.ok.inj hevict)
  have hstops : Yields (s.evictVictim cfg)
      (Stops (Legal Call.Pre Call.spec calls .empty ∧ AllHeaded calls)) fun _ => True := by
    refine (evictVictim_spec hlists.lists (fun hh => ?_) hdue hach hlru fun hz f _ =>
      hflag hz f).imp fun _ _ => trivial
    exact ((run_sim hlru mem calls hh.1 fun _ : True => hh.2).of_ok hrun).inv.stored trivial
  have hlargest := evictVictim_largest hlists hm hdue fun hz f _ => hflag hz f
  exact (hlargest.both hstops).mono (fun e he => ⟨he.1, fun hl hh => he.2 ⟨hl, hh⟩⟩)
    fun _ hs' => hs'.1

theorem evicts_largest_fill :
    ∃ s s' cs cf, run (step (.small .whOnly)) fillCalls (Buffer.init (.small .whOnly) .zero)
      = .ok s ∧ s.evictVictim (.small .whOnly) = .ok s' ∧
      EvictsLargest (.small .whOnly) s cs cf s' := by
  obtain ⟨⟨s, s'⟩, hok, hevict⟩ : ∃ r : Buffer × Buffer, (do
      let s ← run (step (.small .whOnly)) fillCalls (Buffer.init (.small .whOnly) .zero)
      let s' ← s.evictVictim (.small .whOnly)
      Except.ok (s, s')) = .ok r ∧ (r.1.isEvict (.small .whOnly)).toOption = some true :=
    exists_ok_of_decide (by decide +kernel)
  obtain ⟨s₁, hs, hok⟩ := bind_eq_ok.1 hok
  obtain ⟨s₂, hs', hok⟩ := bind_eq_ok.1 hok
  cases hok
  have hdue : s.isEvict (.small .whOnly) = .ok true := by
    cases h : s.isEvict (.small .whOnly) with
    | error e =>
        rw [h] at hevict
        cases hevict
    | ok due =>
        rw [h] at hevict
        exact congrArg _ (Option.some.inj hevict)
  have hlargest := (evicts_largest (.small .whOnly) (Or.inr rfl) .zero fillCalls
    (by decide +kernel) s hs hdue).of_ok hs'
  obtain ⟨cs, cf, hlargest⟩ := hlargest
  exact ⟨s, s', cs, cf, hs, hs', hlargest⟩

end Buffer

end ZoneBuffer
