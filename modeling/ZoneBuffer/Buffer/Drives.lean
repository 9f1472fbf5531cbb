import ZoneBuffer.Buffer.Levels
import ZoneBuffer.Buffer.Origin
import ZoneBuffer.Buffer.Steps
import ZoneBuffer.Buffer.Supply
import ZoneBuffer.Zone.Wear

set_option autoImplicit false

/-! # The manager as a client of the store

What is proved of the store supposes a client that creates a page once and writes it after that,
in buffers that start with the page's id. The manager is such a client: a run of the manager, in
any mode, makes the store take a legal run of its own (`Drove`), in which pages are created in the
order of the calls. `Sends` goes with it through the functions of the manager and counts: the pages
flushed and inserted are in `flush_count`, `evict_count` and `insert_count` as far as 32 bits allow.
So the books of the store can be read in the counters of the manager (`run_books`), and what its
relocations cost is bounded by what the manager writes (`run_amplified`). -/

namespace ZoneBuffer

open Outcome Machine

/-- The calls the manager makes of the store. It never calls a relocation itself. -/
def Op.Issued (cfg : Config) : Op → Prop
  | .createNewPage _ _ => True
  | .readPage _ => True
  | .writePage _ _ _ => True
  | .writePageGc _ _ _ => False
  | .writeCluster _ _ pageList => pageList.length ≤ cfg.defBufSize - cfg.workRegSize
  | .garbageCollection _ => False
  | .coldDataRestruct _ => False
  | .garbageCollectionDetect t => t = cfg.tests
  | .cdDetect t => cfg.cdDetect = true ∧ t = cfg.tests

/-- The run `ops` of the store is legal, and the manager may have issued it. -/
structure Drove (cfg : Config) (ops : List Op) (c c' : Controller) : Prop where
  legal : Legal (Op.Pre cfg.g) Op.spec ops c.content
  issued : ∀ op ∈ ops, op.Issued cfg
  ran : run (Controller.step cfg.g) ops c = .ok c'
  content : c'.content = specRun Op.spec ops c.content

theorem specRun_append {ops ops' : List Op} {m : Contents} :
    specRun Op.spec (ops ++ ops') m = specRun Op.spec ops' (specRun Op.spec ops m) :=
  List.foldl_append

theorem ownPages_append (ops ops' : List Op) :
    ownPages (ops ++ ops') = ownPages ops + ownPages ops' := by
  rw [ownPages, List.map_append, List.sum_append, ownPages, ownPages]

namespace Drove

variable {cfg : Config} {ops ops' : List Op} {c c' c'' : Controller}

theorem refl (cfg : Config) (c : Controller) : Drove cfg [] c c where
  legal := trivial
  issued _ hop := absurd hop List.not_mem_nil
  ran := rfl
  content := rfl

theorem trans (h : Drove cfg ops c c') (h' : Drove cfg ops' c' c'') :
    Drove cfg (ops ++ ops') c c'' where
  legal := by
    apply (legal_append ..).2
    refine ⟨h.legal, ?_⟩
    rw [← h.content]
    exact h'.legal
  issued op hop := by
    rcases List.mem_append.1 hop with hop | hop
    · exact h.issued op hop
    · exact h'.issued op hop
  ran := by
    rw [run_append, h.ran, ok_bind]
    exact h'.ran
  content := by rw [h'.content, h.content, specRun_append]

/-- A single call. -/
theorem call {op : Op} (hsim : Controller.Sim cfg.g (fun _ => True) c c.content)
    (hpre : op.Pre cfg.g c.content) (hop : op.Issued cfg)
    (h : Controller.step cfg.g op c = .ok c') : Drove cfg [op] c c' where
  legal := ⟨hpre, trivial⟩
  issued op' hop' := by
    rw [List.mem_singleton.1 hop']
    exact hop
  ran := by
    rw [run_cons, h]
    rfl
  content := by
    have hcluster : op.Cluster fun _ => True := by cases op <;> trivial
    exact ((Controller.step_spec trivial (fun _ _ => trivial) hsim hpre hcluster).of_ok h).content

end Drove

/-- How many of the `n` pages flushed `evict_count` has counted, `e`. In mode `ach_only` a page
without a history is flushed twice, and mode `lru` does not count. -/
def Mode.Counts (mode : Mode) (n e : Nat) : Prop :=
  match mode with
  | .achOnly => e ≤ n ∧ n ≤ 2 * e
  | .lru => e = 0
  | _ => e = n

theorem Mode.Counts.zero (mode : Mode) : mode.Counts 0 0 := by
  cases mode <;> simp [Mode.Counts]

theorem Mode.Counts.add {mode : Mode} {n e n' e' : Nat} (h : mode.Counts n e)
    (h' : mode.Counts n' e') : mode.Counts (n + n') (e + e') := by
  cases mode <;> simp only [Mode.Counts] at * <;> omega

namespace Buffer

variable {cfg : Config} {s s' s'' : Buffer} {f : FrameId} {p : PageId} {b : Page}
  {vs cs : List FrameId} {m : Contents} {c : Call} {n e n' e' i : Nat} {ps ps' : List PageId}

/-- What `insert_count` counts of `n` pages. -/
def insertsOf (cfg : Config) (n : Nat) : Nat := if cfg.mode = .lru then 0 else n

/-- **What the manager has sent to the store** between `s` and `s'`: the pages `ps` to create, and
`n` pages flushed; `evict_count` has counted `e` of them. -/
structure Sends (cfg : Config) (n e : Nat) (ps : List PageId) (s s' : Buffer) : Prop where
  drove : ∃ ops, Drove cfg ops s.zdsm s'.zdsm ∧ ownPages ops = n + ps.length ∧
    ops.filterMap Op.created = ps
  flush : s'.flushTotal cfg = s.flushTotal cfg + Int32.ofNat n
  evict : s'.evictCount = s.evictCount + UInt32.ofNat e
  insert : s'.insertCount = s.insertCount + UInt32.ofNat (insertsOf cfg ps.length)

theorem Sends.refl (cfg : Config) (s : Buffer) : Sends cfg 0 0 [] s s where
  drove := ⟨[], .refl cfg s.zdsm, rfl, rfl⟩
  flush := (Int32.add_zero _).symm
  evict := (UInt32.add_zero _).symm
  insert := by
    rw [insertsOf, List.length_nil, ite_self]
    exact (UInt32.add_zero _).symm

theorem Sends.trans (h : Sends cfg n e ps s s') (h' : Sends cfg n' e' ps' s' s'') :
    Sends cfg (n + n') (e + e') (ps ++ ps') s s'' where
  drove := by
    obtain ⟨ops, hdrove, hown, hcreated⟩ := h.drove
    obtain ⟨ops', hdrove', hown', hcreated'⟩ := h'.drove
    refine ⟨ops ++ ops', hdrove.trans hdrove', ?_, ?_⟩
    · rw [ownPages_append, List.length_append]
      omega
    · rw [List.filterMap_append, hcreated, hcreated']
  flush := by
    rw [h'.flush, h.flush, Int32.ofNat_add, Int32.add_assoc]
  evict := by rw [h'.evict, h.evict, UInt32.ofNat_add, UInt32.add_assoc]
  insert := by
    have hsum : insertsOf cfg (ps ++ ps').length
        = insertsOf cfg ps.length + insertsOf cfg ps'.length := by
      rw [List.length_append, insertsOf, insertsOf, insertsOf]
      split <;> rfl
    rw [h'.insert, h.insert, UInt32.add_assoc, ← UInt32.ofNat_add, hsum]

/-- The manager has gone from `s` to `s'` without the store. -/
theorem Sends.quiet (hz : s'.zdsm = s.zdsm) (hflush : s'.flushCount = s.flushCount)
    (hevict : s'.evictCount = s.evictCount + UInt32.ofNat e)
    (hinsert : s'.insertCount = s.insertCount) : Sends cfg 0 e [] s s' where
  drove := ⟨[], hz ▸ .refl cfg s.zdsm, rfl, rfl⟩
  flush := by
    rw [flushTotal, flushTotal, hflush]
    exact (Int32.add_zero _).symm
  evict := hevict
  insert := hinsert.trans (Sends.refl cfg s).insert

/-- What has been sent is a matter of the store and the counters. -/
theorem Sends.frame (h : Sends cfg n e ps s s') (hz : s''.zdsm = s'.zdsm)
    (hflush : s''.flushCount = s'.flushCount) (hevict : s''.evictCount = s'.evictCount)
    (hinsert : s''.insertCount = s'.insertCount) : Sends cfg n e ps s s'' where
  drove := hz ▸ h.drove
  flush := by
    rw [← h.flush, flushTotal, flushTotal, hflush]
  evict := hevict.trans h.evict
  insert := hinsert.trans h.insert

/-- The store between two calls simulates its own contents. -/
theorem StoreOk.sim (h : StoreOk cfg s) :
    Controller.Sim cfg.g (fun _ => True) s.zdsm s.zdsm.content := ⟨h.inv, rfl, h.idle⟩

/-- The manager has gone from `s` to `s'` by a call that creates no page. -/
theorem Sends.issue (op : Op) (hst : StoreOk cfg s) (hpre : op.Pre cfg.g s.zdsm.content)
    (hop : op.Issued cfg) (hcreated : op.created = none)
    (h : Controller.step cfg.g op s.zdsm = .ok s'.zdsm)
    (hflush : s'.flushTotal cfg = s.flushTotal cfg + Int32.ofNat op.own)
    (hevict : s'.evictCount = s.evictCount) (hinsert : s'.insertCount = s.insertCount) :
    Sends cfg op.own 0 [] s s' where
  drove := by
    refine ⟨[op], .call hst.sim hpre hop h, ?_, ?_⟩
    · rw [ownPages, List.map_singleton, List.sum_singleton]
      rfl
    · rw [List.filterMap_cons, hcreated]
      rfl
  flush := hflush
  evict := hevict.trans (UInt32.add_zero _).symm
  insert := hinsert.trans (Sends.refl cfg s).insert

/-! ## Flushes and detectors -/

theorem writeVictims_sends (hst : StoreOk cfg s) (hvs : s.Writable vs)
    (hlen : vs.length ≤ cfg.defBufSize - cfg.workRegSize) (hi : i < cfg.g.clusterNum)
    (h : s.writeVictims cfg i vs = .ok s') : Sends cfg vs.length 0 [] s s' := by
  obtain ⟨z, hz, h⟩ := bind_eq_ok.1 h
  cases h
  set op := Op.writeCluster i (vs.map s.buffer) (vs.map s.getPageId) with hop
  have hown : op.own = vs.length := by
    rw [hop, Op.own, Op.writes, List.length_zip, List.length_map, List.length_map, Nat.min_self]
  have hissued : op.Issued cfg := by
    rw [hop, Op.Issued, List.length_map]
    exact hlen
  rw [← hown]
  refine Sends.issue op hst ⟨by rw [List.length_map, List.length_map], s.flush_le_cap hlen, hvs.zip⟩
    hissued rfl hz ?_ rfl rfl
  rw [hown]
  exact flushTotal_addFlushCount { s with zdsm := z } hi

/-- A page written back by itself. -/
theorem writePage_sends {z : Controller} (hst : StoreOk cfg s) (hw : s.Writable [f])
    (hi : i < cfg.g.clusterNum)
    (h : s.zdsm.writePage cfg.g 1 i (s.getPageId f) (s.buffer f) = .ok z) :
    Sends cfg 1 0 [] s (({ s with zdsm := z } : Buffer).addFlushCount i 1) := by
  refine Sends.issue (.writePage i (s.getPageId f) (s.buffer f)) hst
    (hw f (List.mem_singleton_self f)) trivial rfl h ?_ rfl rfl
  exact flushTotal_addFlushCount { s with zdsm := z } hi

theorem flushVictims_sends (hst : StoreOk cfg s) (hvs : s.Writable vs)
    (hlen : vs.length ≤ cfg.defBufSize - cfg.workRegSize) (hi : i < cfg.g.clusterNum)
    (h : s.flushVictims cfg i vs = .ok s') : Sends cfg vs.length 0 [] s s' := by
  match vs, hvs, hlen with
  | [v], hvs, _ =>
      obtain ⟨z, hz, h⟩ := bind_eq_ok.1 h
      cases h
      exact writePage_sends hst hvs hi hz
  | [], hvs, hlen => exact writeVictims_sends hst hvs hlen hi h
  | _ :: _ :: _, hvs, hlen => exact writeVictims_sends hst hvs hlen hi h

theorem detectCold_sends (hst : StoreOk cfg s) (h : s.detectCold cfg = .ok s') :
    Sends cfg 0 0 [] s s' := by
  rw [detectCold] at h
  split at h
  case isTrue hcd =>
    obtain ⟨z, hz, h⟩ := bind_eq_ok.1 h
    cases h
    exact Sends.issue (.cdDetect cfg.tests) hst trivial ⟨hcd.1, rfl⟩ rfl hz
      (Int32.add_zero _).symm rfl rfl
  case isFalse =>
    cases h
    exact .refl cfg s

theorem detectGarbage_sends (hst : StoreOk cfg s) (h : s.detectGarbage cfg = .ok s') :
    Sends cfg 0 0 [] s s' := by
  obtain ⟨z, hz, h⟩ := bind_eq_ok.1 h
  cases h
  exact Sends.issue (.garbageCollectionDetect cfg.tests) hst trivial rfl rfl hz
    (Int32.add_zero _).symm rfl rfl

/-! ## Evictions -/

/-- The cluster flushed is one of those `flush_count` has. -/
theorem chooseVictims_cluster (h : Ordered cfg.defBufSize s.frameDirty [] s.strategy)
    (hdue : Due cfg s.frameDirty s.strategy) (hach : cfg.mode ≠ .achOnly) (hlru : cfg.mode ≠ .lru)
    (hflag : s.FlagsInRange cfg) {cf : Int} {z : Zalp}
    (hok : s.chooseVictims cfg = .ok (cf, vs, z)) : ∃ i : Nat, i < cfg.g.clusterNum ∧ cf = i := by
  rw [chooseVictims] at hok
  split at hok
  case isTrue hm =>
    obtain ⟨victims, -, hok⟩ := bind_eq_ok.1 hok
    obtain ⟨z', -, hok⟩ := bind_eq_ok.1 hok
    cases hok
    exact ⟨0, cfg.g.cluster_pos, rfl⟩
  case isFalse hm =>
    set cs := s.strategy.lruOrder.drop cfg.workRegSize with hcs
    have hlen : cs.length = cfg.defBufSize - cfg.workRegSize := by
      have := h.length_lru
      rw [hdue.free] at this
      simp only [List.length_nil] at this
      rw [hcs, List.length_drop]
      omega
    have hzalp : cfg.mode.isZalpWc = false → cfg.mode = .zalp := by
      cases hmode : cfg.mode <;> simp_all [Mode.isZalpWc]
    obtain ⟨i, hi, hcf, -⟩ := clusterOf_spec (s := s) hlen
      fun f hf => levelOf_lt cs f fun hwc => hflag (hzalp hwc) f hf
    rw [chooseCluster, h.getCandidate_eq hdue.free hdue.dirty, ok_bind] at hok
    split at hok
    · cases hok
    split at hok
    · cases hok
    obtain ⟨z', -, hok⟩ := bind_eq_ok.1 hok
    cases hok
    exact ⟨i, hi, hcf⟩

theorem counts_self {mode : Mode} (hach : mode ≠ .achOnly) (hlru : mode ≠ .lru) (n : Nat) :
    mode.Counts n n := by
  cases mode <;> simp_all [Mode.Counts]

/-- **`evict_victim`** flushes the victims and counts them. -/
theorem evictVictim_sends (h : Ordered cfg.defBufSize s.frameDirty [] s.strategy)
    (hst : Stored cfg [] s) (hdue : Due cfg s.frameDirty s.strategy)
    (hach : cfg.mode ≠ .achOnly) (hlru : cfg.mode ≠ .lru) (hflag : s.FlagsInRange cfg)
    (hok : s.evictVictim cfg = .ok s') : ∃ n, Sends cfg n n [] s s' := by
  obtain ⟨cf, z', hchoose, hpicked⟩ := chooseVictims_spec h hdue hach hlru hflag
  obtain ⟨i, hi, rfl⟩ := chooseVictims_cluster h hdue hach hlru hflag hchoose
  set vs := s.victims cfg
  have hwrite : s.Writable vs :=
    hst.writable fun v hv => List.mem_of_mem_drop (hpicked.mem v hv).1
  have hlen := hpicked.length_le h
  set s₁ := ({ s with strategy := z' } : Buffer).countEvicted vs.length with hs₁
  have hst₁ : StoreOk cfg s₁ := ⟨hst.store.inv, hst.store.idle⟩
  have hcount : Sends cfg 0 vs.length [] s s₁ := .quiet rfl rfl rfl rfl
  rw [evictVictim, hchoose, ok_bind] at hok
  obtain ⟨s₂, hs₂, hok⟩ := bind_eq_ok.1 hok
  obtain ⟨s₃, hs₃, hok⟩ := bind_eq_ok.1 hok
  have hflush : Sends cfg vs.length 0 [] s₁ s₂ := flushVictims_sends hst₁ hwrite hlen hi hs₂
  have hfl₂ : Flushed cfg True s₁ s₂ (s₁.copies vs) :=
    (flushVictims_spec (fun _ => hst₁) i (fun _ => hwrite) hlen).of_ok hs₂
  -- unmapping the victims does not reach the store
  have hst₂ : StoreOk cfg (s₂.unmapVictims vs) := by
    rw [unmapVictims_eq]
    exact ⟨(hfl₂.store trivial).inv, (hfl₂.store trivial).idle⟩
  have hunmap : Sends cfg 0 0 [] s₂ (s₂.unmapVictims vs) := by
    rw [unmapVictims_eq]
    exact .quiet rfl rfl (UInt32.add_zero _).symm rfl
  have hst₃ := ((detectCold_spec fun _ : True => hst₂).of_ok hs₃).store trivial
  have hall := ((hcount.trans hflush).trans hunmap).trans
    ((detectCold_sends hst₂ hs₃).trans (detectGarbage_sends hst₃ hok))
  refine ⟨vs.length, ?_⟩
  simpa using hall

/-- Level 0 aside, the levels share out the candidates. -/
theorem length_levels (cfg : Config) (s : Buffer) (cs : List FrameId) :
    (s.onLevel cfg cs 1).length + (s.onLevel cfg cs 2).length = cs.length := by
  have htwo : s.onLevel cfg cs 2
      = cs.filter fun f => !achClutser cfg 1 (s.historyOf cs f) := by
    rw [onLevel]
    exact List.filter_congr fun f _ => achClutser_two cfg _
  rw [htwo, onLevel, ← List.length_eq_length_filter_add]

/-- The flush of the three levels. -/
theorem flushAch_sends (hach : cfg.mode = .achOnly) (hst : StoreOk cfg s) (hcs : s.Writable cs)
    (hlen : cs.length ≤ cfg.defBufSize - cfg.workRegSize) (hok : s.flushAch cfg cs = .ok s') :
    ∃ n, Sends cfg n cs.length [] s s' ∧ cfg.mode.Counts n cs.length := by
  obtain ⟨s₁, hloop, hok⟩ := bind_eq_ok.1 hok
  cases hok
  set s₀ := s.recordAccesses cs with hs₀
  have hstart : Sends cfg 0 0 [] s s₀ := .quiet rfl rfl (UInt32.add_zero _).symm rfl
  have hnum : cfg.g.clusterNum = 3 := clusterNum_achOnly hach
  -- after `done` levels their frames have been flushed, in this order
  have hlevels : Yields ([0, 1, 2].foldlM (flushLevel cfg cs) s₀) (Stops True) fun s' =>
      Flushed cfg True s₀ s' (s.copies ([0, 1, 2].flatMap (s.onLevel cfg cs))) ∧
        Sends cfg ([0, 1, 2].map fun lv => (s.onLevel cfg cs lv).length).sum 0 [] s₀ s' := by
    refine Yields.foldlM_upto (fun done s' =>
      Flushed cfg True s₀ s' (s.copies (done.flatMap (s.onLevel cfg cs))) ∧
        Sends cfg (done.map fun lv => (s.onLevel cfg cs lv).length).sum 0 [] s₀ s') _ _
      ⟨Flushed.refl fun _ => ⟨hst.inv, hst.idle⟩, .refl cfg s₀⟩ ?_
    rintro done lv todo s₁ hsplit ⟨hs₁, hsent⟩
    rw [flushLevel_eq hs₁.accessH hs₁.frameToPage]
    have hw : s₁.Writable (s.onLevel cfg cs lv) :=
      hs₁.writable trivial (hcs.of_subset (List.filter_subset_self _))
    have hle : (s.onLevel cfg cs lv).length ≤ cfg.defBufSize - cfg.workRegSize :=
      le_trans (length_onLevel_le lv) hlen
    have hlv : lv < cfg.g.clusterNum := by
      have hmem : lv ∈ [0, 1, 2] := by simp [hsplit]
      rw [hnum]
      simp only [List.mem_cons, List.not_mem_nil, or_false] at hmem
      omega
    refine (writeVictims_spec hs₁.store lv (fun _ => hw) hle).imp_ok ?_
    intro s₂ hs₂ hfl
    have hboth := hs₁.trans hfl
    rw [hs₁.copies, show s₀.copies (s.onLevel cfg cs lv) = s.copies (s.onLevel cfg cs lv) from rfl,
      ← copies_append] at hboth
    rw [List.flatMap_append, List.flatMap_cons, List.flatMap_nil, List.append_nil, List.map_append,
      List.sum_append]
    exact ⟨hboth, hsent.trans (writeVictims_sends (hs₁.store trivial) hw hle hlv hs₂)⟩
  have hsent := (hlevels.of_ok hloop).2
  have hcount : Sends cfg 0 cs.length [] s₁ (s₁.countEvicted cs.length) := .quiet rfl rfl rfl rfl
  refine ⟨_, by simpa using (hstart.trans hsent).trans hcount, ?_⟩
  have hzero : (s.onLevel cfg cs 0).length ≤ cs.length := length_onLevel_le 0
  have htwo := length_levels cfg s cs
  simp only [Mode.Counts, hach]
  omega

/-- **`evict_victim_ach`** flushes the candidates, some of them twice, and counts each once. -/
theorem evictVictimAch_sends (h : Ordered cfg.defBufSize s.frameDirty [] s.strategy)
    (hst : Stored cfg [] s) (hdue : Due cfg s.frameDirty s.strategy) (hach : cfg.mode = .achOnly)
    (hok : s.evictVictimAch cfg = .ok s') :
    ∃ n e, Sends cfg n e [] s s' ∧ cfg.mode.Counts n e := by
  rw [evictVictimAch, h.getCandidate_eq hdue.free hdue.dirty, ok_bind] at hok
  set cs := s.strategy.lruOrder.drop cfg.workRegSize with hcs
  have hwrite : s.Writable cs := hst.writable fun v hv => List.mem_of_mem_drop hv
  have hlen : cs.length ≤ cfg.defBufSize - cfg.workRegSize := by
    have := h.length_lru
    rw [hcs, List.length_drop]
    omega
  obtain ⟨s₂, hs₂, hok⟩ := bind_eq_ok.1 hok
  obtain ⟨s₃, hs₃, hok⟩ := bind_eq_ok.1 hok
  obtain ⟨z, -, hok⟩ := bind_eq_ok.1 hok
  obtain ⟨n, hflush, hcounts⟩ := flushAch_sends hach hst.store hwrite hlen hs₂
  have hfl₂ := ((flushAch_spec (serves_stops cfg True) trivial (fun _ => hst.store)
    (fun _ => hwrite) hlen).of_ok hs₂).1
  have hst₂ : StoreOk cfg (s₂.unmapVictims cs) := by
    rw [unmapVictims_eq]
    exact ⟨(hfl₂.store trivial).inv, (hfl₂.store trivial).idle⟩
  have hunmap : Sends cfg 0 0 [] s₂ (s₂.unmapVictims cs) := by
    rw [unmapVictims_eq]
    exact .quiet rfl rfl (UInt32.add_zero _).symm rfl
  have hst₃ := ((detectCold_spec fun _ : True => hst₂).of_ok hs₃).store trivial
  have hlists : Sends cfg 0 0 [] s₃ { s₃ with strategy := z } :=
    .quiet rfl rfl (UInt32.add_zero _).symm rfl
  have hlast := hlists.trans (detectGarbage_sends ⟨hst₃.inv, hst₃.idle⟩ hok)
  have hall := ((hflush.trans hunmap).trans (detectCold_sends hst₂ hs₃)).trans hlast
  exact ⟨n, cs.length, by simpa using hall, hcounts⟩

/-- **The eviction, if one is due.** -/
theorem makeRoom_sends (h : Inv cfg True [] [] s) (hlru : cfg.mode ≠ .lru)
    (hok : s.makeRoom cfg = .ok s') : ∃ n e, Sends cfg n e [] s s' ∧ cfg.mode.Counts n e := by
  rw [makeRoom, isEvict_eq h.lists, ok_bind] at hok
  by_cases hdue : Due cfg s.frameDirty s.strategy
  · rw [decide_eq_true hdue, if_pos rfl, evict] at hok
    split at hok
    case isTrue hach => exact evictVictimAch_sends h.lists (h.stored trivial) hdue hach hok
    case isFalse hach =>
      obtain ⟨n, hsends⟩ := evictVictim_sends h.lists (h.stored trivial) hdue hach hlru
        (fun hm f _ => h.flags hm f) hok
      exact ⟨n, n, hsends, counts_self hach hlru n⟩
  · rw [decide_eq_false hdue, if_neg Bool.false_ne_true] at hok
    cases hok
    exact ⟨0, 0, .refl cfg s, .zero cfg.mode⟩

theorem takeFrame_sends (h : Inv cfg True [] [] s) (hlru : cfg.mode ≠ .lru)
    (hok : s.takeFrame cfg = .ok (f, s')) :
    ∃ n e, Sends cfg n e [] s s' ∧ cfg.mode.Counts n e := by
  obtain ⟨s₁, hroom, hok⟩ := bind_eq_ok.1 hok
  obtain ⟨n, e, hsends, hcounts⟩ := makeRoom_sends h hlru hroom
  obtain ⟨⟨g, isFree, z⟩, -, hok⟩ := bind_eq_ok.1 hok
  refine ⟨n, e, ?_, hcounts⟩
  cases isFree with
  | true =>
      cases hok
      exact hsends.frame rfl rfl rfl rfl
  | false =>
      cases hok
      exact hsends.frame rfl rfl rfl rfl

/-! ## Calls -/

/-- A page is loaded by a call of `read_page`. -/
theorem loadPage_sends (hst : StoreOk cfg s) (hp : s.zdsm.content p ≠ none) {zone : Nat}
    (h : s.loadPage cfg p f = .ok (zone, s')) : Sends cfg 0 0 [] s s' := by
  obtain ⟨⟨zone', b, z⟩, hz, h⟩ := bind_eq_ok.1 h
  cases h
  refine Sends.issue (.readPage p) hst hp trivial rfl ?_ (Int32.add_zero _).symm rfl rfl
  rw [Controller.step, hz]
  rfl

theorem loadFixed_sends (hst : StoreOk cfg s) (hp : s.zdsm.content p ≠ none)
    (h : s.loadFixed cfg p f = .ok s') : Sends cfg 0 0 [] s s' := by
  obtain ⟨⟨zone, s₁⟩, hload, h⟩ := bind_eq_ok.1 h
  have hsends := loadPage_sends hst hp hload
  -- the tag set beside does not reach the store
  cases hm : cfg.mode <;> simp only [hm] at h <;> cases h <;> exact hsends.frame rfl rfl rfl rfl

theorem fixPage_sends (h : Inv cfg True [] [] s) (hlru : cfg.mode ≠ .lru) (hp : s.Exists True p)
    {isWrite : Bool} (hok : s.fixPage cfg isWrite p = .ok (f, s')) :
    ∃ n e, Sends cfg n e [] s s' ∧ cfg.mode.Counts n e := by
  cases hpf : s.page2frame p with
  | some g =>
      obtain ⟨s₁, hhit, -, hsame⟩ := hit_spec h hlru hpf isWrite
      rw [hhit] at hok
      cases hok
      refine ⟨0, 0, ?_, .zero cfg.mode⟩
      rw [hsame.same]
      exact .quiet rfl rfl (UInt32.add_zero _).symm rfl
  | none =>
      rw [fixPage, if_neg hlru] at hok
      simp only [hpf] at hok
      obtain ⟨⟨g, s₂⟩, htake, hok⟩ := bind_eq_ok.1 hok
      obtain ⟨n, e, hsends, hcounts⟩ := takeFrame_sends h hlru htake
      obtain ⟨hinv, hmiss⟩ := (takeFrame_spec h hlru).of_ok htake
      have hplace := hinv.place (hmiss.content_ne_none hp)
      have hplaced : Sends cfg n e [] s (s₂.place p g) := hsends.frame rfl rfl rfl rfl
      refine ⟨n, e, ?_, hcounts⟩
      cases isWrite with
      | true =>
          cases hok
          exact hplaced
      | false =>
          obtain ⟨s₃, hload, hok⟩ := bind_eq_ok.1 hok
          cases hok
          have hread := loadFixed_sends (s := s₂.place p g) (hplace.stored trivial).store
            (hmiss.content_ne_none hp trivial) hload
          exact hplaced.trans hread

/-- A page created, its buffer headed. -/
theorem createNewPage_drove {z : Controller} (hst : StoreOk cfg s) (hp : s.zdsm.content p = none)
    (hid : readId b = p) (h : s.zdsm.createNewPage cfg.g 1 p b = .ok z) :
    Drove cfg [.createNewPage p b] s.zdsm z :=
  .call hst.sim ⟨hp, hid⟩ trivial h

/-- The page that has been created is one more. -/
theorem Sends.create (h : Sends cfg n e [] s s') (hst : StoreOk cfg s')
    (hp : s'.zdsm.content p = none) (hid : readId b = p)
    (hz : s'.zdsm.createNewPage cfg.g 1 p b = .ok s''.zdsm)
    (hflush : s''.flushCount = s'.flushCount) (hevict : s''.evictCount = s'.evictCount)
    (hinsert : s''.insertCount = s'.insertCount + UInt32.ofNat (insertsOf cfg 1)) :
    Sends cfg n e [p] s s'' := by
  have hcreate : Sends cfg 0 0 [p] s' s'' := by
    refine ⟨⟨_, createNewPage_drove hst hp hid hz, rfl, rfl⟩, ?_, ?_, hinsert⟩
    · rw [flushTotal, flushTotal, hflush]
      exact (Int32.add_zero _).symm
    · rw [hevict]
      exact (UInt32.add_zero _).symm
  exact h.trans hcreate

theorem fixNewPage_sends (h : Inv cfg True [] [] s) (hlru : cfg.mode ≠ .lru)
    (hnone : s.zdsm.content p = none) (hid : readId b = p)
    (hok : s.fixNewPage cfg p b = .ok s') :
    ∃ n e, Sends cfg n e [p] s s' ∧ cfg.mode.Counts n e := by
  rw [fixNewPage, if_neg hlru] at hok
  obtain ⟨⟨f, s₂⟩, htake, hok⟩ := bind_eq_ok.1 hok
  obtain ⟨n, e, hsends, hcounts⟩ := takeFrame_sends h hlru htake
  obtain ⟨hinv, hmiss⟩ := (takeFrame_spec h hlru).of_ok htake
  obtain ⟨z, hz, hok⟩ := bind_eq_ok.1 hok
  refine ⟨n, e, ?_, hcounts⟩
  have hins : insertsOf cfg 1 = 1 := if_neg hlru
  dsimp only at hok
  unfold markNew at hok
  cases hm : cfg.mode <;> simp only [hm] at hok <;> cases hok <;>
    exact hsends.create (hinv.stored trivial).store (hmiss.content_eq_none h trivial hnone) hid hz
      rfl rfl (by rw [hins]; rfl)

/-- **One call, in the modes with `ZALP`.** -/
theorem call_sends (h : Sim cfg True s m) (hlru : cfg.mode ≠ .lru) (hpre : c.Pre m)
    (hhead : c.Headed) (hok : step cfg c s = .ok s') :
    ∃ n e, Sends cfg n e c.inserted.toList s s' ∧ cfg.mode.Counts n e := by
  cases c with
  | fixNewPage p b =>
      exact fixNewPage_sends h.inv hlru (h.not_stored hpre.1 trivial) hhead hok
  | writePage p b =>
      obtain ⟨f, s₁, hfix, hok⟩ := step_writePage_ok hok
      obtain ⟨n, e, hsends, hcounts⟩ := fixPage_sends h.inv hlru (h.exists hpre) hfix
      rw [setDirty, if_neg hlru] at hok
      obtain ⟨z, -, hok⟩ := bind_eq_ok.1 hok
      cases hok
      exact ⟨n, e, hsends.frame rfl rfl rfl rfl, hcounts⟩
  | readPage p =>
      obtain ⟨f, s₁, hfix, rfl⟩ := step_readPage_ok hok
      obtain ⟨n, e, hsends, hcounts⟩ := fixPage_sends h.inv hlru (h.exists hpre) hfix
      exact ⟨n, e, hsends.frame rfl rfl rfl rfl, hcounts⟩

/-! ## Mode `lru` -/

/-- A victim of `lru` is written back if its flag is set, and garbage is collected then. -/
theorem writeBack_sends (hst : StoreOk cfg s) (hw : s.Writable [f])
    (h : s.writeBack cfg f = .ok s') : ∃ n, Sends cfg n 0 [] s s' := by
  rw [writeBack] at h
  split at h
  case isTrue =>
    obtain ⟨z, hz, h⟩ := bind_eq_ok.1 h
    obtain ⟨hne, hid⟩ := hw f (List.mem_singleton_self f)
    have hwrote := (Controller.writePage_spec hst.inv 0 0 trivial hne hid).of_ok hz
    have hfl : Flushed cfg True s (({ s with zdsm := z } : Buffer).addFlushCount 0 1)
        (s.copies [f]) := (Flushed.wrote (fun _ => hst) fun _ => hwrote).addFlushCount 0 1
    have hsends := writePage_sends hst hw cfg.g.cluster_pos hz
    exact ⟨1, hsends.trans (detectGarbage_sends (hfl.store trivial) h)⟩
  case isFalse =>
    cases h
    exact ⟨0, .refl cfg s⟩

/-- A page the client does not know is not mapped. -/
theorem LruSim.unmapped (h : LruSim cfg s m) (hp : m p = none) : s.page2frame p = none := by
  rw [Option.eq_none_iff_forall_ne_some]
  intro f hf
  have hm := h.agrees.resident p f hf
  rw [hp] at hm
  cases hm

theorem takeFrameLru_sends (h : LruSim cfg s m) (hok : s.takeFrameLru cfg = .ok (f, s')) :
    ∃ n, Sends cfg n 0 [] s s' := by
  rw [takeFrameLru] at hok
  split at hok
  case isTrue hfull =>
    obtain ⟨g, hlist, hvictim⟩ := h.inv.lists.getVictim hfull
    rw [selectVictim, hvictim, ok_bind] at hok
    obtain ⟨s₁, hs₁, hok⟩ := bind_eq_ok.1 hok
    cases hok
    set s₀ : Buffer := { s with lrus := { s.lrus with lList := s.lrus.lList.popBack } } with hs₀
    have hf : f ∈ s.lruFrames := by
      rw [hlist]
      simp
    have hpop : Sends cfg 0 0 [] s s₀ := .quiet rfl rfl (UInt32.add_zero _).symm rfl
    obtain ⟨n, hback⟩ := writeBack_sends (s := s₀) ⟨h.inv.store.inv, h.inv.store.idle⟩
      (h.writable hf) hs₁
    refine ⟨n, ?_⟩
    have hsends := hpop.trans hback
    rw [Nat.zero_add] at hsends
    exact hsends.frame rfl rfl rfl rfl
  case isFalse =>
    cases hok
    exact ⟨0, .quiet rfl rfl (UInt32.add_zero _).symm rfl⟩

theorem fixPageLru_sends (h : LruSim cfg s m) (hlru : cfg.mode = .lru) (hp : m p ≠ none)
    {isWrite : Bool} (hok : s.fixPage cfg isWrite p = .ok (f, s')) :
    ∃ n, Sends cfg n 0 [] s s' := by
  rw [fixPage, if_pos hlru] at hok
  cases hpf : s.page2frame p with
  | some g =>
      simp only [hpf] at hok
      obtain ⟨l, -, hok⟩ := bind_eq_ok.1 hok
      cases hok
      exact ⟨0, .quiet rfl rfl (UInt32.add_zero _).symm rfl⟩
  | none =>
      simp only [hpf] at hok
      obtain ⟨⟨g, s₂⟩, htake, hok⟩ := bind_eq_ok.1 hok
      obtain ⟨n, hsends⟩ := takeFrameLru_sends h htake
      have hmiss := (h.takeFrame hpf).of_ok htake
      have hplaced : Sends cfg n 0 [] s (s₂.placeLru p g) := hsends.frame rfl rfl rfl rfl
      refine ⟨n, ?_⟩
      cases isWrite with
      | true =>
          cases hok
          exact hplaced
      | false =>
          obtain ⟨⟨zone, s₃⟩, hload, hok⟩ := bind_eq_ok.1 hok
          cases hok
          exact hplaced.trans (loadPage_sends (s := s₂.placeLru p g)
            (hmiss.inv.place hmiss.unmapped).store (hmiss.exist p hp) hload)

/-- **One call in mode `lru`.** -/
theorem callLru_sends (h : LruSim cfg s m) (hlru : cfg.mode = .lru) (hpre : c.Pre m)
    (hhead : c.Headed) (hok : step cfg c s = .ok s') :
    ∃ n, Sends cfg n 0 c.inserted.toList s s' := by
  cases c with
  | fixNewPage p b =>
      have hunmapped := h.unmapped hpre.1
      rw [step, fixNewPage, if_pos hlru] at hok
      obtain ⟨⟨f, s₂⟩, htake, hok⟩ := bind_eq_ok.1 hok
      obtain ⟨n, hsends⟩ := takeFrameLru_sends h htake
      have hmiss := (h.takeFrame hunmapped).of_ok htake
      have hnone := (hmiss.agrees.content_of_none hmiss.unmapped).trans hpre.1
      obtain ⟨z, hz, hok⟩ := bind_eq_ok.1 hok
      cases hok
      have hins : insertsOf cfg 1 = 0 := if_pos hlru
      refine ⟨n, hsends.create hmiss.inv.store hnone hhead hz rfl rfl ?_⟩
      rw [hins]
      exact (UInt32.add_zero _).symm
  | writePage p b =>
      obtain ⟨f, s₁, hfix, hok⟩ := step_writePage_ok hok
      obtain ⟨n, hsends⟩ := fixPageLru_sends h hlru hpre hfix
      rw [setDirty, if_pos hlru] at hok
      cases hok
      exact ⟨n, hsends.frame rfl rfl rfl rfl⟩
  | readPage p =>
      obtain ⟨f, s₁, hfix, rfl⟩ := step_readPage_ok hok
      obtain ⟨n, hsends⟩ := fixPageLru_sends h hlru hpre hfix
      exact ⟨n, hsends.frame rfl rfl rfl rfl⟩

/-! ## Runs -/

/-- **One call.** -/
theorem Tracks.sends (h : Tracks cfg s m) (hpre : c.Pre m) (hhead : c.Headed)
    (hok : step cfg c s = .ok s') :
    ∃ n e, Sends cfg n e c.inserted.toList s s' ∧ cfg.mode.Counts n e := by
  by_cases hlru : cfg.mode = .lru
  · obtain ⟨n, hsends⟩ := callLru_sends (h.lru hlru) hlru hpre hhead hok
    refine ⟨n, 0, hsends, ?_⟩
    rw [hlru]
    rfl
  · exact call_sends (h.zalp hlru) hlru hpre hhead hok

/-- What the calls of a run send adds up. -/
theorem run_sends {calls : List Call} (h : Tracks cfg s m)
    (hl : Legal Call.Pre Call.spec calls m) (hhead : AllHeaded calls)
    (hok : run (step cfg) calls s = .ok s') :
    ∃ n e, Sends cfg n e (calls.filterMap Call.inserted) s s' ∧ cfg.mode.Counts n e := by
  induction calls generalizing s m with
  | nil =>
      cases hok
      exact ⟨0, 0, .refl cfg _, .zero cfg.mode⟩
  | cons c calls ih =>
      obtain ⟨hpre, hl⟩ := hl
      have hheadc : c.Headed := hhead c List.mem_cons_self
      rw [run_cons] at hok
      obtain ⟨s₁, hcall, hok⟩ := bind_eq_ok.1 hok
      have htracks := (h.called hpre hheadc).of_ok hcall
      obtain ⟨n, e, hsends, hcounts⟩ := h.sends hpre hheadc hcall
      obtain ⟨n', e', hsends', hcounts'⟩ :=
        ih htracks hl (fun c hc => hhead c (List.mem_cons_of_mem _ hc)) hok
      refine ⟨n + n', e + e', ?_, hcounts.add hcounts'⟩
      have hps : (c :: calls).filterMap Call.inserted
          = c.inserted.toList ++ calls.filterMap Call.inserted := by
        cases hc : c.inserted with
        | none => rw [List.filterMap_cons, hc, Option.toList_none, List.nil_append]
        | some p => rw [List.filterMap_cons, hc, Option.toList_some, List.singleton_append]
      rw [hps]
      exact hsends.trans hsends'

/-- A run from the start. -/
theorem run_sends_init (mem : Memory) (calls : List Call)
    (hl : Legal Call.Pre Call.spec calls .empty) (hhead : AllHeaded calls) :
    Yields (run (step cfg) calls (Buffer.init cfg mem)) (· = .noZone) fun s =>
      ∃ n e, Sends cfg n e (calls.filterMap Call.inserted) (Buffer.init cfg mem) s ∧
        cfg.mode.Counts n e :=
  (run_tracks mem calls hl hhead).imp_ok fun _ hok _ =>
    run_sends (.init cfg mem) hl hhead hok

theorem flushTotal_init (cfg : Config) (mem : Memory) :
    (Buffer.init cfg mem).flushTotal cfg = 0 := Finset.sum_eq_zero fun _ _ => rfl

end Buffer

open Buffer

/-- The calls `calls` of a client have made the store take the legal run `ops`, and `n` pages of it
are flushes: the other ones the manager has sent are those it has created, in the order of the
calls that insert them. -/
structure Drives (cfg : Config) (mem : Memory) (calls : List Call) (ops : List Op) (n : Nat)
    (s : Buffer) : Prop where
  drove : Drove cfg ops (Controller.init cfg.g mem.rates) s.zdsm
  created : ops.filterMap Op.created = calls.filterMap Call.inserted
  own : ownPages ops = n + (calls.filterMap Call.inserted).length
  flushed : s.flushTotal cfg = Int32.ofNat n

theorem Buffer.Sends.drives {cfg : Config} {mem : Memory} {calls : List Call} {n e : Nat}
    {s : Buffer} (h : Sends cfg n e (calls.filterMap Call.inserted) (Buffer.init cfg mem) s) :
    ∃ ops, Drives cfg mem calls ops n s := by
  obtain ⟨ops, hdrove, hown, hcreated⟩ := h.drove
  refine ⟨ops, hdrove, hcreated, hown, ?_⟩
  rw [h.flush, flushTotal_init]
  exact Int32.zero_add _

/-- **The manager is a client of the store.** A run of the manager makes the store take a legal
run of its own: the pages are created in the order of the calls that insert them, and what is sent
to the device beside them has been counted in `flush_count`. -/
theorem run_drives (cfg : Config) (mem : Memory) (calls : List Call)
    (hl : Legal Call.Pre Call.spec calls .empty) (hhead : AllHeaded calls) :
    Yields (run (step cfg) calls (Buffer.init cfg mem)) (· = .noZone) fun s =>
      ∃ ops n, Drives cfg mem calls ops n s := by
  refine (run_sends_init mem calls hl hhead).imp fun s hs => ?_
  obtain ⟨n, e, hsends, -⟩ := hs
  obtain ⟨ops, hdrives⟩ := hsends.drives
  exact ⟨ops, n, hdrives⟩

/-- Seven pages in the small build, with evictions and three clusters. -/
theorem run_drives_reuse :
    ∃ s, run (step (.small .achOnly)) reuseCalls (Buffer.init (.small .achOnly) .zero) = .ok s ∧
      ∃ ops n, Drives (.small .achOnly) .zero reuseCalls ops n s :=
  (run_drives (.small .achOnly) .zero reuseCalls reuseCalls_legal
    (by unfold AllHeaded; decide +kernel)).of_isOk (by decide +kernel)

/-! ## The books -/

/-- **The books of the manager and of the store agree**, after a run that has inserted `created`
pages, flushed `n` and moved `moved`: the device has been sent these, `write_count` has the pages
moved twice, and `get_gc_info` finds the pages inserted. In mode `lru` nobody counts what is inserted
or evicted. -/
structure Books (cfg : Config) (created n e moved : Nat) (s : Buffer) : Prop where
  evicted : s.evictCount = UInt32.ofNat e
  counts : cfg.mode.Counts n e
  inserted : s.insertCount = if cfg.mode = .lru then 0 else UInt32.ofNat created
  sent : s.zdsm.pagesSent = created + n + moved
  held_le : s.zdsm.pagesHeld cfg.g ≤ s.zdsm.pagesSent
  written : s.zdsm.writeCount = UInt32.ofNat (created + n + 2 * moved)
  totals : s.zdsm.gcTotals cfg.g = ((s.zdsm.pagesHeld cfg.g : Rat), (created : Rat))

/-- Where every page flushed is counted once, the writes beyond those of the manager are twice the
pages moved. -/
theorem Books.amplified {cfg : Config} {created n e moved : Nat} {s : Buffer}
    (h : Books cfg created n e moved s) (hach : cfg.mode ≠ .achOnly) (hlru : cfg.mode ≠ .lru) :
    s.zdsm.writeCount = s.evictCount + s.insertCount + UInt32.ofNat (2 * moved) := by
  have hcounts : e = n := by
    have h := h.counts
    cases hm : cfg.mode <;> simp_all [Mode.Counts]
  rw [h.written, h.evicted, h.inserted, if_neg hlru, ← UInt32.ofNat_add, ← UInt32.ofNat_add,
    hcounts, Nat.add_comm n created]

/-- A page is inserted once. -/
theorem inserted_nodup {calls : List Call} {m : Contents}
    (hl : Legal Call.Pre Call.spec calls m) :
    (calls.filterMap Call.inserted).Nodup ∧
      ∀ p ∈ calls.filterMap Call.inserted, m p = none := by
  induction calls generalizing m with
  | nil => exact ⟨List.nodup_nil, fun p hp => absurd hp List.not_mem_nil⟩
  | cons c calls ih =>
      obtain ⟨hpre, hl⟩ := hl
      obtain ⟨hnodup, hnew⟩ := ih hl
      -- a page the client knows before the call it knows after it
      have hold : ∀ p ∈ calls.filterMap Call.inserted, m p = none ∧ p ≠ c.page := by
        intro p hp
        have hnone := hnew p hp
        constructor
        · by_contra hne
          exact Call.spec_ne_none hpre (Or.inr hne) hnone
        · intro heq
          exact Call.spec_ne_none hpre (Or.inl heq) hnone
      cases c with
      | fixNewPage p b =>
          show (p :: calls.filterMap Call.inserted).Nodup ∧ ∀ q ∈ p :: _, m q = none
          refine ⟨List.nodup_cons.2 ⟨fun hp => (hold p hp).2 rfl, hnodup⟩, fun q hq => ?_⟩
          rcases List.mem_cons.1 hq with rfl | hq
          · exact hpre.1
          · exact (hold q hq).1
      | writePage p b =>
          rw [List.filterMap_cons_none rfl]
          exact ⟨hnodup, fun q hq => (hold q hq).1⟩
      | readPage p =>
          rw [List.filterMap_cons_none rfl]
          exact ⟨hnodup, fun q hq => (hold q hq).1⟩

theorem card_insertedPages {calls : List Call} (hl : Legal Call.Pre Call.spec calls .empty) :
    (insertedPages calls).card = (calls.filterMap Call.inserted).length :=
  List.toFinset_card_of_nodup (inserted_nodup hl).1

/-- The books after what has been sent. -/
theorem Drives.books {cfg : Config} {mem : Memory} {calls : List Call} {ops : List Op} {n e : Nat}
    {s : Buffer} (h : Drives cfg mem calls ops n s)
    (hsends : Sends cfg n e (calls.filterMap Call.inserted) (Buffer.init cfg mem) s)
    (hcounts : cfg.mode.Counts n e) (hl : Legal Call.Pre Call.spec calls .empty) :
    ∃ moved, Books cfg (insertedPages calls).card n e moved s := by
  have hsim := (Controller.run_spec_any mem.rates ops h.drove.legal).of_ok h.drove.ran
  obtain ⟨moved, erased, hp⟩ := Controller.run_posted h.drove.legal
    (Controller.started_init cfg.g mem.rates) h.drove.ran
  have hcard := card_insertedPages hl
  have hown := h.own
  have hpages : createdPages ops = insertedPages calls := by
    rw [createdPages, insertedPages, h.created]
  have hbalanced := hp.balanced (N := insertedPages calls) hsim.inv fun p => by
    rw [hsim.content, specRun_ne_none_iff ops .empty h.drove.legal, hpages]
    simp
  have hsent := hp.sent
  rw [hown, show (Controller.init cfg.g mem.rates).pagesSent = 0 from rfl, ← hcard] at hsent
  refine ⟨moved, ?_, hcounts, ?_, by omega, hbalanced.held_le, ?_, hbalanced.totals⟩
  · exact hsends.evict.trans (UInt32.zero_add _)
  · have hinsert := hsends.insert.trans (UInt32.zero_add _)
    rw [hinsert, insertsOf, hcard]
    split <;> rfl
  · rw [hp.count, hown, hcard, Nat.add_comm n]
    exact UInt32.zero_add _

/-- **The books of every run.** In the modes that evict by `evict_victim`, the writes of the store
exceed those the manager has counted by twice the pages moved. -/
theorem run_books (cfg : Config) (mem : Memory) (calls : List Call)
    (hl : Legal Call.Pre Call.spec calls .empty) (hhead : AllHeaded calls) :
    Yields (run (step cfg) calls (Buffer.init cfg mem)) (· = .noZone) fun s =>
      ∃ ops n e moved, Drives cfg mem calls ops n s ∧
        Books cfg (insertedPages calls).card n e moved s ∧
        (cfg.mode ≠ .achOnly → cfg.mode ≠ .lru →
          s.zdsm.writeCount = s.evictCount + s.insertCount + UInt32.ofNat (2 * moved)) := by
  refine (run_sends_init mem calls hl hhead).imp fun s hs => ?_
  obtain ⟨n, e, hsends, hcounts⟩ := hs
  obtain ⟨ops, hdrives⟩ := hsends.drives
  obtain ⟨moved, hbooks⟩ := hdrives.books hsends hcounts hl
  exact ⟨ops, n, e, moved, hdrives, hbooks, hbooks.amplified⟩

/-- The run with evictions, in the mode that counts every page flushed once. -/
theorem run_books_reuse :
    ∃ s, run (step (.small .zalp)) reuseCalls (Buffer.init (.small .zalp) .zero) = .ok s ∧
      ∃ ops n e moved, Drives (.small .zalp) .zero reuseCalls ops n s ∧
        Books (.small .zalp) (insertedPages reuseCalls).card n e moved s ∧
        (Mode.zalp ≠ .achOnly → Mode.zalp ≠ .lru →
          s.zdsm.writeCount = s.evictCount + s.insertCount + UInt32.ofNat (2 * moved)) :=
  (run_books (.small .zalp) .zero reuseCalls reuseCalls_legal
    (by unfold AllHeaded; decide +kernel)).of_isOk (by decide +kernel)

/-! ## Write amplification -/

/-- The pages of a zone. -/
def Config.zonePages (cfg : Config) : Nat := cfg.g.cap / PAGE_SIZE

/-- The pages a full zone has been written at least: a cluster did not fit behind them. -/
def Config.fullPages (cfg : Config) : Nat :=
  cfg.zonePages + 1 - (cfg.defBufSize - cfg.workRegSize)

/-- **The pages moved are bounded by the pages sent**, of which `own` are the manager's. Each of the
collections `gcs` has moved three tenths of a zone at most, and together they have moved
`gc_valid_count` pages. -/
structure Amplified (cfg : Config) (own moved : Nat) (gcs : List Emptying) (s : Buffer) : Prop where
  sent : s.zdsm.pagesSent = own + moved
  moved_le : 5 * cfg.fullPages * cfg.fullPages * moved
    ≤ 3 * cfg.zonePages * (cfg.zonePages + 1) * s.zdsm.pagesSent
  collected_le : cfg.cdDetect = false →
    10 * cfg.fullPages * moved ≤ 3 * cfg.zonePages * s.zdsm.pagesSent
  light : ∀ r ∈ gcs, 10 * r.moved ≤ 3 * cfg.zonePages
  erased : gcs.length * cfg.fullPages ≤ s.zdsm.pagesSent
  gcCount : s.zdsm.gcCount = Int32.ofNat gcs.length
  gcValidCount : s.zdsm.gcValidCount = UInt32.ofNat (movedBy gcs)

theorem Op.Issued.driven {cfg : Config} {op : Op} (h : op.Issued cfg)
    (hgc : cfg.tests.garbage = RateTests.exact.garbage)
    (hcd : cfg.tests.cold = RateTests.exact.cold) :
    op.Driven (cfg.defBufSize - cfg.workRegSize) (cfg.cdDetect = true) := by
  cases op with
  | writeCluster cf buf pageList => exact h
  | garbageCollection z => exact h
  | coldDataRestruct restruct => exact h
  | garbageCollectionDetect t =>
      rw [show t = cfg.tests from h]
      exact hgc
  | cdDetect t =>
      obtain ⟨hon, rfl⟩ := h
      exact ⟨hon, hcd⟩
  | createNewPage p b => trivial
  | readPage p => trivial
  | writePage cf p b => trivial
  | writePageGc cf p b => trivial

namespace Controller

theorem Cost.amplified {cfg : Config} {own : Nat} {gcs cds : List Emptying} {s : Buffer}
    (h : Cost cfg.g (cfg.defBufSize - cfg.workRegSize) (cfg.cdDetect = true) own gcs cds s.zdsm) :
    Amplified cfg own (movedBy gcs + movedBy cds) gcs s := by
  -- what has been erased has been sent
  have herased : erasedBy cfg.g gcs + erasedBy cfg.g cds ≤ s.zdsm.pagesSent := by
    have := h.held
    omega
  refine ⟨h.sent, ?_, fun hoff => ?_, fun r hr => (h.collected r hr).light, ?_, h.gcCount,
    h.gcValidCount⟩
  · exact le_trans h.moved_le (Nat.mul_le_mul_left _ herased)
  · refine le_trans (h.collected_le ?_) (Nat.mul_le_mul_left _ herased)
    rw [hoff]
    exact Bool.false_ne_true
  · exact le_trans (erasedBy_ge h.collected) (le_trans (Nat.le_add_right _ _) herased)

end Controller

/-- **The write amplification of every run is bounded**, if the detectors compare their rates
exactly. -/
theorem run_amplified (cfg : Config) (hgc : cfg.tests.garbage = RateTests.exact.garbage)
    (hcd : cfg.tests.cold = RateTests.exact.cold) (mem : Memory) (calls : List Call)
    (hl : Legal Call.Pre Call.spec calls .empty) (hhead : AllHeaded calls) :
    Yields (run (step cfg) calls (Buffer.init cfg mem)) (· = .noZone) fun s =>
      ∃ ops n moved, Drives cfg mem calls ops n s ∧
        Amplified cfg (n + (insertedPages calls).card) moved
          (Controller.collections cfg.g ops (.init cfg.g mem.rates)) s := by
  refine (run_sends_init mem calls hl hhead).imp fun s hs => ?_
  obtain ⟨n, e, hsends, -⟩ := hs
  obtain ⟨ops, hdrives⟩ := hsends.drives
  have hdrove := hdrives.drove
  have hn : 1 ≤ cfg.defBufSize - cfg.workRegSize := Nat.sub_pos_of_lt cfg.work_lt
  have hworn := Controller.run_worn hn (fun op hop => (hdrove.issued op hop).driven hgc hcd)
    hdrove.legal (Controller.Sim.init cfg.g _ mem.rates) hdrove.ran
    (Controller.Worn.init cfg.g _ _ mem.rates)
  rw [Nat.zero_add, List.nil_append, List.nil_append, hdrives.own, ← card_insertedPages hl]
    at hworn
  exact ⟨ops, n, _, hdrives, hworn.cost.amplified⟩

theorem run_amplified_reuse :
    ∃ s, run (step (.small .whOnly)) reuseCalls (Buffer.init (.small .whOnly) .zero) = .ok s ∧
      ∃ ops n moved, Drives (.small .whOnly) .zero reuseCalls ops n s ∧
        Amplified (.small .whOnly) (n + (insertedPages reuseCalls).card) moved
          (Controller.collections (Config.small .whOnly).g ops
            (.init (Config.small .whOnly).g Memory.zero.rates)) s :=
  (run_amplified (.small .whOnly) rfl rfl .zero reuseCalls reuseCalls_legal
    (by unfold AllHeaded; decide +kernel)).of_isOk (by decide +kernel)

end ZoneBuffer
