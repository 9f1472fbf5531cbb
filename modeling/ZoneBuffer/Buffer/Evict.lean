import ZoneBuffer.Zone.Relocation
import ZoneBuffer.Buffer.Victims
import ZoneBuffer.Buffer.History

set_option autoImplicit false

/-! # Eviction

`Inv` is the invariant of the manager in the modes with `ZALP`: the lists are in order and a
mapped page is in a resident frame recorded for it. It does not say that a resident frame is
mapped; in the modes that keep the frames of victims resident that is not so.

The store relies on every frame starting with its page's id, the lists do not. What is known of
the store is therefore stated under `headed`, which says that the frames given to the manager do;
without it a call may stop with any fault, and only the lists are known.

An eviction writes the victims' frames back, unmaps their pages and leaves the rest alone
(`Evicted`). Both `evict_victim` and `evict_victim_ach` do it (`makeRoom_spec`). -/

namespace ZoneBuffer

open Outcome

namespace Buffer

/-- The store between two calls. -/
structure StoreOk (cfg : Config) (s : Buffer) : Prop where
  inv : Controller.Inv cfg.g (fun _ => True) s.zdsm
  idle : s.zdsm.Idle

/-- The store and the frames, if the frames given start with their pages' ids: every resident
frame is recorded for a page that exists and starts with its id, but for the frames `ex`, which
are about to be overwritten. -/
structure Stored (cfg : Config) (ex : List FrameId) (s : Buffer) : Prop where
  store : StoreOk cfg s
  created : ∀ f ∈ s.strategy.lruOrder, s.zdsm.content (s.frameToPage f) ≠ none
  header : ∀ f ∈ s.strategy.lruOrder, f ∉ ex → readId (s.buffer f) = s.frameToPage f

/-- The invariant in the modes with `ZALP`. The frames `held` are out of the lists. -/
structure Inv (cfg : Config) (headed : Prop) (held ex : List FrameId) (s : Buffer) : Prop where
  lists : Ordered cfg.defBufSize s.frameDirty held s.strategy
  mapped : ∀ p f, s.page2frame p = some f → f ∈ s.strategy.lruOrder ∧ s.frameToPage f = p
  flags : cfg.mode = .zalp → ∀ f, 0 ≤ (s.clusterFlag f).toInt ∧ (s.clusterFlag f).toInt < cfg.g.clusterNum
  stored : headed → Stored cfg ex s

/-- The part of the invariant that concerns the lists and the page table. -/
structure ZalpLists (cfg : Config) (held : List FrameId) (s : Buffer) : Prop where
  lists : Ordered cfg.defBufSize s.frameDirty held s.strategy
  mapped : ∀ p f, s.page2frame p = some f → f ∈ s.strategy.lruOrder ∧ s.frameToPage f = p

/-- The faults a call may stop with. -/
def Stops (headed : Prop) (e : Fault) : Prop := headed → e = .noZone

theorem Inv.init (cfg : Config) (headed : Prop) (mem : Memory) :
    Inv cfg headed [] [] (Buffer.init cfg mem) where
  lists := Ordered.init cfg.defBufSize
  mapped := by
    intro p f h
    cases h
  flags _ _ := ⟨le_refl 0, Int.natCast_pos.2 cfg.g.cluster_pos⟩
  stored _ := {
    store := ⟨Controller.Inv.init cfg.g _ mem.rates, rfl, rfl⟩
    created := by
      intro f h
      cases h
    header := by
      intro f h
      cases h }

variable {cfg : Config} {headed : Prop} {s s' s'' : Buffer} {held ex vs cs : List FrameId}
  {l l' : List (PageId × Page)}

theorem Inv.zalpLists (h : Inv cfg headed held ex s) : ZalpLists cfg held s :=
  ⟨h.lists, h.mapped⟩

/-! ## Writing to the store -/

/-- Only the store and the counters have changed, and the pages of `l` have been stored. -/
structure Flushed (cfg : Config) (headed : Prop) (s s' : Buffer) (l : List (PageId × Page)) :
    Prop where
  strategy : s'.strategy = s.strategy
  lrus : s'.lrus = s.lrus
  frameDirty : s'.frameDirty = s.frameDirty
  page2frame : s'.page2frame = s.page2frame
  frameToPage : s'.frameToPage = s.frameToPage
  buffer : s'.buffer = s.buffer
  clusterFlag : s'.clusterFlag = s.clusterFlag
  accessH : s'.accessH = s.accessH
  freeFramesNum : s'.freeFramesNum = s.freeFramesNum
  content : headed → s'.zdsm.content = s.zdsm.content.assignAll l
  store : headed → StoreOk cfg s'

theorem Flushed.refl (h : headed → StoreOk cfg s) : Flushed cfg headed s s [] :=
  ⟨rfl, rfl, rfl, rfl, rfl, rfl, rfl, rfl, rfl, fun _ => rfl, h⟩

theorem Flushed.trans (h : Flushed cfg headed s s' l) (h' : Flushed cfg headed s' s'' l') :
    Flushed cfg headed s s'' (l ++ l') where
  strategy := h'.strategy.trans h.strategy
  lrus := h'.lrus.trans h.lrus
  frameDirty := h'.frameDirty.trans h.frameDirty
  page2frame := h'.page2frame.trans h.page2frame
  frameToPage := h'.frameToPage.trans h.frameToPage
  buffer := h'.buffer.trans h.buffer
  clusterFlag := h'.clusterFlag.trans h.clusterFlag
  accessH := h'.accessH.trans h.accessH
  freeFramesNum := h'.freeFramesNum.trans h.freeFramesNum
  content hh := by rw [h'.content hh, h.content hh, PartialMap.assignAll_append]
  store := h'.store

/-- A change of the store alone. -/
theorem Flushed.of_store {c : Controller} (hc : headed →
    c.content = s.zdsm.content.assignAll l ∧ Controller.Inv cfg.g (fun _ => True) c ∧ c.Idle) :
    Flushed cfg headed s { s with zdsm := c } l :=
  ⟨rfl, rfl, rfl, rfl, rfl, rfl, rfl, rfl, rfl, fun hh => (hc hh).1,
    fun hh => ⟨(hc hh).2.1, (hc hh).2.2⟩⟩

theorem detectGarbage_spec (h : headed → StoreOk cfg s) :
    Yields (s.detectGarbage cfg) (Stops headed) fun s' => Flushed cfg headed s s' [] := by
  refine (Yields.under fun hh =>
    Controller.garbageCollectionDetect_spec cfg.tests (h hh).inv (h hh).idle).bind ?_
  intro c hc
  exact Flushed.of_store fun hh => ⟨(hc hh).content, (hc hh).inv, (hc hh).idle⟩

theorem detectCold_spec (h : headed → StoreOk cfg s) :
    Yields (s.detectCold cfg) (Stops headed) fun s' => Flushed cfg headed s s' [] := by
  rw [detectCold]
  split
  case isTrue =>
    refine (Yields.under fun hh =>
      Controller.cdDetect_spec cfg.tests (h hh).inv trivial (h hh).idle).bind ?_
    intro c hc
    exact ⟨rfl, rfl, rfl, rfl, rfl, rfl, rfl, rfl, rfl, fun hh => (hc hh).content,
      fun hh => ⟨(hc hh).inv, (hc hh).idle⟩⟩
  case isFalse => exact Flushed.refl h

/-- The pages of the frames `vs` with the frames' contents. -/
def copies (s : Buffer) (vs : List FrameId) : List (PageId × Page) :=
  vs.map fun v => (s.frameToPage v, s.buffer v)

theorem mem_copies {e : PageId × Page} :
    e ∈ s.copies vs ↔ ∃ v ∈ vs, e = (s.frameToPage v, s.buffer v) := by
  rw [copies, List.mem_map]
  exact exists_congr fun v => and_congr_right fun _ => eq_comm

theorem zip_eq_copies (s : Buffer) (vs : List FrameId) :
    (vs.map s.getPageId).zip (vs.map s.buffer) = s.copies vs := by
  rw [List.zip_map', copies]
  rfl

theorem copies_append (s : Buffer) (vs cs : List FrameId) :
    s.copies (vs ++ cs) = s.copies vs ++ s.copies cs := List.map_append

/-- The frames `vs` can be written back. -/
def Writable (s : Buffer) (vs : List FrameId) : Prop :=
  ∀ v ∈ vs, s.zdsm.content (s.frameToPage v) ≠ none ∧ readId (s.buffer v) = s.frameToPage v

theorem Writable.of_subset (h : s.Writable cs) (hsub : vs ⊆ cs) : s.Writable vs :=
  fun v hv => h v (hsub hv)

/-- What can be written back still can after other pages have been stored. -/
theorem Flushed.writable (h : Flushed cfg headed s s' l) (hh : headed) (hvs : s.Writable vs) :
    s'.Writable vs := by
  intro v hv
  obtain ⟨hne, hid⟩ := hvs v hv
  rw [h.frameToPage, h.buffer, h.content hh]
  exact ⟨PartialMap.assignAll_ne_none hne l, hid⟩

theorem Flushed.copies (h : Flushed cfg headed s s' l) (vs : List FrameId) :
    s'.copies vs = s.copies vs := by
  rw [Buffer.copies, h.frameToPage, h.buffer, Buffer.copies]

theorem Flushed.wrote (h : headed → StoreOk cfg s) {c : Controller}
    (hw : headed → Controller.Wrote cfg.g (fun _ => True) s.zdsm c l) :
    Flushed cfg headed s { s with zdsm := c } l :=
  .of_store fun hh => ⟨(hw hh).content, (hw hh).inv, (hw hh).grew.gc.trans (h hh).idle.gc,
    (hw hh).grew.cd.trans (h hh).idle.cd⟩

theorem Flushed.addFlushCount (h : Flushed cfg headed s s' l) (cf : Int) (n : Nat) :
    Flushed cfg headed s (s'.addFlushCount cf n) l :=
  ⟨h.strategy, h.lrus, h.frameDirty, h.page2frame, h.frameToPage, h.buffer, h.clusterFlag,
    h.accessH, h.freeFramesNum, h.content, fun hh => ⟨(h.store hh).inv, (h.store hh).idle⟩⟩

/-- The pages written back exist, and the frames start with their ids. -/
theorem Writable.zip (h : s.Writable vs) :
    ∀ pb ∈ (vs.map s.getPageId).zip (vs.map s.buffer),
      s.zdsm.content pb.1 ≠ none ∧ readId pb.2 = pb.1 := by
  intro pb hpb
  rw [zip_eq_copies, mem_copies] at hpb
  obtain ⟨v, hv, rfl⟩ := hpb
  exact h v hv

theorem flush_le_cap (s : Buffer) (hlen : vs.length ≤ cfg.defBufSize - cfg.workRegSize) :
    (vs.map s.getPageId).length * PAGE_SIZE ≤ cfg.g.cap := by
  rw [List.length_map]
  exact le_trans (Nat.mul_le_mul_right _ hlen) cfg.flush_fits

theorem writeVictims_spec (h : headed → StoreOk cfg s) (cf : Int)
    (hvs : headed → s.Writable vs) (hlen : vs.length ≤ cfg.defBufSize - cfg.workRegSize) :
    Yields (s.writeVictims cfg cf vs) (Stops headed) fun s' =>
      Flushed cfg headed s s' (s.copies vs) := by
  refine (Yields.under fun hh => Controller.writeCluster_spec (h hh).inv 0 cf trivial
    (by rw [List.length_map, List.length_map]) (s.flush_le_cap hlen) (hvs hh).zip).bind ?_
  intro c hc
  rw [zip_eq_copies] at hc
  exact (Flushed.wrote h hc).addFlushCount cf vs.length

theorem flushVictims_spec (h : headed → StoreOk cfg s) (cf : Int)
    (hvs : headed → s.Writable vs) (hlen : vs.length ≤ cfg.defBufSize - cfg.workRegSize) :
    Yields (s.flushVictims cfg cf vs) (Stops headed) fun s' =>
      Flushed cfg headed s s' (s.copies vs) := by
  match vs, hvs, hlen with
  | [v], hvs, _ =>
      refine (Yields.under fun hh => Controller.writePage_spec (h hh).inv 0 cf trivial
        (hvs hh v (by simp)).1 (hvs hh v (by simp)).2).bind ?_
      intro c hc
      exact (Flushed.wrote h hc).addFlushCount cf 1
  | [], hvs, hlen => exact writeVictims_spec h cf hvs hlen
  | _ :: _ :: _, hvs, hlen => exact writeVictims_spec h cf hvs hlen

/-- What `evict_victim_ach` asks of the store, and which faults it passes on. `R k` says that the
store is fit for `k` more flushes, `T` what the last detector leaves. -/
structure Serves (cfg : Config) (headed : Prop) (E : Fault → Prop) (R : Nat → Controller → Prop)
    (T : Controller → Prop) : Prop where
  write : ∀ (s : Buffer) (cf : Int) (vs : List FrameId) (k : Nat), 0 ≤ cf →
    (headed → StoreOk cfg s) → (headed → s.Writable vs) →
    vs.length ≤ cfg.defBufSize - cfg.workRegSize → R (k + 1) s.zdsm →
    Yields (s.writeVictims cfg cf vs) E fun s' =>
      Flushed cfg headed s s' (s.copies vs) ∧ R k s'.zdsm
  cold : ∀ (s : Buffer), (headed → StoreOk cfg s) → R 0 s.zdsm →
    Yields (s.detectCold cfg) E fun s' => Flushed cfg headed s s' [] ∧ R 0 s'.zdsm
  garbage : ∀ (s : Buffer), (headed → StoreOk cfg s) → R 0 s.zdsm →
    Yields (s.detectGarbage cfg) E fun s' => Flushed cfg headed s s' [] ∧ T s'.zdsm

/-- Any store serves, if it may run out of zones. -/
theorem serves_stops (cfg : Config) (headed : Prop) :
    Serves cfg headed (Stops headed) (fun _ _ => True) fun _ => True where
  write _ cf _ _ _ h hvs hlen _ := (writeVictims_spec h cf hvs hlen).imp fun _ hs' =>
    ⟨hs', trivial⟩
  cold _ h _ := (detectCold_spec h).imp fun _ hs' => ⟨hs', trivial⟩
  garbage _ h _ := (detectGarbage_spec h).imp fun _ hs' => ⟨hs', trivial⟩

/-- The flush of the three levels of `evict_victim_ach`. -/
theorem flushAch_spec {E : Fault → Prop} {R : Nat → Controller → Prop} {T : Controller → Prop}
    (hserves : Serves cfg headed E R T) (hR : R 3 s.zdsm)
    (h : headed → StoreOk cfg s) (hcs : headed → s.Writable cs)
    (hlen : cs.length ≤ cfg.defBufSize - cfg.workRegSize) :
    Yields (s.flushAch cfg cs) E fun s' =>
      Flushed cfg headed (s.recordAccesses cs) s'
        (s.copies ([0, 1, 2].flatMap (s.onLevel cfg cs))) ∧ R 0 s'.zdsm := by
  set s₀ := s.recordAccesses cs with hs₀
  have hloop : Yields ([0, 1, 2].foldlM (flushLevel cfg cs) s₀) E fun s' =>
      Flushed cfg headed s₀ s' (s.copies ([0, 1, 2].flatMap (s.onLevel cfg cs))) ∧
        R (3 - 3) s'.zdsm := by
    -- after `done` levels their frames are stored, and each has used up one flush
    refine Yields.foldlM_upto (fun done s' =>
      Flushed cfg headed s₀ s' (s.copies (done.flatMap (s.onLevel cfg cs))) ∧
        R (3 - done.length) s'.zdsm) _ _
      ⟨Flushed.refl fun hh => ⟨(h hh).inv, (h hh).idle⟩, hR⟩ ?_
    rintro done lv todo s₁ hsplit ⟨hs₁, hR₁⟩
    rw [flushLevel_eq hs₁.accessH hs₁.frameToPage]
    -- the frames of the next level are as they were before the first
    have hw : headed → s₁.Writable (s.onLevel cfg cs lv) := fun hh =>
      hs₁.writable hh ((hcs hh).of_subset (List.filter_subset_self _))
    have hthree : done.length < 3 := by
      have := congrArg List.length hsplit
      simp only [List.length_cons, List.length_nil, List.length_append] at this
      omega
    have hR₁' : R (3 - (done ++ [lv]).length + 1) s₁.zdsm := by
      rw [List.length_append, List.length_singleton]
      convert hR₁ using 1
      omega
    refine (hserves.write s₁ lv _ _ (Int.natCast_nonneg lv) hs₁.store hw
      (le_trans (length_onLevel_le lv) hlen) hR₁').imp ?_
    rintro s₂ ⟨hs₂, hR₂⟩
    have hboth := hs₁.trans hs₂
    rw [hs₁.copies, show s₀.copies (s.onLevel cfg cs lv) = s.copies (s.onLevel cfg cs lv) from rfl,
      ← copies_append] at hboth
    rw [List.flatMap_append, List.flatMap_cons, List.flatMap_nil, List.append_nil]
    exact ⟨hboth, hR₂⟩
  refine hloop.bind ?_
  rintro s₁ ⟨hs₁, hR₁⟩
  exact ⟨⟨hs₁.strategy, hs₁.lrus, hs₁.frameDirty, hs₁.page2frame, hs₁.frameToPage, hs₁.buffer,
    hs₁.clusterFlag, hs₁.accessH, hs₁.freeFramesNum, hs₁.content,
    fun hh => ⟨(hs₁.store hh).inv, (hs₁.store hh).idle⟩⟩, hR₁⟩

/-! ## Unmapping -/

theorem unmapVictims_eq (vs : List FrameId) (s : Buffer) :
    s.unmapVictims vs = { s with
      page2frame := (s.unmapVictims vs).page2frame
      frameDirty := cleared s.frameDirty vs } := by
  induction vs generalizing s with
  | nil =>
      have hclear : cleared s.frameDirty [] = s.frameDirty := by
        funext x
        simp [cleared]
      rw [hclear]
      rfl
  | cons v vs ih =>
      have hclear : cleared (Function.update s.frameDirty v false) vs
          = cleared s.frameDirty (v :: vs) := by
        funext x
        by_cases hx : x = v
        · simp [cleared, hx]
        · simp [cleared, hx]
      have hstep := ih { s with
        page2frame := s.page2frame.erase (s.getPageId v)
        frameDirty := Function.update s.frameDirty v false }
      rw [hclear] at hstep
      exact hstep

theorem unmapVictims_page2frame (vs : List FrameId) (s : Buffer) (p : PageId) (f : FrameId) :
    (s.unmapVictims vs).page2frame p = some f ↔
      s.page2frame p = some f ∧ ∀ v ∈ vs, s.frameToPage v ≠ p := by
  induction vs generalizing s with
  | nil =>
      simp only [List.not_mem_nil, false_imp_iff, implies_true, and_true]
      rfl
  | cons v vs ih =>
      have hstep := ih { s with
        page2frame := s.page2frame.erase (s.getPageId v)
        frameDirty := Function.update s.frameDirty v false }
      have hcons : (s.unmapVictims (v :: vs)).page2frame = (unmapVictims vs { s with
        page2frame := s.page2frame.erase (s.getPageId v)
        frameDirty := Function.update s.frameDirty v false }).page2frame := rfl
      rw [hcons, hstep, PartialMap.erase_eq_some, List.forall_mem_cons, getPageId]
      constructor
      · rintro ⟨⟨hne, hp⟩, hall⟩
        exact ⟨hp, Ne.symm hne, hall⟩
      · rintro ⟨hp, hne, hall⟩
        exact ⟨⟨Ne.symm hne, hp⟩, hall⟩

/-! ## What an eviction does -/

/-- The victims `vs` have been written back, as `l`, and unmapped. -/
structure Evicted (cfg : Config) (headed : Prop) (s s' : Buffer) (vs : List FrameId)
    (l : List (PageId × Page)) : Prop where
  picked : Picked cfg s.frameDirty s.strategy vs s'.strategy
  frameDirty : s'.frameDirty = cleared s.frameDirty vs
  page2frame : ∀ p f, s'.page2frame p = some f ↔
    s.page2frame p = some f ∧ ∀ v ∈ vs, s.frameToPage v ≠ p
  frameToPage : s'.frameToPage = s.frameToPage
  buffer : s'.buffer = s.buffer
  clusterFlag : s'.clusterFlag = s.clusterFlag
  mem : ∀ e, e ∈ l ↔ e ∈ s.copies vs
  content : headed → s'.zdsm.content = s.zdsm.content.assignAll l
  store : headed → StoreOk cfg s'

/-- Frames of the lists can be written back. -/
theorem Stored.writable (h : Stored cfg [] s) (hvs : ∀ v ∈ vs, v ∈ s.strategy.lruOrder) :
    s.Writable vs :=
  fun v hv => ⟨h.created v (hvs v hv), h.header v (hvs v hv) (by simp)⟩

/-- An eviction leaves no frame in the lists that was not there. -/
theorem Evicted.mem_lru (h : Evicted cfg headed s s' vs l) {f : FrameId} :
    f ∈ s'.strategy.lruOrder ↔
      f ∈ s.strategy.lruOrder ∧ (cfg.mode.releases = true → f ∉ vs) := by
  rw [h.picked.lru]
  cases cfg.mode.releases <;> simp

/-- An eviction keeps the lists in order. -/
theorem Evicted.zalpLists (h : Evicted cfg headed s s' vs l) (hl : ZalpLists cfg [] s) :
    ZalpLists cfg [] s' where
  lists := by
    rw [h.frameDirty]
    exact h.picked.ordered
  mapped p f hp := by
    obtain ⟨hp, hne⟩ := (h.page2frame p f).1 hp
    obtain ⟨hf, hpf⟩ := hl.mapped p f hp
    rw [h.frameToPage]
    -- a frame that left the lists was a victim, and its page is no longer mapped
    exact ⟨h.mem_lru.2 ⟨hf, fun _ hv => hne f hv hpf⟩, hpf⟩

/-- **An eviction keeps the invariant.** -/
theorem Evicted.inv (h : Evicted cfg headed s s' vs l) (hinv : Inv cfg headed [] [] s) :
    Inv cfg headed [] [] s' where
  lists := (h.zalpLists hinv.zalpLists).lists
  mapped := (h.zalpLists hinv.zalpLists).mapped
  flags := by
    rw [h.clusterFlag]
    exact hinv.flags
  stored hh := {
    store := h.store hh
    created := by
      intro f hf
      rw [h.content hh, h.frameToPage]
      exact PartialMap.assignAll_ne_none ((hinv.stored hh).created f (h.mem_lru.1 hf).1) l
    header := by
      intro f hf hex
      rw [h.buffer, h.frameToPage]
      exact (hinv.stored hh).header f (h.mem_lru.1 hf).1 hex }

/-- Both evictions end alike: the victims of `s` are stored, unmapped and retired, in whatever
order. -/
theorem Evicted.of_flushed {s₁ s₂ : Buffer}
    (hpicked : Picked cfg s.frameDirty s.strategy vs s'.strategy)
    (hsame : s₁ = { s with
      strategy := s₁.strategy
      accessH := s₁.accessH
      evictCount := s₁.evictCount
      cdCount := s₁.cdCount })
    (hflush : Flushed cfg headed s₁ s₂ l) (hmem : ∀ e, e ∈ l ↔ e ∈ s.copies vs)
    (hlast : Flushed cfg headed { s₂.unmapVictims vs with strategy := s'.strategy } s' []) :
    Evicted cfg headed s s' vs l := by
  have heq := unmapVictims_eq vs s₂
  refine ⟨hpicked, ?_, ?_, ?_, ?_, ?_, hmem, ?_, hlast.store⟩
  · rw [hlast.frameDirty, heq]
    simp only [hflush.frameDirty]
    rw [hsame]
  · intro p f
    rw [hlast.page2frame]
    simp only [unmapVictims_page2frame, hflush.page2frame, hflush.frameToPage]
    rw [hsame]
  · rw [hlast.frameToPage, heq]
    simp only [hflush.frameToPage]
    rw [hsame]
  · rw [hlast.buffer, heq]
    simp only [hflush.buffer]
    rw [hsame]
  · rw [hlast.clusterFlag, heq]
    simp only [hflush.clusterFlag]
    rw [hsame]
  · intro hh
    rw [hlast.content hh, heq]
    simp only [PartialMap.assignAll_nil, hflush.content hh]
    rw [hsame]

/-- **`evict_victim`.** -/
theorem evictVictim_spec (h : Ordered cfg.defBufSize s.frameDirty [] s.strategy)
    (hst : headed → Stored cfg [] s) (hdue : Due cfg s.frameDirty s.strategy)
    (hach : cfg.mode ≠ .achOnly) (hlru : cfg.mode ≠ .lru) (hflag : s.FlagsInRange cfg) :
    Yields (s.evictVictim cfg) (Stops headed) fun s' =>
      ∃ l, Evicted cfg headed s s' (s.victims cfg) l := by
  obtain ⟨cf, z', hchoose, hpicked⟩ := chooseVictims_spec h hdue hach hlru hflag
  set vs := s.victims cfg
  have hwrite : headed → s.Writable vs := fun hh =>
    (hst hh).writable fun v hv => List.mem_of_mem_drop (hpicked.mem v hv).1
  set s₁ := ({ s with strategy := z' } : Buffer).countEvicted vs.length with hs₁
  have hst₁ : headed → StoreOk cfg s₁ := fun hh =>
    ⟨(hst hh).store.inv, (hst hh).store.idle⟩
  refine Yields.bind_ok hchoose ?_
  refine (flushVictims_spec hst₁ cf hwrite (hpicked.length_le h)).bind ?_
  intro s₂ hs₂
  have heq := unmapVictims_eq vs s₂
  have hst₃ : headed → StoreOk cfg (s₂.unmapVictims vs) := by
    rw [heq]
    exact fun hh => ⟨(hs₂.store hh).inv, (hs₂.store hh).idle⟩
  refine (detectCold_spec hst₃).bind ?_
  intro s₄ hs₄
  refine (detectGarbage_spec hs₄.store).imp ?_
  intro s₅ hs₅
  -- the two detectors at the end change nothing but the store
  have hlast := hs₄.trans hs₅
  have hstrategy : s₅.strategy = z' := by
    rw [hlast.strategy, heq]
    exact hs₂.strategy
  have hthis : ({ s₂.unmapVictims vs with strategy := s₅.strategy } : Buffer)
      = s₂.unmapVictims vs := by rw [hlast.strategy]
  exact ⟨s.copies vs, Evicted.of_flushed (hstrategy ▸ hpicked) rfl hs₂ (fun _ => Iff.rfl)
    (by rw [hthis]; exact hlast)⟩

/-- **`evict_victim_ach`.** -/
theorem evictVictimAch_spec {E : Fault → Prop} {R : Nat → Controller → Prop}
    {T : Controller → Prop} (hserves : Serves cfg headed E R T) (hR : R 3 s.zdsm)
    (h : Ordered cfg.defBufSize s.frameDirty [] s.strategy) (hst : headed → Stored cfg [] s)
    (hdue : Due cfg s.frameDirty s.strategy) (hach : cfg.mode = .achOnly) :
    Yields (s.evictVictimAch cfg) E fun s' =>
      (∃ l, Evicted cfg headed s s' (s.victims cfg) l) ∧ T s'.zdsm := by
  have hvictims : s.victims cfg = s.strategy.lruOrder.drop cfg.workRegSize := by
    rw [victims, hach]
  rw [hvictims]
  have hcand := h.getCandidate_eq hdue.free hdue.dirty
  set cs := s.strategy.lruOrder.drop cfg.workRegSize with hcs
  have hrel : cfg.mode.releases = false := by
    rw [hach]
    rfl
  obtain ⟨xs, id, -, hid⟩ := exists_last h hdue
  obtain ⟨z', hretire, hpicked⟩ := picked_filter h hdue (fun _ => true) ⟨id, hid, rfl⟩
  rw [← hcs, List.filter_true, hrel, if_neg Bool.false_ne_true] at hretire
  rw [← hcs, List.filter_true] at hpicked
  have hwrite : headed → s.Writable cs := fun hh =>
    (hst hh).writable fun v hv => List.mem_of_mem_drop hv
  refine Yields.bind_ok hcand ?_
  refine (flushAch_spec hserves hR (fun hh => (hst hh).store) hwrite
    (hpicked.length_le h)).bind ?_
  rintro s₂ ⟨hs₂, hR₂⟩
  have heq := unmapVictims_eq cs s₂
  have hst₃ : headed → StoreOk cfg (s₂.unmapVictims cs) := by
    rw [heq]
    exact fun hh => ⟨(hs₂.store hh).inv, (hs₂.store hh).idle⟩
  have hR₃ : R 0 (s₂.unmapVictims cs).zdsm := by
    rw [heq]
    exact hR₂
  refine (hserves.cold _ hst₃ hR₃).bind ?_
  rintro s₄ ⟨hs₄, hR₄⟩
  have hs₄z : s₄.strategy = s.strategy := by
    rw [hs₄.strategy, heq]
    exact hs₂.strategy
  refine Yields.bind_ok (hs₄z ▸ hretire) ?_
  have hst₅ : headed → StoreOk cfg { s₄ with strategy := z' } := fun hh =>
    ⟨(hs₄.store hh).inv, (hs₄.store hh).idle⟩
  refine (hserves.garbage { s₄ with strategy := z' } hst₅ hR₄).imp ?_
  rintro s₆ ⟨hs₆, hR₆⟩
  have hstrategy : s₆.strategy = z' := hs₆.strategy
  -- the detectors before and after the change of the lists
  have hlast : Flushed cfg headed { s₂.unmapVictims cs with strategy := s₆.strategy } s₆ [] := by
    have hmid : Flushed cfg headed { s₂.unmapVictims cs with strategy := z' }
        { s₄ with strategy := z' } [] :=
      ⟨rfl, hs₄.lrus, hs₄.frameDirty, hs₄.page2frame, hs₄.frameToPage, hs₄.buffer,
        hs₄.clusterFlag, hs₄.accessH, hs₄.freeFramesNum, hs₄.content, hst₅⟩
    rw [hstrategy]
    exact hmid.trans hs₆
  refine ⟨⟨_, Evicted.of_flushed (hstrategy ▸ hpicked) rfl hs₂ (fun e => ?_) hlast⟩, hR₆⟩
  rw [mem_copies, mem_copies]
  exact exists_congr fun v => and_congr_left fun _ => mem_levels

/-- There is room for another page: an eviction was not due, or it has been made. -/
def Roomed (cfg : Config) (headed : Prop) (s s' : Buffer) : Prop :=
  (¬ Due cfg s.frameDirty s.strategy ∧ s' = s) ∨
    (Due cfg s.frameDirty s.strategy ∧ ∃ l, Evicted cfg headed s s' (s.victims cfg) l)

theorem isEvict_eq (h : Ordered cfg.defBufSize s.frameDirty [] s.strategy) :
    s.isEvict cfg = .ok (decide (Due cfg s.frameDirty s.strategy)) := by
  rw [isEvict, h.isEvict_iff cfg.work_lt]
  congr 1
  rw [decide_eq_decide]
  exact ⟨fun hdue => ⟨hdue.1, hdue.2⟩, fun hdue => ⟨hdue.free, hdue.dirty⟩⟩

/-- **The eviction at the start of a miss.** -/
theorem makeRoom_spec (h : Inv cfg headed [] [] s) (hlru : cfg.mode ≠ .lru) :
    Yields (s.makeRoom cfg) (Stops headed) fun s' =>
      Inv cfg headed [] [] s' ∧ Roomed cfg headed s s' := by
  refine Yields.bind_ok (isEvict_eq h.lists) ?_
  by_cases hdue : Due cfg s.frameDirty s.strategy
  · have hevict : Yields (s.evict cfg) (Stops headed) fun s' =>
        ∃ l, Evicted cfg headed s s' (s.victims cfg) l := by
      rw [evict]
      split
      case isTrue hach =>
        exact (evictVictimAch_spec (serves_stops cfg headed) trivial h.lists h.stored hdue hach).imp
          fun _ hs' => hs'.1
      case isFalse hach =>
        exact evictVictim_spec h.lists h.stored hdue hach hlru fun hm f _ => h.flags hm f
    rw [decide_eq_true hdue, if_pos rfl]
    refine hevict.imp ?_
    rintro s' ⟨l, hs'⟩
    exact ⟨hs'.inv h, Or.inr ⟨hdue, l, hs'⟩⟩
  · rw [decide_eq_false hdue, if_neg Bool.false_ne_true]
    exact ⟨h, Or.inl ⟨hdue, rfl⟩⟩

end Buffer

end ZoneBuffer
