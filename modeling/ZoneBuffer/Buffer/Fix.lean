import ZoneBuffer.Buffer.Evict
import ZoneBuffer.Zone.Runs

set_option autoImplicit false

/-! # Fixing pages

A miss makes room, takes a frame (`Took`), places the page in it and loads the page unless it is
about to be overwritten (`Loaded`). `fix_page` and `fix_new_page` are made of these few steps;
whatever is to be shown of a run is shown of them. -/

namespace ZoneBuffer

open Outcome Region

namespace Buffer

variable {cfg : Config} {headed : Prop} {s s' s₁ s₂ : Buffer} {held ex vs : List FrameId}
  {l : List (PageId × Page)} {f : FrameId} {p : PageId} {b : Page}

/-! ## Taking a frame -/

/-- The last free frame of `s` has been taken. -/
structure TookFree (s s' : Buffer) (f : FrameId) : Prop where
  free : s.strategy.freeFrames = s'.strategy.freeFrames ++ [f]
  lru : s'.strategy.lruOrder = s.strategy.lruOrder
  page2frame : s'.page2frame = s.page2frame

/-- The last clean frame of `s` has been taken, and the page recorded for it been unmapped. -/
structure TookClean (cfg : Config) (s s' : Buffer) (f : FrameId) : Prop where
  free : s.strategy.freeFrames = []
  last : s.strategy.cleanFrames.getLast? = some f
  mem : f ∈ s.strategy.lruOrder.drop cfg.workRegSize
  clean : s.frameDirty f = false
  free' : s'.strategy.freeFrames = []
  lru : s'.strategy.lruOrder = s.strategy.lruOrder.erase f
  page2frame : s'.page2frame = s.page2frame.erase (s.frameToPage f)

/-- Frame `f` has been taken from the lists. -/
structure Took (cfg : Config) (s s' : Buffer) (f : FrameId) : Prop where
  same : s' = { s with strategy := s'.strategy, page2frame := s'.page2frame }
  how : TookFree s s' f ∨ TookClean cfg s s' f

theorem Took.frameDirty (h : Took cfg s s' f) : s'.frameDirty = s.frameDirty := by rw [h.same]

theorem Took.frameToPage (h : Took cfg s s' f) : s'.frameToPage = s.frameToPage := by rw [h.same]

theorem Took.buffer (h : Took cfg s s' f) : s'.buffer = s.buffer := by rw [h.same]

theorem Took.zdsm (h : Took cfg s s' f) : s'.zdsm = s.zdsm := by rw [h.same]

theorem Took.mem_lru (h : Took cfg s s' f) (hl : ZalpLists cfg [] s) {g : FrameId} :
    g ∈ s'.strategy.lruOrder ↔ g ∈ s.strategy.lruOrder ∧ g ≠ f := by
  rcases h.how with hfree | hclean
  · have hnot : f ∉ s.strategy.lruOrder := by
      have hnd := hl.lists.nodup
      rw [hfree.free, List.nil_append, List.append_assoc] at hnd
      have hdis := (List.nodup_append.1 hnd).2.1
      rw [List.singleton_append, List.nodup_cons] at hdis
      exact hdis.1
    rw [hfree.lru]
    refine ⟨fun hg => ⟨hg, ?_⟩, fun hg => hg.1⟩
    rintro rfl
    exact hnot hg
  · rw [hclean.lru, hl.lists.nodup_lru.mem_erase_iff]
    exact and_comm

/-- A mapping that is left was there before, and not to the frame taken. -/
theorem Took.page2frame_eq_some (h : Took cfg s s' f) (hl : ZalpLists cfg [] s)
    {g : FrameId} (hp : s'.page2frame p = some g) : s.page2frame p = some g ∧ g ≠ f := by
  rcases h.how with hfree | hclean
  · rw [hfree.page2frame] at hp
    have hg := (hl.mapped p g hp).1
    rw [← hfree.lru, h.mem_lru hl] at hg
    exact ⟨hp, hg.2⟩
  · rw [hclean.page2frame, PartialMap.erase_eq_some] at hp
    refine ⟨hp.2, ?_⟩
    rintro rfl
    exact hp.1 (hl.mapped p g hp.2).2.symm

/-- The lists of the state in which `get_frame` is called hold a frame for it. -/
def HasRoom (cfg : Config) (s : Buffer) : Prop :=
  s.strategy.freeFrames ≠ [] ∨
    ∃ x ∈ s.strategy.lruOrder.drop cfg.workRegSize, s.frameDirty x = false

/-- **After an eviction, or if none is due, there is a frame to take.** -/
theorem Roomed.hasRoom (h : Roomed cfg headed s s') : HasRoom cfg s' := by
  rcases h with ⟨hdue, rfl⟩ | ⟨hdue, l, hev⟩
  · by_cases hf : s'.strategy.freeFrames = []
    · right
      by_contra hall
      push Not at hall
      exact hdue ⟨hf, fun x hx => by simpa using hall x hx⟩
    · exact Or.inl hf
  · obtain ⟨v, hv⟩ := List.exists_mem_of_ne_nil _ hev.picked.ne_nil
    cases hrel : cfg.mode.releases with
    | true =>
        left
        rw [hev.picked.free, hrel, if_pos rfl]
        simp [hev.picked.ne_nil]
    | false =>
        right
        refine ⟨v, ?_, ?_⟩
        · rw [hev.picked.lru, hrel, if_neg Bool.false_ne_true]
          exact (hev.picked.mem v hv).1
        · rw [hev.frameDirty]
          exact Ordered.cleared_of_mem hv

/-- The lines of `takeFrame` after the eviction. -/
theorem getFrame_spec (h : Ordered cfg.defBufSize s.frameDirty [] s.strategy)
    (hroom : HasRoom cfg s) :
    ∃ f isFree z, s.strategy.getFrame = .ok (f, isFree, z) ∧
      Ordered cfg.defBufSize s.frameDirty [f] z ∧
      Took cfg s (if isFree then { s with strategy := z } else { s with
        strategy := z
        page2frame := s.page2frame.erase (s.getPageId f) }) f := by
  by_cases hfree : s.strategy.freeFrames = []
  · obtain ⟨x, hx, hxd⟩ := hroom.resolve_left (not_not.2 hfree)
    -- the last clean frame lies behind the working region, as some clean frame does
    have hmem : x ∈ s.strategy.lruOrder.filter fun x => !s.frameDirty x :=
      List.mem_filter.2 ⟨List.mem_of_mem_drop hx, by simp [hxd]⟩
    have hne := List.ne_nil_of_mem hmem
    have hsplit := (List.dropLast_append_getLast hne).symm
    set f := (s.strategy.lruOrder.filter fun x => !s.frameDirty x).getLast hne
    have hlast : (s.strategy.lruOrder.filter fun x => !s.frameDirty x).getLast? = some f :=
      List.getLast?_eq_some_getLast hne
    obtain ⟨z, hget, hord, hfree', hlru⟩ := h.takeClean hfree hsplit
    refine ⟨f, false, z, hget, hord, rfl, Or.inr ⟨hfree, ?_, ?_, ?_, hfree', hlru, rfl⟩⟩
    · rw [h.shows.clean]
      exact hlast
    · exact getLast_mem_drop (p := fun x => !s.frameDirty x) hx (by simp [hxd]) hlast
    · simpa using (List.mem_filter.1 (List.mem_of_getLast? hlast)).2
  · obtain ⟨z, hget, hord, hfree', hlru⟩ :=
      h.takeFree (List.dropLast_append_getLast hfree).symm
    refine ⟨s.strategy.freeFrames.getLast hfree, true, z, hget, hord, rfl,
      Or.inl ⟨?_, hlru, rfl⟩⟩
    rw [if_pos rfl]
    show _ = z.freeFrames ++ _
    rw [hfree', List.dropLast_append_getLast]

/-- Taking a frame keeps the lists in order; the frame is held. -/
theorem Took.zalpLists (h : Took cfg s s' f) (hl : ZalpLists cfg [] s)
    (hord : Ordered cfg.defBufSize s.frameDirty [f] s'.strategy) : ZalpLists cfg [f] s' where
  lists := by
    rw [h.frameDirty]
    exact hord
  mapped q g hq := by
    obtain ⟨hq, hne⟩ := h.page2frame_eq_some hl hq
    obtain ⟨hg, hgq⟩ := hl.mapped q g hq
    rw [h.mem_lru hl, h.frameToPage]
    exact ⟨⟨hg, hne⟩, hgq⟩

/-- Taking a frame keeps the invariant. -/
theorem Took.inv (h : Took cfg s s' f) (hinv : Inv cfg headed [] [] s)
    (hord : Ordered cfg.defBufSize s.frameDirty [f] s'.strategy) : Inv cfg headed [f] [] s' where
  lists := (h.zalpLists hinv.zalpLists hord).lists
  mapped := (h.zalpLists hinv.zalpLists hord).mapped
  flags := by
    rw [h.same]
    exact hinv.flags
  stored hh := {
    store := ⟨h.zdsm ▸ (hinv.stored hh).store.inv, h.zdsm ▸ (hinv.stored hh).store.idle⟩
    created := by
      intro g hg
      rw [h.zdsm, h.frameToPage]
      exact (hinv.stored hh).created g ((h.mem_lru hinv.zalpLists).1 hg).1
    header := by
      intro g hg hex
      rw [h.buffer, h.frameToPage]
      exact (hinv.stored hh).header g ((h.mem_lru hinv.zalpLists).1 hg).1 hex }

/-- Room has been made in `s` and the frame `f` taken. -/
def Missed (cfg : Config) (headed : Prop) (s s' : Buffer) (f : FrameId) : Prop :=
  ∃ s₁, Inv cfg headed [] [] s₁ ∧ Roomed cfg headed s s₁ ∧ Took cfg s₁ s' f

/-- The lines of `takeFrame` after the eviction, whatever that is known to leave. -/
theorem takeFrame_yields {E : Fault → Prop} {P : Buffer → Prop}
    (hroom : Yields (s.makeRoom cfg) E fun s₁ =>
      Inv cfg headed [] [] s₁ ∧ Roomed cfg headed s s₁ ∧ P s₁) :
    Yields (s.takeFrame cfg) E fun r => Inv cfg headed [r.1] [] r.2 ∧
      ∃ s₁, Inv cfg headed [] [] s₁ ∧ Roomed cfg headed s s₁ ∧ Took cfg s₁ r.2 r.1 ∧ P s₁ := by
  refine hroom.bind ?_
  rintro s₁ ⟨hinv, hroomed, hP⟩
  obtain ⟨f, isFree, z, hget, hord, htook⟩ := getFrame_spec hinv.lists hroomed.hasRoom
  refine Yields.bind_ok hget ?_
  cases isFree with
  | true => exact ⟨htook.inv hinv hord, s₁, hinv, hroomed, htook, hP⟩
  | false => exact ⟨htook.inv hinv hord, s₁, hinv, hroomed, htook, hP⟩

/-- **A miss takes a frame.** -/
theorem takeFrame_spec (h : Inv cfg headed [] [] s) (hlru : cfg.mode ≠ .lru) :
    Yields (s.takeFrame cfg) (Stops headed) fun r =>
      Inv cfg headed [r.1] [] r.2 ∧ Missed cfg headed s r.2 r.1 := by
  have hroom := (makeRoom_spec h hlru).imp fun _ hs => (⟨hs.1, hs.2, trivial⟩ : _ ∧ _ ∧ True)
  refine (takeFrame_yields hroom).imp ?_
  rintro r ⟨hinv, s₁, hinv₁, hroomed, htook, -⟩
  exact ⟨hinv, s₁, hinv₁, hroomed, htook⟩

/-- **A frame taken while none was free lay behind the working region.** -/
theorem Missed.mem_drop (h : Missed cfg headed s s' f) (hfree : s.strategy.freeFrames = []) :
    f ∈ s.strategy.lruOrder.drop cfg.workRegSize := by
  obtain ⟨s₁, -, ⟨-, rfl⟩ | ⟨-, l, hev⟩, htook⟩ := h
  · rcases htook.how with hf | hc
    · rw [hf.free] at hfree
      simp at hfree
    · exact hc.mem
  · cases hrel : cfg.mode.releases with
    | true =>
        -- the frames just released are the only free ones
        have hfree₁ := hev.picked.free
        rw [hrel, if_pos rfl, hfree, List.nil_append] at hfree₁
        rcases htook.how with hf | hc
        · refine (hev.picked.mem f ?_).1
          rw [← hfree₁, hf.free]
          simp
        · rw [hc.free] at hfree₁
          exact absurd hfree₁.symm hev.picked.ne_nil
    | false =>
        have hfree₁ := hev.picked.free
        have hlru₁ := hev.picked.lru
        rw [hrel, if_neg Bool.false_ne_true] at hfree₁ hlru₁
        rcases htook.how with hf | hc
        -- an eviction that releases nothing leaves no frame free
        · rw [hf.free, hfree] at hfree₁
          simp at hfree₁
        · rw [← hlru₁]
          exact hc.mem

/-! ## Placing a page -/

/-- Map `p` to the frame held and push the frame as a clean one. -/
def place (p : PageId) (f : FrameId) (s : Buffer) : Buffer :=
  ({ s with
    page2frame := s.page2frame.insert p f
    strategy := s.strategy.push f false } : Buffer).setPageId f p

/-- Placing a page keeps the lists in order, also if the page is mapped to another frame. -/
theorem ZalpLists.place (h : ZalpLists cfg [f] s) (p : PageId) :
    ZalpLists cfg [] (s.place p f) where
  lists := h.lists.put.1
  mapped q g hq := by
    have hlru : (s.place p f).strategy.lruOrder = f :: s.strategy.lruOrder := h.lists.put.2.2
    have hq' : s.page2frame.insert p f q = some g := hq
    rw [PartialMap.insert_eq_some] at hq'
    rw [hlru]
    rcases hq' with hq' | ⟨-, rfl, rfl⟩
    · obtain ⟨hg, hgq⟩ := h.mapped q g hq'
      have hne : g ≠ f := by
        rintro rfl
        exact h.lists.held_notMem hg
      exact ⟨List.mem_cons_of_mem f hg, (Function.update_of_ne hne _ _).trans hgq⟩
    · exact ⟨List.mem_cons_self, Function.update_self ..⟩

theorem Inv.place (h : Inv cfg headed [f] [] s)
    (hcreated : headed → s.zdsm.content p ≠ none) : Inv cfg headed [] [f] (s.place p f) where
  lists := (h.zalpLists.place p).lists
  mapped := (h.zalpLists.place p).mapped
  flags := h.flags
  stored hh := by
    have hlru : (s.place p f).strategy.lruOrder = f :: s.strategy.lruOrder := h.lists.put.2.2
    -- the frame held is in no list, so the frames of the list keep their pages
    have hpage : ∀ g ∈ s.strategy.lruOrder, (s.place p f).frameToPage g = s.frameToPage g := by
      intro g hg
      refine Function.update_of_ne ?_ _ _
      rintro rfl
      exact h.lists.held_notMem hg
    refine ⟨⟨(h.stored hh).store.inv, (h.stored hh).store.idle⟩, fun g hg => ?_,
      fun g hg hex => ?_⟩
    · rw [hlru] at hg
      rcases List.mem_cons.1 hg with rfl | hg
      · rw [show (s.place p g).frameToPage g = p from Function.update_self ..]
        exact hcreated hh
      · rw [hpage g hg]
        exact (h.stored hh).created g hg
    · rw [hlru] at hg
      have hg := (List.mem_cons.1 hg).resolve_left (by simpa using hex)
      rw [hpage g hg]
      exact (h.stored hh).header g hg (by simp)

/-- Frames may always be excepted. -/
theorem Inv.except (h : Inv cfg headed held [] s) (ex : List FrameId) :
    Inv cfg headed held ex s :=
  ⟨h.lists, h.mapped, h.flags, fun hh => ⟨(h.stored hh).store, (h.stored hh).created,
    fun g hg _ => (h.stored hh).header g hg (by simp)⟩⟩

/-- The frame excepted is overwritten. -/
theorem Inv.fill (h : Inv cfg headed [] [f] s) (hid : headed → readId b = s.frameToPage f) :
    Inv cfg headed [] [] (s.fill f b) :=
  ⟨h.lists, h.mapped, h.flags, fun hh => ⟨⟨(h.stored hh).store.inv, (h.stored hh).store.idle⟩,
    (h.stored hh).created, fun g hg _ => by
      by_cases hgf : g = f
      · rw [hgf]
        exact (congrArg readId (Function.update_self ..)).trans (hid hh)
      · exact (congrArg readId (Function.update_of_ne hgf _ _)).trans
          ((h.stored hh).header g hg (by simpa using hgf))⟩⟩

/-! ## Loading a page -/

/-- In mode `zalp` the clusters are far from overflowing the flags. -/
theorem clusterNum_zalp (hm : cfg.mode = .zalp) : cfg.g.clusterNum = 4 := by
  rw [cfg.cluster_eq, hm]
  rfl

theorem toInt_zoneCluster (hm : cfg.mode = .zalp) (zone : Nat) :
    (Int32.ofNat (zone % cfg.g.clusterNum)).toInt = (zone % cfg.g.clusterNum : Nat) := by
  have hlt := Nat.mod_lt zone cfg.g.cluster_pos
  have hnum := clusterNum_zalp hm
  exact Int32.toInt_ofNat_of_lt (by omega)

theorem toInt_pageCluster (hm : cfg.mode = .zalp) (p : PageId) :
    (Int32.ofInt (p.toInt.tmod cfg.g.clusterNum)).toInt = p.toInt.tmod cfg.g.clusterNum := by
  have hpos : (0 : Int) < cfg.g.clusterNum := Int.natCast_pos.2 cfg.g.cluster_pos
  have hlt := Int.tmod_lt_of_pos p.toInt hpos
  have hgt := Int.lt_tmod_of_pos p.toInt hpos
  have hnum := clusterNum_zalp hm
  exact Int32.toInt_ofInt_of_le (by omega) (by omega)

/-- The page `p` has been read into frame `f`. -/
structure Loaded (cfg : Config) (headed : Prop) (s s' : Buffer) (p : PageId) (f : FrameId) :
    Prop where
  strategy : s'.strategy = s.strategy
  frameDirty : s'.frameDirty = s.frameDirty
  page2frame : s'.page2frame = s.page2frame
  frameToPage : s'.frameToPage = s.frameToPage
  buffer : ∃ b, s'.buffer = Function.update s.buffer f b ∧
    (headed → s.zdsm.content p = some b)
  clusterFlag : cfg.mode = .zalp → ∀ g, s'.clusterFlag g = s.clusterFlag g ∨
    0 ≤ (s'.clusterFlag g).toInt ∧ (s'.clusterFlag g).toInt < cfg.g.clusterNum
  content : headed → s'.zdsm.content = s.zdsm.content
  store : headed → StoreOk cfg s'

theorem StoreOk.incIoCount (h : StoreOk cfg s) :
    StoreOk cfg { s with zdsm := s.zdsm.incIoCount } :=
  ⟨h.inv.counters rfl rfl rfl rfl rfl, h.idle.gc, h.idle.cd⟩

theorem loadFixed_spec (h : headed → StoreOk cfg s) (hp : headed → s.zdsm.content p ≠ none) :
    Yields (s.loadFixed cfg p f) (Stops headed) fun s' => Loaded cfg headed s s' p f := by
  -- the store has the page, and reading it changes a counter only
  have hread : headed → Yields (s.zdsm.readPage cfg.g p) (· = .noZone) fun r =>
      s.zdsm.content p = some r.2.1 ∧ r.2.2 = s.zdsm.incIoCount := by
    intro hh
    obtain ⟨b, hb⟩ := Option.ne_none_iff_exists'.1 (hp hh)
    have hsim : Controller.Sim cfg.g (fun _ => True) s.zdsm s.zdsm.content :=
      ⟨(h hh).inv, rfl, (h hh).idle⟩
    obtain ⟨z, hz⟩ := hsim.readPage hb
    rw [hz]
    exact ⟨hb, rfl⟩
  rw [loadFixed, loadPage, bind_assoc]
  refine (Yields.under hread).bind ?_
  rintro ⟨zone, b, c⟩ hc
  have hstore : headed → StoreOk cfg { s with zdsm := c } := by
    intro hh
    obtain rfl : c = s.zdsm.incIoCount := (hc hh).2
    exact (h hh).incIoCount
  have hcontent : headed → c.content = s.zdsm.content := by
    intro hh
    obtain rfl : c = s.zdsm.incIoCount := (hc hh).2
    rfl
  have hbuf : headed → s.zdsm.content p = some b := fun hh => (hc hh).1
  simp only [ok_bind]
  cases hm : cfg.mode with
  | zalp =>
      refine ⟨rfl, rfl, rfl, rfl, ⟨b, rfl, hbuf⟩, fun _ g => ?_, hcontent,
        fun hh => ⟨(hstore hh).inv, (hstore hh).idle⟩⟩
      by_cases hg : g = f
      · right
        show 0 ≤ (Function.update s.clusterFlag f (Int32.ofNat (zone % cfg.g.clusterNum)) g).toInt ∧
          (Function.update s.clusterFlag f (Int32.ofNat (zone % cfg.g.clusterNum)) g).toInt < _
        rw [hg, Function.update_self, toInt_zoneCluster hm]
        exact ⟨Int.natCast_nonneg _, Int.ofNat_lt.2 (Nat.mod_lt _ cfg.g.cluster_pos)⟩
      · exact Or.inl (Function.update_of_ne hg _ _)
  | zalpWc | whOnly | achOnly | cflru | lru =>
      exact ⟨rfl, rfl, rfl, rfl, ⟨b, rfl, hbuf⟩, fun h => absurd (hm.symm.trans h) (by decide),
        hcontent, fun hh => ⟨(hstore hh).inv, (hstore hh).idle⟩⟩

end Buffer

end ZoneBuffer
