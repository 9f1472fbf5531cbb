import ZoneBuffer.Buffer.Fix

set_option autoImplicit false

/-! # The calls of the manager

What `read_page`, `write_page` and `fix_new_page` do to a state with the invariant, in the modes
with `ZALP`. Each specification says that the invariant is kept and names the few steps the call
is made of; `Fixed` is what the first two have in common. -/

namespace ZoneBuffer

open Outcome

namespace Buffer

variable {cfg : Config} {headed : Prop} {s s' s₁ s₂ : Buffer} {f : FrameId} {p : PageId}
  {b : Page} {isWrite : Bool}

/-! ## `fix_page` -/

theorem Loaded.inv (h : Loaded cfg headed s s' p f) (hinv : Inv cfg headed [] [f] s)
    (hf : s.frameToPage f = p) : Inv cfg headed [] [] s' where
  lists := by
    rw [h.frameDirty, h.strategy]
    exact hinv.lists
  mapped := by
    rw [h.page2frame, h.strategy, h.frameToPage]
    exact hinv.mapped
  flags hm g := by
    rcases h.clusterFlag hm g with hg | hg
    · rw [hg]
      exact hinv.flags hm g
    · exact hg
  stored hh := by
    obtain ⟨b, hb, hcontent⟩ := h.buffer
    have hid : readId b = p := (hinv.stored hh).store.inv.readId_content (hcontent hh)
    refine ⟨h.store hh, fun g hg => ?_, fun g hg _ => ?_⟩
    · rw [h.content hh, h.frameToPage]
      exact (hinv.stored hh).created g (h.strategy ▸ hg)
    · rw [hb, h.frameToPage]
      by_cases hgf : g = f
      · rw [hgf, Function.update_self, hid, hf]
      · rw [Function.update_of_ne hgf]
        exact (hinv.stored hh).header g (h.strategy ▸ hg) (by simpa using hgf)

/-- The page of frame `f` has been found resident, and `f` moved to the front. -/
structure Hit (s s' : Buffer) (f : FrameId) : Prop where
  same : s' = { s with
    strategy := s'.strategy
    clusterFlag := s'.clusterFlag
    hitCount := s'.hitCount }
  free : s'.strategy.freeFrames = s.strategy.freeFrames
  lru : s'.strategy.lruOrder = f :: s.strategy.lruOrder.erase f

theorem Hit.mem_lru (h : Hit s s' f) (hf : f ∈ s.strategy.lruOrder) {g : FrameId} :
    g ∈ s'.strategy.lruOrder ↔ g ∈ s.strategy.lruOrder := by
  rw [h.lru]
  exact (List.perm_cons_erase hf).symm.mem_iff

theorem Hit.inv (h : Hit s s' f) (hinv : Inv cfg headed [] [] s) (hf : f ∈ s.strategy.lruOrder)
    (hord : Ordered cfg.defBufSize s.frameDirty [] s'.strategy)
    (hflag : cfg.mode = .zalp → s'.clusterFlag = s.clusterFlag) : Inv cfg headed [] [] s' where
  lists := by
    have hd : s'.frameDirty = s.frameDirty := by rw [h.same]
    rw [hd]
    exact hord
  mapped q g hq := by
    rw [h.mem_lru hf]
    rw [h.same] at hq ⊢
    exact hinv.mapped q g hq
  flags hm := by
    rw [hflag hm]
    exact hinv.flags hm
  stored hh := by
    have hz : s'.zdsm = s.zdsm := by rw [h.same]
    have hpage : s'.frameToPage = s.frameToPage := by rw [h.same]
    have hbuf : s'.buffer = s.buffer := by rw [h.same]
    refine ⟨⟨hz ▸ (hinv.stored hh).store.inv, hz ▸ (hinv.stored hh).store.idle⟩,
      fun g hg => ?_, fun g hg hex => ?_⟩
    · rw [hz, hpage]
      exact (hinv.stored hh).created g ((h.mem_lru hf).1 hg)
    · rw [hbuf, hpage]
      exact (hinv.stored hh).header g ((h.mem_lru hf).1 hg) hex

/-- Page `p` has been given frame `f`: it had it, or it missed, and unless it is about to be
overwritten it has been loaded. -/
inductive Fixed (cfg : Config) (headed : Prop) (isWrite : Bool) (s : Buffer) (p : PageId)
    (f : FrameId) (s' : Buffer) : Prop
  | hit (hp : s.page2frame p = some f) (h : Hit s s' f)
  | write (s₂ : Buffer) (hw : isWrite = true) (hp : s.page2frame p = none)
      (hinv : Inv cfg headed [f] [] s₂) (hmiss : Missed cfg headed s s₂ f)
      (hs : s' = s₂.place p f)
  | read (s₂ : Buffer) (hw : isWrite = false) (hp : s.page2frame p = none)
      (hinv : Inv cfg headed [f] [] s₂) (hmiss : Missed cfg headed s s₂ f)
      (hload : Loaded cfg headed (s₂.place p f) s' p f)

/-- What a call of `fix_page` may assume of page `p`. -/
def Exists (headed : Prop) (s : Buffer) (p : PageId) : Prop := headed → s.zdsm.content p ≠ none

/-- An eviction takes no page from the store. -/
theorem Missed.content_ne_none (h : Missed cfg headed s s' f) (hp : s.Exists headed p) :
    s'.Exists headed p := by
  obtain ⟨s₁, -, hroomed, htook⟩ := h
  intro hh
  rw [htook.zdsm]
  rcases hroomed with ⟨-, rfl⟩ | ⟨-, l, hev⟩
  · exact hp hh
  · rw [hev.content hh]
    exact PartialMap.assignAll_ne_none (hp hh) l

/-- An eviction adds no page to the store. -/
theorem Missed.content_eq_none (h : Missed cfg headed s s' f) (hinv : Inv cfg headed [] [] s)
    (hh : headed) (hp : s.zdsm.content p = none) : s'.zdsm.content p = none := by
  obtain ⟨s₁, -, hroomed, htook⟩ := h
  rw [htook.zdsm]
  rcases hroomed with ⟨-, rfl⟩ | ⟨-, l, hev⟩
  · exact hp
  · rw [hev.content hh, PartialMap.assignAll_of_notMem, hp]
    -- what an eviction stores is the content of frames, whose pages exist
    rintro e he rfl
    obtain ⟨v, hv, rfl⟩ := mem_copies.1 ((hev.mem e).1 he)
    exact (hinv.stored hh).created v (List.mem_of_mem_drop (hev.picked.mem v hv).1) hp

/-- An eviction maps no page. -/
theorem Missed.page2frame_eq_none (h : Missed cfg headed s s' f) (hp : s.page2frame p = none) :
    s'.page2frame p = none := by
  obtain ⟨s₁, hinv₁, hroomed, htook⟩ := h
  rw [Option.eq_none_iff_forall_ne_some]
  intro g hg
  obtain ⟨hg, -⟩ := htook.page2frame_eq_some hinv₁.zalpLists hg
  rcases hroomed with ⟨-, rfl⟩ | ⟨-, l, hev⟩
  · rw [hp] at hg
    cases hg
  · rw [hev.page2frame, hp] at hg
    cases hg.1

theorem hit_spec (h : Inv cfg headed [] [] s) (hlru : cfg.mode ≠ .lru)
    (hp : s.page2frame p = some f) (isWrite : Bool) :
    ∃ s', s.fixPage cfg isWrite p = .ok (f, s') ∧ Inv cfg headed [] [] s' ∧ Hit s s' f := by
  have hf := (h.mapped p f hp).1
  obtain ⟨z, hz, hord, hfree, hl⟩ := h.lists.touch hf
  have hhit : ∀ flag : FrameId → Int32, Hit s
      ({ s with strategy := z, clusterFlag := flag } : Buffer).incHitCount f :=
    fun flag => ⟨rfl, hfree, hl⟩
  rw [fixPage, if_neg hlru]
  simp only [hp]
  cases hwc : cfg.mode.isZalpWc with
  | true =>
      have hok : (s.setClusterFlag f (s.clusterFlag f + 1)).strategy.update f
          ((s.setClusterFlag f (s.clusterFlag f + 1)).frameDirty f) = .ok z := hz
      simp only [if_true, hok, ok_bind]
      -- the level of the frame goes up, which `zalp` alone would mind
      refine ⟨_, rfl, (hhit _).inv h hf hord fun hm => ?_, hhit _⟩
      rw [hm] at hwc
      cases hwc
  | false =>
      simp only [Bool.false_eq_true, if_false, hz, ok_bind]
      exact ⟨_, rfl, (hhit s.clusterFlag).inv h hf hord fun _ => rfl, hhit s.clusterFlag⟩

/-- **`fix_page`.** -/
theorem fixPage_spec (h : Inv cfg headed [] [] s) (hlru : cfg.mode ≠ .lru)
    (hp : s.Exists headed p) (isWrite : Bool) :
    Yields (s.fixPage cfg isWrite p) (Stops headed) fun r =>
      Inv cfg headed [] (if isWrite then [r.1] else []) r.2 ∧
        Fixed cfg headed isWrite s p r.1 r.2 := by
  cases hpf : s.page2frame p with
  | some f =>
      obtain ⟨s', hok, hinv, hhit⟩ := hit_spec h hlru hpf isWrite
      rw [hok]
      refine ⟨?_, Fixed.hit hpf hhit⟩
      cases isWrite with
      | true => exact hinv.except [f]
      | false => exact hinv
  | none =>
      rw [fixPage, if_neg hlru]
      simp only [hpf]
      refine (takeFrame_spec h hlru).bind ?_
      rintro ⟨f, s₂⟩ ⟨hinv, hmiss⟩
      have hplace := hinv.place (hmiss.content_ne_none hp)
      cases isWrite with
      | true => exact ⟨hplace, Fixed.write s₂ rfl hpf hinv hmiss rfl⟩
      | false =>
          refine (loadFixed_spec (fun hh => (hplace.stored hh).store)
            (hmiss.content_ne_none hp)).bind ?_
          intro s' hload
          exact ⟨hload.inv hplace (Function.update_self ..),
            Fixed.read s₂ rfl hpf hinv hmiss hload⟩

theorem place_page2frame (hp : s.page2frame p = none) :
    (s.place p f).page2frame = s.page2frame.insertOrAssign p f := PartialMap.insert_of_none hp f

/-- The page fixed is mapped to the frame, which is in front. -/
theorem Fixed.front (h : Fixed cfg headed isWrite s p f s') (hinv : Inv cfg headed [] [] s) :
    (∃ rest, s'.strategy.lruOrder = f :: rest) ∧ s'.page2frame p = some f ∧
      s'.frameToPage f = p := by
  cases h with
  | hit hp h =>
      refine ⟨⟨_, h.lru⟩, ?_, ?_⟩
      · rw [h.same]
        exact hp
      · rw [h.same]
        exact (hinv.mapped p f hp).2
  | write s₂ hw hp hinv₂ hmiss hs =>
      subst hs
      refine ⟨⟨_, hinv₂.lists.put.2.2⟩, ?_, Function.update_self ..⟩
      rw [place_page2frame (hmiss.page2frame_eq_none hp), PartialMap.insertOrAssign_self]
  | read s₂ hw hp hinv₂ hmiss hload =>
      refine ⟨⟨s₂.strategy.lruOrder, ?_⟩, ?_, ?_⟩
      · rw [hload.strategy]
        exact hinv₂.lists.put.2.2
      · rw [hload.page2frame, place_page2frame (hmiss.page2frame_eq_none hp),
          PartialMap.insertOrAssign_self]
      · rw [hload.frameToPage]
        exact Function.update_self ..

/-! ## `read_page` and `write_page` -/

/-- The invariant does not speak of the counters. -/
theorem Inv.incReadCount (h : Inv cfg headed [] [] s) (f : FrameId) :
    Inv cfg headed [] [] (s.incReadCount f) :=
  ⟨h.lists, h.mapped, h.flags, fun hh => ⟨⟨(h.stored hh).store.inv, (h.stored hh).store.idle⟩,
    (h.stored hh).created, (h.stored hh).header⟩⟩

theorem readPage_eq (h : s.fixPage cfg false p = .ok (f, s₁)) : s.readPage cfg p =
    if readId (s₁.buffer f) = p then .ok (s₁.buffer f, s₁.incReadCount f)
    else .error .wrongId := by
  rw [readPage, h, ok_bind]
  rfl

/-- **`read_page`.** It returns the bytes of the frame it has fixed. -/
theorem readPage_spec (h : Inv cfg headed [] [] s) (hlru : cfg.mode ≠ .lru)
    (hp : s.Exists headed p) :
    Yields (s.readPage cfg p) (Stops headed) fun r =>
      Inv cfg headed [] [] r.2 ∧ ∃ f s₁, Fixed cfg headed false s p f s₁ ∧
        r.1 = s₁.buffer f ∧ r.2 = s₁.incReadCount f := by
  have hfix := fixPage_spec h hlru hp false
  cases hr : s.fixPage cfg false p with
  | error e =>
      rw [readPage, hr]
      exact hfix.of_error hr
  | ok r =>
      obtain ⟨f, s₁⟩ := r
      obtain ⟨hinv, hfixed⟩ := hfix.of_ok hr
      obtain ⟨⟨rest, hfront⟩, -, hpage⟩ := hfixed.front h
      rw [readPage_eq hr]
      split
      case isTrue => exact ⟨Inv.incReadCount hinv f, f, s₁, hfixed, rfl, rfl⟩
      case isFalse hne =>
        -- the frame fixed starts with the id of its page, so the assertion holds
        intro hh
        have hid := (hinv.stored hh).header f (by rw [hfront]; exact List.mem_cons_self) (by simp)
        exact absurd (hid.trans hpage) hne

/-- Frame `f` holds `b` and has been marked dirty. -/
structure Soiled (s s' : Buffer) (f : FrameId) (b : Page) : Prop where
  same : s' = { (s.fill f b).incReadCount f with
    strategy := s'.strategy
    frameDirty := Function.update s.frameDirty f true }
  free : s'.strategy.freeFrames = s.strategy.freeFrames
  lru : s'.strategy.lruOrder = s.strategy.lruOrder

theorem setDirty_spec (h : Inv cfg headed [] [] s) (hlru : cfg.mode ≠ .lru) {rest : List FrameId}
    (hf : s.strategy.lruOrder = f :: rest) :
    ∃ z, s.setDirty cfg f = .ok { s with
        strategy := z
        frameDirty := Function.update s.frameDirty f true } ∧
      Inv cfg headed [] [] { s with
        strategy := z
        frameDirty := Function.update s.frameDirty f true } ∧
      z.freeFrames = s.strategy.freeFrames ∧ z.lruOrder = s.strategy.lruOrder := by
  obtain ⟨z, hz, hord, hfree, hl⟩ := h.lists.soil hf
  refine ⟨z, ?_, ⟨hord, fun q g hq => ?_, h.flags, fun hh => ⟨⟨(h.stored hh).store.inv,
    (h.stored hh).store.idle⟩, fun g hg => ?_, fun g hg => ?_⟩⟩, hfree, hl⟩
  · rw [setDirty, if_neg hlru]
    simp only [hz, ok_bind]
  · show g ∈ z.lruOrder ∧ _
    rw [hl]
    exact h.mapped q g hq
  · exact (h.stored hh).created g (hl ▸ hg)
  · exact (h.stored hh).header g (hl ▸ hg)

/-- The lines of `write_page` after the page has been fixed. -/
theorem overwrite_spec (h : Inv cfg headed [] [f] s) (hlru : cfg.mode ≠ .lru)
    {rest : List FrameId} (hf : s.strategy.lruOrder = f :: rest)
    (hid : headed → readId b = s.frameToPage f) :
    ∃ s', ((s.fill f b).incReadCount f).setDirty cfg f = .ok s' ∧ Inv cfg headed [] [] s' ∧
      Soiled s s' f b := by
  have hf' : ((s.fill f b).incReadCount f).strategy.lruOrder = f :: rest := hf
  obtain ⟨z, hok, hinv, hfree, hl⟩ := setDirty_spec ((h.fill hid).incReadCount f) hlru hf'
  exact ⟨_, hok, hinv, rfl, hfree, hl⟩

/-- **`write_page`.** -/
theorem writePage_spec (h : Inv cfg headed [] [] s) (hlru : cfg.mode ≠ .lru)
    (hp : s.Exists headed p) (hid : headed → readId b = p) :
    Yields (s.writePage cfg p b) (Stops headed) fun s' =>
      Inv cfg headed [] [] s' ∧ ∃ f s₁, Fixed cfg headed true s p f s₁ ∧ Soiled s₁ s' f b := by
  refine (fixPage_spec h hlru hp true).bind ?_
  rintro ⟨f, s₁⟩ ⟨hinv, hfixed⟩
  obtain ⟨⟨rest, hfront⟩, -, hpage⟩ := hfixed.front h
  obtain ⟨s', hok, hinv', hsoil⟩ := overwrite_spec (by simpa using hinv) hlru hfront
    fun hh => hpage.symm ▸ hid hh
  show Yields (((s₁.fill f b).incReadCount f).setDirty cfg f) _ _
  rw [hok]
  exact ⟨hinv', f, s₁, hfixed, hsoil⟩

/-! ## `fix_new_page` -/

/-- Page `p` has been created with content `b` and placed in the frame `f` held. -/
structure Inserted (headed : Prop) (s s' : Buffer) (p : PageId) (f : FrameId) (b : Page) :
    Prop where
  strategy : s'.strategy = s.strategy.push f false
  frameDirty : s'.frameDirty = s.frameDirty
  page2frame : s'.page2frame = s.page2frame.insertOrAssign p f
  frameToPage : s'.frameToPage = Function.update s.frameToPage f p
  buffer : s'.buffer = Function.update s.buffer f b
  accessH : s'.accessH = s.accessH
  content : headed → s'.zdsm.content = s.zdsm.content.insertOrAssign p b

/-- The flags `fix_new_page` sets are in range. -/
theorem markNew_spec (hp0 : 0 ≤ p)
    (h : cfg.mode = .zalp → ∀ g,
      0 ≤ (s.clusterFlag g).toInt ∧ (s.clusterFlag g).toInt < cfg.g.clusterNum) :
    ∃ flag wc rc, s.markNew cfg p f = { s with
        clusterFlag := flag
        writeCount := wc
        readCount := rc } ∧
      (cfg.mode = .zalp → ∀ g, 0 ≤ (flag g).toInt ∧ (flag g).toInt < cfg.g.clusterNum) := by
  rw [markNew]
  cases hm : cfg.mode with
  | zalp =>
      refine ⟨Function.update s.clusterFlag f (Int32.ofInt (p.toInt.tmod cfg.g.clusterNum)),
        s.writeCount, s.readCount, rfl, fun _ g => ?_⟩
      by_cases hg : g = f
      · have hpos : 0 ≤ p.toInt := Int64.le_iff_toInt_le.1 hp0
        rw [hg, Function.update_self, toInt_pageCluster hm]
        exact ⟨Int.tmod_nonneg _ hpos, Int.tmod_lt_of_pos _ (Int.natCast_pos.2 cfg.g.cluster_pos)⟩
      · rw [Function.update_of_ne hg]
        exact h hm g
  | zalpWc | whOnly => exact ⟨_, _, _, rfl, fun h => (nomatch h)⟩
  | achOnly | cflru | lru =>
      exact ⟨s.clusterFlag, s.writeCount, s.readCount, rfl, fun h => (nomatch h)⟩

/-- **`fix_new_page`.** -/
theorem fixNewPage_spec (h : Inv cfg headed [] [] s) (hlru : cfg.mode ≠ .lru)
    (hnew : s.page2frame p = none) (hnone : headed → s.zdsm.content p = none)
    (hid : headed → readId b = p) (hp0 : 0 ≤ p) :
    Yields (s.fixNewPage cfg p b) (Stops headed) fun s' =>
      Inv cfg headed [] [] s' ∧ ∃ f s₂, Inv cfg headed [f] [] s₂ ∧ Missed cfg headed s s₂ f ∧
        Inserted headed s₂ s' p f b := by
  rw [fixNewPage, if_neg hlru]
  refine (takeFrame_spec h hlru).bind ?_
  rintro ⟨f, s₂⟩ ⟨hinv, hmiss⟩
  have hcontent : headed → s₂.zdsm.content p = none := fun hh =>
    hmiss.content_eq_none h hh (hnone hh)
  have hunmapped := hmiss.page2frame_eq_none hnew
  refine (Yields.under fun hh => Controller.createNewPage_spec (hinv.stored hh).store.inv 1 trivial
    (hcontent hh) (hid hh)).bind ?_
  intro c hc
  have hcs : headed → c.content = s₂.zdsm.content.insertOrAssign p b := fun hh => (hc hh).content
  have hstore := (Flushed.wrote (fun hh => (hinv.stored hh).store) hc).store
  -- the state with the page created, the frame still held
  set s₃ : Buffer := { s₂.fill f b with
    zdsm := c
    insertCount := s₂.insertCount + 1
    cdCount := s₂.cdCount + 1 } with hs₃
  obtain ⟨flag, wc, rc, hmark, hflag⟩ := markNew_spec (s := s₃) (f := f) hp0 hinv.flags
  set s₄ : Buffer := { s₃ with clusterFlag := flag, writeCount := wc, readCount := rc } with hs₄
  have hinv₄ : Inv cfg headed [f] [] s₄ := by
    refine ⟨hinv.lists, hinv.mapped, hflag, fun hh => ⟨⟨(hstore hh).inv, (hstore hh).idle⟩,
      fun g hg => ?_, fun g hg _ => ?_⟩⟩
    · show c.content (s₂.frameToPage g) ≠ none
      rw [(hc hh).content]
      exact PartialMap.assignAll_ne_none ((hinv.stored hh).created g hg) _
    · have hne : g ≠ f := by
        rintro rfl
        exact hinv.lists.held_notMem hg
      show readId (Function.update s₂.buffer f b g) = s₂.frameToPage g
      rw [Function.update_of_ne hne]
      exact (hinv.stored hh).header g hg (by simp)
  have hexists : headed → s₄.zdsm.content p ≠ none := by
    intro hh
    show c.content p ≠ none
    rw [hcs hh, PartialMap.insertOrAssign_self]
    exact Option.some_ne_none b
  have hplace := hinv₄.place hexists
  -- the frame holds the new page now, which starts with its id
  have hlast : Inv cfg headed [] [] (s₄.place p f) := by
    refine ⟨hplace.lists, hplace.mapped, hplace.flags, fun hh => ⟨(hplace.stored hh).store,
      (hplace.stored hh).created, fun g hg _ => ?_⟩⟩
    by_cases hgf : g = f
    · rw [hgf]
      show readId (Function.update s₂.buffer f b f) = Function.update s₂.frameToPage f p f
      rw [Function.update_self, Function.update_self]
      exact hid hh
    · exact (hplace.stored hh).header g hg (by simpa using hgf)
  show Yields (.ok ((s₃.markNew cfg p f).place p f)) _ _
  rw [hmark]
  exact ⟨hlast, f, s₂, hinv, hmiss, rfl, rfl, place_page2frame (s := s₄) hunmapped, rfl, rfl, rfl,
    hcs⟩

end Buffer

end ZoneBuffer
