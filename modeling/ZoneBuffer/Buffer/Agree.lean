import ZoneBuffer.Buffer.Runs

set_option autoImplicit false

/-! # Agreement with the client

`Agrees` relates a state to the contents `m` its client believes in: a mapped page is in its
frame, a page without a dirty frame is in the store, and a dirty frame is mapped. It is kept by
evictions, by every way to settle a page in a frame, and by the taking of a frame if that unmaps
no dirty frame. `clean_buffer` then stores what the client believes in. -/

namespace ZoneBuffer

open Outcome Machine

namespace Buffer

variable {cfg : Config} {s s' s₁ s₂ : Buffer} {f : FrameId} {p : PageId} {b : Page} {d : Bool}
  {held vs : List FrameId} {l : List (PageId × Page)} {m m' : Contents}

/-- The state holds the contents `m`. The frames `held` are about to be given a page. -/
structure Agrees (held : List FrameId) (s : Buffer) (m : Contents) : Prop where
  resident : ∀ p f, s.page2frame p = some f → m p = some (s.buffer f)
  stored : ∀ p, (∀ f, s.page2frame p = some f → s.frameDirty f = false) →
    s.zdsm.content p = m p
  dirty : ∀ f, f ∉ held → s.frameDirty f = true → s.page2frame (s.frameToPage f) = some f

theorem Agrees.init (cfg : Config) (mem : Memory) : Agrees [] (Buffer.init cfg mem) .empty where
  resident := by
    intro p f h
    cases h
  stored _ _ := rfl
  dirty := by
    intro f _ h
    cases h

theorem Agrees.hold (h : Agrees [] s m) (held : List FrameId) : Agrees held s m :=
  ⟨h.resident, h.stored, fun f _ => h.dirty f (by simp)⟩

/-- A page that is not resident is in the store. -/
theorem Agrees.content_of_none (h : Agrees held s m) (hp : s.page2frame p = none) :
    s.zdsm.content p = m p := by
  refine h.stored p fun f hf => ?_
  rw [hp] at hf
  cases hf

/-! ## The steps -/

/-- **An eviction stores what it unmaps.** -/
theorem Evicted.agrees (h : Evicted cfg True s s' vs l) (hinv : Inv cfg True [] [] s)
    (ha : Agrees [] s m) : Agrees [] s' m where
  resident p f hp := by
    rw [h.buffer]
    exact ha.resident p f ((h.page2frame p f).1 hp).1
  stored p hclean := by
    rw [h.content trivial]
    by_cases hv : ∃ v ∈ vs, s.frameToPage v = p
    · obtain ⟨v, hv, rfl⟩ := hv
      have hmapped : ∀ w ∈ vs, s.page2frame (s.frameToPage w) = some w := fun w hw =>
        ha.dirty w (by simp) (h.picked.mem w hw).2
      -- the page of the victim `v` is in no other frame of the victims
      rw [PartialMap.assignAll_of_mem (v := s.buffer v)]
      · exact (ha.resident _ v (hmapped v hv)).symm
      · rintro e he hpage
        obtain ⟨w, hw, rfl⟩ := mem_copies.1 ((h.mem e).1 he)
        have hwv := hmapped w hw
        simp only at hpage
        rw [hpage, hmapped v hv] at hwv
        rw [Option.some.inj hwv]
      · exact (h.mem _).2 (mem_copies.2 ⟨v, hv, rfl⟩)
    · push Not at hv
      rw [PartialMap.assignAll_of_notMem]
      -- the page is still mapped, and its frame was no victim
      · refine ha.stored p fun f hf => ?_
        have hf' := hclean f ((h.page2frame p f).2 ⟨hf, hv⟩)
        rw [h.frameDirty] at hf'
        have hfv : f ∉ vs := fun hfv => hv f hfv (hinv.mapped p f hf).2
        rwa [Ordered.cleared_of_notMem hfv] at hf'
      · rintro e he rfl
        obtain ⟨w, hw, rfl⟩ := mem_copies.1 ((h.mem e).1 he)
        exact hv w hw rfl
  dirty f _ hf := by
    rw [h.frameDirty, cleared, Bool.and_eq_true, decide_eq_true_eq] at hf
    have hmapped := ha.dirty f (by simp) hf.1
    rw [h.frameToPage, h.page2frame]
    refine ⟨hmapped, fun v hv hpage => ?_⟩
    have hv' := ha.dirty v (by simp) (h.picked.mem v hv).2
    rw [hpage, hmapped] at hv'
    exact hf.2 (Option.some.inj hv' ▸ hv)

/-- The frame about to be taken is not recorded for a page in a dirty frame. -/
def Harmless (s : Buffer) (f : FrameId) : Prop :=
  ∀ g, s.page2frame (s.frameToPage f) = some g → s.frameDirty g = false

/-- **Taking a frame loses nothing if it unmaps no dirty frame.** -/
theorem Took.agrees (h : Took cfg s s' f) (ha : Agrees [] s m)
    (hsafe : s.strategy.freeFrames = [] → Harmless s f) : Agrees [] s' m := by
  have hkeep : ∀ p g, s.frameDirty g = true → s.page2frame p = some g →
      s'.page2frame p = some g := by
    intro p g hg hp
    rcases h.how with hfree | hclean
    · rw [hfree.page2frame]
      exact hp
    · rw [hclean.page2frame, PartialMap.erase_eq_some]
      -- the one page unmapped was not in a dirty frame
      refine ⟨?_, hp⟩
      rintro rfl
      rw [hsafe hclean.free g hp] at hg
      cases hg
  have hsub : ∀ p g, s'.page2frame p = some g → s.page2frame p = some g := by
    intro p g hp
    rcases h.how with hfree | hclean
    · rwa [hfree.page2frame] at hp
    · rw [hclean.page2frame, PartialMap.erase_eq_some] at hp
      exact hp.2
  refine ⟨fun p g hp => ?_, fun p hp => ?_, fun g hg hgd => ?_⟩
  · rw [h.buffer]
    exact ha.resident p g (hsub p g hp)
  · rw [h.zdsm]
    refine ha.stored p fun g hg => ?_
    by_contra hgd
    rw [Bool.not_eq_false] at hgd
    have hgd' := hp g (hkeep p g hgd hg)
    rw [h.frameDirty, hgd] at hgd'
    cases hgd'
  · rw [h.frameDirty] at hgd
    rw [h.frameToPage]
    exact hkeep _ g hgd (ha.dirty g hg hgd)

/-- **Page `p` is settled in frame `f`**: no other page was in the frame and `p` in no other, the
frame holds what the client believes of `p`, and if it is clean so does the store. -/
theorem Agrees.settle (ha : Agrees [f] s m)
    (hto : ∀ q, s.page2frame q = some f → q = p) (hfrom : ∀ g, s.page2frame p = some g → g = f)
    (htable : s'.page2frame = s.page2frame.insertOrAssign p f)
    (hpages : s'.frameToPage = Function.update s.frameToPage f p)
    (hbuffer : s'.buffer = Function.update s.buffer f b)
    (hdirty : s'.frameDirty = Function.update s.frameDirty f d)
    (hcontent : ∀ q, q ≠ p → s'.zdsm.content q = s.zdsm.content q)
    (hm : ∀ q, q ≠ p → m' q = m q) (hmp : m' p = some b)
    (hclean : d = false → s'.zdsm.content p = some b) : Agrees [] s' m' where
  resident q g hq := by
    rw [htable, PartialMap.insertOrAssign_eq_some] at hq
    rw [hbuffer]
    rcases hq with ⟨rfl, rfl⟩ | ⟨hne, hq⟩
    · rw [Function.update_self, hmp]
    · have hgf : g ≠ f := by
        rintro rfl
        exact hne (hto q hq)
      rw [Function.update_of_ne hgf, hm q hne]
      exact ha.resident q g hq
  stored q hq := by
    by_cases hqp : q = p
    · subst hqp
      have hd := hq f (by rw [htable, PartialMap.insertOrAssign_self])
      rw [hdirty, Function.update_self] at hd
      rw [hclean hd, hmp]
    · rw [hcontent q hqp, hm q hqp]
      refine ha.stored q fun g hg => ?_
      have hgf : g ≠ f := by
        rintro rfl
        exact hqp (hto q hg)
      have hgd := hq g (by rw [htable, PartialMap.insertOrAssign_of_ne _ _ hqp, hg])
      rwa [hdirty, Function.update_of_ne hgf] at hgd
  dirty g _ hg := by
    rw [htable, hpages, PartialMap.insertOrAssign_eq_some]
    by_cases hgf : g = f
    · rw [hgf, Function.update_self]
      exact Or.inl ⟨rfl, rfl⟩
    · rw [hdirty, Function.update_of_ne hgf] at hg
      rw [Function.update_of_ne hgf]
      have hmapped := ha.dirty g (by simpa using hgf) hg
      refine Or.inr ⟨?_, hmapped⟩
      intro hpage
      rw [hpage] at hmapped
      exact hgf (hfrom g hmapped)

/-! ## Misses -/

/-- If a call for page `p` misses with no frame free and no eviction due, the clean frame it takes
is not recorded for a page in a dirty frame. -/
def Safe (cfg : Config) (s : Buffer) (p : PageId) : Prop :=
  s.page2frame p = none → s.isEvict cfg = .ok false → s.strategy.freeFrames = [] →
    ∀ f, s.strategy.cleanFrames.getLast? = some f → s.Harmless f

/-- After an eviction the frame taken is a victim, and its page not mapped. -/
theorem Took.harmless_of_evicted (h : Took cfg s₁ s' f)
    (hev : Evicted cfg True s s₁ (s.victims cfg) l) (hdue : Due cfg s.frameDirty s.strategy)
    (hfree : s₁.strategy.freeFrames = []) : Harmless s₁ f := by
  have hclean : TookClean cfg s₁ s' f := h.how.resolve_left fun hf => by
    have := hf.free
    rw [hfree] at this
    simp at this
  have hrel : cfg.mode.releases = false := by
    by_contra hr
    have hf := hev.picked.free
    rw [hfree, if_pos (by simpa using hr), hdue.free, List.nil_append] at hf
    exact hev.picked.ne_nil hf.symm
  have hlru := hev.picked.lru
  rw [hrel, if_neg Bool.false_ne_true] at hlru
  intro g hg
  -- the frames that were dirty before are clean now because they are victims
  have hfv : f ∈ s.victims cfg := by
    by_contra hnot
    have hfd := hclean.clean
    rw [hev.frameDirty, Ordered.cleared_of_notMem hnot, hdue.dirty f (hlru ▸ hclean.mem)] at hfd
    cases hfd
  rw [hev.page2frame, hev.frameToPage] at hg
  exact absurd rfl (hg.2 f hfv)

theorem Missed.agrees (h : Missed cfg True s s₂ f) (hinv : Inv cfg True [] [] s)
    (ha : Agrees [] s m) (hp : s.page2frame p = none) (hsafe : Safe cfg s p) :
    Agrees [] s₂ m := by
  obtain ⟨s₁, hinv₁, ⟨hdue, rfl⟩ | ⟨hdue, l, hev⟩, htook⟩ := h
  · have hevict : s₁.isEvict cfg = .ok false := by
      rw [isEvict_eq hinv.lists, decide_eq_false hdue]
    refine htook.agrees ha fun hfree => hsafe hp hevict hfree f ?_
    rcases htook.how with hf | hc
    · rw [hf.free] at hfree
      simp at hfree
    · exact hc.last
  · exact htook.agrees (hev.agrees hinv ha) (htook.harmless_of_evicted hev hdue)

/-- A page that misses is in the store, whatever frame is taken. -/
theorem Missed.content (h : Missed cfg True s s₂ f) (hinv : Inv cfg True [] [] s)
    (ha : Agrees [] s m) (hp : s.page2frame p = none) : s₂.zdsm.content p = m p := by
  obtain ⟨s₁, hinv₁, ⟨hdue, rfl⟩ | ⟨hdue, l, hev⟩, htook⟩ := h
  · rw [htook.zdsm]
    exact ha.content_of_none hp
  · rw [htook.zdsm]
    refine (hev.agrees hinv ha).content_of_none ?_
    rw [Option.eq_none_iff_forall_ne_some]
    intro g hg
    rw [hev.page2frame, hp] at hg
    cases hg.1

/-- **A page fixed for reading is in its frame.** -/
theorem Fixed.buffer_eq (h : Fixed cfg True false s p f s') (hinv : Inv cfg True [] [] s)
    (ha : Agrees [] s m) : m p = some (s'.buffer f) := by
  cases h with
  | hit hp h =>
      rw [h.same]
      exact ha.resident p f hp
  | write s₂ hw => cases hw
  | read s₂ hw hp hinv₂ hmiss hload =>
      obtain ⟨b, hb, hcontent⟩ := hload.buffer
      rw [hb, Function.update_self, ← hmiss.content hinv ha hp]
      exact hcontent trivial

/-! ## Calls -/

/-- The state `s₂` from which page `p` is settled in frame `f`, and what has happened since. -/
structure Ground (s₂ s' : Buffer) (p : PageId) (f : FrameId) (m : Contents) : Prop where
  agrees : Agrees [f] s₂ m
  alone : ∀ q, s₂.page2frame q = some f → q = p
  home : ∀ g, s₂.page2frame p = some g → g = f
  page2frame : s'.page2frame = s₂.page2frame.insertOrAssign p f
  frameToPage : s'.frameToPage = Function.update s₂.frameToPage f p
  buffer : ∃ b, s'.buffer = Function.update s₂.buffer f b
  frameDirty : s'.frameDirty = s₂.frameDirty
  content : s'.zdsm.content = s₂.zdsm.content

/-- A frame held is no page's. -/
theorem Inv.notMapped_held {headed : Prop} (h : Inv cfg headed [f] [] s) (q : PageId) :
    s.page2frame q ≠ some f :=
  fun hq => h.lists.held_notMem (h.mapped q f hq).1

theorem Missed.ground (hmiss : Missed cfg True s s₂ f) (hinv : Inv cfg True [] [] s)
    (hinv₂ : Inv cfg True [f] [] s₂) (ha : Agrees [] s m) (hp : s.page2frame p = none)
    (hsafe : Safe cfg s p) : Ground s₂ (s₂.place p f) p f m where
  agrees := (hmiss.agrees hinv ha hp hsafe).hold [f]
  alone q hq := absurd hq (hinv₂.notMapped_held q)
  home g hg := by
    rw [hmiss.page2frame_eq_none hp] at hg
    cases hg
  page2frame := place_page2frame (hmiss.page2frame_eq_none hp)
  frameToPage := rfl
  buffer := ⟨s₂.buffer f, (Function.update_eq_self f s₂.buffer).symm⟩
  frameDirty := rfl
  content := rfl

theorem Fixed.ground {isWrite : Bool} (h : Fixed cfg True isWrite s p f s')
    (hinv : Inv cfg True [] [] s) (ha : Agrees [] s m) (hsafe : Safe cfg s p) :
    ∃ s₂, Ground s₂ s' p f m := by
  cases h with
  | hit hp h =>
      refine ⟨s, ha.hold [f], fun q hq => ?_, fun g hg => ?_, ?_, ?_, ⟨s.buffer f, ?_⟩, ?_, ?_⟩
      · rw [← (hinv.mapped q f hq).2, (hinv.mapped _ f hp).2]
      · rw [hp] at hg
        exact (Option.some.inj hg).symm
      · rw [h.same, PartialMap.insertOrAssign, ← hp, Function.update_eq_self]
      · rw [h.same, ← (hinv.mapped _ f hp).2, Function.update_eq_self]
      · rw [h.same, Function.update_eq_self]
      · rw [h.same]
      · rw [h.same]
  | write s₂ hw hp hinv₂ hmiss hs =>
      subst hs
      exact ⟨s₂, hmiss.ground hinv hinv₂ ha hp hsafe⟩
  | read s₂ hw hp hinv₂ hmiss hload =>
      have hg := hmiss.ground hinv hinv₂ ha hp hsafe
      obtain ⟨b, hb, -⟩ := hload.buffer
      exact ⟨s₂, hg.agrees, hg.alone, hg.home, hload.page2frame.trans hg.page2frame,
        hload.frameToPage.trans hg.frameToPage, ⟨b, hb⟩, hload.frameDirty.trans hg.frameDirty,
        (hload.content trivial).trans hg.content⟩

/-- A clean frame in place of the frame of `p` means that `p` is in the store. -/
theorem Ground.stored (h : Ground s₂ s' p f m) (hf : s₂.frameDirty f = false) :
    s₂.zdsm.content p = m p :=
  h.agrees.stored p fun g hg => by rw [h.home g hg, hf]

/-- A page that has been read into its frame is settled. -/
theorem Ground.read (h : Ground s₂ s' p f m) (hmp : m p = some (s'.buffer f)) :
    Agrees [] s' m := by
  obtain ⟨b, hb⟩ := h.buffer
  have hbf : s'.buffer f = b := by rw [hb, Function.update_self]
  refine h.agrees.settle (d := s₂.frameDirty f) h.alone h.home h.page2frame h.frameToPage hb ?_
    (fun q _ => congrFun h.content q) (fun _ _ => rfl) (hbf ▸ hmp) fun hd => ?_
  · rw [Function.update_eq_self]
    exact h.frameDirty
  · rw [h.content, h.stored hd, hmp, hbf]

/-- A page that has been written in its frame is settled. -/
theorem Ground.write (h : Ground s₂ s₁ p f m) (htable : s'.page2frame = s₁.page2frame)
    (hpages : s'.frameToPage = s₁.frameToPage) (hz : s'.zdsm = s₁.zdsm)
    (hbuffer : s'.buffer = Function.update s₁.buffer f b)
    (hdirty : s'.frameDirty = Function.update s₁.frameDirty f true) :
    Agrees [] s' (m.insertOrAssign p b) := by
  obtain ⟨b₀, hb₀⟩ := h.buffer
  refine h.agrees.settle (b := b) (d := true) h.alone h.home (htable.trans h.page2frame)
    (hpages.trans h.frameToPage) ?_ ?_ (fun q _ => ?_)
    (fun q hq => PartialMap.insertOrAssign_of_ne m b hq) (PartialMap.insertOrAssign_self m p b)
    fun hd => nomatch hd
  · rw [hbuffer, hb₀, Function.update_idem]
  · rw [hdirty, h.frameDirty]
  · rw [hz, h.content]

/-- A page that has been created and put in the frame held is settled. -/
theorem Agrees.insert (ha : Agrees [f] s m) (hheld : ∀ q, s.page2frame q ≠ some f)
    (hp : s.page2frame p = none) (htable : s'.page2frame = s.page2frame.insertOrAssign p f)
    (hpages : s'.frameToPage = Function.update s.frameToPage f p)
    (hbuffer : s'.buffer = Function.update s.buffer f b) (hdirty : s'.frameDirty = s.frameDirty)
    (hcontent : s'.zdsm.content = s.zdsm.content.insertOrAssign p b) :
    Agrees [] s' (m.insertOrAssign p b) := by
  refine ha.settle (b := b) (d := s.frameDirty f) (fun q hq => absurd hq (hheld q))
    (fun g hg => ?_) htable hpages hbuffer ?_ (fun q hq => ?_)
    (fun q hq => PartialMap.insertOrAssign_of_ne m b hq) (PartialMap.insertOrAssign_self m p b)
    fun _ => ?_
  · rw [hp] at hg
    cases hg
  · rw [Function.update_eq_self, hdirty]
  · rw [hcontent, PartialMap.insertOrAssign_of_ne _ _ hq]
  · rw [hcontent, PartialMap.insertOrAssign_self]

/-- **A safe call keeps the agreement.** -/
theorem Called.agrees {c : Call} (h : Called cfg True s c s') (hinv : Inv cfg True [] [] s)
    (ha : Agrees [] s m) (hsafe : Safe cfg s c.page) : Agrees [] s' (c.spec m) := by
  cases h with
  | readPage p f s₁ hfix =>
      obtain ⟨s₂, hg⟩ := hfix.ground hinv ha hsafe
      have hread := hg.read (hfix.buffer_eq hinv ha)
      exact ⟨hread.resident, hread.stored, hread.dirty⟩
  | writePage p b f s₁ s' hfix hsoil =>
      obtain ⟨s₂, hg⟩ := hfix.ground hinv ha hsafe
      rw [hsoil.same]
      exact hg.write rfl rfl rfl rfl rfl
  | fixNewPage p b f s₂ s' hp hinv₂ hmiss hins =>
      exact ((hmiss.agrees hinv ha hp hsafe).hold [f]).insert hinv₂.notMapped_held
        (hmiss.page2frame_eq_none hp) hins.page2frame hins.frameToPage hins.buffer
        hins.frameDirty (hins.content trivial)

/-- **`read_page` returns what the client believes in.** -/
theorem readPage_agrees (hinv : Inv cfg True [] [] s) (hlru : cfg.mode ≠ .lru)
    (ha : Agrees [] s m) (hp : m p = some b) (hexists : s.Exists True p) :
    Yields (s.readPage cfg p) (· = .noZone) fun r => r.1 = b := by
  refine (readPage_spec hinv hlru hexists).mono (fun e he => he trivial) ?_
  rintro r ⟨-, f, s₁, hfix, hr, -⟩
  have hb := hfix.buffer_eq hinv ha
  rw [hp, Option.some.injEq] at hb
  rw [hr, hb]

/-! ## `clean_buffer` -/

theorem cleanOne_spec {done : List FrameId}
    (h : Flushed cfg True s s₁ (s.copies (done.filter s.frameDirty)))
    (hw : s.frameDirty f = true → s.Writable [f]) :
    Yields (s₁.cleanOne cfg f) (· = .noZone) fun s₂ =>
      Flushed cfg True s s₂ (s.copies ((done ++ [f]).filter s.frameDirty)) := by
  rw [List.filter_append, copies_append]
  by_cases hf : s.frameDirty f = true
  · rw [cleanOne, if_pos (h.frameDirty ▸ hf)]
    obtain ⟨hne, hid⟩ := h.writable trivial (hw hf) f (by simp)
    have hst := h.store trivial
    refine (Controller.writePage_spec hst.inv 0 0 trivial hne hid).bind ?_
    intro c hc
    have hwrote := h.trans (Flushed.wrote (fun _ => hst) fun _ => hc)
    have hone : s.copies ([f].filter s.frameDirty) = [(s₁.frameToPage f, s₁.buffer f)] := by
      rw [List.filter_cons_of_pos hf, List.filter_nil, ← h.copies]
      rfl
    rw [hone]
    exact hwrote
  · rw [cleanOne, if_neg (h.frameDirty ▸ hf), List.filter_cons_of_neg hf, List.filter_nil]
    exact h.trans (Flushed.refl h.store)

/-- **After `clean_buffer` the store holds what the client believes in.** -/
theorem cleanBuffer_spec (hst : StoreOk cfg s) (ha : Agrees [] s m)
    (hlt : ∀ f, s.frameDirty f = true → f < cfg.defBufSize)
    (hpage : ∀ p f, s.page2frame p = some f → s.frameToPage f = p)
    (hw : ∀ f, s.frameDirty f = true → s.Writable [f]) :
    Yields (s.cleanBuffer cfg) (· = .noZone) fun s' => s'.zdsm.content = m := by
  have hloop : Yields ((List.range cfg.defBufSize).foldlM (cleanOne cfg) s) (· = .noZone)
      fun s' => Flushed cfg True s s'
        (s.copies ((List.range cfg.defBufSize).filter s.frameDirty)) :=
    Yields.foldlM_upto (fun done s' =>
      Flushed cfg True s s' (s.copies (done.filter s.frameDirty))) _ _
      (Flushed.refl fun _ => hst) fun done f _ s₁ _ hs₁ => cleanOne_spec hs₁ (hw f)
  refine hloop.bind ?_
  intro s' hs'
  show s'.zdsm.content = m
  rw [hs'.content trivial]
  funext p
  -- a page in a dirty frame has been stored from there, any other page was in the store
  by_cases hd : ∃ f, s.page2frame p = some f ∧ s.frameDirty f = true
  · obtain ⟨f, hf, hfd⟩ := hd
    rw [ha.resident p f hf]
    refine PartialMap.assignAll_of_mem (fun e he hep => ?_) ?_
    · obtain ⟨g, hg, rfl⟩ := mem_copies.1 he
      have hgp := ha.dirty g (by simp) (List.mem_filter.1 hg).2
      simp only at hep
      rw [hep, hf] at hgp
      rw [Option.some.inj hgp]
    · refine mem_copies.2 ⟨f, List.mem_filter.2 ⟨List.mem_range.2 (hlt f hfd), hfd⟩, ?_⟩
      rw [hpage p f hf]
  · push Not at hd
    rw [PartialMap.assignAll_of_notMem, ha.stored p fun f hf => by simpa using hd f hf]
    rintro e he rfl
    obtain ⟨g, hg, rfl⟩ := mem_copies.1 he
    have hgd := (List.mem_filter.1 hg).2
    exact hd g (ha.dirty g (by simp) hgd) hgd

end Buffer

end ZoneBuffer
