import ZoneBuffer.Buffer.Agree
import ZoneBuffer.Buffer.LruLists

set_option autoImplicit false

/-! # Mode `lru`

Mode `lru` uses `LRU` in place of `ZALP`. Its list holds the resident frames; the frames not yet
used are counted. A victim is written back and unmapped, but its dirty flag stays, also when
another page is read into the frame. That is why `Agrees` allows a dirty frame to hold what the
store holds as well.

`LruSim` is the invariant of runs, `callLru_spec` the step. -/

namespace ZoneBuffer

open Outcome Machine

namespace Buffer

variable {cfg : Config} {s s' s₂ : Buffer} {f : FrameId} {p : PageId} {b : Page}
  {held : List FrameId} {m : Contents}

/-- The invariant in mode `lru`. The frames `held` are out of the list. -/
structure LruInv (cfg : Config) (held : List FrameId) (s : Buffer) : Prop where
  points : IterList.Points s.lrus.lMap s.lrus.lList
  free : s.freeFramesNum ≤ cfg.defBufSize
  used : ∀ f, f < cfg.defBufSize - s.freeFramesNum ↔ f ∈ s.lruFrames ∨ f ∈ held
  held : ∀ f ∈ held, f ∉ s.lruFrames
  mapped : ∀ p f, s.page2frame p = some f → f ∈ s.lruFrames ∧ s.frameToPage f = p
  linked : ∀ f ∈ s.lruFrames, s.page2frame (s.frameToPage f) = some f
  store : StoreOk cfg s

theorem LruInv.lists (h : LruInv cfg held s) : LruLists cfg held s :=
  ⟨h.points, h.free, h.used, h.held, h.mapped, h.linked⟩

theorem LruLists.withStore (h : LruLists cfg held s) (hst : StoreOk cfg s) : LruInv cfg held s :=
  ⟨h.points, h.free, h.used, h.held, h.mapped, h.linked, hst⟩

theorem LruInv.init (cfg : Config) (mem : Memory) : LruInv cfg [] (Buffer.init cfg mem) :=
  (LruLists.init cfg mem).withStore ⟨Controller.Inv.init cfg.g _ mem.rates, rfl, rfl⟩

/-! ## Taking a frame -/

/-- The last frame of the list has been taken. It has been written back if its flag was set. -/
structure TookVictim (cfg : Config) (s s' : Buffer) (f : FrameId) : Prop where
  full : s.freeFramesNum = 0
  list : s.lruFrames = s'.lruFrames ++ [f]
  lrus : s'.lrus = { s.lrus with lList := s.lrus.lList.popBack }
  freeFramesNum : s'.freeFramesNum = 0
  page2frame : s'.page2frame = s.page2frame.erase (s.frameToPage f)
  frameToPage : s'.frameToPage = s.frameToPage
  frameDirty : s'.frameDirty = s.frameDirty
  buffer : s'.buffer = s.buffer
  content : s'.zdsm.content
    = s.zdsm.content.assignAll (s.copies ([f].filter s.frameDirty))
  store : StoreOk cfg s'

def TookLru (cfg : Config) (s s' : Buffer) (f : FrameId) : Prop :=
  TookUnused cfg s s' f ∨ TookVictim cfg s s' f

theorem writeBack_spec (hst : StoreOk cfg s) (hw : s.frameDirty f = true → s.Writable [f]) :
    Yields (s.writeBack cfg f) (· = .noZone) fun s' =>
      Flushed cfg True s s' (s.copies ([f].filter s.frameDirty)) := by
  rw [writeBack]
  by_cases hf : s.frameDirty f = true
  · rw [if_pos hf, List.filter_cons_of_pos hf, List.filter_nil]
    obtain ⟨hne, hid⟩ := hw hf f (by simp)
    refine (Controller.writePage_spec hst.inv 0 0 trivial hne hid).bind ?_
    intro c hc
    have hwrote : Flushed cfg True s (({ s with zdsm := c } : Buffer).addFlushCount 0 1)
        (s.copies [f]) := (Flushed.wrote (fun _ => hst) fun _ => hc).addFlushCount 0 1
    refine (detectGarbage_spec hwrote.store).mono (fun e he => he trivial) ?_
    intro s' hs'
    have hboth := hwrote.trans hs'
    rwa [List.append_nil] at hboth
  · rw [if_neg hf, List.filter_cons_of_neg hf, List.filter_nil]
    exact Flushed.refl fun _ => hst

/-- **A miss takes a frame.** -/
theorem takeFrameLru_spec (h : LruInv cfg [] s)
    (hw : ∀ f ∈ s.lruFrames, s.frameDirty f = true → s.Writable [f]) :
    Yields (s.takeFrameLru cfg) (· = .noZone) fun r => TookLru cfg s r.2 r.1 := by
  rw [takeFrameLru]
  by_cases hfull : s.freeFramesNum = 0
  · obtain ⟨f, hlist, hvictim⟩ := h.lists.getVictim hfull
    have hf : f ∈ s.lruFrames := by
      rw [hlist]
      simp
    rw [if_pos hfull]
    refine Yields.bind_ok hvictim ?_
    set s₀ : Buffer := { s with lrus := { s.lrus with lList := s.lrus.lList.popBack } } with hs₀
    refine (writeBack_spec (s := s₀) ⟨h.store.inv, h.store.idle⟩ (hw f hf)).bind ?_
    intro s₁ hs₁
    refine Or.inr ⟨hfull, ?_, hs₁.lrus, hs₁.freeFramesNum.trans hfull, ?_, hs₁.frameToPage,
      hs₁.frameDirty, hs₁.buffer, hs₁.content trivial,
      (hs₁.store trivial).inv, (hs₁.store trivial).idle⟩
    · show s.lruFrames = s₁.lrus.lList.toList ++ [f]
      rw [hs₁.lrus]
      exact hlist
    · show s₁.page2frame.erase (s₁.frameToPage f) = s.page2frame.erase (s.frameToPage f)
      rw [hs₁.page2frame, hs₁.frameToPage]
  · rw [if_neg hfull]
    exact Or.inl ⟨hfull, rfl, rfl⟩

theorem TookUnused.inv (h : TookUnused cfg s s' f) (hinv : LruInv cfg [] s) :
    LruInv cfg [f] s' := by
  refine (h.lists hinv.lists).withStore ?_
  rw [h.same]
  exact ⟨hinv.store.inv, hinv.store.idle⟩

theorem TookVictim.dropped (h : TookVictim cfg s s' f) : Dropped s s' f :=
  ⟨h.full, h.list, h.lrus, h.freeFramesNum, h.page2frame, h.frameToPage⟩

theorem TookVictim.inv (h : TookVictim cfg s s' f) (hinv : LruInv cfg [] s) :
    LruInv cfg [f] s' := (h.dropped.lists hinv.lists).withStore h.store

theorem TookLru.inv (h : TookLru cfg s s' f) (hinv : LruInv cfg [] s) : LruInv cfg [f] s' := by
  rcases h with h | h
  · exact h.inv hinv
  · exact h.inv hinv

/-- **Taking a frame loses nothing**: a victim's page is in the store. -/
theorem TookVictim.agrees (h : TookVictim cfg s s' f) (hinv : LruInv cfg [] s)
    (ha : Agrees [] s m) : Agrees [f] s' m where
  resident p g hp := by
    rw [h.page2frame, PartialMap.erase_eq_some] at hp
    rw [h.buffer]
    exact ha.resident p g hp.2
  stored p hclean := by
    have hlink := hinv.linked f (by rw [h.list]; simp)
    rw [h.content]
    -- the victim's page is the one entry that changes: just stored if it was dirty, else as before
    by_cases hp : p = s.frameToPage f
    · subst hp
      by_cases hf : s.frameDirty f = true
      · rw [List.filter_cons_of_pos hf, List.filter_nil, ha.resident _ f hlink]
        exact PartialMap.insertOrAssign_self ..
      · rw [List.filter_cons_of_neg hf, List.filter_nil]
        refine ha.stored _ fun g hg => ?_
        rw [hlink] at hg
        rw [← Option.some.inj hg]
        simpa using hf
    · rw [PartialMap.assignAll_of_notMem]
      · refine ha.stored p fun g hg => ?_
        rw [← h.frameDirty]
        exact hclean g (by rw [h.page2frame, PartialMap.erase_of_ne _ hp, hg])
      · rintro e he rfl
        obtain ⟨v, hv, rfl⟩ := mem_copies.1 he
        exact hp (by rw [List.mem_singleton.1 (List.mem_of_mem_filter hv)])
  dirty g hg hgd := by
    rw [h.frameDirty] at hgd
    have hlink := ha.dirty g (by simp) hgd
    rw [h.page2frame, h.frameToPage,
      PartialMap.erase_of_ne _ (h.dropped.ne_page hinv.lists hlink (by simpa using hg))]
    exact hlink

theorem TookLru.agrees (h : TookLru cfg s s' f) (hinv : LruInv cfg [] s) (ha : Agrees [] s m) :
    Agrees [f] s' m := by
  rcases h with h | h
  · rw [h.same]
    exact ⟨ha.resident, ha.stored, fun g _ => ha.dirty g (by simp)⟩
  · exact h.agrees hinv ha

theorem TookLru.page2frame_eq_none (h : TookLru cfg s s' f) (hp : s.page2frame p = none) :
    s'.page2frame p = none := by
  rcases h with h | h
  · rw [h.same]
    exact hp
  · rw [h.page2frame, PartialMap.erase_apply, hp, ite_self]

/-- A frame is taken without a page being taken from the store. -/
theorem TookLru.content_ne_none (h : TookLru cfg s s' f) (hp : s.zdsm.content p ≠ none) :
    s'.zdsm.content p ≠ none := by
  rcases h with h | h
  · rw [h.same]
    exact hp
  · rw [h.content]
    exact PartialMap.assignAll_ne_none hp _

/-! ## Fixing pages -/

theorem LruInv.place (h : LruInv cfg [f] s) (hp : s.page2frame p = none) :
    LruInv cfg [] (s.placeLru p f) :=
  (h.lists.place hp).withStore ⟨h.store.inv, h.store.idle⟩

/-- The invariant of runs in mode `lru`. -/
structure LruSim (cfg : Config) (s : Buffer) (m : Contents) : Prop where
  inv : LruInv cfg [] s
  agrees : Agrees [] s m
  exist : ∀ p, m p ≠ none → s.zdsm.content p ≠ none
  header : ∀ p b, m p = some b → readId b = p

theorem LruSim.init (cfg : Config) (mem : Memory) : LruSim cfg (Buffer.init cfg mem) .empty where
  inv := LruInv.init cfg mem
  agrees := Agrees.init cfg mem
  exist _ h := h
  header := by
    intro p b h
    cases h

theorem LruSim.writable (h : LruSim cfg s m) (hf : f ∈ s.lruFrames) : s.Writable [f] := by
  intro g hg
  rw [List.mem_singleton.1 hg]
  have hm := h.agrees.resident _ f (h.inv.linked f hf)
  exact ⟨h.exist _ (by rw [hm]; exact Option.some_ne_none _), h.header _ _ hm⟩

/-- A frame has been taken for page `p`. -/
structure MissedLru (cfg : Config) (s s₂ : Buffer) (p : PageId) (f : FrameId) (m : Contents) :
    Prop where
  inv : LruInv cfg [f] s₂
  agrees : Agrees [f] s₂ m
  unmapped : s₂.page2frame p = none
  exist : ∀ q, m q ≠ none → s₂.zdsm.content q ≠ none

theorem LruSim.takeFrame (h : LruSim cfg s m) (hp : s.page2frame p = none) :
    Yields (s.takeFrameLru cfg) (· = .noZone) fun r => MissedLru cfg s r.2 p r.1 m := by
  refine (takeFrameLru_spec h.inv fun f hf _ => h.writable hf).imp ?_
  rintro ⟨f, s₂⟩ htook
  exact ⟨htook.inv h.inv, htook.agrees h.inv h.agrees, htook.page2frame_eq_none hp,
    fun q hq => htook.content_ne_none (h.exist q hq)⟩

theorem MissedLru.ground (h : MissedLru cfg s s₂ p f m) : Ground s₂ (s₂.placeLru p f) p f m where
  agrees := h.agrees
  alone q hq := absurd (h.inv.mapped q f hq).1 (h.inv.held f (by simp))
  home g hg := by
    rw [h.unmapped] at hg
    cases hg
  page2frame := PartialMap.insert_of_none h.unmapped f
  frameToPage := rfl
  buffer := ⟨s₂.buffer f, (Function.update_eq_self f s₂.buffer).symm⟩
  frameDirty := rfl
  content := rfl

/-- What `fix_page` leaves behind: page `p` in frame `f`, and loaded if it is to be read. -/
structure FixedLru (cfg : Config) (isWrite : Bool) (s' : Buffer) (p : PageId) (f : FrameId)
    (m : Contents) : Prop where
  inv : LruInv cfg [] s'
  mapped : s'.page2frame p = some f
  ground : ∃ s₂, Ground s₂ s' p f m
  exist : ∀ q, m q ≠ none → s'.zdsm.content q ≠ none
  loaded : isWrite = false → m p = some (s'.buffer f)

theorem loadPage_eq (hst : StoreOk cfg s) (hp : s.zdsm.content p = some b) (f : FrameId) :
    ∃ zone, s.loadPage cfg p f
      = .ok (zone, ({ s with zdsm := s.zdsm.incIoCount } : Buffer).fill f b) := by
  have hsim : Controller.Sim cfg.g (fun _ => True) s.zdsm s.zdsm.content := ⟨hst.inv, rfl, hst.idle⟩
  obtain ⟨zone, hz⟩ := hsim.readPage hp
  refine ⟨zone, ?_⟩
  rw [loadPage, hz]
  rfl

theorem hitLru_spec (h : LruInv cfg [] s) (hp : s.page2frame p = some f) :
    ∃ r, s.lrus.update f = .ok r ∧ LruInv cfg [] ({ s with lrus := r } : Buffer).incHitCount := by
  obtain ⟨r, hr, -, hl⟩ := h.lists.update hp
  have hinc : LruLists cfg [] ({ s with lrus := r } : Buffer).incHitCount :=
    hl.congr rfl rfl rfl rfl
  exact ⟨r, hr, hinc.withStore ⟨h.store.inv, h.store.idle⟩⟩

/-- **`fix_page`.** -/
theorem fixPageLru_spec (h : LruSim cfg s m) (hlru : cfg.mode = .lru) (hp : m p ≠ none)
    (isWrite : Bool) :
    Yields (s.fixPage cfg isWrite p) (· = .noZone) fun r =>
      FixedLru cfg isWrite r.2 p r.1 m := by
  rw [fixPage, if_pos hlru]
  cases hpf : s.page2frame p with
  | some f =>
      obtain ⟨r, hr, hinv⟩ := hitLru_spec h.inv hpf
      refine Yields.bind_ok hr ⟨hinv, hpf, ⟨s, h.agrees.hold [f], fun q hq => ?_, fun g hg => ?_,
        ?_, ?_, ⟨s.buffer f, ?_⟩, rfl, rfl⟩, h.exist, fun _ => h.agrees.resident p f hpf⟩
      · rw [← (h.inv.mapped q f hq).2, (h.inv.mapped p f hpf).2]
      · rw [hpf] at hg
        exact (Option.some.inj hg).symm
      · exact (Function.update_eq_self_iff.2 hpf.symm).symm
      · exact (Function.update_eq_self_iff.2 (h.inv.mapped p f hpf).2.symm).symm
      · exact (Function.update_eq_self f s.buffer).symm
  | none =>
      refine (h.takeFrame hpf).bind ?_
      rintro ⟨f, s₂⟩ hmiss
      have hplace := hmiss.inv.place hmiss.unmapped
      have hground := hmiss.ground
      have hmapped : (s₂.placeLru p f).page2frame p = some f := by
        rw [hground.page2frame, PartialMap.insertOrAssign_self]
      cases isWrite with
      | true => exact ⟨hplace, hmapped, ⟨s₂, hground⟩, hmiss.exist, fun hw => absurd hw (by decide)⟩
      | false =>
          have hcontent := hmiss.agrees.content_of_none hmiss.unmapped
          obtain ⟨b, hb⟩ := Option.ne_none_iff_exists'.1 hp
          obtain ⟨zone, hz⟩ := loadPage_eq (s := s₂.placeLru p f) hplace.store
            (hcontent.trans hb) f
          refine Yields.bind_ok hz ⟨⟨hplace.points, hplace.free, hplace.used, hplace.held,
            hplace.mapped, hplace.linked, hplace.store.incIoCount.inv,
            hplace.store.incIoCount.idle⟩, hmapped, ⟨s₂, hground.agrees, hground.alone,
            hground.home, hground.page2frame, hground.frameToPage, ⟨b, rfl⟩, hground.frameDirty,
            hground.content⟩, hmiss.exist, fun _ => ?_⟩
          show m p = some (Function.update (s₂.placeLru p f).buffer f b f)
          rw [Function.update_self, hb]

/-! ## The calls -/

/-- **`read_page`.** -/
theorem readPageLru_spec (h : LruSim cfg s m) (hlru : cfg.mode = .lru) (hp : m p = some b) :
    Yields (s.readPage cfg p) (· = .noZone) fun r => r.1 = b ∧ LruSim cfg r.2 m := by
  have hfix := fixPageLru_spec h hlru (by rw [hp]; exact Option.some_ne_none b) false
  cases hr : s.fixPage cfg false p with
  | error e =>
      rw [readPage, hr]
      exact hfix.of_error hr
  | ok r =>
      obtain ⟨f, s₁⟩ := r
      have hfixed := hfix.of_ok hr
      obtain ⟨s₂, hground⟩ := hfixed.ground
      have hread := hground.read (hfixed.loaded rfl)
      have hb : s₁.buffer f = b := by
        have hloaded := hfixed.loaded rfl
        rw [hp, Option.some.injEq] at hloaded
        exact hloaded.symm
      rw [readPage_eq hr, if_pos (by rw [hb]; exact h.header p b hp)]
      refine ⟨hb, ⟨hfixed.inv.points, hfixed.inv.free, hfixed.inv.used, hfixed.inv.held,
        hfixed.inv.mapped, hfixed.inv.linked, hfixed.inv.store.inv, hfixed.inv.store.idle⟩,
        ⟨hread.resident, hread.stored, hread.dirty⟩, hfixed.exist, h.header⟩

/-- The pages a client has written start with their ids. -/
theorem header_insertOrAssign (h : ∀ q c, m q = some c → readId c = q) (hid : readId b = p)
    (q : PageId) (c : Page) (hq : m.insertOrAssign p b q = some c) : readId c = q := by
  rw [PartialMap.insertOrAssign_eq_some] at hq
  rcases hq with ⟨rfl, rfl⟩ | ⟨-, hq⟩
  · exact hid
  · exact h q c hq

/-- **`write_page`.** -/
theorem writePageLru_spec (h : LruSim cfg s m) (hlru : cfg.mode = .lru) (hp : m p ≠ none)
    (hid : readId b = p) :
    Yields (s.writePage cfg p b) (· = .noZone) fun s' => LruSim cfg s' (m.insertOrAssign p b) := by
  refine (fixPageLru_spec h hlru hp true).bind ?_
  rintro ⟨f, s₁⟩ hfixed
  obtain ⟨s₂, hground⟩ := hfixed.ground
  show Yields (((s₁.fill f b).incReadCount f).setDirty cfg f) _ _
  rw [setDirty, if_pos hlru]
  refine ⟨⟨hfixed.inv.points, hfixed.inv.free, hfixed.inv.used, hfixed.inv.held,
    hfixed.inv.mapped, hfixed.inv.linked, hfixed.inv.store.inv, hfixed.inv.store.idle⟩,
    hground.write rfl rfl rfl rfl rfl, fun q hq => hfixed.exist q ?_,
    header_insertOrAssign h.header hid⟩
  rcases insertOrAssign_ne_none.1 hq with rfl | hq
  · exact hp
  · exact hq

/-- **`fix_new_page`.** -/
theorem fixNewPageLru_spec (h : LruSim cfg s m) (hlru : cfg.mode = .lru) (hp : m p = none)
    (hid : readId b = p) :
    Yields (s.fixNewPage cfg p b) (· = .noZone) fun s' =>
      LruSim cfg s' (m.insertOrAssign p b) := by
  have hunmapped : s.page2frame p = none := by
    rw [Option.eq_none_iff_forall_ne_some]
    intro g hg
    have hm := h.agrees.resident p g hg
    rw [hp] at hm
    cases hm
  rw [fixNewPage, if_pos hlru]
  refine (h.takeFrame hunmapped).bind ?_
  rintro ⟨f, s₂⟩ hmiss
  have hcontent := (hmiss.agrees.content_of_none hmiss.unmapped).trans hp
  refine (Controller.createNewPage_spec hmiss.inv.store.inv 1 trivial hcontent hid).bind ?_
  intro c hc
  have hwrote : Flushed cfg True s₂ { s₂ with zdsm := c } [(p, b)] :=
    Flushed.wrote (fun _ => hmiss.inv.store) fun _ => hc
  have hstore := hwrote.store trivial
  set s₃ : Buffer := { s₂.fill f b with zdsm := c } with hs₃
  have hinv₃ : LruInv cfg [f] s₃ := ⟨hmiss.inv.points, hmiss.inv.free, hmiss.inv.used,
    hmiss.inv.held, hmiss.inv.mapped, hmiss.inv.linked, hstore.inv, hstore.idle⟩
  have hmap : (s₃.placeLru p f).page2frame = s₂.page2frame.insertOrAssign p f :=
    PartialMap.insert_of_none hmiss.unmapped f
  show LruSim cfg (s₃.placeLru p f) _
  refine ⟨hinv₃.place hmiss.unmapped, hmiss.agrees.insert
    (fun q hq => hmiss.inv.held f (by simp) (hmiss.inv.mapped q f hq).1) hmiss.unmapped hmap rfl
    rfl rfl hc.content, fun q hq => ?_, header_insertOrAssign h.header hid⟩
  show c.content q ≠ none
  rw [hc.content]
  rcases insertOrAssign_ne_none.1 hq with rfl | hq
  · exact insertOrAssign_ne_none.2 (Or.inl rfl)
  · exact insertOrAssign_ne_none.2 (Or.inr (hmiss.exist q hq))

/-- **One call in mode `lru`.** -/
theorem callLru_spec {c : Call} (h : LruSim cfg s m) (hlru : cfg.mode = .lru) (hpre : c.Pre m)
    (hhead : c.Headed) :
    Yields (step cfg c s) (· = .noZone) fun s' => LruSim cfg s' (c.spec m) := by
  cases c with
  | fixNewPage p b => exact fixNewPageLru_spec h hlru hpre.1 hhead
  | writePage p b => exact writePageLru_spec h hlru hpre hhead
  | readPage p =>
      obtain ⟨b, hb⟩ := Option.ne_none_iff_exists'.1 hpre
      refine (readPageLru_spec h hlru hb).bind ?_
      rintro r ⟨-, hr⟩
      exact hr

/-- **Runs in mode `lru`.** -/
theorem runLru_spec (hlru : cfg.mode = .lru) (mem : Memory) (calls : List Call)
    (hl : Legal Call.Pre Call.spec calls .empty) (hhead : AllHeaded calls) :
    Yields (run (step cfg) calls (Buffer.init cfg mem)) (· = .noZone) fun s =>
      LruSim cfg s (specRun Call.spec calls .empty) := by
  have hl' : Legal (fun m c => c.Pre m ∧ c.Headed) Call.spec calls .empty :=
    hl.imp fun c hmem _ hpre => ⟨hpre, hhead c hmem⟩
  refine run_yields (LruSim cfg) ?_ calls _ _ (LruSim.init cfg mem) hl'
  rintro s m c h ⟨hpre, hheadc⟩
  exact callLru_spec h hlru hpre hheadc

end Buffer

end ZoneBuffer
