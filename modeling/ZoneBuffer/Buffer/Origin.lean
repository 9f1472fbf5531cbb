import ZoneBuffer.Buffer.Reads

set_option autoImplicit false

/-! # Where the bytes come from

The modes that keep the frames of their victims can lose a write, and a client then reads what it
did not write last. What it reads it has written at some time, and for that page: frames are only
ever copied whole, together with the id recorded for them. So what is true of every frame given
for its page is true of every page resident and of every page stored (`Vouched`), in every mode. -/

namespace ZoneBuffer

open Outcome Machine

namespace Call

/-- `P` holds of the frame the call gives for its page. -/
def Vouches (P : PageId → Page → Prop) : Call → Prop
  | fixNewPage p b => P p b
  | writePage p b => P p b
  | readPage _ => True

/-- Page `p` has been given the bytes `b`. -/
def Given (calls : List Call) (p : PageId) (b : Page) : Prop :=
  fixNewPage p b ∈ calls ∨ writePage p b ∈ calls

theorem vouches_given {calls : List Call} {c : Call} (hc : c ∈ calls) :
    c.Vouches (Given calls) := by
  cases c with
  | fixNewPage p b => exact Or.inl hc
  | writePage p b => exact Or.inr hc
  | readPage p => trivial

/-- What is true of the frames given is true of what the client believes in. -/
theorem Vouches.spec {P : PageId → Page → Prop} {m : Contents} {c : Call} (hc : c.Vouches P)
    (hm : ∀ p b, m p = some b → P p b) : ∀ p b, c.spec m p = some b → P p b := by
  have hassign : ∀ q a, P q a → ∀ p b, m.insertOrAssign q a p = some b → P p b := by
    intro q a hq p b hp
    rcases PartialMap.insertOrAssign_eq_some.1 hp with ⟨rfl, rfl⟩ | ⟨-, hp⟩
    · exact hq
    · exact hm p b hp
  cases c with
  | fixNewPage q a => exact hassign q a hc
  | writePage q a => exact hassign q a hc
  | readPage q => exact hm

end Call

namespace Buffer

variable {cfg : Config} {P : PageId → Page → Prop} {s s' s₁ s₂ : Buffer} {f : FrameId}
  {p : PageId} {m : Contents} {c : Call} {vs : List FrameId} {l : List (PageId × Page)}

/-- `P` holds of every resident frame, for the page recorded for it, and of every page stored. The
frames `held` are about to be overwritten. -/
structure Vouched (P : PageId → Page → Prop) (held : List FrameId) (s : Buffer) : Prop where
  frames : ∀ f ∈ s.strategy.lruOrder, f ∉ held → P (s.frameToPage f) (s.buffer f)
  stored : ∀ p b, s.zdsm.content p = some b → P p b

theorem Vouched.init (P : PageId → Page → Prop) (cfg : Config) (mem : Memory) :
    Vouched P [] (Buffer.init cfg mem) where
  frames f hf := by
    rw [(Inv.init cfg False mem).lists.shows.lru] at hf
    cases hf
  stored p b h := by
    cases h

/-! ## The steps -/

/-- What is written back of resident frames is vouched for. -/
theorem Vouched.assignAll (hv : Vouched P [] s) (hvs : ∀ v ∈ vs, v ∈ s.strategy.lruOrder)
    (hl : ∀ e ∈ l, e ∈ s.copies vs) {b : Page} (h : s.zdsm.content.assignAll l p = some b) :
    P p b := by
  rcases PartialMap.assignAll_eq_some h with hmem | hcontent
  · obtain ⟨v, hvmem, hpair⟩ := mem_copies.1 (hl _ hmem)
    cases hpair
    exact hv.frames v (hvs v hvmem) (by simp)
  · exact hv.stored p b hcontent

theorem Evicted.vouched (h : Evicted cfg True s s' vs l) (hv : Vouched P [] s) :
    Vouched P [] s' where
  frames f hf hheld := by
    rw [h.frameToPage, h.buffer]
    exact hv.frames f (h.mem_lru.1 hf).1 hheld
  stored p b hp := by
    rw [h.content trivial] at hp
    apply hv.assignAll (fun v hmem => ?_) (fun e he => (h.mem e).1 he) hp
    exact List.mem_of_mem_drop (h.picked.mem v hmem).1

theorem Took.vouched (h : Took cfg s s' f) (hl : ZalpLists cfg [] s) (hv : Vouched P [] s) :
    Vouched P [] s' where
  frames g hg hheld := by
    rw [h.frameToPage, h.buffer]
    exact hv.frames g ((h.mem_lru hl).1 hg).1 hheld
  stored p b hp := by
    rw [h.zdsm] at hp
    exact hv.stored p b hp

theorem Missed.vouched (h : Missed cfg True s s₂ f) (hv : Vouched P [] s) :
    Vouched P [] s₂ := by
  obtain ⟨s₁, hinv₁, hroomed, htook⟩ := h
  apply htook.vouched hinv₁.zalpLists
  rcases hroomed with ⟨-, rfl⟩ | ⟨-, l, hev⟩
  · exact hv
  · exact hev.vouched hv

/-- The frame a page is placed in is the only one that is not vouched for. -/
theorem Vouched.place (hv : Vouched P [] s) (hinv : Inv cfg True [f] [] s) :
    Vouched P [f] (s.place p f) where
  frames g hg hheld := by
    have hne : g ≠ f := by simpa using hheld
    have hmem : g ∈ s.strategy.lruOrder := by
      have hcons : g ∈ f :: s.strategy.lruOrder := hinv.lists.put.2.2 ▸ hg
      exact List.mem_of_ne_of_mem hne hcons
    show P (Function.update s.frameToPage f p g) (s.buffer g)
    rw [Function.update_of_ne hne]
    exact hv.frames g hmem (by simp)
  stored := hv.stored

/-- Filling the frame of page `p` with bytes vouched for. -/
theorem Vouched.settle {b : Page} (hv : Vouched P [f] s) (hf : s.frameToPage f = p) (hp : P p b)
    (hlru : s'.strategy.lruOrder = s.strategy.lruOrder) (hpages : s'.frameToPage = s.frameToPage)
    (hbuffer : s'.buffer = Function.update s.buffer f b)
    (hcontent : s'.zdsm.content = s.zdsm.content) : Vouched P [] s' where
  frames g hg _ := by
    rw [hpages, hbuffer]
    by_cases hgf : g = f
    · rw [hgf, Function.update_self, hf]
      exact hp
    · rw [Function.update_of_ne hgf]
      exact hv.frames g (hlru ▸ hg) (by simpa using hgf)
  stored q a hq := hv.stored q a (hcontent ▸ hq)

theorem Vouched.except (hv : Vouched P [] s) (held : List FrameId) : Vouched P held s :=
  ⟨fun g hg _ => hv.frames g hg (by simp), hv.stored⟩

/-- A page fixed for reading is vouched for with the others, one fixed for writing is not yet. -/
theorem Fixed.vouched {isWrite : Bool} (h : Fixed cfg True isWrite s p f s')
    (hinv : Inv cfg True [] [] s) (hv : Vouched P [] s) :
    Vouched P (if isWrite then [f] else []) s' := by
  cases h with
  | hit hp h =>
      refine Vouched.except ⟨fun g hg hheld => ?_, fun q b hq => ?_⟩ _
      · have hmem := (h.mem_lru (hinv.mapped p f hp).1).1 hg
        rw [h.same]
        exact hv.frames g hmem hheld
      · rw [h.same] at hq
        exact hv.stored q b hq
  | write s₂ hw hp hinv₂ hmiss hs =>
      subst hw hs
      exact (hmiss.vouched hv).place hinv₂
  | read s₂ hw hp hinv₂ hmiss hload =>
      subst hw
      obtain ⟨b, hb, hcontent⟩ := hload.buffer
      have hplaced : Vouched P [f] (s₂.place p f) := (hmiss.vouched hv).place hinv₂
      refine hplaced.settle (Function.update_self ..) (hplaced.stored p b (hcontent trivial)) ?_
        hload.frameToPage hb (hload.content trivial)
      rw [hload.strategy]

/-- **A call that gives what is vouched for.** -/
theorem Called.vouched (h : Called cfg True s c s') (hinv : Inv cfg True [] [] s)
    (hc : c.Vouches P) (hv : Vouched P [] s) : Vouched P [] s' := by
  cases h with
  | readPage p f s₁ hfix =>
      have hread := hfix.vouched hinv hv
      exact ⟨hread.frames, hread.stored⟩
  | writePage p b f s₁ s' hfix hsoil =>
      have hpage : s₁.frameToPage f = p := (hfix.front hinv).2.2
      apply (hfix.vouched hinv hv).settle hpage hc hsoil.lru
      · rw [hsoil.same]
        rfl
      · rw [hsoil.same]
        rfl
      · rw [hsoil.same]
        rfl
  | fixNewPage p b f s₂ s' hp hinv₂ hmiss hins =>
      have hplaced : Vouched P [f] (s₂.place p f) := (hmiss.vouched hv).place hinv₂
      refine ⟨fun g hg _ => ?_, fun q a hq => ?_⟩
      · rw [hins.strategy] at hg
        rw [hins.frameToPage, hins.buffer]
        by_cases hgf : g = f
        · rw [hgf, Function.update_self, Function.update_self]
          exact hc
        · have hkeep : Function.update s₂.buffer f b g = s₂.buffer g :=
            Function.update_of_ne hgf ..
          rw [hkeep]
          exact hplaced.frames g hg (by simpa using hgf)
      · rw [hins.content trivial] at hq
        rcases PartialMap.insertOrAssign_eq_some.1 hq with ⟨rfl, rfl⟩ | ⟨-, hq⟩
        · exact hc
        · exact hplaced.stored q a hq

/-! ## Any mode -/

/-- The invariant of runs, of either kind. -/
structure Tracks (cfg : Config) (s : Buffer) (m : Contents) : Prop where
  zalp : cfg.mode ≠ .lru → Sim cfg True s m
  lru : cfg.mode = .lru → LruSim cfg s m

theorem Tracks.init (cfg : Config) (mem : Memory) : Tracks cfg (Buffer.init cfg mem) .empty where
  zalp _ := Sim.init cfg True mem
  lru _ := LruSim.init cfg mem

theorem Tracks.called (h : Tracks cfg s m) (hpre : c.Pre m) (hhead : c.Headed) :
    Yields (step cfg c s) (· = .noZone) fun s' => Tracks cfg s' (c.spec m) := by
  by_cases hlru : cfg.mode = .lru
  · refine (callLru_spec (h.lru hlru) hlru hpre hhead).imp fun s' hs' => ?_
    exact ⟨fun hne => absurd hlru hne, fun _ => hs'⟩
  · have hsim := h.zalp hlru
    refine (call_spec hsim hlru hpre fun _ => hhead).mono (fun e he => he trivial) ?_
    rintro s' ⟨hinv, hcalled⟩
    exact ⟨fun _ => hcalled.sim hinv hsim hpre, fun heq => absurd heq hlru⟩

theorem run_tracks (mem : Memory) (calls : List Call)
    (hl : Legal Call.Pre Call.spec calls .empty) (hhead : AllHeaded calls) :
    Yields (run (step cfg) calls (Buffer.init cfg mem)) (· = .noZone) fun s' =>
      Tracks cfg s' (specRun Call.spec calls .empty) := by
  have hl' : Legal (fun m c => c.Pre m ∧ c.Headed) Call.spec calls .empty :=
    hl.imp fun c hmem _ hpre => ⟨hpre, hhead c hmem⟩
  refine run_yields (Tracks cfg) ?_ calls _ _ (Tracks.init cfg mem) hl'
  rintro s m c h ⟨hpre, hheadc⟩
  exact h.called hpre hheadc

/-- The invariant of runs, `P` being true of all frames given. -/
structure Carries (cfg : Config) (P : PageId → Page → Prop) (s : Buffer) (m : Contents) :
    Prop where
  tracks : Tracks cfg s m
  given : ∀ p b, m p = some b → P p b
  vouched : cfg.mode ≠ .lru → Vouched P [] s

theorem Carries.init (cfg : Config) (P : PageId → Page → Prop) (mem : Memory) :
    Carries cfg P (Buffer.init cfg mem) .empty where
  tracks := Tracks.init cfg mem
  given p b h := by
    cases h
  vouched _ := Vouched.init P cfg mem

/-- **One call.** -/
theorem Carries.called (h : Carries cfg P s m) (hpre : c.Pre m) (hhead : c.Headed)
    (hc : c.Vouches P) :
    Yields (step cfg c s) (· = .noZone) fun s' => Carries cfg P s' (c.spec m) := by
  by_cases hlru : cfg.mode = .lru
  · refine (h.tracks.called hpre hhead).imp fun s' hs' => ?_
    exact ⟨hs', hc.spec h.given, fun hne => absurd hlru hne⟩
  · have hsim := h.tracks.zalp hlru
    refine (call_spec hsim hlru hpre fun _ => hhead).mono (fun e he => he trivial) ?_
    rintro s' ⟨hinv, hcalled⟩
    refine ⟨⟨fun _ => hcalled.sim hinv hsim hpre, fun heq => absurd heq hlru⟩,
      hc.spec h.given, fun _ => ?_⟩
    exact hcalled.vouched hsim.inv hc (h.vouched hlru)

/-- Nothing is said of the counters, nor of the rates of the zones. -/
theorem Sim.counters {z : Controller} (h : Sim cfg True s m) (n : Int32)
    (hst : StoreOk cfg { s with hitCount := n, zdsm := z }) (hcontent : z.content = s.zdsm.content) :
    Sim cfg True { s with hitCount := n, zdsm := z } m where
  inv := by
    refine ⟨h.inv.lists, h.inv.mapped, h.inv.flags, fun _ => ⟨hst, fun f hf => ?_,
      (h.inv.stored trivial).header⟩⟩
    show z.content _ ≠ none
    rw [hcontent]
    exact (h.inv.stored trivial).created f hf
  known := h.known
  exist _ p := by
    show z.content p ≠ none ↔ _
    rw [hcontent]
    exact h.exist trivial p

theorem LruSim.counters {z : Controller} (h : LruSim cfg s m) (n : Int32)
    (hst : StoreOk cfg { s with hitCount := n, zdsm := z }) (hcontent : z.content = s.zdsm.content) :
    LruSim cfg { s with hitCount := n, zdsm := z } m where
  inv := by
    have hlists : LruLists cfg [] { s with hitCount := n, zdsm := z } :=
      h.inv.lists.congr rfl rfl rfl rfl
    exact hlists.withStore hst
  agrees := by
    refine ⟨h.agrees.resident, fun p hp => ?_, h.agrees.dirty⟩
    show z.content p = _
    rw [hcontent]
    exact h.agrees.stored p hp
  exist p hp := by
    show z.content p ≠ none
    rw [hcontent]
    exact h.exist p hp
  header := h.header

theorem Carries.counters {z : Controller} (h : Carries cfg P s m) (n : Int32)
    (hinv : Controller.Inv cfg.g (fun _ => True) s.zdsm → Controller.Inv cfg.g (fun _ => True) z)
    (hidle : s.zdsm.Idle → z.Idle) (hcontent : z.content = s.zdsm.content) :
    Carries cfg P { s with hitCount := n, zdsm := z } m where
  tracks := by
    refine ⟨fun hlru => ?_, fun hlru => ?_⟩
    · have hst := ((h.tracks.zalp hlru).inv.stored trivial).store
      exact (h.tracks.zalp hlru).counters n ⟨hinv hst.inv, hidle hst.idle⟩ hcontent
    · have hst := (h.tracks.lru hlru).inv.store
      exact (h.tracks.lru hlru).counters n ⟨hinv hst.inv, hidle hst.idle⟩ hcontent
  given := h.given
  vouched hlru := ⟨(h.vouched hlru).frames, fun p b hp => (h.vouched hlru).stored p b (hcontent ▸ hp)⟩

/-- What a client is shown of the pages it knows satisfies `P`: when it reads a page, and from the
device after `clean_buffer`, where it finds these pages and no others. -/
structure Traced (cfg : Config) (P : PageId → Page → Prop) (s : Buffer) (m : Contents) : Prop where
  reads : ∀ p, m p ≠ none → Yields (s.readPage cfg p) (· = .noZone) fun r => P p r.1
  cleans : Yields (s.cleanBuffer cfg) (· = .noZone) fun s' =>
    (∀ p, s'.zdsm.content p ≠ none ↔ m p ≠ none) ∧ ∀ p b, s'.zdsm.content p = some b → P p b

/-- `clean_buffer` writes the dirty frames back, whatever the client believes in. -/
theorem cleanBuffer_flushed (hst : StoreOk cfg s)
    (hw : ∀ f, s.frameDirty f = true → s.Writable [f]) :
    Yields (s.cleanBuffer cfg) (· = .noZone) fun s' => s'.zdsm.content =
      s.zdsm.content.assignAll (s.copies ((List.range cfg.defBufSize).filter s.frameDirty)) := by
  have hloop : Yields ((List.range cfg.defBufSize).foldlM (cleanOne cfg) s) (· = .noZone)
      fun s' => Flushed cfg True s s'
        (s.copies ((List.range cfg.defBufSize).filter s.frameDirty)) :=
    Yields.foldlM_upto (fun done s' =>
      Flushed cfg True s s' (s.copies (done.filter s.frameDirty))) _ _
      (Flushed.refl fun _ => hst) fun done f _ s₁ _ hs₁ => cleanOne_spec hs₁ (hw f)
  apply hloop.bind
  intro s' hs'
  exact hs'.content trivial

/-- The modes with `ZALP`. -/
theorem Sim.traced (h : Sim cfg True s m) (hlru : cfg.mode ≠ .lru) (hv : Vouched P [] s) :
    Traced cfg P s m where
  reads p hp := by
    refine (readPage_spec h.inv hlru (h.exists hp)).mono (fun e he => he trivial) ?_
    rintro r ⟨-, f, s₁, hfix, hr, -⟩
    obtain ⟨⟨rest, hfront⟩, -, hpage⟩ := hfix.front h.inv
    have hread := (hfix.vouched h.inv hv).frames f (by rw [hfront]; exact List.mem_cons_self)
      (by simp)
    rw [hr, ← hpage]
    exact hread
  cleans := by
    have hst := h.inv.stored trivial
    have hmem : ∀ f, s.frameDirty f = true → f ∈ s.strategy.lruOrder := h.inv.lists.dirty_mem
    have hdirty : ∀ v ∈ (List.range cfg.defBufSize).filter s.frameDirty,
        v ∈ s.strategy.lruOrder := fun v hvs => hmem v (List.mem_filter.1 hvs).2
    refine (cleanBuffer_flushed hst.store fun f hf => hst.writable fun v hvs => ?_).imp ?_
    · rw [List.mem_singleton.1 hvs]
      exact hmem f hf
    · intro s' hs'
      rw [hs']
      refine ⟨fun p => ?_, fun p b hp => hv.assignAll hdirty (fun e he => he) hp⟩
      rw [PartialMap.assignAll_ne_none_iff, h.exist trivial p]
      constructor
      · rintro (hp | ⟨e, he, rfl⟩)
        · exact hp
        · obtain ⟨v, hvs, rfl⟩ := mem_copies.1 he
          exact (h.exist trivial _).1 (hst.created v (hdirty v hvs))
      · exact Or.inl

/-- A client that is shown what it believes in. -/
theorem Faithful.traced (h : Faithful cfg s m) (hm : ∀ p b, m p = some b → P p b) :
    Traced cfg P s m where
  reads p hp := by
    obtain ⟨b, hb⟩ := Option.ne_none_iff_exists'.1 hp
    exact (h.reads p b hb).imp fun r hr => hr ▸ hm p b hb
  cleans := h.cleans.imp fun s' hs' => by
    rw [hs']
    exact ⟨fun p => Iff.rfl, hm⟩

theorem Carries.traced (h : Carries cfg P s m) : Traced cfg P s m := by
  by_cases hlru : cfg.mode = .lru
  · exact ((h.tracks.lru hlru).faithful hlru).traced h.given
  · exact (h.tracks.zalp hlru).traced hlru (h.vouched hlru)

/-- **No client is shown bytes it has not given for the page**, in any mode: a page read has, byte
for byte, one of the contents it has been inserted or written with, and so has every page
`clean_buffer` leaves on the device. -/
theorem run_given (cfg : Config) (mem : Memory) (calls : List Call)
    (hl : Legal Call.Pre Call.spec calls .empty) (hhead : AllHeaded calls) :
    Yields (run (step cfg) calls (Buffer.init cfg mem)) (· = .noZone) fun s =>
      Traced cfg (Call.Given calls) s (specRun Call.spec calls .empty) := by
  have hl' : Legal (fun m c => c.Pre m ∧ c.Headed ∧ c.Vouches (Call.Given calls)) Call.spec calls
      .empty := hl.imp fun c hc _ hpre => ⟨hpre, hhead c hc, Call.vouches_given hc⟩
  refine (run_yields (Carries cfg (Call.Given calls)) ?_ calls _ _
    (Carries.init cfg _ mem) hl').imp fun s h => h.traced
  rintro s m c h ⟨hpre, hheadc, hc⟩
  exact h.called hpre hheadc hc

/-- The run in which a write is lost. -/
theorem run_given_reuse :
    ∃ s, run (step (.small .achOnly)) reuseCalls (smallBuffer .achOnly) = .ok s ∧
      Traced (.small .achOnly) (Call.Given reuseCalls) s
        (specRun Call.spec reuseCalls .empty) :=
  (run_given (.small .achOnly) .zero reuseCalls reuseCalls_legal
    (by unfold AllHeaded; decide +kernel)).of_isOk (by decide +kernel)

end Buffer

end ZoneBuffer
