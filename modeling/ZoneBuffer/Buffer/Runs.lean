import ZoneBuffer.Buffer.Calls

set_option autoImplicit false

/-! # Runs of the manager

A client calls `fix_new_page`, `write_page` and `read_page`. `Call.spec` is what a call means
for the contents the client believes in and `Call.Pre` which calls it makes: a page is inserted
once, under an id that is not negative, and read and written after that. That its frames start
with the pages' ids (`Call.Headed`) is asked for only where the contents matter.

`Called` says what a call does in the modes with `ZALP`, and `Turn` the part of it that concerns
the page table; `run_spec` is the induction over runs. -/

namespace ZoneBuffer

open Outcome Machine

/-- The calls of a client. -/
inductive Call where
  | fixNewPage (p : PageId) (frame : Page)
  | writePage (p : PageId) (frame : Page)
  | readPage (p : PageId)

namespace Call

/-- The page a call is about. -/
def page : Call → PageId
  | fixNewPage p _ => p
  | writePage p _ => p
  | readPage p => p

/-- What a call means. -/
def spec : Call → Contents → Contents
  | fixNewPage p frame, m => m.insertOrAssign p frame
  | writePage p frame, m => m.insertOrAssign p frame
  | readPage _, m => m

/-- The calls a client makes. -/
def Pre (m : Contents) : Call → Prop
  | fixNewPage p _ => m p = none ∧ 0 ≤ p
  | writePage p _ => m p ≠ none
  | readPage p => m p ≠ none

/-- The frame given starts with the page's id. -/
def Headed : Call → Prop
  | fixNewPage p frame => readId frame = p
  | writePage p frame => readId frame = p
  | readPage _ => True

instance (m : Contents) (c : Call) : Decidable (c.Pre m) :=
  match c with
  | fixNewPage _ _ => inferInstanceAs (Decidable (_ ∧ _))
  | writePage _ _ => inferInstanceAs (Decidable (_ ≠ none))
  | readPage _ => inferInstanceAs (Decidable (_ ≠ none))

instance (c : Call) : Decidable c.Headed :=
  match c with
  | fixNewPage _ _ => inferInstanceAs (Decidable (_ = _))
  | writePage _ _ => inferInstanceAs (Decidable (_ = _))
  | readPage _ => isTrue trivial

end Call

namespace Buffer

/-- A call, its result dropped. -/
def step (cfg : Config) : Call → Buffer → Except Fault Buffer
  | .fixNewPage p frame, s => s.fixNewPage cfg p frame
  | .writePage p frame, s => s.writePage cfg p frame
  | .readPage p, s => do
      let (_, s) ← s.readPage cfg p
      .ok s

variable {cfg : Config} {headed : Prop} {s s' s₁ s₂ : Buffer} {f : FrameId} {p : PageId}
  {b : Page} {isWrite : Bool} {m : Contents} {c : Call}

/-! ## What a call does -/

/-- The steps a call is made of. -/
inductive Called (cfg : Config) (headed : Prop) (s : Buffer) : Call → Buffer → Prop
  | readPage (p : PageId) (f : FrameId) (s₁ : Buffer)
      (hfix : Fixed cfg headed false s p f s₁) :
      Called cfg headed s (.readPage p) (s₁.incReadCount f)
  | writePage (p : PageId) (b : Page) (f : FrameId) (s₁ s' : Buffer)
      (hfix : Fixed cfg headed true s p f s₁) (hsoil : Soiled s₁ s' f b) :
      Called cfg headed s (.writePage p b) s'
  | fixNewPage (p : PageId) (b : Page) (f : FrameId) (s₂ s' : Buffer)
      (hp : s.page2frame p = none) (hinv : Inv cfg headed [f] [] s₂)
      (hmiss : Missed cfg headed s s₂ f) (hins : Inserted headed s₂ s' p f b) :
      Called cfg headed s (.fixNewPage p b) s'

/-- Page `p` has been placed in the frame `f` held, in front of the others. -/
structure Placed (s s' : Buffer) (p : PageId) (f : FrameId) : Prop where
  lru : s'.strategy.lruOrder = f :: s.strategy.lruOrder
  free : s'.strategy.freeFrames = s.strategy.freeFrames
  page2frame : s'.page2frame = s.page2frame.insertOrAssign p f
  frameToPage : s'.frameToPage = Function.update s.frameToPage f p

/-- What a call about page `p` does to the lists and the page table. -/
inductive Turn (cfg : Config) (headed : Prop) (s : Buffer) (p : PageId) (s' : Buffer) : Prop
  | hit (f : FrameId) (hp : s.page2frame p = some f)
      (hlru : s'.strategy.lruOrder = f :: s.strategy.lruOrder.erase f)
      (hfree : s'.strategy.freeFrames = s.strategy.freeFrames)
      (htable : s'.page2frame = s.page2frame) (hpages : s'.frameToPage = s.frameToPage)
  | miss (f : FrameId) (s₂ : Buffer) (hp : s.page2frame p = none)
      (hinv : Inv cfg headed [f] [] s₂) (hmiss : Missed cfg headed s s₂ f)
      (hplaced : Placed s₂ s' p f)

theorem placed_place (hinv : Inv cfg headed [f] [] s) (hp : s.page2frame p = none) :
    Placed s (s.place p f) p f :=
  ⟨hinv.lists.put.2.2, hinv.lists.put.2.1, place_page2frame hp, rfl⟩

theorem Fixed.turn (h : Fixed cfg headed isWrite s p f s') : Turn cfg headed s p s' := by
  cases h with
  | hit hp h =>
      exact .hit f hp h.lru h.free (by rw [h.same]) (by rw [h.same])
  | write s₂ hw hp hinv hmiss hs =>
      subst hs
      exact .miss f s₂ hp hinv hmiss (placed_place hinv (hmiss.page2frame_eq_none hp))
  | read s₂ hw hp hinv hmiss hload =>
      have hplaced := placed_place hinv (hmiss.page2frame_eq_none hp)
      exact .miss f s₂ hp hinv hmiss ⟨by rw [hload.strategy]; exact hplaced.lru,
        by rw [hload.strategy]; exact hplaced.free, hload.page2frame.trans hplaced.page2frame,
        hload.frameToPage.trans hplaced.frameToPage⟩

theorem Called.turn (h : Called cfg headed s c s') : Turn cfg headed s c.page s' := by
  cases h with
  | readPage p f s₁ hfix =>
      cases hfix.turn with
      | hit g hp hlru hfree htable hpages => exact .hit g hp hlru hfree htable hpages
      | miss g s₂ hp hinv hmiss hplaced =>
          exact .miss g s₂ hp hinv hmiss
            ⟨hplaced.lru, hplaced.free, hplaced.page2frame, hplaced.frameToPage⟩
  | writePage p b f s₁ s' hfix hsoil =>
      have htable : s'.page2frame = s₁.page2frame := by
        rw [hsoil.same]
        rfl
      have hpages : s'.frameToPage = s₁.frameToPage := by
        rw [hsoil.same]
        rfl
      cases hfix.turn with
      | hit g hp hlru hfree ht hf =>
          exact .hit g hp (hsoil.lru.trans hlru) (hsoil.free.trans hfree) (htable.trans ht)
            (hpages.trans hf)
      | miss g s₂ hp hinv hmiss hplaced =>
          exact .miss g s₂ hp hinv hmiss ⟨hsoil.lru.trans hplaced.lru,
            hsoil.free.trans hplaced.free, htable.trans hplaced.page2frame,
            hpages.trans hplaced.frameToPage⟩
  | fixNewPage p b f s₂ s' hp hinv hmiss hins =>
      refine .miss f s₂ hp hinv hmiss ⟨?_, ?_, hins.page2frame, hins.frameToPage⟩
      · rw [hins.strategy]
        exact hinv.lists.put.2.2
      · rw [hins.strategy]
        exact hinv.lists.put.2.1

/-- An eviction maps no page to a frame it was not in. -/
theorem Missed.page2frame_of (h : Missed cfg headed s s' f) {q : PageId} {g : FrameId}
    (hq : s'.page2frame q = some g) : s.page2frame q = some g := by
  obtain ⟨s₁, hinv₁, hroomed, htook⟩ := h
  have hq := (htook.page2frame_eq_some hinv₁.zalpLists hq).1
  rcases hroomed with ⟨-, rfl⟩ | ⟨-, l, hev⟩
  · exact hq
  · exact ((hev.page2frame q g).1 hq).1

/-- A page mapped after a call was mapped before or is the one the call is about. -/
theorem Turn.mapped (h : Turn cfg headed s p s') {q : PageId} {g : FrameId}
    (hq : s'.page2frame q = some g) : q = p ∨ s.page2frame q = some g := by
  cases h with
  | hit f hp hlru hfree htable hpages => exact Or.inr (htable ▸ hq)
  | miss f s₂ hp hinv hmiss hplaced =>
      rw [hplaced.page2frame, PartialMap.insertOrAssign_eq_some] at hq
      rcases hq with ⟨rfl, -⟩ | ⟨-, hq⟩
      · exact Or.inl rfl
      · exact Or.inr (hmiss.page2frame_of hq)

/-! ## Which pages exist -/

theorem Missed.content_ne_none_iff (h : Missed cfg headed s s' f) (hinv : Inv cfg headed [] [] s)
    (hh : headed) (q : PageId) : s'.zdsm.content q ≠ none ↔ s.zdsm.content q ≠ none := by
  constructor
  · intro hq hnone
    exact hq (h.content_eq_none hinv hh hnone)
  · intro hq
    exact h.content_ne_none (fun _ => hq) hh

theorem Fixed.content_ne_none_iff (h : Fixed cfg headed isWrite s p f s')
    (hinv : Inv cfg headed [] [] s) (hh : headed) (q : PageId) :
    s'.zdsm.content q ≠ none ↔ s.zdsm.content q ≠ none := by
  cases h with
  | hit hp h => rw [h.same]
  | write s₂ hw hp hinv₂ hmiss hs =>
      subst hs
      exact hmiss.content_ne_none_iff hinv hh q
  | read s₂ hw hp hinv₂ hmiss hload =>
      rw [hload.content hh]
      exact hmiss.content_ne_none_iff hinv hh q

theorem insertOrAssign_ne_none {m : Contents} {q : PageId} :
    m.insertOrAssign p b q ≠ none ↔ q = p ∨ m q ≠ none := by
  rw [PartialMap.insertOrAssign_apply]
  split
  case isTrue h => simp [h]
  case isFalse h => simp [h]

/-- The invariant of runs: the manager knows the pages its client does. -/
structure Sim (cfg : Config) (headed : Prop) (s : Buffer) (m : Contents) : Prop where
  inv : Inv cfg headed [] [] s
  known : ∀ p f, s.page2frame p = some f → m p ≠ none
  exist : headed → ∀ p, s.zdsm.content p ≠ none ↔ m p ≠ none

theorem Sim.init (cfg : Config) (headed : Prop) (mem : Memory) :
    Sim cfg headed (Buffer.init cfg mem) .empty where
  inv := Inv.init cfg headed mem
  known := by
    intro p f h
    cases h
  exist _ _ := Iff.rfl

/-- A page that is not mapped can be given to a client that does not know it. -/
theorem Sim.unmapped (h : Sim cfg headed s m) (hp : m p = none) : s.page2frame p = none := by
  rw [Option.eq_none_iff_forall_ne_some]
  intro f hf
  exact h.known p f hf hp

theorem Sim.not_stored (h : Sim cfg headed s m) (hp : m p = none) :
    headed → s.zdsm.content p = none :=
  fun hh => by_contra fun hne => (h.exist hh p).1 hne hp

theorem Sim.exists (h : Sim cfg headed s m) (hp : m p ≠ none) : s.Exists headed p :=
  fun hh => (h.exist hh p).2 hp

/-- **One call.** -/
theorem call_spec (h : Sim cfg headed s m) (hlru : cfg.mode ≠ .lru) (hpre : c.Pre m)
    (hhead : headed → c.Headed) :
    Yields (step cfg c s) (Stops headed) fun s' =>
      Inv cfg headed [] [] s' ∧ Called cfg headed s c s' := by
  cases c with
  | fixNewPage p b =>
      have hp := h.unmapped hpre.1
      refine (fixNewPage_spec h.inv hlru hp (h.not_stored hpre.1) hhead hpre.2).imp ?_
      rintro s' ⟨hinv, f, s₂, hinv₂, hmiss, hins⟩
      exact ⟨hinv, .fixNewPage p b f s₂ s' hp hinv₂ hmiss hins⟩
  | writePage p b =>
      refine (writePage_spec h.inv hlru (h.exists hpre) hhead).imp ?_
      rintro s' ⟨hinv, f, s₁, hfix, hsoil⟩
      exact ⟨hinv, .writePage p b f s₁ s' hfix hsoil⟩
  | readPage p =>
      refine (readPage_spec h.inv hlru (h.exists hpre)).bind ?_
      rintro ⟨b, s'⟩ ⟨hinv, f, s₁, hfix, hb, hs⟩
      cases hs
      exact ⟨hinv, .readPage p f s₁ hfix⟩

/-- The page of a call is known after it. -/
theorem Call.spec_ne_none {q : PageId} (hpre : c.Pre m) (hq : q = c.page ∨ m q ≠ none) :
    c.spec m q ≠ none := by
  cases c with
  | fixNewPage p b => exact insertOrAssign_ne_none.2 hq
  | writePage p b => exact insertOrAssign_ne_none.2 hq
  | readPage p =>
      rcases hq with rfl | hq
      · exact hpre
      · exact hq

/-- A call keeps the invariant of runs. -/
theorem Called.sim (hc : Called cfg headed s c s') (hinv' : Inv cfg headed [] [] s')
    (h : Sim cfg headed s m) (hpre : c.Pre m) : Sim cfg headed s' (c.spec m) where
  inv := hinv'
  known q g hq := Call.spec_ne_none hpre ((hc.turn.mapped hq).imp_right (h.known q g))
  exist hh q := by
    cases hc with
    | readPage p f s₁ hfix =>
        exact (hfix.content_ne_none_iff h.inv hh q).trans (h.exist hh q)
    | writePage p b f s₁ s' hfix hsoil =>
        have hz : s'.zdsm = s₁.zdsm := by
          rw [hsoil.same]
          rfl
        rw [hz, hfix.content_ne_none_iff h.inv hh q, h.exist hh q, Call.spec,
          insertOrAssign_ne_none]
        refine ⟨Or.inr, ?_⟩
        rintro (rfl | hq)
        · exact hpre
        · exact hq
    | fixNewPage p b f s₂ s' hp hinv₂ hmiss hins =>
        rw [hins.content hh, insertOrAssign_ne_none, hmiss.content_ne_none_iff h.inv hh q,
          h.exist hh q, Call.spec, insertOrAssign_ne_none]

/-! ## Runs -/

/-- The frames of all calls start with the pages' ids. -/
def AllHeaded (calls : List Call) : Prop := ∀ c ∈ calls, c.Headed

/-- **The induction over runs.** `P` is kept by calls that meet `cond`. -/
theorem run_spec (P : Buffer → Contents → Prop) (cond : Buffer → Call → Prop)
    (hstep : ∀ s s' m c, Sim cfg headed s m → c.Pre m → (headed → c.Headed) → cond s c →
      Called cfg headed s c s' → Inv cfg headed [] [] s' → P s m → P s' (c.spec m))
    (hlru : cfg.mode ≠ .lru) (mem : Memory) (calls : List Call)
    (h0 : P (Buffer.init cfg mem) .empty)
    (hl : Legal Call.Pre Call.spec calls .empty) (hhead : headed → AllHeaded calls)
    (hc : Along (step cfg) cond calls (Buffer.init cfg mem)) :
    Yields (run (step cfg) calls (Buffer.init cfg mem)) (Stops headed) fun s =>
      Sim cfg headed s (specRun Call.spec calls .empty) ∧ P s (specRun Call.spec calls .empty) := by
  have hl' : Legal (fun m c => c.Pre m ∧ (headed → c.Headed)) Call.spec calls .empty :=
    hl.imp fun c hmem _ hpre => ⟨hpre, fun hh => hhead hh c hmem⟩
  refine run_yields_along (fun s m => Sim cfg headed s m ∧ P s m) ?_ calls _ _
    ⟨Sim.init cfg headed mem, h0⟩ hl' hc
  rintro s m c ⟨hsim, hP⟩ ⟨hpre, hheadc⟩ hcond
  refine (call_spec hsim hlru hpre hheadc).imp ?_
  rintro s' ⟨hinv', hcalled⟩
  exact ⟨hcalled.sim hinv' hsim hpre, hstep s s' m c hsim hpre hheadc hcond hcalled hinv' hP⟩

/-- The invariant in every state reached. -/
theorem run_sim (hlru : cfg.mode ≠ .lru) (mem : Memory) (calls : List Call)
    (hl : Legal Call.Pre Call.spec calls .empty) (hhead : headed → AllHeaded calls) :
    Yields (run (step cfg) calls (Buffer.init cfg mem)) (Stops headed) fun s =>
      Sim cfg headed s (specRun Call.spec calls .empty) :=
  (run_spec (fun _ _ => True) (fun _ _ => True) (fun _ _ _ _ _ _ _ _ _ _ _ => trivial) hlru mem
    calls trivial hl hhead (along_true _ _ _)).imp fun _ h => h.1

end Buffer

/-! ## A small build -/

theorem Mode.clusterNum_pos (mode : Mode) : 0 < mode.clusterNum := by
  cases mode <;> decide

/-- Five frames, one of them in the working region, over zones of four pages. -/
def Config.small (mode : Mode) : Config where
  mode := mode
  cdDetect := true
  defBufSize := 5
  workRegSize := 1
  g := Geometry.ofDevice 500 62448768 65536 mode.clusterNum (by decide) (by decide) (by decide)
    mode.clusterNum_pos
  tests := .exact
  junk _ := 0
  cluster_eq := rfl
  work_pos := by decide
  work_lt := by decide
  wh_le _ := by decide
  flush_fits := (by decide : (5 - 1) * PAGE_SIZE ≤ deviceCap 62448768)
  interval_pos := (by decide : 2 * PAGE_SIZE ≤ deviceCap 62448768)

/-- Memory as it may be left by whatever ran before. -/
def Memory.zero : Memory := ⟨fun _ _ => 0, 0, fun _ => ⟨0, 0, 0⟩⟩

/-- The start of the small build. -/
def smallBuffer (mode : Mode) : Buffer := Buffer.init (.small mode) .zero

/-- Pages 0 to 3 are inserted and written, page 4 is inserted: no frame is free, and the only
clean one is in the working region. -/
@[irreducible] def fillCalls : List Call :=
  [.fixNewPage 0 (frameOf 0 1), .writePage 0 (frameOf 0 2), .fixNewPage 1 (frameOf 1 1),
    .writePage 1 (frameOf 1 2), .fixNewPage 2 (frameOf 2 1), .writePage 2 (frameOf 2 2),
    .fixNewPage 3 (frameOf 3 1), .writePage 3 (frameOf 3 2), .fixNewPage 4 (frameOf 4 1)]

/-- The insertion of page 5 evicts the frames behind the working region. Then page 2 is written
again, and page 6 inserted. -/
@[irreducible] def reuseCalls : List Call :=
  fillCalls ++ [.fixNewPage 5 (frameOf 5 1), .writePage 2 (frameOf 2 3),
    .fixNewPage 6 (frameOf 6 1)]

theorem reuseCalls_legal : Legal Call.Pre Call.spec reuseCalls .empty := by decide +kernel

end ZoneBuffer
