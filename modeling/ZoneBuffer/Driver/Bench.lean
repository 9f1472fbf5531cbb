import ZoneBuffer.Buffer.Origin
import ZoneBuffer.Driver.Instruction

set_option autoImplicit false

/-! # The benchmark

`main` (`main.cpp`) runs two workloads against a new manager and destroys it, which stores what is
dirty. All frames it gives are made by `generate_random_frame`; two frames made for a page differ in
their last byte at most. That is why the benchmark finishes in every mode, and leaves on the device
a frame of each page inserted and nothing else (`main_stores`), also in the modes that lose writes.

To show its progress `db_bench` divides by a tenth and by a hundredth of the number of instructions,
so it divides by zero on workloads of less than a hundred instructions that are not empty. -/

namespace ZoneBuffer.Driver

open Outcome Machine

/-- How the program stops if it does not finish. -/
inductive Stop where
  | fault (f : Fault)
  /-- The right operand of `%` is zero. -/
  | divide
  deriving DecidableEq, Repr

/-- `execute`; the frame is made in memory that holds `mem`. -/
def execute (cfg : Config) (mem : Page) (i : Instruction) (s : Buffer) : Except Fault Buffer :=
  if i.operate = INSERT then s.fixNewPage cfg i.pageId (generateRandomFrame mem i.pageId)
  else if i.operate = UPDATE then s.writePage cfg i.pageId (generateRandomFrame mem i.pageId)
  else if i.operate = READ then do
    let (_, s) ← s.readPage cfg i.pageId
    .ok s
  else .ok s

/-- The loop of `db_bench` over what is left of `size` instructions. -/
def benchFrom (cfg : Config) (mem : Nat → Page) (size : Nat) :
    Nat → List Instruction → Buffer → Except Stop Buffer
  | _, [], s => .ok s
  | index, iter :: ins, s =>
      if size / 10 = 0 ∨ size / 100 = 0 then .error .divide
      else do
        let s ← (execute cfg (mem index) iter s).mapError .fault
        benchFrom cfg mem size (index + 1) ins s

/-- The memory the instructions and the frames of a workload are made in. -/
structure Heap where
  instruction : Nat → Instruction
  frame : Nat → Page

def dbBench (cfg : Config) (heap : Heap) (benchFile : List Char) (s : Buffer) :
    Except Stop Buffer :=
  let ins := readInstructions heap.instruction benchFile
  benchFrom cfg heap.frame ins.length 0 ins s

/-- `main`, up to what is left on the device. The destructor of the manager calls
`clean_buffer`. -/
def main (cfg : Config) (mem : Memory) (heap heap' : Heap) (loadDbFile testDbFile : List Char) :
    Except Stop Buffer := do
  let s ← dbBench cfg heap loadDbFile (Buffer.init cfg mem)
  let s := s.hitCountClear
  -- `print_gc_info`
  let s := { s with zdsm := s.zdsm.getGcInfo cfg.g }
  let s ← dbBench cfg heap' testDbFile s
  (s.cleanBuffer cfg).mapError .fault

variable {cfg : Config} {s : Buffer} {m : Contents} {known : List PageId} {l : Line} {p : PageId}

/-! ## Workloads -/

/-- The ids that survive in the header of a frame. -/
def Fits (p : PageId) : Prop := 0 ≤ p.toInt ∧ p.toInt < 72057594037927936

namespace Line

/-- What a workload may ask for when the pages `known` have been inserted. -/
def Pre (known : List PageId) (l : Line) : Prop :=
  match l.operation with
  | .insert => l.page ∉ known ∧ Fits l.page
  | .scan => True
  | .update => l.page ∈ known
  | .read => l.page ∈ known

def inserted (l : Line) : Option PageId :=
  match l.operation with
  | .insert => some l.page
  | _ => none

def learn (l : Line) (known : List PageId) : List PageId := l.inserted.toList ++ known

/-- The call an instruction makes. -/
def call (mem : Page) (l : Line) : Option Call :=
  match l.operation with
  | .insert => some (.fixNewPage l.page (generateRandomFrame mem l.page))
  | .scan => none
  | .update => some (.writePage l.page (generateRandomFrame mem l.page))
  | .read => some (.readPage l.page)

instance (p : PageId) : Decidable (Fits p) := inferInstanceAs (Decidable (_ ∧ _))

instance (known : List PageId) (l : Line) : Decidable (l.Pre known) :=
  match l with
  | ⟨.insert, _, _, _, _⟩ => inferInstanceAs (Decidable (_ ∧ _))
  | ⟨.scan, _, _, _, _⟩ => isTrue trivial
  | ⟨.update, _, _, _, _⟩ => inferInstanceAs (Decidable (_ ∈ _))
  | ⟨.read, _, _, _, _⟩ => inferInstanceAs (Decidable (_ ∈ _))

end Line

/-- The pages the lines insert. -/
def insertedPages (lines : List Line) : List PageId := lines.filterMap Line.inserted

theorem insertedPages_cons (l : Line) (lines : List Line) :
    insertedPages (l :: lines) = l.inserted.toList ++ insertedPages lines := by
  rw [insertedPages, List.filterMap_cons]
  cases l.inserted with
  | none => rfl
  | some q => rfl

/-- The pages known after the lines. -/
theorem mem_learned {lines : List Line} :
    p ∈ specRun Line.learn lines known ↔ p ∈ insertedPages lines ∨ p ∈ known := by
  induction lines generalizing known with
  | nil => simp [insertedPages]
  | cons l lines ih =>
      rw [specRun_cons, ih, Line.learn, insertedPages_cons, List.mem_append, List.mem_append]
      exact or_left_comm.trans or_assoc.symm

/-- A number of instructions `db_bench` cannot divide by a hundred. -/
def Short (n : Nat) : Prop := 0 < n ∧ n < 100

/-! ## Instructions -/

/-- `p` is the page of a frame of the driver. -/
def Generated (p : PageId) (b : Page) : Prop := ∃ mem, b = generateRandomFrame mem p

/-- The manager has the pages `known`, all of them with frames of the driver. -/
structure Holds (cfg : Config) (s : Buffer) (m : Contents) (known : List PageId) : Prop where
  carries : Buffer.Carries cfg Generated s m
  mem_iff : ∀ p, m p ≠ none ↔ p ∈ known
  fits : ∀ p ∈ known, Fits p

theorem Holds.init (cfg : Config) (mem : Memory) : Holds cfg (Buffer.init cfg mem) .empty [] where
  carries := Buffer.Carries.init cfg Generated mem
  mem_iff p := by simp
  fits p hp := by cases hp

/-- An instruction is a call, or nothing. -/
theorem execute_instruction (cfg : Config) (mem : Page) (l : Line) (s : Buffer) :
    execute cfg mem l.instruction s =
      match l.call mem with
      | some c => Buffer.step cfg c s
      | none => .ok s := by
  rw [execute, Line.call, Line.instruction]
  cases l.operation with
  | insert => rfl
  | scan => rfl
  | update => rfl
  | read => rfl

/-- The client of a manager that has the pages `known` may make the call. -/
theorem Holds.call (h : Holds cfg s m known) (hl : l.Pre known) {mem : Page} {c : Call}
    (hc : l.call mem = some c) :
    c.Pre m ∧ c.Headed ∧ c.Vouches Generated ∧ ∀ p, c.spec m p ≠ none ↔ p ∈ l.learn known := by
  have hassign : ∀ b q, m.insertOrAssign l.page b q ≠ none ↔ q = l.page ∨ q ∈ known := by
    intro b q
    rw [Buffer.insertOrAssign_ne_none, h.mem_iff]
  have hread : Fits l.page → readId (generateRandomFrame mem l.page) = l.page :=
    (readId_generateRandomFrame_iff mem l.page).2
  unfold Line.Pre at hl
  unfold Line.call at hc
  unfold Line.learn Line.inserted
  cases ho : l.operation with
  | insert =>
      simp only [ho] at hl hc
      cases hc
      have hnone : m l.page = none := by
        by_contra hne
        exact hl.1 ((h.mem_iff _).1 hne)
      refine ⟨⟨hnone, Int64.le_iff_toInt_le.2 hl.2.1⟩, hread hl.2, ⟨mem, rfl⟩, fun q => ?_⟩
      rw [Call.spec, hassign]
      simp
  | scan =>
      simp only [ho] at hc
      cases hc
  | update =>
      simp only [ho] at hl hc
      cases hc
      refine ⟨(h.mem_iff _).2 hl, hread (h.fits _ hl), ⟨mem, rfl⟩, fun q => ?_⟩
      rw [Call.spec, hassign]
      simp only [Option.toList_none, List.nil_append, or_iff_right_iff_imp]
      rintro rfl
      exact hl
  | read =>
      simp only [ho] at hl hc
      cases hc
      exact ⟨(h.mem_iff _).2 hl, trivial, trivial, h.mem_iff⟩

theorem Holds.fits_learn (h : Holds cfg s m known) (hl : l.Pre known) :
    ∀ p ∈ l.learn known, Fits p := by
  intro p hp
  rw [Line.learn, List.mem_append, Line.inserted] at hp
  rw [Line.Pre] at hl
  cases ho : l.operation with
  | insert =>
      simp only [ho] at hl hp
      rcases hp with hp | hp
      · rw [List.mem_singleton.1 hp]
        exact hl.2
      · exact h.fits p hp
  | scan | update | read =>
      simp only [ho] at hp
      exact h.fits p (hp.resolve_left (List.not_mem_nil))

/-- **One instruction.** -/
theorem execute_spec (h : Holds cfg s m known) (hl : l.Pre known) (mem : Page) :
    Yields (execute cfg mem l.instruction s) (· = .noZone) fun s' =>
      ∃ m', Holds cfg s' m' (l.learn known) := by
  rw [execute_instruction]
  cases hc : l.call mem with
  | none =>
      have hlearn : l.learn known = known := by
        rw [Line.call] at hc
        rw [Line.learn, Line.inserted]
        cases ho : l.operation with
        | scan => rfl
        | insert | update | read =>
            simp only [ho] at hc
            cases hc
      rw [hlearn]
      exact ⟨m, h⟩
  | some c =>
      obtain ⟨hpre, hhead, hvouch, hspec⟩ := h.call hl hc
      refine (h.carries.called hpre hhead hvouch).imp fun s' hs' => ?_
      exact ⟨c.spec m, hs', hspec, h.fits_learn hl⟩

/-! ## Workloads run -/

theorem benchFrom_spec {size : Nat} (hsize : 100 ≤ size) (mem : Nat → Page) (lines : List Line)
    (index : Nat) (h : Holds cfg s m known) (hl : Legal Line.Pre Line.learn lines known) :
    Yields (benchFrom cfg mem size index (lines.map Line.instruction) s) (· = .fault .noZone)
      fun s' => ∃ m', Holds cfg s' m' (specRun Line.learn lines known) := by
  induction lines generalizing s m known index with
  | nil => exact ⟨m, h⟩
  | cons l lines ih =>
      obtain ⟨hpre, hl⟩ := hl
      have hdivides : ¬ (size / 10 = 0 ∨ size / 100 = 0) := by omega
      rw [List.map_cons, benchFrom, if_neg hdivides]
      have hexecute := execute_spec h hpre (mem index)
      refine (yields_mapError.2 (hexecute.mono (fun e he => ?_) fun s' hs' => hs')).bind ?_
      · rw [he]
      · rintro s' ⟨m', h'⟩
        exact ih (index + 1) h' hl

theorem dbBench_textOf (heap : Heap) (lines : List Line) (s : Buffer) :
    dbBench cfg heap (textOf (lines.map Line.text)) s =
      benchFrom cfg heap.frame lines.length 0 (lines.map Line.instruction) s := by
  rw [dbBench, readInstructions_textOf]
  show benchFrom cfg heap.frame (lines.map Line.instruction).length 0 _ s = _
  rw [List.length_map]

/-- **`db_bench`** stops at its first instruction if it has less than a hundred. -/
theorem dbBench_spec (heap : Heap) (lines : List Line) (h : Holds cfg s m known)
    (hl : Legal Line.Pre Line.learn lines known) :
    Yields (dbBench cfg heap (textOf (lines.map Line.text)) s)
      (fun e => e = .divide ∧ Short lines.length ∨ e = .fault .noZone ∧ ¬ Short lines.length)
      fun s' => ¬ Short lines.length ∧ ∃ m', Holds cfg s' m' (specRun Line.learn lines known) := by
  rw [dbBench_textOf]
  by_cases hshort : Short lines.length
  · cases lines with
    | nil => exact absurd hshort.1 (by simp)
    | cons l lines =>
        have hzero : (l :: lines).length / 10 = 0 ∨ (l :: lines).length / 100 = 0 := by
          have hlt := hshort.2
          omega
        rw [List.map_cons, benchFrom, if_pos hzero]
        exact Or.inl ⟨rfl, hshort⟩
  · cases lines with
    | nil => exact ⟨hshort, m, h⟩
    | cons l lines =>
        have hsize : 100 ≤ (l :: lines).length := by
          by_contra hlt
          exact hshort ⟨by simp, by omega⟩
        exact (benchFrom_spec hsize heap.frame (l :: lines) 0 h hl).mono
          (fun e he => Or.inr ⟨he, hshort⟩) fun s' hs' => ⟨hshort, hs'⟩

/-- Clearing the counters and computing the rates changes no page. -/
theorem Holds.cleared (h : Holds cfg s m known) :
    Holds cfg { s.hitCountClear with zdsm := s.hitCountClear.zdsm.getGcInfo cfg.g } m known where
  carries := by
    refine h.carries.counters 0 (fun hinv => ?_) (fun hidle => ⟨hidle.gc, hidle.cd⟩) rfl
    have hclear : Controller.Inv cfg.g (fun _ => True) s.zdsm.ioCountClear :=
      hinv.counters rfl rfl rfl rfl rfl
    exact hclear.getGcInfo
  mem_iff := h.mem_iff
  fits := h.fits

/-- **What the benchmark leaves on the device**, in any mode: the pages its workloads insert, each
with a frame made for it, and no others. It does not finish if the device runs out of zones, or on
a workload too short to be divided by. -/
theorem main_stores (cfg : Config) (mem : Memory) (heap heap' : Heap) (load test : List Line)
    (hl : Legal Line.Pre Line.learn (load ++ test) []) :
    Yields (main cfg mem heap heap' (textOf (load.map Line.text)) (textOf (test.map Line.text)))
      (fun e => e = .divide ∧ (Short load.length ∨ Short test.length) ∨
        e = .fault .noZone ∧ ¬ Short load.length)
      fun s => ¬ Short load.length ∧ ¬ Short test.length ∧
        (∀ p, s.zdsm.content p ≠ none ↔ p ∈ insertedPages (load ++ test)) ∧
        ∀ p b, s.zdsm.content p = some b → ∃ mem, b = generateRandomFrame mem p := by
  obtain ⟨hload, htest⟩ := (legal_append _ _ load test []).1 hl
  refine ((dbBench_spec heap load (Holds.init cfg mem) hload).mono (fun e he => ?_)
    fun s hs => hs).bind ?_
  · exact he.imp (fun h => ⟨h.1, Or.inl h.2⟩) id
  rintro s₁ ⟨hlong, m₁, h₁⟩
  refine ((dbBench_spec heap' test h₁.cleared htest).mono (fun e he => ?_) fun s hs => hs).bind ?_
  · exact he.imp (fun h => ⟨h.1, Or.inr h.2⟩) fun h => ⟨h.1, hlong⟩
  rintro s₂ ⟨hlong', m₂, h₂⟩
  refine yields_mapError.2 (h₂.carries.traced.cleans.mono (fun e he => ?_) ?_)
  · rw [he]
    exact Or.inr ⟨rfl, hlong⟩
  rintro s₃ ⟨hpages, hframes⟩
  refine ⟨hlong, hlong', fun p => ?_, hframes⟩
  rw [hpages, h₂.mem_iff, mem_learned, mem_learned, insertedPages, insertedPages, insertedPages,
    List.filterMap_append, List.mem_append]
  simp [or_comm]

/-- A line with nothing behind the id. -/
def Line.plain (o : Operation) (p : PageId) : Line := ⟨o, p, [], apart_nil, List.not_mem_nil⟩

/-- Seven pages are inserted in a manager of five frames, and the first four of them updated. -/
@[irreducible] def loadLines : List Line :=
  [.plain .insert 0, .plain .update 0, .plain .insert 1, .plain .update 1, .plain .insert 2,
    .plain .update 2, .plain .insert 3, .plain .update 3, .plain .insert 4, .plain .insert 5,
    .plain .update 2, .plain .insert 6] ++ List.replicate 88 (.plain .scan 0)

/-- The page whose update was lost is read. -/
@[irreducible] def testLines : List Line :=
  [.plain .read 2, .plain .update 0, .plain .read 6] ++ List.replicate 97 (.plain .scan 0)

def Heap.zero : Heap := ⟨fun _ => ⟨0, 0⟩, fun _ _ => 0⟩

theorem main_stores_small :
    ∃ s, main (.small .achOnly) .zero .zero .zero (textOf (loadLines.map Line.text))
        (textOf (testLines.map Line.text)) = .ok s ∧
      ¬ Short loadLines.length ∧ ¬ Short testLines.length ∧
      (∀ p, s.zdsm.content p ≠ none ↔ p ∈ insertedPages (loadLines ++ testLines)) ∧
      ∀ p b, s.zdsm.content p = some b → ∃ mem, b = generateRandomFrame mem p :=
  (main_stores (.small .achOnly) .zero .zero .zero loadLines testLines
    (by decide +kernel)).of_isOk (by simp only [main, dbBench_textOf]; decide +kernel)

end ZoneBuffer.Driver
