import ZoneBuffer.Basic.Parameter
import Mathlib.Data.List.TakeWhile

set_option autoImplicit false

/-! # The instructions of a workload

`Instruction` (`link.h`) reads a line of a workload: a word, a blank and a page id. Nothing is
checked. The fields a line does not set are left as the memory they are built in has them, here
`junk`, so a line is safe to execute only if what is read does not depend on it
(`parse_defined_iff`). Lines that start as they should are read back as they were meant, whatever
follows the id (`readInstructions_text`).

The position of the blank is kept in an `int`: `npos` becomes `-1` there, and what is said of all
lines is said of those shorter than `2 ^ 31`, in which every other position fits. -/

namespace ZoneBuffer.Driver

/-- The codes of the four operations. -/
def INSERT : Int32 := 0

def SCAN : Int32 := 1

def UPDATE : Int32 := 2

def READ : Int32 := 3

structure Instruction where
  operate : Int32
  pageId : PageId
  deriving DecidableEq, Repr

/-! ## Strings and streams -/

/-- `s.find(c)`, as an `int`. -/
def find (c : Char) (s : List Char) : Int32 := if c ∈ s then Int32.ofNat (s.idxOf c) else -1

/-- `s.substr(pos, n)`. A negative `n` is converted to a length no string has. -/
def substr (s : List Char) (pos : Nat) (n : Int) : List Char :=
  if n < 0 then s.drop pos else (s.drop pos).take n.toNat

/-- `isspace` in the locale the program runs in. -/
def isSpace (c : Char) : Bool := c = ' ' || (9 ≤ c.toNat && c.toNat ≤ 13)

/-- The value of the digits `s` starts with; 0 if it starts with none. -/
def digitsValue (s : List Char) : Int := Nat.ofDigitChars 10 (s.takeWhile Char.isDigit) 0

/-- The number `s` starts with, after a sign. One that no `long int` can hold is read as the limit
it exceeds. -/
def getLong : List Char → PageId
  | '-' :: s => Int64.ofIntClamp (-digitsValue s)
  | '+' :: s => Int64.ofIntClamp (digitsValue s)
  | s => Int64.ofIntClamp (digitsValue s)

/-- `stream >> page_id`. Without a character to read the variable stays as it is. -/
def extractLong (junk : PageId) (s : List Char) : PageId :=
  match s.dropWhile isSpace with
  | [] => junk
  | c :: s => getLong (c :: s)

/-- `getline`: the line and what is left, unless nothing was left to read. -/
def getline (s : List Char) : Option (List Char × List Char) :=
  if s = [] then none
  else some (s.takeWhile (· ≠ '\n'), (s.dropWhile (· ≠ '\n')).tail)

/-- The lines the loop `while (getline(test_file, line))` goes through (`getlines_eq`). -/
def getlines : List Char → List (List Char)
  | [] => []
  | c :: s =>
      if c = '\n' then [] :: getlines s
      else
        match getlines s with
        | [] => [[c]]
        | l :: ls => (c :: l) :: ls

/-! ## Reading instructions -/

/-- The code of a word; `operate` keeps what it held if the word is none of the four. -/
def operation (junk : Int32) (a : List Char) : Int32 :=
  if a = "INSERT".toList then INSERT
  else if a = "SCAN".toList then SCAN
  else if a = "UPDATE".toList then UPDATE
  else if a = "READ".toList then READ
  else junk

/-- The constructor of `Instruction`, in memory that holds `junk`. -/
def parse (junk : Instruction) (s : List Char) : Instruction :=
  let sp := find ' ' s
  let a := substr s 0 sp.toInt
  let b := substr s (sp + 1).toInt.toNat s.length
  ⟨operation junk.operate a, extractLong junk.pageId b⟩

/-- `read_instructions`; `junk i` is what was where instruction `i` is built. -/
def readInstructions (junk : Nat → Instruction) (text : List Char) : List Instruction :=
  (getlines text).mapIdx fun i line => parse (junk i) line

variable {s w rest ds : List Char} {c : Char} {junk junk' : Instruction} {p : PageId} {n : Nat}

/-! ## Lines -/

theorem getlines_eq (s : List Char) : getlines s =
    match getline s with
    | none => []
    | some (l, s) => l :: getlines s := by
  induction s with
  | nil => rfl
  | cons c s ih =>
      rw [getline, if_neg (List.cons_ne_nil c s), getlines]
      by_cases hc : c = '\n'
      · simp [hc]
      · rw [if_neg hc, ih, getline]
        by_cases hs : s = []
        · simp [hs, hc]
          rfl
        · simp [hs, hc]

/-- The text of some lines, each of them ended. -/
def textOf (lines : List (List Char)) : List Char := lines.flatMap (· ++ ['\n'])

theorem getlines_append (hw : '\n' ∉ w) : getlines (w ++ '\n' :: s) = w :: getlines s := by
  induction w with
  | nil => rfl
  | cons c w ih =>
      rw [List.mem_cons, not_or] at hw
      rw [List.cons_append, getlines, if_neg fun hc => hw.1 hc.symm, ih hw.2]

/-- A last line that is not empty need not be ended. -/
theorem getlines_open (hw : '\n' ∉ w) (hne : w ≠ []) : getlines w = [w] := by
  induction w with
  | nil => exact absurd rfl hne
  | cons c w ih =>
      rw [List.mem_cons, not_or] at hw
      rw [getlines, if_neg fun hc => hw.1 hc.symm]
      cases w with
      | nil => rfl
      | cons d w => rw [ih hw.2 (List.cons_ne_nil d w)]

theorem getlines_append_textOf {lines : List (List Char)} (h : ∀ l ∈ lines, '\n' ∉ l)
    (s : List Char) : getlines (textOf lines ++ s) = lines ++ getlines s := by
  induction lines with
  | nil => rfl
  | cons l lines ih =>
      rw [textOf, List.flatMap_cons, List.append_assoc, List.append_assoc, List.singleton_append,
        getlines_append (h l List.mem_cons_self)]
      exact congrArg _ (ih fun l hl => h l (List.mem_cons_of_mem _ hl))

/-! ## Words -/

/-- What the constructor takes the operation from. -/
def word (s : List Char) : List Char := s.takeWhile (· ≠ ' ')

/-- What the constructor takes the id from: the whole line if there is no blank. -/
def operand (s : List Char) : List Char :=
  if ' ' ∈ s then (s.dropWhile (· ≠ ' ')).tail else s

/-- A word goes on up to the blank. -/
theorem no_blank (hw : ' ' ∉ w) : ∀ c ∈ w, decide (c ≠ ' ') = true := by
  intro c hc
  rw [decide_eq_true_eq]
  rintro rfl
  exact hw hc

theorem word_append (hw : ' ' ∉ w) (rest : List Char) : word (w ++ ' ' :: rest) = w := by
  rw [word, List.takeWhile_append_of_pos (no_blank hw)]
  simp

theorem operand_append (hw : ' ' ∉ w) (rest : List Char) : operand (w ++ ' ' :: rest) = rest := by
  rw [operand, if_pos (by simp), List.dropWhile_append_of_pos (no_blank hw)]
  simp

/-- A line with a blank is cut there. -/
theorem parse_append (junk : Instruction) (hw : ' ' ∉ w) (hlen : w.length + 1 < 2147483648)
    (rest : List Char) :
    parse junk (w ++ ' ' :: rest) =
      ⟨operation junk.operate w, extractLong junk.pageId rest⟩ := by
  have hfind : find ' ' (w ++ ' ' :: rest) = Int32.ofNat w.length := by
    rw [find, if_pos (by simp), List.idxOf_append_of_notMem hw]
    simp
  have hneg : ∀ n : Nat, ¬ (n : Int) < 0 := fun n => by omega
  have hword : (Int32.ofNat w.length).toInt = w.length :=
    Int32.toInt_ofNat_of_lt (by omega)
  have hpos : (Int32.ofNat w.length + 1).toInt.toNat = w.length + 1 := by
    have hnext : Int32.ofNat w.length + 1 = Int32.ofNat (w.length + 1) :=
      (Int32.ofNat_add w.length 1).symm
    rw [hnext, Int32.toInt_ofNat_of_lt hlen]
    rfl
  have hrest : (w ++ ' ' :: rest).drop (w.length + 1) = rest := by
    rw [List.drop_append, List.drop_of_length_le (by omega)]
    simp
  have hle : rest.length ≤ (w ++ ' ' :: rest).length := by
    rw [List.length_append, List.length_cons]
    omega
  simp only [parse, hfind, substr, hword, if_neg (hneg _), hpos, hrest, List.drop_zero,
    Int.toNat_natCast]
  rw [List.take_left, List.take_of_length_le hle]

/-- A line without a blank is both the word and what the id is read from. -/
theorem parse_word (junk : Instruction) (hs : ' ' ∉ s) :
    parse junk s = ⟨operation junk.operate s, extractLong junk.pageId s⟩ := by
  have hneg : ¬ (s.length : Int) < 0 := by omega
  have hall : (-1 : Int32).toInt < 0 := by decide
  have hzero : ((-1 : Int32) + 1).toInt.toNat = 0 := by decide
  simp only [parse, find, if_neg hs, substr, if_pos hall, hzero, if_neg hneg]
  simp

theorem parse_eq (junk : Instruction) (hlen : s.length < 2147483648) :
    parse junk s = ⟨operation junk.operate (word s), extractLong junk.pageId (operand s)⟩ := by
  by_cases hs : ' ' ∈ s
  · obtain ⟨w, rest, rfl, hw⟩ := List.eq_append_cons_of_mem hs
    rw [List.length_append, List.length_cons] at hlen
    rw [parse_append junk hw (by omega), word_append hw, operand_append hw]
  · have hword : word s = s := List.takeWhile_eq_self_iff.2 (no_blank hs)
    rw [parse_word junk hs, hword, operand, if_neg hs]

/-- The words the constructor knows. -/
def Known (a : List Char) : Prop :=
  a = "INSERT".toList ∨ a = "SCAN".toList ∨ a = "UPDATE".toList ∨ a = "READ".toList

theorem operation_known {a : List Char} (h : Known a) (junk junk' : Int32) :
    operation junk a = operation junk' a := by
  rcases h with rfl | rfl | rfl | rfl
  · rfl
  · rfl
  · rfl
  · rfl

theorem operation_unknown {a : List Char} (h : ¬ Known a) (junk : Int32) :
    operation junk a = junk := by
  simp only [Known, not_or] at h
  rw [operation, if_neg h.1, if_neg h.2.1, if_neg h.2.2.1, if_neg h.2.2.2]

theorem extractLong_junk (h : ∃ c ∈ s, isSpace c = false) (p q : PageId) :
    extractLong p s = extractLong q s := by
  obtain ⟨c, hc, hspace⟩ := h
  have hne : s.dropWhile isSpace ≠ [] := by
    rw [Ne, List.dropWhile_eq_nil_iff]
    intro hall
    rw [hall c hc] at hspace
    cases hspace
  rw [extractLong, extractLong]
  cases hd : s.dropWhile isSpace with
  | nil => exact absurd hd hne
  | cons d ds => rfl

theorem extractLong_blank (h : ∀ c ∈ s, isSpace c = true) (p : PageId) : extractLong p s = p := by
  rw [extractLong, List.dropWhile_eq_nil_iff.2 h]

/-- **A line sets both fields exactly if it starts with a known word and something other than
white space is left for the id.** What is left need not be a number: without digits the id
is 0. -/
theorem parse_defined_iff (s : List Char) (hlen : s.length < 2147483648) :
    (∀ junk junk', parse junk s = parse junk' s) ↔
      Known (word s) ∧ ∃ c ∈ operand s, isSpace c = false := by
  constructor
  · intro h
    constructor
    · by_contra hknown
      have hsame := congrArg Instruction.operate (h ⟨0, 0⟩ ⟨1, 0⟩)
      simp only [parse_eq _ hlen, operation_unknown hknown] at hsame
      exact absurd hsame (by decide)
    · by_contra hblank
      have hall : ∀ c ∈ operand s, isSpace c = true := by
        intro c hc
        by_contra hne
        exact hblank ⟨c, hc, by simpa using hne⟩
      have hsame := congrArg Instruction.pageId (h ⟨0, 0⟩ ⟨0, 1⟩)
      simp only [parse_eq _ hlen, extractLong_blank hall] at hsame
      exact absurd hsame (by decide)
  · rintro ⟨hknown, hsome⟩ junk junk'
    rw [parse_eq _ hlen, parse_eq _ hlen, operation_known hknown junk.operate junk'.operate,
      extractLong_junk hsome junk.pageId junk'.pageId]

/-- A line with an id that is not a number, and one without an id. -/
theorem parse_defined_iff_lines :
    (∀ junk junk', parse junk "READ x".toList = parse junk' "READ x".toList) ∧
      ¬ ∀ junk junk', parse junk "READ ".toList = parse junk' "READ ".toList := by
  constructor
  · exact (parse_defined_iff "READ x".toList (by decide)).2
      ⟨Or.inr (Or.inr (Or.inr (by decide))), 'x', by decide, by decide⟩
  · intro h
    obtain ⟨-, c, hc, -⟩ := (parse_defined_iff "READ ".toList (by decide)).1 h
    have hnil : operand "READ ".toList = [] := by decide
    rw [hnil] at hc
    cases hc

/-! ## Numbers -/

/-- A number as it is printed. -/
def decimal : Int → List Char
  | .ofNat n => Nat.toDigits 10 n
  | .negSucc n => '-' :: Nat.toDigits 10 (n + 1)

/-- No digit comes next. -/
def Apart (s : List Char) : Prop := ∀ c ∈ s.head?, c.isDigit = false

theorem apart_nil : Apart [] := by
  intro c hc
  cases hc

theorem digitsValue_append (h : Apart s) (n : Nat) :
    digitsValue (Nat.toDigits 10 n ++ s) = n := by
  have hdigits : ∀ c ∈ Nat.toDigits 10 n, Char.isDigit c = true := fun c hc =>
    Nat.isDigit_of_mem_toDigits (by decide) (by decide) hc
  have hend : s.takeWhile Char.isDigit = [] := by
    cases s with
    | nil => rfl
    | cons c s =>
        rw [List.takeWhile_cons, h c rfl]
        rfl
  rw [digitsValue, List.takeWhile_append_of_pos hdigits, hend, List.append_nil,
    Nat.ofDigitChars_ten_toDigits]

/-- A digit is neither a sign nor white space. -/
theorem isDigit_ne (h : c.isDigit = true) : c ≠ '-' ∧ c ≠ '+' ∧ isSpace c = false := by
  refine ⟨?_, ?_, ?_⟩
  · rintro rfl
    cases h
  · rintro rfl
    cases h
  · have hlow : 48 ≤ c.toNat := by
      simp only [Char.isDigit, Bool.and_eq_true, decide_eq_true_eq] at h
      exact UInt32.le_iff_toNat_le.1 h.1
    have hne : c ≠ ' ' := by
      rintro rfl
      exact absurd hlow (by decide)
    simp only [isSpace, Bool.or_eq_false_iff, Bool.and_eq_false_iff, decide_eq_false_iff_not]
    exact ⟨hne, Or.inr (by omega)⟩

theorem ofIntClamp_toInt (p : PageId) : Int64.ofIntClamp p.toInt = p :=
  Int64.toInt_inj.1 (Int64.toInt_ofIntClamp p.minValue_le_toInt p.toInt_le)

/-- A number that is printed starts with a character that is read. -/
theorem decimal_eq_cons (n : Int) : ∃ c s, decimal n = c :: s ∧ isSpace c = false := by
  cases n with
  | ofNat n =>
      obtain ⟨c, s, hcs⟩ := List.exists_cons_of_ne_nil (Nat.toDigits_ne_nil (n := n) (b := 10))
      have hdigit : c.isDigit = true :=
        Nat.isDigit_of_mem_toDigits (by decide) (by decide) (hcs ▸ List.mem_cons_self)
      exact ⟨c, s, hcs, (isDigit_ne hdigit).2.2⟩
  | negSucc n => exact ⟨'-', _, rfl, rfl⟩

theorem getLong_decimal (h : Apart s) (p : PageId) : getLong (decimal p.toInt ++ s) = p := by
  conv_rhs => rw [← ofIntClamp_toInt p]
  cases hn : p.toInt with
  | ofNat n =>
      obtain ⟨c, ds, hcs⟩ := List.exists_cons_of_ne_nil (Nat.toDigits_ne_nil (n := n) (b := 10))
      have hdigit : c.isDigit = true :=
        Nat.isDigit_of_mem_toDigits (by decide) (by decide) (hcs ▸ List.mem_cons_self)
      obtain ⟨hminus, hplus, -⟩ := isDigit_ne hdigit
      have hvalue := digitsValue_append h n
      rw [decimal]
      rw [hcs, List.cons_append] at hvalue ⊢
      rw [getLong, hvalue]
      · rfl
      · intro t ht
        exact hminus (List.cons.inj ht).1
      · intro t ht
        exact hplus (List.cons.inj ht).1
  | negSucc n =>
      rw [decimal, List.cons_append, getLong, digitsValue_append h]
      rfl

/-- **A number printed is read back**, whatever comes behind it. -/
theorem extractLong_decimal (h : Apart s) (junk p : PageId) :
    extractLong junk (decimal p.toInt ++ s) = p := by
  obtain ⟨c, ds, hcs, hspace⟩ := decimal_eq_cons p.toInt
  have hget := getLong_decimal h p
  rw [hcs, List.cons_append] at hget ⊢
  rw [extractLong, List.dropWhile_cons, hspace]
  exact hget

/-! ## Workloads -/

/-- What a workload asks for. -/
inductive Operation where
  | insert
  | scan
  | update
  | read
  deriving DecidableEq, Repr

namespace Operation

def code : Operation → Int32
  | insert => INSERT
  | scan => SCAN
  | update => UPDATE
  | read => READ

def name : Operation → List Char
  | insert => "INSERT".toList
  | scan => "SCAN".toList
  | update => "UPDATE".toList
  | read => "READ".toList

theorem operation_name (o : Operation) (junk : Int32) : operation junk o.name = o.code := by
  cases o <;> rfl

theorem name_free (o : Operation) : ' ' ∉ o.name ∧ '\n' ∉ o.name := by
  cases o <;> decide

end Operation

/-- A line of a workload. Behind the id there may be more, but no digit. -/
structure Line where
  operation : Operation
  page : PageId
  tail : List Char
  apart : Apart tail
  single : '\n' ∉ tail

namespace Line

def text (l : Line) : List Char := l.operation.name ++ ' ' :: (decimal l.page.toInt ++ l.tail)

def instruction (l : Line) : Instruction := ⟨l.operation.code, l.page⟩

/-- **A line is read as it was meant.** -/
theorem parse_text (junk : Instruction) (l : Line) : parse junk l.text = l.instruction := by
  have hlen : l.operation.name.length + 1 < 2147483648 := by cases l.operation <;> decide
  rw [text, parse_append junk l.operation.name_free.1 hlen, l.operation.operation_name,
    extractLong_decimal l.apart]
  rfl

theorem newline_free (l : Line) : '\n' ∉ l.text := by
  have hdigits : '\n' ∉ decimal l.page.toInt := by
    have hnat : ∀ n, '\n' ∉ Nat.toDigits 10 n := fun n hmem =>
      absurd (Nat.isDigit_of_mem_toDigits (by decide) (by decide) hmem) (by decide)
    cases l.page.toInt with
    | ofNat n => exact hnat n
    | negSucc n =>
        rw [decimal, List.mem_cons, not_or]
        exact ⟨by decide, hnat _⟩
  rw [text, List.mem_append, List.mem_cons, List.mem_append]
  rintro (h | h | h | h)
  · exact l.operation.name_free.2 h
  · cases h
  · exact hdigits h
  · exact l.single h

theorem text_ne_nil (l : Line) : l.text ≠ [] := by simp [text]

end Line

theorem getlines_text (lines : List Line) :
    getlines (textOf (lines.map Line.text)) = lines.map Line.text ∧
      getlines (textOf (lines.map Line.text)).dropLast = lines.map Line.text := by
  have hfree : ∀ (ls : List Line), ∀ l ∈ ls.map Line.text, '\n' ∉ l := by
    intro ls l hl
    obtain ⟨line, -, rfl⟩ := List.mem_map.1 hl
    exact line.newline_free
  constructor
  · have hall := getlines_append_textOf (hfree lines) []
    rwa [List.append_nil, getlines, List.append_nil] at hall
  · induction lines using List.reverseRecOn with
    | nil => rfl
    | append_singleton lines l _ =>
        have hlast : (textOf ((lines ++ [l]).map Line.text)).dropLast
            = textOf (lines.map Line.text) ++ l.text := by
          rw [List.map_append, textOf, List.flatMap_append, List.map_singleton,
            List.flatMap_singleton, ← List.append_assoc, List.dropLast_concat]
          rfl
        rw [hlast, getlines_append_textOf (hfree lines), getlines_open l.newline_free l.text_ne_nil,
          List.map_append, List.map_singleton]

theorem mapIdx_parse (junk : Nat → Instruction) (lines : List Line) :
    (lines.map Line.text).mapIdx (fun i line => parse (junk i) line)
      = lines.map Line.instruction := by
  apply List.ext_getElem
  · rw [List.length_mapIdx, List.length_map, List.length_map]
  · intro i hi hi'
    rw [List.getElem_mapIdx, List.getElem_map, List.getElem_map, Line.parse_text]

theorem readInstructions_textOf (junk : Nat → Instruction) (lines : List Line) :
    readInstructions junk (textOf (lines.map Line.text)) = lines.map Line.instruction := by
  rw [readInstructions, (getlines_text lines).1, mapIdx_parse]

/-- **A workload is read back as it was written**, the last line ended or not, whatever the memory
held that the instructions are built in. -/
theorem readInstructions_text (junk : Nat → Instruction) (lines : List Line) :
    readInstructions junk (textOf (lines.map Line.text)) = lines.map Line.instruction ∧
      readInstructions junk (textOf (lines.map Line.text)).dropLast
        = lines.map Line.instruction := by
  refine ⟨readInstructions_textOf junk lines, ?_⟩
  rw [readInstructions, (getlines_text lines).2, mapIdx_parse]

end ZoneBuffer.Driver
