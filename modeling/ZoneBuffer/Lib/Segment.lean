import ZoneBuffer.Lib.PartialMap
import Mathlib.Data.List.Nodup

set_option autoImplicit false

/-! # Doubly linked lists in memory

Memory maps addresses to nodes, and a node holds a value and two links. `Seg h p cells q` says
that the cells, pairs of an address and a value, lie in `h` linked in both directions, the
first one pointing back to `p` and the last one on to `q`. Segments are cut and joined with
`seg_append`.

Only two writes matter to a segment. A write outside its addresses leaves it alone
(`Seg.modify`), and a write to the outgoing link of its last or its first cell changes `q` or
`p` (`Seg.setNext`, `Seg.setPrev`). A program that relinks nodes is followed by cutting the
list at the nodes it writes to and joining the parts again.

What a reader of the list finds is a `Path`: following one of the two links from a pointer. A
segment is a path in either direction. -/

/-- A node: a value and the links to the next and to the previous node. -/
structure DNode (α : Type*) where
  data : α
  next : Option Nat
  prev : Option Nat

namespace Segment

variable {α : Type*}

/-- The addresses of the cells. -/
def addrs (cells : List (Nat × α)) : List Nat := cells.map Prod.fst

/-- Where a segment starts that is followed by `q`. -/
def first : List (Nat × α) → Option Nat → Option Nat
  | [], q => q
  | c :: _, _ => some c.1

/-- Where a segment ends that is preceded by `p`. -/
def last : Option Nat → List (Nat × α) → Option Nat
  | p, [] => p
  | _, c :: cs => last (some c.1) cs

/-- The cells lie in `h`, linked in both directions between `p` and `q`. -/
def Seg (h : PartialMap Nat (DNode α)) : Option Nat → List (Nat × α) → Option Nat → Prop
  | _, [], _ => True
  | p, c :: cs, q => h c.1 = some ⟨c.2, first cs q, p⟩ ∧ Seg h (some c.1) cs q

/-- Following `link` from `p` meets the cells one after the other and then arrives at `q`. -/
def Path (link : DNode α → Option Nat) (h : PartialMap Nat (DNode α)) :
    Option Nat → List (Nat × α) → Option Nat → Prop
  | p, [], q => p = q
  | p, c :: cs, q => p = some c.1 ∧ ∃ n, h c.1 = some n ∧ n.data = c.2 ∧ Path link h (link n) cs q

@[simp] theorem addrs_nil : addrs ([] : List (Nat × α)) = [] := rfl

@[simp] theorem addrs_cons (c : Nat × α) (cs : List (Nat × α)) :
    addrs (c :: cs) = c.1 :: addrs cs := rfl

@[simp] theorem addrs_append (xs ys : List (Nat × α)) : addrs (xs ++ ys) = addrs xs ++ addrs ys :=
  List.map_append

@[simp] theorem first_cons (c : Nat × α) (cs : List (Nat × α)) (q : Option Nat) :
    first (c :: cs) q = some c.1 := rfl

@[simp] theorem last_nil (p : Option Nat) : last p ([] : List (Nat × α)) = p := rfl

@[simp] theorem last_cons (p : Option Nat) (c : Nat × α) (cs : List (Nat × α)) :
    last p (c :: cs) = last (some c.1) cs := rfl

@[simp] theorem first_append (xs ys : List (Nat × α)) (q : Option Nat) :
    first (xs ++ ys) q = first xs (first ys q) := by
  cases xs <;> rfl

@[simp] theorem last_append (p : Option Nat) (xs ys : List (Nat × α)) :
    last p (xs ++ ys) = last (last p xs) ys := by
  induction xs generalizing p with
  | nil => rfl
  | cons c xs ih => exact ih (some c.1)

/-- A segment that is not empty ends at one of its cells. -/
theorem exists_last (p : Option Nat) (c : Nat × α) (cs : List (Nat × α)) :
    ∃ a ∈ addrs (c :: cs), last p (c :: cs) = some a := by
  induction cs generalizing p c with
  | nil => exact ⟨c.1, List.mem_singleton_self _, rfl⟩
  | cons d cs ih =>
      obtain ⟨a, ha, hlast⟩ := ih (some c.1) d
      exact ⟨a, List.mem_cons_of_mem _ ha, hlast⟩

/-- Write the `prev` of the first cell, if there is one. -/
def setStart (h : PartialMap Nat (DNode α)) (cells : List (Nat × α)) (r : Option Nat) :
    PartialMap Nat (DNode α) :=
  match cells with
  | [] => h
  | c :: _ => h.modify c.1 fun n => { n with prev := r }

variable {h : PartialMap Nat (DNode α)} {p q r : Option Nat} {cells : List (Nat × α)}

@[simp] theorem seg_nil : Seg h p [] q := trivial

theorem seg_cons {c : Nat × α} :
    Seg h p (c :: cells) q ↔ h c.1 = some ⟨c.2, first cells q, p⟩ ∧ Seg h (some c.1) cells q :=
  Iff.rfl

/-- **Two segments that point to each other make one.** -/
theorem seg_append {xs ys : List (Nat × α)} :
    Seg h p (xs ++ ys) q ↔ Seg h p xs (first ys q) ∧ Seg h (last p xs) ys q := by
  induction xs generalizing p with
  | nil => simp
  | cons c xs ih =>
      rw [List.cons_append, seg_cons, seg_cons, ih, first_append, last_cons, and_assoc]

theorem seg_singleton {c : Nat × α} : Seg h p [c] q ↔ h c.1 = some ⟨c.2, q, p⟩ := by
  rw [seg_cons]
  exact and_iff_left trivial

/-! ## Writes -/

/-- A segment only depends on memory at its own addresses. -/
theorem Seg.congr {h' : PartialMap Nat (DNode α)} (hs : Seg h p cells q)
    (heq : ∀ a ∈ addrs cells, h' a = h a) : Seg h' p cells q := by
  induction cells generalizing p with
  | nil => trivial
  | cons c cells ih =>
      obtain ⟨hc, hs⟩ := seg_cons.1 hs
      refine seg_cons.2 ⟨?_, ih hs fun a ha => heq a (List.mem_cons_of_mem _ ha)⟩
      rw [heq c.1 (List.mem_cons_self ..), hc]

theorem Seg.modify (hs : Seg h p cells q) {a : Nat} (ha : a ∉ addrs cells)
    (f : DNode α → DNode α) : Seg (h.modify a f) p cells q :=
  hs.congr fun _ hb => PartialMap.modify_of_ne h f fun hba => ha (hba ▸ hb)

theorem Seg.insertOrAssign (hs : Seg h p cells q) {a : Nat} (ha : a ∉ addrs cells) (n : DNode α) :
    Seg (h.insertOrAssign a n) p cells q :=
  hs.congr fun _ hb => PartialMap.insertOrAssign_of_ne h n fun hba => ha (hba ▸ hb)

theorem Seg.erase (hs : Seg h p cells q) {a : Nat} (ha : a ∉ addrs cells) :
    Seg (h.erase a) p cells q :=
  hs.congr fun _ hb => PartialMap.erase_of_ne h fun hba => ha (hba ▸ hb)

/-- **Writing the last cell's `next` moves the end.** -/
theorem Seg.setNext {c : Nat × α} (hs : Seg h p (cells ++ [c]) q) (hc : c.1 ∉ addrs cells)
    (r : Option Nat) : Seg (h.modify c.1 fun n => { n with next := r }) p (cells ++ [c]) r := by
  rw [seg_append, seg_singleton] at hs ⊢
  refine ⟨hs.1.modify hc _, ?_⟩
  rw [PartialMap.modify_self, hs.2]
  rfl

/-- **Writing the first cell's `prev` moves the start.** -/
theorem Seg.setPrev {c : Nat × α} (hs : Seg h p (c :: cells) q) (hc : c.1 ∉ addrs cells)
    (r : Option Nat) : Seg (h.modify c.1 fun n => { n with prev := r }) r (c :: cells) q := by
  rw [seg_cons] at hs ⊢
  refine ⟨?_, hs.2.modify hc _⟩
  rw [PartialMap.modify_self, hs.1]
  rfl

theorem Seg.setStart (hs : Seg h p cells q) (hnd : (addrs cells).Nodup) (r : Option Nat) :
    Seg (setStart h cells r) r cells q := by
  cases cells with
  | nil => trivial
  | cons c cells => exact hs.setPrev (List.nodup_cons.1 hnd).1 r

theorem Seg.setStart_of_disjoint {ys : List (Nat × α)} (hs : Seg h p cells q)
    (hdisj : ∀ a ∈ addrs ys, a ∉ addrs cells) (r : Option Nat) :
    Seg (Segment.setStart h ys r) p cells q := by
  cases ys with
  | nil => exact hs
  | cons y ys => exact hs.modify (hdisj y.1 (List.mem_cons_self ..)) _

theorem setStart_eq_none {a : Nat} : Segment.setStart h cells r a = none ↔ h a = none := by
  cases cells with
  | nil => rfl
  | cons c cells => exact PartialMap.modify_eq_none

/-! ## Reads -/

theorem Path.append {link : DNode α → Option Nat} {xs ys : List (Nat × α)}
    (hx : Path link h p xs r) (hy : Path link h r ys q) : Path link h p (xs ++ ys) q := by
  induction xs generalizing p with
  | nil =>
      cases hx
      exact hy
  | cons c xs ih =>
      obtain ⟨hp, n, hn, hdata, hx⟩ := hx
      exact ⟨hp, n, hn, hdata, ih hx⟩

/-- **Forwards a segment is read front to back.** -/
theorem Seg.path_next (hs : Seg h p cells q) :
    Path DNode.next h (first cells q) cells q := by
  induction cells generalizing p with
  | nil => exact rfl
  | cons c cells ih =>
      obtain ⟨hc, hs⟩ := seg_cons.1 hs
      exact ⟨rfl, _, hc, rfl, ih hs⟩

/-- **Backwards a segment is read back to front.** -/
theorem Seg.path_prev (hs : Seg h p cells q) :
    Path DNode.prev h (last p cells) cells.reverse p := by
  induction cells generalizing p with
  | nil => exact rfl
  | cons c cells ih =>
      obtain ⟨hc, hs⟩ := seg_cons.1 hs
      rw [List.reverse_cons, last_cons]
      exact (ih hs).append ⟨rfl, _, hc, rfl, rfl⟩

/-- The cells of a segment are allocated. -/
theorem Seg.ne_none (hs : Seg h p cells q) {a : Nat} (ha : a ∈ addrs cells) : h a ≠ none := by
  induction cells generalizing p with
  | nil => cases ha
  | cons c cells ih =>
      obtain ⟨hc, hs⟩ := seg_cons.1 hs
      rcases List.mem_cons.1 ha with rfl | ha
      · rw [hc]
        exact Option.some_ne_none _
      · exact ih hs ha

/-- The cell at a position is the one the segment says. -/
theorem Seg.node_at {xs ys : List (Nat × α)} {c : Nat × α} (hs : Seg h p (xs ++ c :: ys) q) :
    h c.1 = some ⟨c.2, first ys q, last p xs⟩ :=
  (seg_cons.1 (seg_append.1 hs).2).1

end Segment
