import ZoneBuffer.Lib.Machine
import ZoneBuffer.Lib.Segment

set_option autoImplicit false

/-! # The list of `datastructure.cpp`

A doubly linked list with a sentinel in front: `head` points to a node without an element,
`tail` to the last node, which is the sentinel when the list is empty, and `listsize` counts
the elements. The functions follow the source statement by statement on an explicit memory, so
that a null pointer, a pointer to a freed node and a failing assertion each show. A call that
stops hands out the list as it is at that point.

`Linked l head cells` relates such a list to the sequence of its cells, the pairs of a node's
address and its element. Each function has one lemma saying what it does to the sequence, and
`run_refines` puts them together: in every run of permitted calls nothing goes wrong and the
links, the tail and the counter agree with the sequence. -/

namespace ZoneBuffer.Structure

open Outcome Machine Segment

/-- Why a call does not return. -/
inductive Stop where
  /-- An assertion fails. -/
  | assertion
  /-- A pointer is followed that is null or whose node is not allocated. -/
  | badPointer
  /-- An array is indexed outside its bounds. -/
  | badIndex
  /-- A loop was given too few iterations to end. -/
  | outOfFuel
  deriving DecidableEq, Repr

abbrev Addr := Nat

/-- A pointer to a node, `none` for `nullptr`. -/
abbrev Ptr := Option Addr

abbrev DataType := Int

abbrev ListNode := DNode DataType

/-- `List`, with the memory its nodes lie in. -/
structure LinkedList where
  heap : PartialMap Addr ListNode
  head : Ptr
  tail : Ptr
  listsize : Int

/-- What a call returns, or why it stops and the list it stops on. -/
abbrev Call (α : Type) := Except (Stop × LinkedList) α

namespace LinkedList

/-! ## Memory -/

def assert (l : LinkedList) (b : Bool) : Call Unit :=
  if b then .ok () else .error (.assertion, l)

/-- `*p`. -/
def load (l : LinkedList) (p : Ptr) : Call ListNode :=
  match p.bind l.heap with
  | some n => .ok n
  | none => .error (.badPointer, l)

def store (l : LinkedList) (p : Ptr) (f : ListNode → ListNode) : Call LinkedList :=
  match p with
  | some a =>
      if (l.heap a).isSome then .ok { l with heap := l.heap.modify a f }
      else .error (.badPointer, l)
  | none => .error (.badPointer, l)

/-- `p->next = q`. -/
def setNext (l : LinkedList) (p q : Ptr) : Call LinkedList :=
  l.store p fun n => { n with next := q }

/-- `p->prev = q`. -/
def setPrev (l : LinkedList) (p q : Ptr) : Call LinkedList :=
  l.store p fun n => { n with prev := q }

/-- `new ListNode(data)`, at address `a`. -/
def alloc (l : LinkedList) (a : Addr) (data : DataType) : LinkedList :=
  { l with heap := l.heap.insertOrAssign a ⟨data, none, none⟩ }

def free (l : LinkedList) (p : Ptr) : Call LinkedList :=
  match p with
  | some a =>
      if (l.heap a).isSome then .ok { l with heap := l.heap.erase a } else .error (.badPointer, l)
  | none => .ok l

/-! ## The functions -/

/-- `List::List()`, the sentinel being allocated at `a`. -/
def new (a : Addr) : LinkedList where
  heap := PartialMap.empty.insertOrAssign a ⟨-1, none, none⟩
  head := some a
  tail := some a
  listsize := 0

/-- `k` times `p = p->next`. -/
def walk (l : LinkedList) : Nat → Ptr → Call Ptr
  | 0, p => .ok p
  | k + 1, p => do
      let n ← l.load p
      l.walk k n.next

/-- The append shortcut of `L_push`. -/
def linkLast (l : LinkedList) (newNode : Ptr) : Call LinkedList := do
  let l ← l.setNext l.tail newNode
  let l ← l.setPrev newNode l.tail
  pure { l with tail := newNode }

/-- The other branch of `L_push`, from the node `p` on at which the walk ends. -/
def linkAfter (l : LinkedList) (p newNode : Ptr) : Call LinkedList := do
  let n ← l.load p
  let l ← l.setNext newNode n.next
  let l ← l.setPrev newNode p
  let n ← l.load p
  let l ← l.setPrev n.next newNode
  l.setNext p newNode

/-- `L_push`; `newNode` is the address `new` returns. -/
def lPush (data : DataType) (pos : Int) (newNode : Addr) (l : LinkedList) : Call LinkedList := do
  -- either of the two tests passes for every position
  l.assert (pos ≥ 0 || pos ≤ l.listsize)
  let l := l.alloc newNode data
  let l ← (if pos = l.listsize then l.linkLast (some newNode)
    else l.walk pos.toNat l.head >>= fun p => l.linkAfter p (some newNode))
  pure { l with listsize := l.listsize + 1 }

def lPushFront (data : DataType) (newNode : Addr) (l : LinkedList) : Call LinkedList :=
  lPush data 0 newNode l

def lPushBack (data : DataType) (newNode : Addr) (l : LinkedList) : Call LinkedList :=
  lPush data l.listsize newNode l

/-- `p->next = node->next; if (node->next != nullptr) node->next->prev = p;` -/
def bypass (l : LinkedList) (node p : Ptr) : Call LinkedList := do
  let n ← l.load node
  let l ← l.setNext p n.next
  let n ← l.load node
  if n.next ≠ none then l.setPrev n.next p else pure l

def lPopFront (l : LinkedList) : Call LinkedList := do
  let h ← l.load l.head
  l.assert (h.next != none)
  let p := h.next
  let l ← l.bypass p l.head
  let l := { l with tail := if p = l.tail then l.head else l.tail }
  let l ← l.free p
  pure { l with listsize := l.listsize - 1 }

def lPopBack (l : LinkedList) : Call LinkedList := do
  l.assert (l.tail != l.head)
  let n ← l.load l.tail
  let p := n.prev
  let l ← l.free l.tail
  let l := { l with tail := p }
  let l ← l.setNext l.tail none
  pure { l with listsize := l.listsize - 1 }

def lErase (node : Ptr) (l : LinkedList) : Call LinkedList := do
  let n ← l.load node
  let p := n.prev
  let l := { l with tail := if node = l.tail then p else l.tail }
  let l ← l.bypass node p
  let l ← l.free node
  pure { l with listsize := l.listsize - 1 }

def lSize (l : LinkedList) : Int := l.listsize

def lIsEmpty (l : LinkedList) : Call Bool := do
  let h ← l.load l.head
  pure (h.next == none)

/-- The loop of `L_distance`, from the pointer `start` and the count `i` on. -/
def distanceLoop (l : LinkedList) (stop : Ptr) : Nat → Ptr → Int → Call (Ptr × Int)
  | 0, _, _ => .error (.outOfFuel, l)
  | fuel + 1, start, i =>
      if start ≠ stop ∧ start ≠ none then do
        let n ← l.load start
        l.distanceLoop stop fuel n.next (i + 1)
      else .ok (start, i)

/-- `L_distance`, with at most `fuel` tests of the loop's condition. -/
def lDistance (fuel : Nat) (start stop : Ptr) (l : LinkedList) : Call Int := do
  l.assert (start != none && stop != none)
  let (start, i) ← l.distanceLoop stop fuel start 0
  l.assert (start != none)
  pure i

/-- The loop of `L_advance`, `k` iterations being left. -/
def advanceLoop (l : LinkedList) : Nat → Ptr → Call Ptr
  | 0, it => .ok it
  | k + 1, it => do
      l.assert (it != none)
      let n ← l.load it
      l.advanceLoop k n.next

def lAdvance (it : Ptr) (len : Int) (l : LinkedList) : Call Ptr := l.advanceLoop len.toNat it

/-- The loop of `List::~List()`, from the pointers `p` and `q` on. -/
def destroyLoop (l : LinkedList) : Nat → Ptr → Ptr → Call LinkedList
  | 0, _, _ => .error (.outOfFuel, l)
  | fuel + 1, p, q =>
      if q ≠ none then do
        let l ← l.free p
        let n ← l.load q
        l.destroyLoop fuel q n.next
      else .ok l

/-- `List::~List()`, with at most `fuel` tests of the loop's condition. -/
def destroy (fuel : Nat) (l : LinkedList) : Call LinkedList := do
  let h ← l.load l.head
  let l ← l.destroyLoop fuel l.head h.next
  l.free l.tail

/-! ## The sequence of a list -/

/-- The cells of a list behind its sentinel. -/
def withHead (head : Addr) (cells : List (Addr × DataType)) : List (Addr × DataType) :=
  (head, -1) :: cells

/-- The list `l` is well linked and holds `cells`; its nodes are all that is allocated. -/
structure Linked (l : LinkedList) (head : Addr) (cells : List (Addr × DataType)) : Prop where
  head_eq : l.head = some head
  tail_eq : l.tail = last none (withHead head cells)
  size_eq : l.listsize = cells.length
  nodup : (addrs (withHead head cells)).Nodup
  seg : Seg l.heap none (withHead head cells) none
  allocated : ∀ a, l.heap a ≠ none → a ∈ addrs (withHead head cells)

variable {l : LinkedList} {head a : Addr} {cells xs ys : List (Addr × DataType)} {n : ListNode}
  {f : ListNode → ListNode} {q : Ptr} {data : DataType}

@[simp] theorem alloc_heap : (l.alloc a data).heap = l.heap.insertOrAssign a ⟨data, none, none⟩ :=
  rfl

@[simp] theorem alloc_head : (l.alloc a data).head = l.head := rfl

@[simp] theorem alloc_tail : (l.alloc a data).tail = l.tail := rfl

@[simp] theorem alloc_listsize : (l.alloc a data).listsize = l.listsize := rfl

theorem load_eq (h : l.heap a = some n) : l.load (some a) = .ok n := by
  simp [load, h]

theorem setNext_eq (h : l.heap a ≠ none) : l.setNext (some a) q =
    .ok { l with heap := l.heap.modify a fun n => { n with next := q } } := by
  simp [setNext, store, Option.isSome_iff_ne_none, h]

theorem setPrev_eq (h : l.heap a ≠ none) : l.setPrev (some a) q =
    .ok { l with heap := l.heap.modify a fun n => { n with prev := q } } := by
  simp [setPrev, store, Option.isSome_iff_ne_none, h]

theorem free_eq (h : l.heap a ≠ none) :
    l.free (some a) = .ok { l with heap := l.heap.erase a } := by
  simp [free, Option.isSome_iff_ne_none, h]

theorem assert_eq {b : Bool} (h : b = true) : l.assert b = .ok () := by
  rw [assert, if_pos h]

theorem linked_new (a : Addr) : Linked (new a) a [] where
  head_eq := rfl
  tail_eq := rfl
  size_eq := rfl
  nodup := List.nodup_singleton a
  seg := seg_singleton.2 (PartialMap.insertOrAssign_self ..)
  allocated := by
    intro b hb
    by_contra hne
    apply hb
    have hne : b ≠ a := fun h => hne (h ▸ List.mem_singleton_self a)
    exact PartialMap.insertOrAssign_of_ne _ _ hne

/-! ## Walking -/

/-- A walk that stays in a segment ends in front of the cells it has not passed. -/
theorem walk_seg {p : Ptr} (hs : Seg l.heap p cells q) {k : Nat} (hk : k ≤ cells.length) :
    l.walk k (first cells q) = .ok (first (cells.drop k) q) := by
  induction cells generalizing p k with
  | nil =>
      obtain rfl := Nat.le_zero.1 hk
      rfl
  | cons c cells ih =>
      cases k with
      | zero => rfl
      | succ k =>
          obtain ⟨hc, hs⟩ := seg_cons.1 hs
          rw [first_cons, walk, load_eq hc, ok_bind, List.drop_succ_cons]
          exact ih hs (Nat.le_of_succ_le_succ hk)

/-- A walk past the end of the list steps through a null pointer. -/
theorem walk_past {p : Ptr} (hs : Seg l.heap p cells none) {k : Nat} (hk : cells.length < k) :
    l.walk k (first cells none) = .error (.badPointer, l) := by
  induction cells generalizing p k with
  | nil =>
      obtain ⟨k, rfl⟩ := Nat.exists_eq_succ_of_ne_zero (Nat.ne_of_gt hk)
      rfl
  | cons c cells ih =>
      obtain ⟨k, rfl⟩ := Nat.exists_eq_succ_of_ne_zero (Nat.ne_of_gt (Nat.zero_lt_of_lt hk))
      obtain ⟨hc, hs⟩ := seg_cons.1 hs
      rw [first_cons, walk, load_eq hc, ok_bind]
      exact ih hs (Nat.lt_of_succ_lt_succ hk)

/-! ## Cutting at a node -/

/-- The cells in front of a position, the sentinel among them, have a last one. -/
theorem withHead_concat (head : Addr) (xs : List (Addr × DataType)) :
    ∃ us c, withHead head xs = us ++ [c] :=
  (List.eq_nil_or_concat' (withHead head xs)).resolve_left (List.cons_ne_nil _ _)

theorem withHead_append (head : Addr) (xs ys : List (Addr × DataType)) :
    withHead head (xs ++ ys) = withHead head xs ++ ys := rfl

/-- A new cell keeps the addresses apart. -/
theorem nodup_insert {us vs : List (Addr × DataType)} {e : Addr × DataType}
    (h : (addrs (us ++ vs)).Nodup) (he : e.1 ∉ addrs (us ++ vs)) :
    (addrs (us ++ e :: vs)).Nodup := by
  have hperm : (addrs (us ++ e :: vs)).Perm (e.1 :: addrs (us ++ vs)) :=
    (List.perm_middle).map Prod.fst
  exact hperm.nodup_iff.2 (List.nodup_cons.2 ⟨he, h⟩)

theorem insertIdx_append (us vs : List (Addr × DataType)) (e : Addr × DataType) :
    (us ++ vs).insertIdx us.length e = us ++ e :: vs := by
  induction us with
  | nil => rfl
  | cons u us ih => rw [List.cons_append, List.length_cons, List.insertIdx_succ_cons, ih]; rfl

/-- A removed cell leaves the addresses apart, and its own is none of them. -/
theorem nodup_remove {us vs : List (Addr × DataType)} {e : Addr × DataType}
    (h : (addrs (us ++ e :: vs)).Nodup) :
    (addrs (us ++ vs)).Nodup ∧ e.1 ∉ addrs (us ++ vs) := by
  have hperm : (addrs (us ++ e :: vs)).Perm (e.1 :: addrs (us ++ vs)) :=
    (List.perm_middle).map Prod.fst
  have hcons := List.nodup_cons.1 (hperm.nodup_iff.1 h)
  exact ⟨hcons.2, hcons.1⟩

theorem mem_addrs_insert {us vs : List (Addr × DataType)} {e : Addr × DataType} {b : Addr} :
    b ∈ addrs (us ++ e :: vs) ↔ b = e.1 ∨ b ∈ addrs (us ++ vs) := by
  simp only [addrs_append, addrs_cons, List.mem_append, List.mem_cons]
  tauto

/-- **A cell is linked in between two segments** by the four writes of `L_push`. -/
theorem seg_push {h : PartialMap Addr ListNode} {us vs : List (Addr × DataType)}
    {c e y : Addr × DataType} (hs : Seg h none (us ++ c :: y :: vs) none)
    (hnd : (addrs (us ++ c :: y :: vs)).Nodup) (he : e.1 ∉ addrs (us ++ c :: y :: vs)) :
    Seg (((((h.insertOrAssign e.1 ⟨e.2, none, none⟩).modify e.1
      fun n => { n with next := some y.1 }).modify e.1 fun n => { n with prev := some c.1 }).modify
      y.1 fun n => { n with prev := some e.1 }).modify c.1 fun n => { n with next := some e.1 })
      none (us ++ c :: e :: y :: vs) none := by
  have hcut : us ++ c :: y :: vs = (us ++ [c]) ++ y :: vs := by simp
  have hcut' : us ++ c :: e :: y :: vs = (us ++ [c]) ++ ([e] ++ y :: vs) := by simp
  have hc := (nodup_remove hnd).2
  rw [hcut] at hnd hs he
  have hy := (nodup_remove hnd).2
  simp only [addrs_append, addrs_cons, addrs_nil, List.mem_append, List.mem_cons,
    List.not_mem_nil, or_false, not_or] at hc hy he
  obtain ⟨hfront, hback⟩ := seg_append.1 hs
  have hnew : Seg (h.insertOrAssign e.1 ⟨e.2, none, none⟩) none ([] ++ [e]) none :=
    seg_singleton.2 (PartialMap.insertOrAssign_self ..)
  rw [hcut']
  refine seg_append.2 ⟨?_, seg_append.2 ⟨?_, ?_⟩⟩
  -- the part in front only changes its end
  · apply Seg.setNext (q := some y.1) _ hc.1
    apply Seg.modify _ (by simp [hy])
    apply Seg.modify _ (by simp [he])
    apply Seg.modify _ (by simp [he])
    exact hfront.insertOrAssign (by simp [he]) _
  -- the new cell gets both its links
  · apply Seg.modify _ (by simp [Ne.symm he.1.2])
    apply Seg.modify _ (by simp [Ne.symm he.2.1])
    rw [last_append]
    apply Seg.setPrev (p := none) _ List.not_mem_nil
    exact hnew.setNext List.not_mem_nil _
  -- the part behind only changes its start
  · apply Seg.modify _ (by simp [hc])
    apply Seg.setPrev (p := some c.1) _ hy.2
    apply Seg.modify _ (by simp [he])
    apply Seg.modify _ (by simp [he])
    rw [last_append] at hback
    exact hback.insertOrAssign (by simp [he]) _

/-- **A cell is unlinked** by pointing its neighbours to each other. -/
theorem seg_unlink {h : PartialMap Addr ListNode} {us vs : List (Addr × DataType)}
    {c e : Addr × DataType} (hs : Seg h none (us ++ c :: e :: vs) none)
    (hnd : (addrs (us ++ c :: e :: vs)).Nodup) :
    Seg ((setStart (h.modify c.1 fun n => { n with next := first vs none }) vs
      (some c.1)).erase e.1) none (us ++ c :: vs) none := by
  have hcut : us ++ c :: e :: vs = (us ++ [c]) ++ e :: vs := by simp
  have hcut' : us ++ c :: vs = (us ++ [c]) ++ vs := by simp
  have hc := (nodup_remove hnd).2
  rw [hcut] at hnd hs
  obtain ⟨hnd', he⟩ := nodup_remove hnd
  obtain ⟨hfront, hback⟩ := seg_append.1 hs
  rw [addrs_append, List.nodup_append] at hnd'
  obtain ⟨-, hndvs, hdisj⟩ := hnd'
  simp only [addrs_append, addrs_cons, addrs_nil, List.mem_append, List.mem_cons,
    List.not_mem_nil, or_false, not_or] at hc he
  rw [hcut']
  refine seg_append.2 ⟨?_, ?_⟩
  · apply Seg.erase _ (by simp [he])
    apply Seg.setStart_of_disjoint
    · exact hfront.setNext hc.1 _
    · intro a ha ha'
      exact hdisj a ha' a ha rfl
  · rw [last_append]
    apply Seg.erase _ he.2
    apply Seg.setStart (p := some e.1) _ hndvs
    exact (seg_cons.1 hback).2.modify hc.2.2 _

/-! ## What the functions do to the sequence -/

/-- The position a walk from the sentinel over `xs` ends at. -/
theorem walk_withHead {h : PartialMap Addr ListNode} {us : List (Addr × DataType)}
    {c : Addr × DataType} (hc : withHead head xs = us ++ [c]) (hl : l.heap = h)
    (hhead : l.head = some head) (hs : Seg h none (withHead head (xs ++ ys)) none) :
    l.walk xs.length l.head = .ok (some c.1) := by
  subst hl
  have hlen : us.length = xs.length := by
    have := congrArg List.length hc
    simp only [withHead, List.length_cons, List.length_append, List.length_nil] at this
    omega
  have hwalk := walk_seg hs (k := xs.length) (by simp [withHead]; omega)
  rw [withHead_append, hc, List.append_assoc, ← hlen, List.drop_left, hlen] at hwalk
  rw [hhead]
  have hfirst : first (us ++ ([c] ++ ys)) none = some head := by
    rw [← List.append_assoc, ← hc]
    rfl
  rw [hfirst] at hwalk
  exact hwalk

theorem linkAfter_eq {c e y : Addr} (hc : l.heap c = some n) (hn : n.next = some y)
    (he : l.heap e ≠ none) (hy : l.heap y ≠ none) (hce : c ≠ e) :
    l.linkAfter (some c) (some e) = .ok { l with heap := (((l.heap.modify e
      fun n => { n with next := some y }).modify e fun n => { n with prev := some c }).modify
      y fun n => { n with prev := some e }).modify c fun n => { n with next := some e } } := by
  have hc' : l.heap c ≠ none := by
    rw [hc]
    exact Option.some_ne_none n
  unfold linkAfter
  rw [load_eq hc, ok_bind, hn, setNext_eq he, ok_bind, setPrev_eq, ok_bind, load_eq (n := n),
    ok_bind, hn, setPrev_eq, ok_bind, setNext_eq]
  · simpa only [ne_eq, PartialMap.modify_eq_none] using hc'
  · simpa only [ne_eq, PartialMap.modify_eq_none] using hy
  · exact (PartialMap.modify_of_ne _ _ hce).trans ((PartialMap.modify_of_ne _ _ hce).trans hc)
  · simpa only [ne_eq, PartialMap.modify_eq_none] using he

theorem linkLast_eq {c e : Addr} (ht : l.tail = some c) (hc : l.heap c ≠ none)
    (he : l.heap e ≠ none) :
    l.linkLast (some e) = .ok { l with
      heap := (l.heap.modify c fun n => { n with next := some e }).modify e
        fun n => { n with prev := some c }
      tail := some e } := by
  unfold linkLast
  rw [ht, setNext_eq hc, ok_bind, ht, setPrev_eq, ok_bind]
  · rfl
  · simpa only [ne_eq, PartialMap.modify_eq_none] using he

/-- **`L_push` in front of the element `y`.** -/
theorem lPush_inside {y : Addr × DataType} (hl : Linked l head (xs ++ y :: ys))
    (ha : a ∉ addrs (withHead head (xs ++ y :: ys))) :
    Yields (lPush data xs.length a l) (fun _ => False) fun l' =>
      Linked l' head (xs ++ (a, data) :: y :: ys) := by
  obtain ⟨us, c, hc⟩ := withHead_concat head xs
  have hcut : ∀ zs, withHead head (xs ++ zs) = us ++ c :: zs := by
    intro zs
    rw [withHead_append, hc, List.append_assoc]
    rfl
  have hpos : ¬ (xs.length : Int) = l.listsize := by
    rw [hl.size_eq, List.length_append, List.length_cons]
    omega
  have hseg₁ := hl.seg.insertOrAssign ha ⟨data, none, none⟩
  have hwalk : (l.alloc a data).walk xs.length l.head = .ok (some c.1) :=
    walk_withHead hc rfl hl.head_eq hseg₁
  rw [hcut] at hseg₁
  have hnode : (l.alloc a data).heap c.1 = some ⟨c.2, some y.1, last none us⟩ := hseg₁.node_at
  have hce : c.1 ≠ a := by
    rintro rfl
    apply ha
    rw [hcut]
    simp
  have hnew : (l.alloc a data).heap a ≠ none := by
    simp [alloc]
  have hy : (l.alloc a data).heap y.1 ≠ none := hseg₁.ne_none (by simp)
  unfold lPush
  rw [assert_eq (by simp), ok_bind]
  show Yields ((if (xs.length : Int) = l.listsize then _ else _) >>= _) _ _
  rw [if_neg hpos, Int.toNat_natCast]
  rw [alloc_head, hwalk, ok_bind, linkAfter_eq hnode rfl hnew hy hce, ok_bind, yields_pure]
  have hseg := hl.seg
  have hnd := hl.nodup
  have htail := hl.tail_eq
  have hsize := hl.size_eq
  constructor
  case head_eq => exact hl.head_eq
  case tail_eq =>
    rw [hcut] at htail ⊢
    simpa using htail
  case size_eq =>
    simp only [List.length_append, List.length_cons, alloc_listsize] at hsize ⊢
    omega
  case nodup =>
    rw [withHead_append]
    exact nodup_insert hnd ha
  case seg =>
    rw [hcut] at hseg hnd ha ⊢
    exact seg_push (e := (a, data)) hseg hnd ha
  case allocated =>
    intro b hb
    simp only [alloc_heap, ne_eq, PartialMap.modify_eq_none] at hb
    rw [withHead_append, mem_addrs_insert]
    by_cases hba : b = a
    · exact Or.inl hba
    · rw [PartialMap.insertOrAssign_of_ne _ _ hba] at hb
      exact Or.inr (hl.allocated b hb)

/-- The heap `L_push` leaves when it appends. -/
theorem seg_pushLast {h : PartialMap Addr ListNode} {us : List (Addr × DataType)}
    {c e : Addr × DataType} (hs : Seg h none (us ++ [c]) none) (hc : c.1 ∉ addrs us)
    (he : e.1 ∉ addrs (us ++ [c])) :
    Seg (((h.insertOrAssign e.1 ⟨e.2, none, none⟩).modify c.1
      fun n => { n with next := some e.1 }).modify e.1 fun n => { n with prev := some c.1 })
      none (us ++ c :: [e]) none := by
  have hcut : us ++ c :: [e] = (us ++ [c]) ++ [e] := by simp
  have hec : e.1 ∉ addrs [c] := fun h => he (by simp_all)
  have hnew : Seg (h.insertOrAssign e.1 ⟨e.2, none, none⟩) none [e] none :=
    seg_singleton.2 (PartialMap.insertOrAssign_self ..)
  rw [hcut]
  refine seg_append.2 ⟨?_, ?_⟩
  · apply Seg.modify _ he
    apply Seg.setNext (q := none) _ hc
    exact hs.insertOrAssign he _
  · rw [last_append]
    apply Seg.setPrev (p := none) _ List.not_mem_nil
    apply hnew.modify
    simpa [eq_comm] using hec

/-- **`L_push` behind the last element.** -/
theorem lPush_end (hl : Linked l head cells) (ha : a ∉ addrs (withHead head cells)) :
    Yields (lPush data cells.length a l) (fun _ => False) fun l' =>
      Linked l' head (cells ++ [(a, data)]) := by
  obtain ⟨us, c, hc⟩ := withHead_concat head cells
  have hcut : withHead head (cells ++ [(a, data)]) = us ++ c :: [(a, data)] := by
    rw [withHead_append, hc, List.append_assoc]
    rfl
  have hpos : (cells.length : Int) = l.listsize := hl.size_eq.symm
  have htail := hl.tail_eq
  have hseg := hl.seg
  have hnd := hl.nodup
  rw [hc, last_append] at htail
  rw [hc] at hseg hnd ha
  have hctail : (l.alloc a data).tail = some c.1 := htail
  have hnew : (l.alloc a data).heap a ≠ none := by
    simp [alloc]
  have hlast : (l.alloc a data).heap c.1 ≠ none :=
    (hseg.insertOrAssign ha ⟨data, none, none⟩).ne_none (by simp)
  unfold lPush
  rw [assert_eq (by simp), ok_bind]
  show Yields ((if (cells.length : Int) = l.listsize then _ else _) >>= _) _ _
  rw [if_pos hpos]
  rw [linkLast_eq hctail hlast hnew, ok_bind, yields_pure]
  constructor
  case head_eq => exact hl.head_eq
  case tail_eq =>
    rw [hcut]
    simp
  case size_eq =>
    simp only [List.length_append, List.length_cons, List.length_nil, alloc_listsize]
    omega
  case nodup =>
    have hcells : addrs (withHead head cells ++ []) = addrs (us ++ [c]) := by
      rw [List.append_nil, hc]
    rw [withHead_append]
    apply nodup_insert
    · rwa [hcells]
    · rwa [hcells]
  case seg =>
    have hcus := (nodup_remove hnd).2
    rw [hcut]
    exact seg_pushLast (e := (a, data)) hseg (by simpa using hcus) ha
  case allocated =>
    intro b hb
    simp only [alloc_heap, ne_eq, PartialMap.modify_eq_none] at hb
    rw [withHead_append, mem_addrs_insert, List.append_nil]
    by_cases hba : b = a
    · exact Or.inl hba
    · rw [PartialMap.insertOrAssign_of_ne _ _ hba] at hb
      exact Or.inr (hl.allocated b hb)

/-- **What `L_push` does at a position of the list.** -/
theorem lPush_spec (hl : Linked l head cells) (ha : a ∉ addrs (withHead head cells)) {pos : Int}
    (h0 : 0 ≤ pos) (hpos : pos ≤ cells.length) :
    Yields (lPush data pos a l) (fun _ => False) fun l' =>
      Linked l' head (cells.insertIdx pos.toNat (a, data)) := by
  obtain ⟨xs, ys, rfl, rfl⟩ : ∃ xs ys, cells = xs ++ ys ∧ pos = (xs.length : Nat) := by
    refine ⟨cells.take pos.toNat, cells.drop pos.toNat, (List.take_append_drop ..).symm, ?_⟩
    rw [List.length_take]
    omega
  rw [Int.toNat_natCast, insertIdx_append]
  cases ys with
  | nil =>
      rw [List.append_nil] at hl ha
      exact lPush_end hl ha
  | cons y ys => exact lPush_inside hl ha

theorem bypass_eq {c e : Addr} {ys : List (Addr × DataType)} (he : l.heap e = some n)
    (hn : n.next = first ys none) (hec : e ≠ c) (hc : l.heap c ≠ none)
    (hys : ∀ b ∈ addrs ys, l.heap b ≠ none) :
    l.bypass (some e) (some c) = .ok { l with
      heap := setStart (l.heap.modify c fun n => { n with next := first ys none }) ys
        (some c) } := by
  unfold bypass
  rw [load_eq he, ok_bind, setNext_eq hc, ok_bind, load_eq (n := n), ok_bind, hn]
  · cases ys with
    | nil => rfl
    | cons y ys =>
        rw [first_cons, if_pos (Option.some_ne_none y.1)]
        apply setPrev_eq
        simpa only [ne_eq, PartialMap.modify_eq_none] using hys y.1 (List.mem_cons_self ..)
  · exact (PartialMap.modify_of_ne _ _ hec).trans he

/-- The tail after the cell `e` is gone. -/
theorem tail_remove {us vs : List (Addr × DataType)} {c e : Addr × DataType}
    (hnd : (addrs (us ++ c :: e :: vs)).Nodup) :
    (if some e.1 = last none (us ++ c :: e :: vs) then some c.1
      else last none (us ++ c :: e :: vs)) = last none (us ++ c :: vs) := by
  simp only [last_append, last_cons]
  cases vs with
  | nil => simp
  | cons y vs =>
      obtain ⟨b, hb, hlast⟩ := exists_last (some e.1) y vs
      have hlast' : last (some c.1) (y :: vs) = some b := hlast
      rw [hlast, hlast', if_neg]
      rintro ⟨⟩
      have he := (List.nodup_cons.1 (List.nodup_cons.1 (List.nodup_append.1
        (by simpa using hnd)).2.1).2).1
      exact he hb

/-- A heap without `e` whose other cells are linked holds the list without `e`. -/
theorem Linked.remove {e : Addr × DataType} {h : PartialMap Addr ListNode} {t : Ptr}
    (hl : Linked l head (xs ++ e :: ys)) (hseg : Seg h none (withHead head (xs ++ ys)) none)
    (hh : ∀ b, h b ≠ none → b ≠ e.1 ∧ l.heap b ≠ none)
    (ht : t = last none (withHead head (xs ++ ys))) :
    Linked { heap := h, head := l.head, tail := t, listsize := l.listsize - 1 } head
      (xs ++ ys) := by
  have hsize := hl.size_eq
  have hnd := hl.nodup
  rw [withHead_append] at hnd
  refine ⟨hl.head_eq, ht, ?_, (nodup_remove hnd).1, hseg, ?_⟩
  · simp only [List.length_append, List.length_cons] at hsize ⊢
    omega
  · intro b hb
    obtain ⟨hbe, hb⟩ := hh b hb
    have hmem := hl.allocated b hb
    rw [withHead_append, mem_addrs_insert] at hmem
    exact hmem.resolve_left hbe

section Removal

variable {us : List (Addr × DataType)} {c e : Addr × DataType}

theorem withHead_cut (hc : withHead head xs = us ++ [c]) (zs : List (Addr × DataType)) :
    withHead head (xs ++ zs) = us ++ c :: zs := by
  rw [withHead_append, hc, List.append_assoc]
  rfl

/-- The node of `e`, the cell in front of it being `c`. -/
theorem Linked.node (hl : Linked l head (xs ++ e :: ys)) (hc : withHead head xs = us ++ [c]) :
    l.heap e.1 = some ⟨e.2, first ys none, some c.1⟩ := by
  have hseg := hl.seg
  rw [withHead_append, hc] at hseg
  have h := hseg.node_at
  rwa [last_append] at h

/-- The links around `e` after it has been bypassed. -/
def bypassed (h : PartialMap Addr ListNode) (c : Addr) (ys : List (Addr × DataType)) :
    PartialMap Addr ListNode :=
  setStart (h.modify c fun n => { n with next := first ys none }) ys (some c)

theorem bypassed_eq_none {h : PartialMap Addr ListNode} {b c : Addr} :
    bypassed h c ys b = none ↔ h b = none := by
  unfold bypassed
  rw [setStart_eq_none, PartialMap.modify_eq_none]

theorem Linked.bypass_eq (hl : Linked l head (xs ++ e :: ys)) (hc : withHead head xs = us ++ [c])
    (t : Ptr) : ({ l with tail := t } : LinkedList).bypass (some e.1) (some c.1) =
      .ok { l with heap := bypassed l.heap c.1 ys, tail := t } := by
  have hseg := hl.seg
  have hnd := hl.nodup
  rw [withHead_cut hc] at hseg hnd
  have hec : e.1 ≠ c.1 := by
    intro h
    have hc' := (nodup_remove hnd).2
    simp [h] at hc'
  apply LinkedList.bypass_eq (l := { l with tail := t }) (hl.node hc) rfl hec
  · exact hseg.ne_none (by simp)
  · intro b hb
    exact hseg.ne_none (by simp [hb])

/-- Without `e` and with its neighbours relinked the list holds the other cells. -/
theorem Linked.bypassed (hl : Linked l head (xs ++ e :: ys)) (hc : withHead head xs = us ++ [c]) :
    Linked { heap := (bypassed l.heap c.1 ys).erase e.1, head := l.head
             tail := if some e.1 = l.tail then some c.1 else l.tail
             listsize := l.listsize - 1 } head (xs ++ ys) := by
  have hseg := hl.seg
  have hnd := hl.nodup
  rw [withHead_cut hc] at hseg hnd
  apply hl.remove
  · rw [withHead_cut hc]
    exact seg_unlink hseg hnd
  · intro b hb
    rw [ne_eq, PartialMap.erase_apply] at hb
    split at hb
    · exact absurd rfl hb
    · rw [bypassed_eq_none] at hb
      exact ⟨‹_›, hb⟩
  · rw [hl.tail_eq, withHead_cut hc, withHead_cut hc]
    exact tail_remove hnd

/-- **What `L_erase` does to the sequence.** -/
theorem lErase_spec (hl : Linked l head (xs ++ e :: ys)) :
    Yields (lErase (some e.1) l) (fun _ => False) fun l' => Linked l' head (xs ++ ys) := by
  obtain ⟨us, c, hc⟩ := withHead_concat head xs
  have hfree : LinkedList.bypassed l.heap c.1 ys e.1 ≠ none := by
    rw [ne_eq, bypassed_eq_none, hl.node hc]
    exact Option.some_ne_none _
  unfold lErase
  rw [load_eq (hl.node hc), ok_bind]
  dsimp only
  rw [hl.bypass_eq hc, ok_bind, free_eq hfree, ok_bind, yields_pure]
  exact hl.bypassed hc

/-- **What `L_pop_front` does to the sequence.** -/
theorem lPopFront_spec (hl : Linked l head (e :: ys)) :
    Yields (lPopFront l) (fun _ => False) fun l' => Linked l' head ys := by
  have hl' : Linked l head ([] ++ e :: ys) := hl
  have hc : withHead head [] = [] ++ [(head, -1)] := rfl
  have hfirst : l.heap head = some ⟨-1, some e.1, none⟩ := (seg_cons.1 hl.seg).1
  have hassert : l.assert ((some e.1 : Ptr) != none) = .ok () := assert_eq rfl
  have hbypass : l.bypass (some e.1) (some head) = _ := hl'.bypass_eq hc l.tail
  have hfree : LinkedList.bypassed l.heap head ys e.1 ≠ none := by
    rw [ne_eq, bypassed_eq_none, hl'.node hc]
    exact Option.some_ne_none _
  unfold lPopFront
  rw [hl.head_eq, load_eq hfirst, ok_bind]
  dsimp only
  rw [hassert, ok_bind, hbypass, ok_bind, free_eq hfree, ok_bind, yields_pure]
  have h := hl'.bypassed hc
  rwa [hl.head_eq] at h ⊢

/-- **What `L_pop_back` does to the sequence.** -/
theorem lPopBack_spec (hl : Linked l head (xs ++ [e])) :
    Yields (lPopBack l) (fun _ => False) fun l' => Linked l' head xs := by
  obtain ⟨us, c, hc⟩ := withHead_concat head xs
  have hseg := hl.seg
  have hnd := hl.nodup
  have htail := hl.tail_eq
  have hnode := hl.node hc
  rw [withHead_cut hc, last_append, last_cons, last_cons, last_nil] at htail
  rw [withHead_append] at hnd
  rw [withHead_append, hc] at hseg
  have he := (nodup_remove hnd).2
  rw [List.append_nil, hc] at he
  have hassert : l.assert (l.tail != l.head) = .ok () := by
    apply assert_eq
    rw [htail, hl.head_eq]
    have hne : e.1 ≠ head := by
      rintro rfl
      rw [← hc] at he
      exact he (List.mem_cons_self ..)
    simpa using hne
  have hfront : Seg (l.heap.erase e.1) none (us ++ [c]) (some e.1) := (seg_append.1 hseg).1.erase he
  have hcus : c.1 ∉ addrs us := by
    have hnd' := hl.nodup
    rw [withHead_cut hc] at hnd'
    have h := (nodup_remove hnd').2
    rw [addrs_append, List.mem_append, not_or] at h
    exact h.1
  unfold lPopBack
  rw [hassert, ok_bind, htail, load_eq hnode, ok_bind, free_eq, ok_bind]
  dsimp only
  rw [setNext_eq, ok_bind, yields_pure]
  · have h := hl.remove (h := (l.heap.erase e.1).modify c.1 fun n => { n with next := none })
      (t := some c.1) ?_ ?_ ?_
    · rwa [List.append_nil] at h
    · rw [List.append_nil, hc]
      exact hfront.setNext hcus none
    · intro b hb
      rw [ne_eq, PartialMap.modify_eq_none, PartialMap.erase_apply] at hb
      split at hb
      · exact absurd rfl hb
      · exact ⟨‹_›, hb⟩
    · rw [List.append_nil, hc]
      simp
  · exact hfront.ne_none (by simp)
  · rw [hnode]
    exact Option.some_ne_none _

end Removal

end LinkedList

end ZoneBuffer.Structure
