import ZoneBuffer.Structure.LinkedList

set_option autoImplicit false

/-! # Runs of the list

The list is compared with the sequence of its cells. A client may push at a position of the
list, pop from a list that is not empty and erase a node of the list; `new` may return any
address that is not in use, freed ones included. In every such run the list reads as the
sequence in both directions (`run_reads`), and its destructor frees each node once
(`run_destroyed`).

Outside the positions of the list `L_push` does not stop at its assertion, whose two tests are
joined by `||`: a negative position is taken for the first one, and otherwise a null pointer
is followed (`lPush_outside`). -/

namespace ZoneBuffer.Structure

open Outcome Machine Segment LinkedList

namespace LinkedList

variable {l : LinkedList} {head a : Addr} {cells : List (Addr × DataType)} {data : DataType}

/-! ## Distances -/

/-- A walk that succeeds does not meet a null pointer on its way. -/
theorem advanceLoop_of_walk {k : Nat} {p q : Ptr} (h : l.walk k p = .ok q) :
    l.advanceLoop k p = .ok q := by
  induction k generalizing p with
  | zero => exact h
  | succ k ih =>
      unfold walk at h
      obtain ⟨n, hn, h⟩ := bind_eq_ok.1 h
      have hp : (p != none) = true := by
        cases p with
        | none => cases hn
        | some a => rfl
      unfold advanceLoop
      rw [assert_eq hp, ok_bind, hn, ok_bind]
      exact ih h

/-- The loop of `L_distance` stops at the node it looks for. -/
theorem distanceLoop_seg {p q : Ptr} (hs : Seg l.heap p cells q) (hnd : (addrs cells).Nodup)
    {k fuel : Nat} {c : Addr × DataType} (hc : cells[k]? = some c) (hk : k < fuel) (i : Int) :
    l.distanceLoop (some c.1) fuel (first cells q) i = .ok (some c.1, i + k) := by
  induction cells generalizing p k fuel i with
  | nil => cases hc
  | cons d cells ih =>
      obtain ⟨fuel, rfl⟩ := Nat.exists_eq_succ_of_ne_zero (Nat.ne_of_gt (Nat.zero_lt_of_lt hk))
      obtain ⟨hd, hs⟩ := seg_cons.1 hs
      rw [addrs_cons, List.nodup_cons] at hnd
      unfold distanceLoop
      cases k with
      | zero =>
          obtain rfl : d = c := Option.some.inj hc
          simp
      | succ k =>
          have hc : cells[k]? = some c := hc
          have hne : d.1 ≠ c.1 := by
            intro h
            apply hnd.1
            rw [h]
            exact List.mem_map_of_mem (List.mem_of_getElem? hc)
          rw [first_cons, if_pos ⟨by simpa using hne, Option.some_ne_none _⟩, load_eq hd, ok_bind,
            ih hs hnd.2 hc (Nat.lt_of_succ_lt_succ hk)]
          push_cast
          rw [Int.add_assoc, Int.add_comm 1]

/-- The cells from a position on, as a segment of their own. -/
theorem Linked.seg_drop (hl : Linked l head cells) (i : Nat) :
    ∃ p, Seg l.heap p (cells.drop i) none := by
  have hseg := hl.seg
  rw [← List.take_append_drop i cells, withHead_append] at hseg
  exact ⟨_, (seg_append.1 hseg).2⟩

theorem first_drop {i : Nat} {c : Addr × DataType} (hc : cells[i]? = some c) :
    first (cells.drop i) none = some c.1 := by
  have hlt : i < cells.length := (List.getElem?_eq_some_iff.1 hc).1
  rw [List.drop_eq_getElem_cons hlt, first_cons, (List.getElem?_eq_some_iff.1 hc).2]

/-- **`L_advance` undoes `L_distance`.** -/
theorem lAdvance_lDistance {i j fuel : Nat} {b c : Addr × DataType} (hl : Linked l head cells)
    (hij : i ≤ j) (hb : cells[i]? = some b) (hc : cells[j]? = some c)
    (hfuel : cells.length < fuel) :
    (lDistance fuel (some b.1) (some c.1) l >>= fun len => lAdvance (some b.1) len l) =
      .ok (some c.1) := by
  obtain ⟨p, hseg⟩ := hl.seg_drop i
  have hj : j < cells.length := (List.getElem?_eq_some_iff.1 hc).1
  have hnd : (addrs (cells.drop i)).Nodup := by
    have h := (List.nodup_cons.1 hl.nodup).2
    exact h.sublist ((List.drop_sublist i cells).map Prod.fst)
  have hc' : (cells.drop i)[j - i]? = some c := by
    rw [List.getElem?_drop, Nat.add_sub_cancel' hij, hc]
  have hdist : lDistance fuel (some b.1) (some c.1) l = .ok ((j - i : Nat) : Int) := by
    have hfuel : j - i < fuel := by omega
    have hloop := distanceLoop_seg hseg hnd hc' hfuel 0
    rw [first_drop hb, Int.zero_add] at hloop
    unfold lDistance
    rw [assert_eq (by simp), ok_bind, hloop, ok_bind]
    rfl
  have hwalk := walk_seg hseg (k := j - i) (by rw [List.length_drop]; omega)
  rw [first_drop hb, List.drop_drop, Nat.add_sub_cancel' hij, first_drop hc] at hwalk
  rw [hdist, ok_bind]
  exact advanceLoop_of_walk hwalk

/-! ## Reading the list -/

/-- What the functions that read `l` and the links of its nodes show of the sequence `cells`. -/
structure Reads (l : LinkedList) (cells : List (Addr × DataType)) : Prop where
  forward : ∃ n, l.load l.head = .ok n ∧ Path DNode.next l.heap n.next cells none
  backward : Path DNode.prev l.heap l.tail cells.reverse l.head
  tail_eq : l.tail = (cells.getLast?.map Prod.fst).or l.head
  size_eq : l.lSize = cells.length
  isEmpty_iff : lIsEmpty l = .ok (decide (l.lSize = 0))
  advance : ∀ (i j : Nat) (b c : Addr × DataType) (fuel : Nat), i ≤ j → cells[i]? = some b →
    cells[j]? = some c → cells.length < fuel →
    (lDistance fuel (some b.1) (some c.1) l >>= fun len => lAdvance (some b.1) len l) =
      .ok (some c.1)

theorem last_eq_getLast? (p : Ptr) (cells : List (Addr × DataType)) :
    last p cells = (cells.getLast?.map Prod.fst).or p := by
  induction cells generalizing p with
  | nil => rfl
  | cons c cells ih =>
      rw [last_cons, ih, List.getLast?_cons]
      cases cells.getLast? <;> rfl

/-- **A linked list reads as its sequence.** -/
theorem Linked.reads (hl : Linked l head cells) : Reads l cells := by
  obtain ⟨hhead, hseg⟩ := seg_cons.1 hl.seg
  have hload : l.load l.head = .ok ⟨-1, first cells none, none⟩ := by
    rw [hl.head_eq]
    exact load_eq hhead
  have htail : l.tail = last (some head) cells := hl.tail_eq
  refine ⟨⟨_, hload, hseg.path_next⟩, ?_, ?_, hl.size_eq, ?_, ?_⟩
  · rw [htail, hl.head_eq]
    exact hseg.path_prev
  · rw [htail, hl.head_eq, last_eq_getLast?]
  · unfold lIsEmpty lSize
    rw [hload, ok_bind, hl.size_eq]
    cases cells with
    | nil => rfl
    | cons c cells =>
        have hne : ¬ ((c :: cells).length : Int) = 0 := by
          rw [List.length_cons]
          omega
        rw [decide_eq_false hne]
        rfl
  · intro i j b c fuel hij hb hc hfuel
    exact lAdvance_lDistance hl hij hb hc hfuel

/-! ## Runs -/

/-- The calls that change a list, with the address `new` returns. -/
inductive ListOp where
  | push (data : DataType) (pos : Int) (newNode : Addr)
  | pushFront (data : DataType) (newNode : Addr)
  | pushBack (data : DataType) (newNode : Addr)
  | popFront
  | popBack
  | erase (node : Addr)

def step : ListOp → LinkedList → Call LinkedList
  | .push data pos newNode => lPush data pos newNode
  | .pushFront data newNode => lPushFront data newNode
  | .pushBack data newNode => lPushBack data newNode
  | .popFront => lPopFront
  | .popBack => lPopBack
  | .erase node => lErase (some node)

/-- What a call does to the sequence. -/
def seqStep : ListOp → List (Addr × DataType) → List (Addr × DataType)
  | .push data pos newNode, cells => cells.insertIdx pos.toNat (newNode, data)
  | .pushFront data newNode, cells => (newNode, data) :: cells
  | .pushBack data newNode, cells => cells ++ [(newNode, data)]
  | .popFront, cells => cells.tail
  | .popBack, cells => cells.dropLast
  | .erase node, cells => cells.eraseP fun c => c.1 == node

/-- The calls a client may make, the sentinel being at `head`. -/
def Permitted (head : Addr) (cells : List (Addr × DataType)) : ListOp → Prop
  | .push _ pos newNode =>
      0 ≤ pos ∧ pos ≤ cells.length ∧ newNode ∉ addrs (withHead head cells)
  | .pushFront _ newNode => newNode ∉ addrs (withHead head cells)
  | .pushBack _ newNode => newNode ∉ addrs (withHead head cells)
  | .popFront => cells ≠ []
  | .popBack => cells ≠ []
  | .erase node => node ∈ addrs cells

instance (head : Addr) (cells : List (Addr × DataType)) (op : ListOp) :
    Decidable (Permitted head cells op) := by
  cases op <;> unfold Permitted <;> infer_instance

/-- **What one call does.** -/
theorem step_spec {op : ListOp} (hl : Linked l head cells) (hop : Permitted head cells op) :
    Yields (step op l) (fun _ => False) fun l' => Linked l' head (seqStep op cells) := by
  cases op with
  | push data pos newNode => exact lPush_spec hl hop.2.2 hop.1 hop.2.1
  | pushFront data newNode =>
      exact lPush_spec hl hop (Int.le_refl 0) (Int.natCast_nonneg _)
  | pushBack data newNode =>
      show Yields (lPush data l.listsize newNode l) _ _
      rw [hl.size_eq]
      exact lPush_end hl hop
  | popFront =>
      obtain ⟨e, ys, rfl⟩ := List.exists_cons_of_ne_nil hop
      exact lPopFront_spec hl
  | popBack =>
      obtain ⟨xs, e, rfl⟩ := (List.eq_nil_or_concat' cells).resolve_left hop
      show Yields (lPopBack l) _ fun l' => Linked l' head (xs ++ [e]).dropLast
      rw [List.dropLast_concat]
      exact lPopBack_spec hl
  | erase node =>
      obtain ⟨e, he, rfl⟩ := List.mem_map.1 hop
      obtain ⟨b, xs, ys, hxs, hb, rfl, hrest⟩ :=
        List.exists_of_eraseP (p := fun c : Addr × DataType => c.1 == e.1) he (by simp)
      have hbe : b.1 = e.1 := by simpa using hb
      show Yields (lErase (some e.1) l) _ fun l' => Linked l' head (List.eraseP _ _)
      rw [hrest, ← hbe]
      exact lErase_spec hl

/-- A run of permitted calls keeps the list linked. -/
theorem run_linked (head : Addr) (ops : List ListOp)
    (hops : Legal (Permitted head) seqStep ops []) :
    Yields (run step ops (new head)) (fun _ => False) fun l =>
      Linked l head (specRun seqStep ops []) := by
  have hstep : ∀ l cells op, Linked l head cells → Permitted head cells op →
      Yields (step op l) (fun _ => False) fun l' => Linked l' head (seqStep op cells) :=
    fun l cells op hl hop => step_spec hl hop
  exact run_yields (fun l cells => Linked l head cells) hstep ops (new head) []
    (linked_new head) hops

/-- **Nothing goes wrong in a run of permitted calls, and the list reads as the sequence.** -/
theorem run_reads (head : Addr) (ops : List ListOp) (hops : Legal (Permitted head) seqStep ops []) :
    Yields (run step ops (new head)) (fun _ => False) fun l => Reads l (specRun seqStep ops []) :=
  (run_linked head ops hops).imp fun _ hl => hl.reads

/-- Calls of every kind, the freed address 1 being used again. -/
theorem run_reads_mixed :
    Legal (Permitted 0) seqStep [.pushBack 7 1, .push 8 1 2, .pushFront 9 3, .push 6 1 4, .erase 1,
      .popBack, .pushBack 5 1, .popFront] [] ∧
    Yields (run step [.pushBack 7 1, .push 8 1 2, .pushFront 9 3, .push 6 1 4, .erase 1, .popBack,
      .pushBack 5 1, .popFront] (new 0)) (fun _ => False) fun l => Reads l [(4, 6), (1, 5)] :=
  ⟨by decide, run_reads 0 _ (by decide)⟩

theorem length_seqStep_le (op : ListOp) (cells : List (Addr × DataType)) :
    (seqStep op cells).length ≤ cells.length + 1 := by
  cases op with
  | push data pos newNode => exact List.length_insertIdx_le_succ
  | pushFront data newNode => exact Nat.le_refl _
  | pushBack data newNode => simp [seqStep]
  | popFront => simp only [seqStep, List.length_tail]; omega
  | popBack => simp only [seqStep, List.length_dropLast]; omega
  | erase node => exact Nat.le_succ_of_le List.length_eraseP_le

theorem length_specRun_le (ops : List ListOp) (cells : List (Addr × DataType)) :
    (specRun seqStep ops cells).length ≤ cells.length + ops.length := by
  induction ops generalizing cells with
  | nil => exact Nat.le_refl _
  | cons op ops ih =>
      have hstep := length_seqStep_le op cells
      have hrest := ih (seqStep op cells)
      rw [specRun_cons, List.length_cons]
      omega

/-- The counter moves by at most one with each call, so a run of fewer than `2 ^ 31` calls keeps
it within an `int`. -/
theorem run_listsize_le (head : Addr) (ops : List ListOp)
    (hops : Legal (Permitted head) seqStep ops []) :
    Yields (run step ops (new head)) (fun _ => False) fun l =>
      0 ≤ l.listsize ∧ l.listsize ≤ ops.length := by
  refine (run_linked head ops hops).imp fun l hl => ?_
  have hlen := length_specRun_le ops []
  rw [List.length_nil] at hlen
  rw [hl.size_eq]
  omega

/-! ## The end of a list -/

/-- The loop of the destructor frees every node it passes and leaves the last one. -/
theorem destroyLoop_spec {p : Ptr} {c : Addr × DataType} {fuel : Nat}
    (hs : Seg l.heap p (c :: cells) none) (hnd : (addrs (c :: cells)).Nodup)
    (hall : ∀ a, l.heap a ≠ none → a ∈ addrs (c :: cells)) (hfuel : cells.length < fuel) :
    Yields (l.destroyLoop fuel (some c.1) (first cells none)) (fun _ => False) fun l' =>
      l'.tail = l.tail ∧ ∃ a, last p (c :: cells) = some a ∧ l'.heap a ≠ none ∧
        ∀ b, l'.heap b ≠ none → b = a := by
  induction cells generalizing l p c fuel with
  | nil =>
      obtain ⟨fuel, rfl⟩ := Nat.exists_eq_succ_of_ne_zero (Nat.ne_of_gt hfuel)
      refine ⟨rfl, c.1, rfl, hs.ne_none (List.mem_cons_self ..), ?_⟩
      intro b hb
      simpa using hall b hb
  | cons d cells ih =>
      obtain ⟨fuel, rfl⟩ := Nat.exists_eq_succ_of_ne_zero (Nat.ne_of_gt (Nat.zero_lt_of_lt hfuel))
      have hc : l.heap c.1 ≠ none := hs.ne_none (List.mem_cons_self ..)
      obtain ⟨hcd, hnd⟩ := List.nodup_cons.1 hnd
      -- the next node is read after the one in front of it is gone
      have hrest : Seg (l.heap.erase c.1) (some c.1) (d :: cells) none :=
        (seg_cons.1 hs).2.erase hcd
      have hall' : ∀ a, (l.heap.erase c.1) a ≠ none → a ∈ addrs (d :: cells) := by
        intro a ha
        have hne : a ≠ c.1 := by
          rintro rfl
          exact ha (PartialMap.erase_self ..)
        rw [PartialMap.erase_of_ne _ hne] at ha
        exact (List.mem_cons.1 (hall a ha)).resolve_left hne
      unfold destroyLoop
      rw [first_cons, if_pos (Option.some_ne_none _), free_eq hc, ok_bind, load_eq hrest.1, ok_bind]
      exact ih hrest hnd hall' (Nat.lt_of_succ_lt_succ hfuel)

/-- **The destructor frees every node once** and nothing is left of the list. -/
theorem destroy_spec {fuel : Nat} (hl : Linked l head cells) (hfuel : cells.length < fuel) :
    Yields (destroy fuel l) (fun _ => False) fun l' => l'.heap = PartialMap.empty := by
  have hload : l.load l.head = .ok ⟨-1, first cells none, none⟩ := by
    rw [hl.head_eq]
    exact load_eq (seg_cons.1 hl.seg).1
  have hloop := destroyLoop_spec hl.seg hl.nodup hl.allocated hfuel
  unfold destroy
  rw [hload, ok_bind, hl.head_eq]
  refine hloop.bind ?_
  rintro l' ⟨htail, a, hlast, ha, hall⟩
  have htail : l'.tail = some a := by
    rw [htail, hl.tail_eq]
    exact hlast
  rw [htail, free_eq ha, yields_ok]
  funext b
  by_cases hb : b = a
  · rw [hb]
    exact PartialMap.erase_self ..
  · show (l'.heap.erase a) b = none
    rw [PartialMap.erase_of_ne _ hb]
    by_contra hne
    exact hb (hall b hne)

/-- **A list that is used and destroyed gives back all its memory**: no node is freed twice,
read after it is freed or left behind. -/
theorem run_destroyed {fuel : Nat} (head : Addr) (ops : List ListOp)
    (hops : Legal (Permitted head) seqStep ops []) (hfuel : ops.length < fuel) :
    Yields (run step ops (new head) >>= destroy fuel) (fun _ => False) fun l =>
      l.heap = PartialMap.empty := by
  refine (run_linked head ops hops).bind fun l hl => ?_
  have hlen := length_specRun_le ops []
  rw [List.length_nil, Nat.zero_add] at hlen
  exact destroy_spec hl (Nat.lt_of_le_of_lt hlen hfuel)

/-- Three nodes are left for the destructor, one of them at an address that is used again. -/
theorem run_destroyed_reuse :
    Legal (Permitted 0) seqStep [.pushBack 7 1, .pushFront 8 2, .erase 1, .pushBack 5 1] [] ∧
    Yields (run step [.pushBack 7 1, .pushFront 8 2, .erase 1, .pushBack 5 1] (new 0) >>= destroy 5)
      (fun _ => False) fun l => l.heap = PartialMap.empty :=
  ⟨by decide, run_destroyed 0 _ (by decide) (by decide)⟩

/-! ## Positions outside the list -/

/-- The two tests of the assertion of `L_push` cover every position. -/
theorem push_assert (hl : Linked l head cells) (pos : Int) :
    (decide (pos ≥ 0) || decide (pos ≤ l.listsize)) = true := by
  rw [hl.size_eq, Bool.or_eq_true, decide_eq_true_iff, decide_eq_true_iff]
  omega

/-- A negative position is taken for the first one. -/
theorem lPush_negative (hl : Linked l head cells) (hcells : cells ≠ []) {pos : Int}
    (hpos : pos < 0) :
    lPush data pos a l = lPush data 0 a l := by
  have hlen := List.length_pos_iff.2 hcells
  have hsize := hl.size_eq
  have hpos' : ¬ pos = (l.alloc a data).listsize := by
    rw [alloc_listsize]
    omega
  have hzero : ¬ 0 = (l.alloc a data).listsize := by
    rw [alloc_listsize]
    omega
  unfold lPush
  rw [assert_eq (push_assert hl pos), assert_eq (push_assert hl 0), ok_bind, ok_bind]
  dsimp only
  rw [if_neg hpos', if_neg hzero, Int.toNat_of_nonpos (Int.le_of_lt hpos)]
  rfl

/-- Linking in behind the last node follows the null pointer in its `next`. -/
theorem linkAfter_last {c e : Addr} {n : ListNode} (hc : l.heap c = some n) (hn : n.next = none)
    (he : l.heap e ≠ none) (hce : c ≠ e) :
    ∃ l', l.linkAfter (some c) (some e) = .error (.badPointer, l') := by
  unfold linkAfter
  rw [load_eq hc, ok_bind, setNext_eq he, ok_bind, setPrev_eq, ok_bind, load_eq (n := n), ok_bind,
    hn]
  · exact ⟨_, rfl⟩
  · exact (PartialMap.modify_of_ne _ _ hce).trans ((PartialMap.modify_of_ne _ _ hce).trans hc)
  · simpa only [ne_eq, PartialMap.modify_eq_none] using he

/-- Past the end a null pointer is followed. -/
theorem lPush_past (hl : Linked l head cells) (ha : a ∉ addrs (withHead head cells)) {pos : Int}
    (hpos : l.listsize < pos) : ∃ l', lPush data pos a l = .error (.badPointer, l') := by
  have hsize := hl.size_eq
  have hne : ¬ pos = (l.alloc a data).listsize := by
    rw [alloc_listsize]
    omega
  have hseg : Seg (l.alloc a data).heap none (withHead head cells) none :=
    hl.seg.insertOrAssign ha ⟨data, none, none⟩
  have hlen : (withHead head cells).length = cells.length + 1 := rfl
  unfold lPush
  rw [assert_eq (push_assert hl pos), ok_bind]
  dsimp only
  rw [if_neg hne, alloc_head, hl.head_eq]
  by_cases hnext : pos.toNat = cells.length + 1
  -- the walk ends at the null pointer behind the last node
  · have hwalk := walk_seg hseg (k := pos.toNat) (by omega)
    rw [hnext, ← hlen, List.drop_length] at hwalk
    have hwalk : (l.alloc a data).walk pos.toNat (some head) = .ok none := by
      rw [hnext]
      exact hwalk
    rw [hwalk, ok_bind]
    exact ⟨_, rfl⟩
  -- the walk steps through it
  · have hwalk : (l.alloc a data).walk pos.toNat (some head) = _ := walk_past hseg (by omega)
    rw [hwalk]
    exact ⟨_, rfl⟩

/-- In an empty list a negative position has the null pointer of the sentinel followed. -/
theorem lPush_negative_nil (hl : Linked l head []) (ha : a ∉ addrs (withHead head [])) {pos : Int}
    (hpos : pos < 0) : ∃ l', lPush data pos a l = .error (.badPointer, l') := by
  have hsize : l.listsize = 0 := hl.size_eq
  have hne : ¬ pos = (l.alloc a data).listsize := by
    rw [alloc_listsize]
    omega
  have hseg : Seg (l.alloc a data).heap none (withHead head []) none :=
    hl.seg.insertOrAssign ha ⟨data, none, none⟩
  have hlink : ∃ l', (l.alloc a data).linkAfter (some head) (some a) =
      .error (.badPointer, l') := by
    refine linkAfter_last (seg_cons.1 hseg).1 rfl ?_ ?_
    · simp
    · rintro rfl
      exact ha (List.mem_cons_self ..)
  obtain ⟨l', hlink⟩ := hlink
  unfold lPush
  rw [assert_eq (push_assert hl pos), ok_bind]
  dsimp only
  rw [if_neg hne, alloc_head, hl.head_eq, Int.toNat_of_nonpos (Int.le_of_lt hpos)]
  refine ⟨l', ?_⟩
  show ((l.alloc a data).linkAfter (some head) (some a) >>= _) = _
  rw [hlink]
  rfl

/-- **Outside the list** a negative position is taken for the first one if there are elements,
and else a null pointer is followed. -/
theorem lPush_outside (hl : Linked l head cells) (ha : a ∉ addrs (withHead head cells)) {pos : Int}
    (hpos : pos < 0 ∨ l.listsize < pos) :
    (∃ l', lPush data pos a l = .ok l' ∧ pos < 0 ∧ cells ≠ [] ∧
      Linked l' head ((a, data) :: cells)) ∨
    ∃ l', lPush data pos a l = .error (.badPointer, l') := by
  rcases hpos with hneg | hpast
  · by_cases hcells : cells = []
    · subst hcells
      exact Or.inr (lPush_negative_nil hl ha hneg)
    · have hspec : Yields (lPush data 0 a l) _ _ :=
        lPush_spec hl ha (Int.le_refl 0) (Int.natCast_nonneg _)
      rw [← lPush_negative hl hcells hneg] at hspec
      obtain ⟨l', hl', hlinked⟩ := hspec.exists_ok
      exact Or.inl ⟨l', hl', hneg, hcells, hlinked⟩
  · exact Or.inr (lPush_past hl ha hpast)

/-- `L_push` stops at its assertion with the list as it was, or `data` becomes element number
`pos`; nothing else happens. -/
def PushGuards (l : LinkedList) (head : Addr) (cells : List (Addr × DataType)) (data : DataType)
    (pos : Int) (newNode : Addr) : Prop :=
  ((pos < 0 ∨ l.listsize < pos) ∧ lPush data pos newNode l = .error (.assertion, l)) ∨
  (0 ≤ pos ∧ pos ≤ l.listsize ∧ ∃ l', lPush data pos newNode l = .ok l' ∧
    Linked l' head (cells.insertIdx pos.toNat (newNode, data)))

/-- **`L_push` guards its position at the positions of the list only.** -/
theorem pushGuards_iff (hl : Linked l head cells) (ha : a ∉ addrs (withHead head cells))
    (data : DataType) (pos : Int) :
    PushGuards l head cells data pos a ↔ 0 ≤ pos ∧ pos ≤ l.listsize := by
  constructor
  · rintro (⟨hout, hassert⟩ | ⟨h0, hpos, -⟩)
    · exfalso
      rcases lPush_outside hl ha hout with ⟨l', hl', -⟩ | ⟨l', hl'⟩
      · rw [hl'] at hassert
        cases hassert
      · rw [hl'] at hassert
        cases hassert
    · exact ⟨h0, hpos⟩
  · rintro ⟨h0, hpos⟩
    have hspec : Yields (lPush data pos a l) _ _ := lPush_spec hl ha h0 (hl.size_eq ▸ hpos)
    obtain ⟨l', hl', hlinked⟩ := hspec.exists_ok
    exact Or.inr ⟨h0, hpos, l', hl', hlinked⟩

/-- The second position of a list of one element. -/
theorem pushGuards_iff_single : ∃ l, Linked l 0 [(1, 7)] ∧
    (PushGuards l 0 [(1, 7)] 8 1 2 ↔ (0 : Int) ≤ 1 ∧ 1 ≤ l.listsize) := by
  have hpush : Yields (lPush 7 0 1 (new 0)) _ _ := lPush_end (linked_new 0) (by decide)
  obtain ⟨l, -, hl⟩ := hpush.exists_ok
  exact ⟨l, hl, pushGuards_iff hl (by decide) 8 1⟩

/-- In the empty list position -1 passes the assertion and a null pointer is followed. -/
theorem push_unguarded : Linked (new 0) 0 [] ∧ 1 ∉ addrs (withHead 0 []) ∧
    ¬ PushGuards (new 0) 0 [] 7 (-1) 1 := by
  have hfresh : 1 ∉ addrs (withHead 0 []) := by decide
  obtain ⟨l', hl'⟩ : ∃ l', lPush 7 (-1) 1 (new 0) = .error (.badPointer, l') :=
    lPush_negative_nil (linked_new 0) hfresh (by decide)
  refine ⟨linked_new 0, hfresh, ?_⟩
  rintro (⟨-, hassert⟩ | ⟨h0, -⟩)
  · rw [hl'] at hassert
    cases hassert
  · exact absurd h0 (by decide)

end LinkedList

end ZoneBuffer.Structure
