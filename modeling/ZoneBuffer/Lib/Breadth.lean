import Mathlib.Data.List.Nodup
import Mathlib.Algebra.Order.Ring.Nat
import Mathlib.Logic.Relation
import Mathlib.Tactic.Common

set_option autoImplicit false

/-! # Breadth-first search

A search keeps a queue of nodes. It takes the first one off and either stops there or puts its
children at the end. `Frontier` is the invariant of such a loop, for any way of writing it: the
queue is in order of depth, what it holds can be reached, and a node that can be reached has been
passed over or can be reached from the queue. So where the search stops, every node that is less
deep has been passed over (`Frontier.nearer`).

Nodes may be seen more than once. A search of bounded depth ends because each node weighs more
than its children together (`weight_expand`).

What such a search finds is a shortest walk, and a shortest walk to a goal visits no node twice
(`Shortest.nodup`). -/

namespace Breadth

variable {ι : Type*}

/-- Node `y` can be reached from one of the list. -/
def Reach (children : ι → List ι) (q : List ι) (y : ι) : Prop :=
  ∃ x ∈ q, Relation.ReflTransGen (fun a b => b ∈ children a) x y

/-- The invariant of the search; `P` holds of the nodes passed over. -/
structure Frontier (children : ι → List ι) (depth : ι → Nat) (P : ι → Prop) (roots q : List ι) :
    Prop where
  sorted : q.Pairwise fun x y => depth x ≤ depth y
  spread : ∀ x ∈ q, ∀ y ∈ q, depth y ≤ depth x + 1
  reached : ∀ x ∈ q, Reach children roots x
  covers : ∀ y, Reach children roots y → P y ∨ Reach children q y

variable {children : ι → List ι} {depth : ι → Nat} {P : ι → Prop} {roots q : List ι} {x y : ι}

theorem reach_of_mem (h : x ∈ q) : Reach children q x := ⟨x, h, .refl⟩

theorem Reach.child (h : Reach children q x) (hy : y ∈ children x) : Reach children q y := by
  obtain ⟨r, hr, hpath⟩ := h
  exact ⟨r, hr, hpath.tail hy⟩

/-- A property of the roots that passes to children holds of all that can be reached. -/
theorem Reach.induct {Q : ι → Prop} (h : Reach children q y) (hroot : ∀ x ∈ q, Q x)
    (hchild : ∀ x, Reach children q x → Q x → ∀ y ∈ children x, Q y) : Q y := by
  obtain ⟨r, hr, hpath⟩ := h
  induction hpath with
  | refl => exact hroot r hr
  | tail hpath hy ih => exact hchild _ ⟨r, hr, hpath⟩ ih _ hy

variable (hgraded : ∀ x, ∀ y ∈ children x, depth y = depth x + 1)

include hgraded in
theorem depth_le (h : Relation.ReflTransGen (fun a b => b ∈ children a) x y) :
    depth x ≤ depth y := by
  induction h with
  | refl => exact Nat.le_refl _
  | tail _ hy ih =>
      have := hgraded _ _ hy
      omega

/-- The search starts with the roots. -/
theorem Frontier.init (hroots : ∀ x ∈ roots, depth x = 0) :
    Frontier children depth P roots roots where
  sorted := List.pairwise_iff_forall_sublist.2 fun {x y} h => by
    have hx := hroots x (h.subset (by simp))
    omega
  spread x hx y hy := by
    have := hroots y hy
    omega
  reached x hx := reach_of_mem hx
  covers y hy := Or.inr hy

include hgraded in
/-- **The first node is passed over, and its children are put at the end.** -/
theorem Frontier.expand (h : Frontier children depth P roots (x :: q)) (hx : P x) :
    Frontier children depth P roots (q ++ children x) where
  sorted := by
    have hsorted := List.pairwise_cons.1 h.sorted
    refine List.pairwise_append.2 ⟨hsorted.2, ?_, fun a ha b hb => ?_⟩
    · refine List.pairwise_iff_forall_sublist.2 fun {a b} hab => ?_
      have ha := hgraded x a (hab.subset (by simp))
      have hb := hgraded x b (hab.subset (by simp))
      omega
    · have hspread := h.spread x List.mem_cons_self a (List.mem_cons_of_mem x ha)
      have hb := hgraded x b hb
      omega
  spread a ha b hb := by
    have hfirst : ∀ c ∈ q ++ children x, depth x ≤ depth c ∧ depth c ≤ depth x + 1 := by
      intro c hc
      rcases List.mem_append.1 hc with hc | hc
      · exact ⟨(List.pairwise_cons.1 h.sorted).1 c hc,
          h.spread x List.mem_cons_self c (List.mem_cons_of_mem x hc)⟩
      · have := hgraded x c hc
        omega
    have := hfirst a ha
    have := hfirst b hb
    omega
  reached a ha := by
    rcases List.mem_append.1 ha with ha | ha
    · exact h.reached a (List.mem_cons_of_mem x ha)
    · exact (h.reached x List.mem_cons_self).child ha
  covers y hy := by
    rcases h.covers y hy with hP | ⟨r, hr, hpath⟩
    · exact Or.inl hP
    rcases List.mem_cons.1 hr with rfl | hr
    · rcases Relation.ReflTransGen.cases_head hpath with rfl | ⟨c, hc, hpath⟩
      · exact Or.inl hx
      · exact Or.inr ⟨c, List.mem_append_right q hc, hpath⟩
    · exact Or.inr ⟨r, List.mem_append_left _ hr, hpath⟩

include hgraded in
/-- **Every node less deep than the first of the queue has been passed over.** -/
theorem Frontier.nearer (h : Frontier children depth P roots (x :: q)) (hy : Reach children roots y)
    (hlt : depth y < depth x) : P y := by
  rcases h.covers y hy with hP | ⟨r, hr, hpath⟩
  · exact hP
  have hle := depth_le hgraded hpath
  have hfirst : depth x ≤ depth r := by
    rcases List.mem_cons.1 hr with rfl | hr
    · exact Nat.le_refl _
    · exact (List.pairwise_cons.1 h.sorted).1 r hr
  omega

/-- Where the queue is empty, every node has been passed over. -/
theorem Frontier.exhausted (h : Frontier children depth P roots []) (hy : Reach children roots y) :
    P y := by
  rcases h.covers y hy with hP | ⟨r, hr, -⟩
  · exact hP
  · exact absurd hr List.not_mem_nil

/-! ## Weights -/

/-- The nodes of the queue weigh less once the first is replaced by its children. -/
theorem weight_expand {weight : ι → Nat} (hx : ((children x).map weight).sum + 1 ≤ weight x) :
    ((q ++ children x).map weight).sum + 1 ≤ ((x :: q).map weight).sum := by
  rw [List.map_append, List.sum_append, List.map_cons, List.sum_cons]
  omega

/-! ## Walks -/

section Walks

variable {α β : Type*} (next : α → β → Option α)

/-- Where a walk ends that takes the exits `ls`, if there are such. -/
def follow : α → List β → Option α
  | a, [] => some a
  | a, l :: ls => (next a l).bind fun b => follow b ls

/-- The nodes the walk visits. -/
def visited : α → List β → List α
  | a, [] => [a]
  | a, l :: ls => a :: ((next a l).map fun b => visited b ls).getD []

/-- A walk to a goal, none of fewer steps leading from the same node to a goal. -/
structure Shortest (goal : α → Prop) (a : α) (ls : List β) (e : α) : Prop where
  ends : follow next a ls = some e
  reaches : goal e
  least : ∀ ls' e', follow next a ls' = some e' → goal e' → ls.length ≤ ls'.length

variable {next} {goal : α → Prop} {a b e z : α} {l : β} {ls : List β}

theorem follow_append (ls' : List β) :
    follow next a (ls ++ ls') = (follow next a ls).bind fun b => follow next b ls' := by
  induction ls generalizing a with
  | nil => rfl
  | cons l ls ih =>
      rw [List.cons_append]
      simp only [follow]
      cases next a l with
      | none => rfl
      | some b => exact ih

theorem follow_cons (h : follow next a (l :: ls) = some e) :
    ∃ b, next a l = some b ∧ follow next b ls = some e := Option.bind_eq_some_iff.1 h

theorem visited_cons (h : next a l = some b) :
    visited next a (l :: ls) = a :: visited next b ls := by
  simp [visited, h]

/-- The rest of a shortest walk is a shortest walk. -/
theorem Shortest.rest (h : Shortest next goal a (l :: ls) e) (hb : next a l = some b) :
    Shortest next goal b ls e where
  ends := by
    obtain ⟨b', hb', hend⟩ := follow_cons h.ends
    rw [hb] at hb'
    cases hb'
    exact hend
  reaches := h.reaches
  least ls' e' hend hgoal := by
    have hle := h.least (l :: ls') e' (by unfold follow; rw [hb]; exact hend) hgoal
    simpa using hle

/-- From a node that a walk visits, its end is no further than from the start. -/
theorem exists_follow_of_mem_visited (h : follow next a ls = some e) (hz : z ∈ visited next a ls) :
    ∃ ls', ls'.length ≤ ls.length ∧ follow next z ls' = some e := by
  induction ls generalizing a with
  | nil =>
      rw [List.mem_singleton.1 hz]
      exact ⟨[], Nat.le_refl _, h⟩
  | cons l ls ih =>
      obtain ⟨b, hb, hend⟩ := follow_cons h
      rw [visited_cons hb] at hz
      rcases List.mem_cons.1 hz with rfl | hz
      · exact ⟨l :: ls, Nat.le_refl _, h⟩
      · obtain ⟨ls', hle, hend'⟩ := ih hend hz
        exact ⟨ls', Nat.le_succ_of_le hle, hend'⟩

/-- **A shortest walk visits no node twice.** -/
theorem Shortest.nodup (h : Shortest next goal a ls e) : (visited next a ls).Nodup := by
  induction ls generalizing a with
  | nil => exact List.nodup_singleton a
  | cons l ls ih =>
      obtain ⟨b, hb, hend⟩ := follow_cons h.ends
      rw [visited_cons hb]
      refine List.nodup_cons.2 ⟨fun hmem => ?_, ih (h.rest hb)⟩
      -- the walk from the second visit on would have been shorter
      obtain ⟨ls', hle, hend'⟩ := exists_follow_of_mem_visited hend hmem
      have hleast := h.least ls' e hend' h.reaches
      rw [List.length_cons] at hleast
      omega

end Walks

end Breadth
