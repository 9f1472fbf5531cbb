import Mathlib.Data.List.Nodup
import Mathlib.Data.List.TakeDrop

set_option autoImplicit false

/-! # The tail of a list and the entries a predicate selects

A list is cut after its first `w` entries. The last entry that satisfies a predicate lies behind
the cut exactly when some entry behind the cut satisfies it, so looking at the last selected
entry alone tells whether the tail contains any. -/

namespace Region

variable {α : Type*} {p : α → Bool} {l : List α} {w : Nat}

/-- Without a selected entry in the tail, all selected entries are in the head. -/
theorem filter_eq_filter_take (h : ∀ x ∈ l.drop w, p x = false) :
    l.filter p = (l.take w).filter p := by
  have hdrop : (l.drop w).filter p = [] := List.filter_eq_nil_iff.2 fun x hx => by simp [h x hx]
  have hsplit := congrArg (List.filter p) (List.take_append_drop w l)
  rw [List.filter_append, hdrop, List.append_nil] at hsplit
  exact hsplit.symm

/-- The last selected entry is in the tail if any is. -/
theorem getLast_mem_drop {x y : α} (hx : x ∈ l.drop w) (hp : p x = true)
    (hy : (l.filter p).getLast? = some y) : y ∈ l.drop w := by
  have hmem : x ∈ (l.drop w).filter p := List.mem_filter.2 ⟨hx, hp⟩
  have hne : (l.drop w).filter p ≠ [] := List.ne_nil_of_mem hmem
  rw [← List.take_append_drop w l, List.filter_append, List.getLast?_append_of_ne_nil _ hne] at hy
  exact (List.mem_filter.1 (List.mem_of_getLast? hy)).1

theorem length_filter_le (h : ∀ x ∈ l.drop w, p x = false) : (l.filter p).length ≤ w := by
  rw [filter_eq_filter_take h]
  exact Nat.le_trans (List.length_filter_le _ _) (List.length_take_le _ _)

/-- If the whole tail is selected, it is the tail of the selected entries. -/
theorem drop_filter_eq (h : ∀ x ∈ l.drop w, p x = true) :
    (l.filter p).drop ((l.filter p).length - (l.length - w)) = l.drop w := by
  have hdrop : (l.drop w).filter p = l.drop w := List.filter_eq_self.2 h
  have hsplit : l.filter p = (l.take w).filter p ++ l.drop w := by
    conv_lhs => rw [← List.take_append_drop w l]
    rw [List.filter_append, hdrop]
  have hlen : (l.filter p).length - (l.length - w) = ((l.take w).filter p).length := by
    rw [hsplit, List.length_append, List.length_drop]
    omega
  rw [hlen, hsplit, List.drop_left]

variable [DecidableEq α]

theorem idxOf_lt_of_mem_take {x : α} (h : x ∈ l.take w) : l.idxOf x < w := by
  have hlt : (l.take w).idxOf x < (l.take w).length := List.idxOf_lt_length_of_mem h
  have heq : l.idxOf x = (l.take w).idxOf x := by
    conv_lhs => rw [← List.take_append_drop w l]
    exact List.idxOf_append_of_mem h
  rw [List.length_take] at hlt
  omega

theorem le_idxOf_of_mem_drop (hl : l.Nodup) {x : α} (h : x ∈ l.drop w) : w ≤ l.idxOf x := by
  have hnot : x ∉ l.take w := by
    rw [← List.take_append_drop w l] at hl
    intro hx
    exact List.disjoint_of_nodup_append hl hx h
  have hw : w ≤ l.length := by
    by_contra hlt
    rw [List.drop_eq_nil_of_le (by omega)] at h
    cases h
  conv_rhs => rw [← List.take_append_drop w l]
  rw [List.idxOf_append_of_notMem hnot, List.length_take]
  omega

/-- **The last selected entry tells about the tail.** -/
theorem tail_clear_iff (hl : l.Nodup) :
    ((l.filter p).length ≤ w ∧ ∀ x, (l.filter p).getLast? = some x → l.idxOf x < w) ↔
      ∀ x ∈ l.drop w, p x = false := by
  constructor
  · rintro ⟨-, hlast⟩ x hx
    by_contra hp
    rw [Bool.not_eq_false] at hp
    obtain ⟨y, hy⟩ : ∃ y, (l.filter p).getLast? = some y := by
      rw [← Option.ne_none_iff_exists', ne_eq, List.getLast?_eq_none_iff]
      exact List.ne_nil_of_mem (List.mem_filter.2 ⟨List.mem_of_mem_drop hx, hp⟩)
    have hge := le_idxOf_of_mem_drop hl (getLast_mem_drop hx hp hy)
    have hlt := hlast y hy
    omega
  · intro h
    refine ⟨length_filter_le h, fun x hx => ?_⟩
    have hmem := List.mem_of_getLast? hx
    rw [filter_eq_filter_take h] at hmem
    exact idxOf_lt_of_mem_take (List.mem_filter.1 hmem).1

end Region
