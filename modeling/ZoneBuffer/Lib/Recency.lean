import Mathlib.Data.List.Nodup
import Mathlib.Data.List.Perm.Basic
import Mathlib.Data.List.TakeDrop

set_option autoImplicit false

/-! # Recency

The values a sequence of accesses has touched, most recently touched first. A cache of `n` values
that replaces the least recently used one holds the first `n` of them: the three theorems on
`take` say how these change when a value is touched, in terms of the cache alone. -/

namespace Recency

variable {α : Type*} [DecidableEq α] {n : Nat} {a : α} {l : List α}

/-- `a` has been accessed. -/
def touch (a : α) (l : List α) : List α := a :: l.erase a

/-- The first `n` values have been accessed most recently. -/
abbrev recent (n : Nat) (l : List α) : List α := l.take n

theorem nodup_touch (h : l.Nodup) : (touch a l).Nodup :=
  List.nodup_cons.2 ⟨h.not_mem_erase, h.erase a⟩

/-- **A hit** moves the value to the front. -/
theorem recent_touch_of_mem (hn : 0 < n) (ha : a ∈ recent n l) :
    recent n (touch a l) = a :: (recent n l).erase a := by
  obtain ⟨k, rfl⟩ := Nat.exists_eq_add_one_of_ne_zero (Nat.ne_of_gt hn)
  have herase : l.erase a = (l.take (k + 1)).erase a ++ l.drop (k + 1) := by
    rw [← List.erase_append_left _ ha, List.take_append_drop]
  have hlen : ((l.take (k + 1)).erase a).length = min (k + 1) l.length - 1 := by
    rw [List.length_erase_of_mem ha, List.length_take]
  rw [recent, touch, List.take_succ_cons, herase, List.take_append]
  congr 1
  by_cases hl : k + 1 ≤ l.length
  · rw [List.take_of_length_le (by omega), show k - ((l.take (k + 1)).erase a).length = 0 by omega,
      List.take_zero, List.append_nil]
  · rw [List.take_of_length_le (by omega), List.drop_eq_nil_of_le (by omega), List.take_nil,
      List.append_nil]

/-- **A miss in a cache that is not full** adds the value in front. -/
theorem recent_touch_of_lt (ha : a ∉ recent n l) (hl : l.length < n) :
    recent n (touch a l) = a :: recent n l := by
  have hall : recent n l = l := List.take_of_length_le (by omega)
  rw [hall] at ha ⊢
  rw [touch, List.erase_of_not_mem ha]
  exact List.take_of_length_le (by rw [List.length_cons]; omega)

/-- **A miss in a full cache** drops the last value, the one accessed longest ago. -/
theorem recent_touch_of_le (hn : 0 < n) (ha : a ∉ recent n l) (hl : n ≤ l.length) :
    recent n (touch a l) = a :: (recent n l).dropLast := by
  obtain ⟨k, rfl⟩ := Nat.exists_eq_add_one_of_ne_zero (Nat.ne_of_gt hn)
  have hlen : (l.take k).length = k := by
    rw [List.length_take]
    omega
  have ha' : a ∉ l.take k := fun hmem =>
    ha (List.take_subset_take_left l (Nat.le_succ k) hmem)
  have herase : l.erase a = l.take k ++ (l.drop k).erase a := by
    rw [← List.erase_append_right _ ha', List.take_append_drop]
  have hlast : (l.take (k + 1)).dropLast = l.take k := by
    rw [List.dropLast_eq_take, List.length_take, Nat.min_eq_left hl, Nat.add_sub_cancel,
      List.take_take, Nat.min_eq_left (Nat.le_succ k)]
  rw [recent, touch, List.take_succ_cons, herase, hlast, List.take_append, hlen, Nat.sub_self,
    List.take_zero, List.append_nil, List.take_of_length_le (Nat.le_of_eq hlen)]

theorem mem_recent_touch (hn : 0 < n) : a ∈ recent n (touch a l) := by
  obtain ⟨k, rfl⟩ := Nat.exists_eq_add_one_of_ne_zero (Nat.ne_of_gt hn)
  rw [recent, touch, List.take_succ_cons]
  exact List.mem_cons_self

/-- Only the value accessed is new among the first. -/
theorem of_mem_recent_touch {b : α} (hn : 0 < n) (hb : b ∈ recent n (touch a l)) :
    b = a ∨ b ∈ recent n l := by
  by_cases ha : a ∈ recent n l
  · rw [recent_touch_of_mem hn ha, List.mem_cons] at hb
    exact hb.imp_right List.mem_of_mem_erase
  · rcases Nat.lt_or_ge l.length n with hl | hl
    · rwa [recent_touch_of_lt ha hl, List.mem_cons] at hb
    · rw [recent_touch_of_le hn ha hl, List.mem_cons] at hb
      exact hb.imp_right fun hmem => List.dropLast_subset _ hmem

/-- **The first values after an access depend on the first values before it only.** -/
theorem recent_touch_congr {l' : List α} (hn : 0 < n) (h : recent n l = recent n l') :
    recent n (touch a l) = recent n (touch a l') := by
  have hlen := congrArg List.length h
  rw [List.length_take, List.length_take] at hlen
  by_cases ha : a ∈ recent n l
  · rw [recent_touch_of_mem hn ha, recent_touch_of_mem hn (h ▸ ha), h]
  · have ha' : a ∉ recent n l' := h ▸ ha
    rcases Nat.lt_or_ge l.length n with hl | hl
    · rw [recent_touch_of_lt ha hl, recent_touch_of_lt ha' (by omega), h]
    · rw [recent_touch_of_le hn ha hl, recent_touch_of_le hn ha' (by omega), h]

/-- A value not among the first `n` comes in front of them. -/
theorem recent_succ_touch (ha : a ∉ recent n l) (hn : n ≤ l.length) :
    recent (n + 1) (touch a l) = a :: recent n l := by
  have hlen : (l.take n).length = n := by
    rw [List.length_take]
    omega
  have herase : l.erase a = l.take n ++ (l.drop n).erase a := by
    rw [← List.erase_append_right _ ha, List.take_append_drop]
  rw [recent, touch, List.take_succ_cons, herase, List.take_append, hlen, Nat.sub_self,
    List.take_zero, List.append_nil, List.take_of_length_le (Nat.le_of_eq hlen)]

theorem length_le_touch : l.length ≤ (touch a l).length := by
  rw [touch, List.length_cons, List.length_erase]
  split <;> omega

/-- The values accessed last and the one accessed now are still the ones accessed last, one more
than before if it was not among them. -/
theorem exists_recent_touch {w : Nat} (hw : w ≤ l.length) :
    ∃ w', w ≤ w' ∧ (a ∉ recent w l → w' = w + 1) ∧ w' ≤ (touch a l).length ∧
      ∀ b ∈ recent w' (touch a l), b = a ∨ b ∈ recent w l := by
  by_cases ha : a ∈ recent w l
  · have hpos : 0 < w := by
      rcases Nat.eq_zero_or_pos w with rfl | hpos
      · simp at ha
      · exact hpos
    refine ⟨w, Nat.le_refl w, fun hnot => absurd ha hnot, Nat.le_trans hw length_le_touch, ?_⟩
    intro b hb
    rw [recent_touch_of_mem hpos ha, List.mem_cons] at hb
    exact hb.imp_right List.mem_of_mem_erase
  · have htouch := recent_succ_touch ha hw
    refine ⟨w + 1, Nat.le_succ w, fun _ => rfl, ?_, ?_⟩
    · have hlen := congrArg List.length htouch
      rw [List.length_take, List.length_cons, List.length_take] at hlen
      omega
    · intro b hb
      rwa [htouch, List.mem_cons] at hb

end Recency
