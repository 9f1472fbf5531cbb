import Mathlib.Data.Finset.Card
import Mathlib.Data.Finset.Filter
import Mathlib.Data.Int.Cast.Basic
import Mathlib.Tactic.Common

set_option autoImplicit false

/-! # Counting the true entries of a bitmap

A counter kept beside a bitmap counts the true entries in a region of it. Setting or clearing
one entry changes the count of the regions holding that entry by one and of no other. -/

namespace TrueCount

variable {ι : Type*}

/-- The number of true entries of `f` in the region `s`. -/
def trueCount (f : ι → Bool) (s : Finset ι) : Nat := (s.filter fun i => f i = true).card

theorem trueCount_eq_zero {f : ι → Bool} {s : Finset ι} :
    trueCount f s = 0 ↔ ∀ i ∈ s, f i = false := by
  simp [trueCount, Finset.filter_eq_empty_iff]

variable [DecidableEq ι]

theorem trueCount_update_of_notMem (f : ι → Bool) {s : Finset ι} {i : ι} (b : Bool)
    (hi : i ∉ s) : trueCount (Function.update f i b) s = trueCount f s := by
  unfold trueCount
  congr 1
  refine Finset.filter_congr fun j hj => ?_
  have hne : j ≠ i := fun h => hi (h ▸ hj)
  rw [Function.update_of_ne hne]

theorem trueCount_set (f : ι → Bool) {s : Finset ι} {i : ι} (hi : i ∈ s) (hf : f i = false) :
    trueCount (Function.update f i true) s = trueCount f s + 1 := by
  have hset : (s.filter fun j => Function.update f i true j = true)
      = insert i (s.filter fun j => f j = true) := by
    ext j
    by_cases hj : j = i
    · subst hj
      simp [hi]
    · simp [hj]
  rw [trueCount, hset, Finset.card_insert_of_notMem (by simp [hf]), trueCount]

theorem trueCount_clear (f : ι → Bool) {s : Finset ι} {i : ι} (hi : i ∈ s) (hf : f i = true) :
    trueCount (Function.update f i false) s + 1 = trueCount f s := by
  have h := trueCount_set (Function.update f i false) hi (Function.update_self ..)
  rw [Function.update_idem, ← hf, Function.update_eq_self] at h
  exact h.symm

end TrueCount
