import ZoneBuffer.Lib.Recency
import Mathlib.Data.Finset.Card

set_option autoImplicit false

/-! # Paging

Requests for values are served from a cache that holds only so many of them at a time. A
`Schedule` is any way to do this, also one that knows the requests in advance, and its cost the
number of values fetched. `misses` counts the requests not served at once by the cache that
replaces the value used least recently.

Among `w` values accessed last and the requests that miss since, no value is counted twice before
there are more than the cache holds (`Schedule.working`). So a schedule that holds `h` values has
to fetch `n + 1 - h` while a cache of `n` values misses `n` times, and the cache never misses more
than `n / (n + 1 - h)` times as often as the schedule fetches (`Schedule.competitive`). -/

namespace Paging

open Recency

variable {α : Type*} [DecidableEq α] {n h k : Nat} {a : α} {l as bs : List α} {C D V : Finset α}

/-! ## The cache that replaces the least recently used value -/

/-- The values accessed, most recently accessed first, after the requests `as`. -/
def touchAll (as l : List α) : List α := as.foldl (fun l a => touch a l) l

/-- The requests `as` that miss in a cache of `n` values, `l` having been accessed before. -/
def misses (n : Nat) : List α → List α → Nat
  | _, [] => 0
  | l, a :: as => (if a ∈ recent n l then 0 else 1) + misses n (touch a l) as

@[simp] theorem misses_nil (n : Nat) (l : List α) : misses n l [] = 0 := rfl

theorem misses_append (n : Nat) (l as bs : List α) :
    misses n l (as ++ bs) = misses n l as + misses n (touchAll as l) bs := by
  induction as generalizing l with
  | nil => simp [touchAll]
  | cons a as ih =>
      rw [List.cons_append, misses, misses, ih, Nat.add_assoc]
      rfl

theorem touchAll_concat (as l : List α) (a : α) :
    touchAll (as ++ [a]) l = touch a (touchAll as l) := by
  rw [touchAll, List.foldl_append]
  rfl

theorem nodup_touchAll (hl : l.Nodup) (as : List α) : (touchAll as l).Nodup := by
  induction as generalizing l with
  | nil => exact hl
  | cons a as ih => exact ih (nodup_touch hl)

/-- **A larger cache does not miss more often.** -/
theorem misses_anti {n' : Nat} (hn : n ≤ n') (l as : List α) :
    misses n' l as ≤ misses n l as := by
  induction as generalizing l with
  | nil => exact Nat.le_refl 0
  | cons a as ih =>
      have hmem : a ∈ recent n l → a ∈ recent n' l := fun ha =>
        List.take_subset_take_left l hn ha
      have hrest := ih (touch a l)
      rw [misses, misses]
      split
      case isTrue => omega
      case isFalse hnot =>
        rw [if_neg fun ha => hnot (hmem ha)]
        omega

/-- The requests can be cut where any number of misses is still to come. -/
theorem exists_split {r : Nat} (hr : r ≤ misses n l as) :
    ∃ as₁ as₂, as = as₁ ++ as₂ ∧ misses n (touchAll as₁ l) as₂ = r := by
  induction as generalizing l with
  | nil => exact ⟨[], [], rfl, by simpa using hr.antisymm' (Nat.zero_le r)⟩
  | cons a as ih =>
      by_cases heq : misses n l (a :: as) = r
      · exact ⟨[], a :: as, rfl, heq⟩
      · have hrest : r ≤ misses n (touch a l) as := by
          rw [misses] at hr heq
          split at hr
          case isTrue hmem =>
            rw [if_pos hmem] at heq
            omega
          case isFalse hmem =>
            rw [if_neg hmem] at heq
            omega
        obtain ⟨as₁, as₂, rfl, hmisses⟩ := ih hrest
        exact ⟨a :: as₁, as₂, rfl, hmisses⟩

/-! ## Schedules -/

/-- The requests can be served from the cache `C`, holding at most `h` values after each of them
and `D` in the end, with `k` values fetched. -/
inductive Schedule (h : Nat) : Finset α → List α → Finset α → Nat → Prop
  | nil (C : Finset α) : Schedule h C [] C 0
  | cons {C D E : Finset α} {a : α} {as : List α} {k : Nat} (ha : a ∈ D) (hcard : D.card ≤ h)
      (hrest : Schedule h D as E k) : Schedule h C (a :: as) E ((D \ C).card + k)

namespace Schedule

theorem of_append {E : Finset α} (hs : Schedule h C (as ++ bs) E k) :
    ∃ D k₁ k₂, Schedule h C as D k₁ ∧ Schedule h D bs E k₂ ∧ k = k₁ + k₂ := by
  induction as generalizing C k with
  | nil => exact ⟨C, 0, k, .nil C, hs, (Nat.zero_add k).symm⟩
  | cons a as ih =>
      cases hs with
      | cons ha hcard hrest =>
          obtain ⟨C₁, k₁, k₂, h₁, h₂, rfl⟩ := ih hrest
          exact ⟨C₁, _, k₂, .cons ha hcard h₁, h₂, (Nat.add_assoc ..).symm⟩

/-- The value requested last is held. -/
theorem concat (hs : Schedule h C (as ++ [a]) D k) : a ∈ D ∧ D.card ≤ h := by
  obtain ⟨C₁, k₁, k₂, -, hlast, -⟩ := hs.of_append
  cases hlast with
  | cons ha hcard hrest =>
      cases hrest
      exact ⟨ha, hcard⟩

/-- **The working set.** The `w` values accessed last, all of them in `V`, and those that miss from
then on are different as long as the cache has not to replace any of them. -/
theorem working (hs : Schedule h C as D k) {w : Nat} (hl : l.Nodup) (hC : C ⊆ V)
    (hV : ∀ b ∈ recent w l, b ∈ V) (hw : w ≤ l.length) :
    min (w + misses n l as) (n + 1) ≤ V.card + k := by
  induction hs generalizing V w l with
  | nil C =>
      have hcard : (recent w l).toFinset.card = w := by
        rw [List.toFinset_card_of_nodup (hl.sublist (List.take_sublist w l)), List.length_take]
        exact Nat.min_eq_left hw
      have hsub : (recent w l).toFinset ⊆ V := fun b hb => hV b (List.mem_toFinset.1 hb)
      have hle := Finset.card_le_card hsub
      simp only [misses_nil]
      omega
  | @cons C C₁ C₂ a as k ha hcard hrest ih =>
      -- what is fetched is added to `V`
      have hfetch : (V ∪ C₁).card ≤ V.card + (C₁ \ C).card := by
        calc (V ∪ C₁).card = (V ∪ C₁ \ V).card := by rw [Finset.union_sdiff_self_eq_union]
          _ ≤ V.card + (C₁ \ V).card := Finset.card_union_le ..
          _ ≤ V.card + (C₁ \ C).card :=
              Nat.add_le_add_left (Finset.card_le_card (Finset.sdiff_subset_sdiff le_rfl hC)) _
      obtain ⟨w', hle, hnew, hw', hrecent⟩ := exists_recent_touch (a := a) hw
      have hrec : min (w' + misses n (touch a l) as) (n + 1) ≤ (V ∪ C₁).card + k := by
        refine ih (nodup_touch hl) Finset.subset_union_right (fun b hb => ?_) hw'
        rcases hrecent b hb with rfl | hb
        · exact Finset.mem_union_right V ha
        · exact Finset.mem_union_left C₁ (hV b hb)
      -- a request that misses is one more, unless there are more values than the cache holds
      have hmiss : a ∉ recent n l → w' = w + 1 ∨ n < w := by
        intro hnot
        by_cases hnw : n < w
        · exact Or.inr hnw
        · exact Or.inl (hnew fun haw => hnot (List.take_subset_take_left l (Nat.not_lt.1 hnw) haw))
      rw [misses]
      split
      case isTrue => omega
      case isFalse hnot =>
        rcases hmiss hnot with hone | hnw
        · omega
        · omega

/-- **The cache that replaces the least recently used of `n` values is competitive** with every
schedule that holds `h` of them. -/
theorem competitive (hh : 0 < h) (hn : h ≤ n) (hs : Schedule h ∅ as D k) :
    (n + 1 - h) * misses n [] as ≤ n * k := by
  induction hlen : as.length using Nat.strong_induction_on generalizing as D k with
  | _ len ih =>
      by_cases hfew : misses n [] as ≤ n
      · -- so far all that has missed is different
        have hle : misses n [] as ≤ k := by
          have hwork := hs.working (n := n) (w := 0) List.nodup_nil (Finset.Subset.refl ∅)
            (fun b hb => by simp at hb) (Nat.zero_le _)
          rw [Finset.card_empty] at hwork
          omega
        exact Nat.mul_le_mul (by omega) hle
      · obtain ⟨as₁, as₂, rfl, hlast⟩ := exists_split (Nat.le_of_not_le hfew)
        have hsum := misses_append n [] as₁ as₂
        rw [hlast] at hsum
        obtain ⟨C₁, k₁, k₂, hs₁, hs₂, rfl⟩ := hs.of_append
        rcases List.eq_nil_or_concat as₁ with rfl | ⟨bs, a, rfl⟩
        · simp only [misses_nil] at hsum
          omega
        · rw [List.concat_eq_append] at *
          obtain ⟨ha, hcard⟩ := hs₁.concat
          -- the last `n` misses and the request before them are different
          have hphase : n + 1 ≤ h + k₂ := by
            have hwork := hs₂.working (n := n) (w := 1)
              (nodup_touchAll List.nodup_nil (bs ++ [a])) (Finset.Subset.refl C₁)
              (fun b hb => ?_) ?_
            · rw [hlast] at hwork
              omega
            · rw [touchAll_concat, recent, touch, List.take_succ_cons, List.take_zero,
                List.mem_singleton] at hb
              exact hb ▸ ha
            · rw [touchAll_concat, touch, List.length_cons]
              omega
          have hbefore : (n + 1 - h) * misses n [] (bs ++ [a]) ≤ n * k₁ := by
            refine ih (bs ++ [a]).length ?_ hs₁ rfl
            have hne : as₂ ≠ [] := by
              rintro rfl
              rw [misses_nil] at hlast
              omega
            have hpos := List.length_pos_iff.2 hne
            rw [List.length_append] at hlen
            omega
          calc (n + 1 - h) * misses n [] ((bs ++ [a]) ++ as₂)
              = (n + 1 - h) * misses n [] (bs ++ [a]) + (n + 1 - h) * n := by
                rw [hsum, Nat.mul_add]
            _ ≤ n * k₁ + k₂ * n := Nat.add_le_add hbefore (Nat.mul_le_mul_right n (by omega))
            _ = n * (k₁ + k₂) := by rw [Nat.mul_comm k₂, Nat.mul_add]

end Schedule

end Paging
