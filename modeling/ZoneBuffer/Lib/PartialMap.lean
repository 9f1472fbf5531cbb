import Mathlib.Logic.Function.Basic
import Mathlib.Data.Option.Basic

set_option autoImplicit false

/-! # Finite maps

A map from keys to values is a function into `Option`. Of the two ways to add an entry,
`insert` keeps the entry a key already has and `insertOrAssign` replaces it; `erase` of an
absent key does nothing. These are the operations of a hash map whose `insert` reports failure
instead of overwriting. -/

/-- A map with keys `κ` and values `ν`. -/
abbrev PartialMap (κ ν : Type*) := κ → Option ν

namespace PartialMap

variable {κ ν : Type*}

def empty : PartialMap κ ν := fun _ => none

@[simp] theorem empty_apply (k : κ) : (empty : PartialMap κ ν) k = none := rfl

variable [DecidableEq κ]

/-- Remove the entry of `k`, if there is one. -/
def erase (m : PartialMap κ ν) (k : κ) : PartialMap κ ν := Function.update m k none

/-- Set the entry of `k` to `v`, whether or not `k` has one. -/
def insertOrAssign (m : PartialMap κ ν) (k : κ) (v : ν) : PartialMap κ ν :=
  Function.update m k (some v)

/-- Give `k` the value `v` unless it has a value already. -/
def insert (m : PartialMap κ ν) (k : κ) (v : ν) : PartialMap κ ν :=
  match m k with
  | some _ => m
  | none => m.insertOrAssign k v

/-- Change the value of `k`, if it has one. -/
def modify (m : PartialMap κ ν) (k : κ) (f : ν → ν) : PartialMap κ ν :=
  Function.update m k ((m k).map f)

/-- The entries of `l` set one after the other. -/
def assignAll (m : PartialMap κ ν) (l : List (κ × ν)) : PartialMap κ ν :=
  l.foldl (fun m kv => m.insertOrAssign kv.1 kv.2) m

theorem erase_apply (m : PartialMap κ ν) (k j : κ) :
    m.erase k j = if j = k then none else m j := Function.update_apply ..

@[simp] theorem erase_self (m : PartialMap κ ν) (k : κ) : m.erase k k = none :=
  Function.update_self ..

theorem erase_of_ne (m : PartialMap κ ν) {k j : κ} (h : j ≠ k) : m.erase k j = m j :=
  Function.update_of_ne h ..

theorem insertOrAssign_apply (m : PartialMap κ ν) (k : κ) (v : ν) (j : κ) :
    m.insertOrAssign k v j = if j = k then some v else m j := Function.update_apply ..

@[simp] theorem insertOrAssign_self (m : PartialMap κ ν) (k : κ) (v : ν) :
    m.insertOrAssign k v k = some v := Function.update_self ..

theorem insertOrAssign_of_ne (m : PartialMap κ ν) {k j : κ} (v : ν) (h : j ≠ k) :
    m.insertOrAssign k v j = m j := Function.update_of_ne h ..

@[simp] theorem modify_self (m : PartialMap κ ν) (k : κ) (f : ν → ν) :
    m.modify k f k = (m k).map f := Function.update_self ..

theorem modify_of_ne (m : PartialMap κ ν) {k j : κ} (f : ν → ν) (h : j ≠ k) :
    m.modify k f j = m j := Function.update_of_ne h ..

/-- A map keeps its keys when a value changes. -/
theorem modify_eq_none {m : PartialMap κ ν} {k j : κ} {f : ν → ν} :
    m.modify k f j = none ↔ m j = none := by
  by_cases hj : j = k
  · subst hj
    rw [modify_self, Option.map_eq_none_iff]
  · rw [modify_of_ne m f hj]

/-- On an absent key the two ways to add an entry agree. -/
theorem insert_of_none {m : PartialMap κ ν} {k : κ} (h : m k = none) (v : ν) :
    m.insert k v = m.insertOrAssign k v := by
  rw [insert, h]

/-- What the map contains after `insert` was there before, or is the new entry. -/
theorem insert_eq_some {m : PartialMap κ ν} {k j : κ} {v w : ν} :
    m.insert k v j = some w ↔ m j = some w ∨ (m k = none ∧ j = k ∧ v = w) := by
  rw [insert]
  cases hk : m k with
  | some u => simp
  | none =>
      simp only
      rw [insertOrAssign_apply]
      split <;> simp_all

/-- What an erased map still contains was there before, under another key. -/
theorem erase_eq_some {m : PartialMap κ ν} {k j : κ} {v : ν} :
    m.erase k j = some v ↔ j ≠ k ∧ m j = some v := by
  rw [erase_apply]
  split <;> simp_all

theorem insertOrAssign_eq_some {m : PartialMap κ ν} {k j : κ} {v w : ν} :
    m.insertOrAssign k v j = some w ↔ (j = k ∧ v = w) ∨ (j ≠ k ∧ m j = some w) := by
  rw [insertOrAssign_apply]
  split <;> simp_all

@[simp] theorem assignAll_nil (m : PartialMap κ ν) : m.assignAll [] = m := rfl

theorem assignAll_append (m : PartialMap κ ν) (l l' : List (κ × ν)) :
    m.assignAll (l ++ l') = (m.assignAll l).assignAll l' := List.foldl_append

theorem assignAll_concat (m : PartialMap κ ν) (l : List (κ × ν)) (k : κ) (v : ν) :
    m.assignAll (l ++ [(k, v)]) = (m.assignAll l).insertOrAssign k v :=
  assignAll_append m l [(k, v)]

/-- Setting entries leaves the other keys alone. -/
theorem assignAll_of_notMem {m : PartialMap κ ν} {k : κ} {l : List (κ × ν)}
    (h : ∀ kv ∈ l, kv.1 ≠ k) : m.assignAll l k = m k := by
  induction l generalizing m with
  | nil => rfl
  | cons kv l ih =>
      have hstep := ih (m := m.insertOrAssign kv.1 kv.2) fun e he =>
        h e (List.mem_cons_of_mem kv he)
      exact hstep.trans (insertOrAssign_of_ne m kv.2 (h kv (List.mem_cons_self ..)).symm)

/-- A key set to a single value has it afterwards. -/
theorem assignAll_of_mem {m : PartialMap κ ν} {k : κ} {v : ν} {l : List (κ × ν)}
    (hval : ∀ kv ∈ l, kv.1 = k → kv.2 = v) (hmem : (k, v) ∈ l) : m.assignAll l k = some v := by
  induction l generalizing m with
  | nil => cases hmem
  | cons kv l ih =>
      have hval' : ∀ e ∈ l, e.1 = k → e.2 = v := fun e he => hval e (List.mem_cons_of_mem kv he)
      by_cases hl : (k, v) ∈ l
      · exact ih (m := m.insertOrAssign kv.1 kv.2) hval' hl
      · obtain rfl : (k, v) = kv := (List.mem_cons.1 hmem).resolve_right hl
        have hnot : ∀ e ∈ l, e.1 ≠ k := by
          intro e he hek
          have hev := hval' e he hek
          refine hl ?_
          rw [← hek, ← hev]
          exact he
        exact (assignAll_of_notMem hnot).trans (insertOrAssign_self m k v)

/-- Setting entries takes no key away. -/
theorem assignAll_ne_none {m : PartialMap κ ν} {k : κ} (h : m k ≠ none) (l : List (κ × ν)) :
    m.assignAll l k ≠ none := by
  induction l generalizing m with
  | nil => exact h
  | cons kv l ih =>
      refine ih ?_
      show m.insertOrAssign kv.1 kv.2 k ≠ none
      rw [insertOrAssign_apply]
      split
      · exact Option.some_ne_none _
      · exact h

/-- The keys after setting entries. -/
theorem assignAll_ne_none_iff {m : PartialMap κ ν} {k : κ} {l : List (κ × ν)} :
    m.assignAll l k ≠ none ↔ m k ≠ none ∨ ∃ kv ∈ l, kv.1 = k := by
  induction l generalizing m with
  | nil => simp
  | cons kv l ih =>
      have hstep := ih (m := m.insertOrAssign kv.1 kv.2)
      rw [insertOrAssign_apply] at hstep
      refine hstep.trans ?_
      by_cases hk : k = kv.1
      · simp [hk]
      · simp [hk, Ne.symm hk]

/-- What a map holds after setting entries was there before or is one of the entries. -/
theorem assignAll_eq_some {m : PartialMap κ ν} {k : κ} {v : ν} {l : List (κ × ν)}
    (h : m.assignAll l k = some v) : (k, v) ∈ l ∨ m k = some v := by
  induction l generalizing m with
  | nil => exact Or.inr h
  | cons kv l ih =>
      rcases ih (m := m.insertOrAssign kv.1 kv.2) h with hl | hm
      · exact Or.inl (List.mem_cons_of_mem kv hl)
      · rcases insertOrAssign_eq_some.1 hm with ⟨rfl, rfl⟩ | ⟨-, hm⟩
        · exact Or.inl List.mem_cons_self
        · exact Or.inr hm

end PartialMap
