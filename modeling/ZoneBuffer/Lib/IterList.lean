import ZoneBuffer.Lib.PartialMap
import Mathlib.Data.List.Nodup

set_option autoImplicit false

/-! # Linked lists with stable iterators

A doubly linked list hands out iterators that stay valid while other elements come and go, and
a program may keep them in a map to reach an element without searching. Here every element
lives in a node with an identity of its own, and an iterator is such an identity. Using an
iterator whose node is gone is an error the caller has to rule out: `erase` and `index?`
return `none` on it.

`Tracks m l` says that the map `m` sends exactly the elements of `l` to their nodes. The
lemmas about it are all a client needs: each list operation, done together with its map
operation, keeps `Tracks` and acts on `toList` as the textbook operation on sequences. -/

/-- A list of nodes `(identity, value)`; `fresh` is the identity of the next node. -/
structure IterList (α : Type*) where
  nodes : List (Nat × α)
  fresh : Nat
  nodup : (nodes.map Prod.fst).Nodup
  lt_fresh : ∀ n ∈ nodes, n.1 < fresh

namespace IterList

variable {α : Type*}

def empty : IterList α := ⟨[], 0, List.nodup_nil, by simp⟩

/-- The sequence of values, front to back. -/
def toList (l : IterList α) : List α := l.nodes.map Prod.snd

def size (l : IterList α) : Nat := l.nodes.length

theorem fresh_notMem (l : IterList α) : l.fresh ∉ l.nodes.map Prod.fst := by
  intro h
  obtain ⟨n, hn, heq⟩ := List.mem_map.1 h
  exact absurd (l.lt_fresh n hn) (by omega)

/-- Add `a` at the front; the iterator to it is the old `fresh`. -/
def pushFront (l : IterList α) (a : α) : IterList α where
  nodes := (l.fresh, a) :: l.nodes
  fresh := l.fresh + 1
  nodup := List.nodup_cons.2 ⟨l.fresh_notMem, l.nodup⟩
  lt_fresh := by
    intro n hn
    rcases List.mem_cons.1 hn with rfl | hn
    · exact Nat.lt_succ_self _
    · exact Nat.lt_succ_of_lt (l.lt_fresh n hn)

/-- Add `a` at the back; the iterator to it is the old `fresh`. -/
def pushBack (l : IterList α) (a : α) : IterList α where
  nodes := l.nodes ++ [(l.fresh, a)]
  fresh := l.fresh + 1
  nodup := by
    rw [List.map_append, List.nodup_append]
    refine ⟨l.nodup, by simp, ?_⟩
    intro x hx y hy hxy
    simp only [List.map_cons, List.map_nil, List.mem_singleton] at hy
    exact l.fresh_notMem (hy ▸ hxy ▸ hx)
  lt_fresh := by
    intro n hn
    rcases List.mem_append.1 hn with hn | hn
    · exact Nat.lt_succ_of_lt (l.lt_fresh n hn)
    · rw [List.mem_singleton.1 hn]
      exact Nat.lt_succ_self _

/-- The last value. -/
def back? (l : IterList α) : Option α := l.toList.getLast?

/-- Remove the last node. -/
def popBack (l : IterList α) : IterList α where
  nodes := l.nodes.dropLast
  fresh := l.fresh
  nodup := l.nodup.sublist ((List.dropLast_sublist _).map _)
  lt_fresh n hn := l.lt_fresh n (List.dropLast_subset _ hn)

/-- Remove the node of an iterator; `none` if the list has no such node. -/
def erase (l : IterList α) (it : Nat) : Option (IterList α) :=
  if it ∈ l.nodes.map Prod.fst then
    some {
      nodes := l.nodes.filter (fun n => n.1 != it)
      fresh := l.fresh
      nodup := l.nodup.sublist (List.filter_sublist.map _)
      lt_fresh := fun n hn => l.lt_fresh n (List.mem_filter.1 hn).1 }
  else none

theorem mem_of_mem_erase {l l' : IterList α} {it : Nat} {a : α} (h : l.erase it = some l')
    (ha : a ∈ l'.toList) : a ∈ l.toList := by
  unfold erase at h
  split at h
  case isTrue =>
    cases h
    obtain ⟨n, hn, rfl⟩ := List.mem_map.1 ha
    exact List.mem_map_of_mem (List.mem_filter.1 hn).1
  case isFalse => cases h

/-- The distance of an iterator from the front; `none` if the list has no such node. -/
def index? (l : IterList α) (it : Nat) : Option Nat := l.nodes.findIdx? (fun n => n.1 == it)

/-- The list built by pushing the elements of `as` at the back. -/
def ofList (as : List α) : IterList α := as.foldl pushBack empty

@[simp] theorem toList_pushBack (l : IterList α) (a : α) :
    (l.pushBack a).toList = l.toList ++ [a] := List.map_append

@[simp] theorem toList_popBack (l : IterList α) : l.popBack.toList = l.toList.dropLast :=
  List.map_dropLast

theorem size_eq (l : IterList α) : l.size = l.toList.length := (List.length_map _).symm

theorem getElem_toList (l : IterList α) (i : Nat) (h : i < l.toList.length)
    (h' : i < l.nodes.length) : l.toList[i] = l.nodes[i].2 := List.getElem_map _

theorem toList_ofList (as : List α) : (ofList as).toList = as := by
  suffices h : ∀ l : IterList α, (as.foldl pushBack l).toList = l.toList ++ as from h empty
  induction as with
  | nil => intro l; simp
  | cons a as ih => intro l; rw [List.foldl_cons, ih, toList_pushBack, List.append_assoc]; rfl

/-! ## Maps of iterators -/

/-- `m` maps exactly the elements of `l`, each to its own node. -/
def Tracks (m : PartialMap α Nat) (l : IterList α) : Prop :=
  ∀ a it, m a = some it ↔ (it, a) ∈ l.nodes

variable {m : PartialMap α Nat} {l : IterList α}

theorem tracks_empty : Tracks PartialMap.empty (empty : IterList α) := by
  intro a it
  simp [empty]

theorem Tracks.mem_iff (h : Tracks m l) (a : α) : a ∈ l.toList ↔ ∃ it, m a = some it := by
  simp only [toList, List.mem_map, Prod.exists, h a]
  constructor
  · rintro ⟨it, b, hb, rfl⟩
    exact ⟨it, hb⟩
  · rintro ⟨it, hit⟩
    exact ⟨it, a, hit, rfl⟩

theorem Tracks.eq_none_iff (h : Tracks m l) (a : α) : m a = none ↔ a ∉ l.toList := by
  rw [h.mem_iff, Option.eq_none_iff_forall_ne_some, not_exists]

/-- A value has one node, so the tracked list has no duplicates. -/
theorem Tracks.toList_nodup (h : Tracks m l) : l.toList.Nodup := by
  have hinj : ∀ x ∈ l.nodes, ∀ y ∈ l.nodes, x.2 = y.2 → x = y := by
    rintro ⟨i, a⟩ hx ⟨j, b⟩ hy hab
    simp only at hab
    subst hab
    have hi := (h a i).2 hx
    rw [(h a j).2 hy, Option.some.injEq] at hi
    rw [hi]
  exact List.Nodup.map_on hinj (List.Nodup.of_map _ l.nodup)

variable [DecidableEq α]

theorem Tracks.pushFront (h : Tracks m l) {a : α} (ha : a ∉ l.toList) :
    Tracks (m.insert a l.fresh) (l.pushFront a) := by
  intro b it
  rw [PartialMap.insert_of_none ((h.eq_none_iff a).2 ha), PartialMap.insertOrAssign_eq_some, h b]
  simp only [IterList.pushFront, List.mem_cons, Prod.mk.injEq]
  constructor
  · rintro (⟨rfl, rfl⟩ | ⟨-, hb⟩)
    · exact Or.inl ⟨rfl, rfl⟩
    · exact Or.inr hb
  · rintro (⟨rfl, rfl⟩ | hb)
    · exact Or.inl ⟨rfl, rfl⟩
    · refine Or.inr ⟨?_, hb⟩
      rintro rfl
      exact ha ((h.mem_iff b).2 ⟨it, (h b it).2 hb⟩)

theorem Tracks.pushBack (h : Tracks m l) {a : α} (ha : a ∉ l.toList) :
    Tracks (m.insert a l.fresh) (l.pushBack a) := by
  intro b it
  rw [(h.pushFront ha) b it]
  simp only [IterList.pushFront, IterList.pushBack, List.mem_cons, List.mem_append,
    List.not_mem_nil, or_false]
  exact or_comm

/-- Erasing the node the map gives for `a`, in the list and in the map. -/
theorem Tracks.erase (h : Tracks m l) {a : α} {it : Nat} (ha : m a = some it) :
    ∃ l', l.erase it = some l' ∧ Tracks (m.erase a) l' ∧ l'.toList = l.toList.erase a := by
  have hmem : (it, a) ∈ l.nodes := (h a it).1 ha
  have hid : it ∈ l.nodes.map Prod.fst := List.mem_map.2 ⟨_, hmem, rfl⟩
  -- a node is that of `it` exactly when its value is `a`
  have hnode : ∀ n ∈ l.nodes, n.1 = it ↔ n.2 = a := by
    rintro ⟨j, b⟩ hn
    have hb : m b = some j := (h b j).2 hn
    constructor
    · rintro rfl
      exact congrArg Prod.snd (List.inj_on_of_nodup_map l.nodup hn hmem rfl)
    · rintro rfl
      exact Option.some.inj (hb.symm.trans ha)
  refine ⟨_, if_pos hid, ?_, ?_⟩
  · intro b j
    rw [PartialMap.erase_eq_some, h b]
    simp only [List.mem_filter, bne_iff_ne, ne_eq]
    constructor
    · rintro ⟨hb, hn⟩
      exact ⟨hn, fun hj => hb ((hnode _ hn).1 hj)⟩
    · rintro ⟨hn, hj⟩
      exact ⟨fun hb => hj ((hnode _ hn).2 hb), hn⟩
  · rw [h.toList_nodup.erase_eq_filter, toList, toList, List.filter_map]
    refine congrArg _ (List.filter_congr fun n hn => ?_)
    simp only [Function.comp_apply, bne, Bool.not_eq_eq_eq_not, Bool.not_not]
    by_cases hb : n.2 = a
    · simp [hb, (hnode n hn).2 hb]
    · have hne : n.1 ≠ it := fun hj => hb ((hnode n hn).1 hj)
      simp [hb, hne]

/-- Removing the last element, in the list and in the map. -/
theorem Tracks.popBack (h : Tracks m l) {xs : List α} {a : α} (hl : l.toList = xs ++ [a]) :
    l.back? = some a ∧ l.popBack.toList = xs ∧ Tracks (m.erase a) l.popBack := by
  refine ⟨by simp [back?, hl], by simp [hl], ?_⟩
  have hne : l.nodes ≠ [] := by
    intro hnil
    simp [toList, hnil] at hl
  have hsplit : l.nodes = l.nodes.dropLast ++ [l.nodes.getLast hne] :=
    (List.dropLast_append_getLast hne).symm
  have hlast : (l.nodes.getLast hne).2 = a := by
    have := congrArg List.getLast? hl
    rw [toList, List.getLast?_map, List.getLast?_eq_some_getLast hne] at this
    simpa using this
  intro b it
  rw [PartialMap.erase_eq_some, h b]
  constructor
  · rintro ⟨hb, hn⟩
    rw [hsplit, List.mem_append, List.mem_singleton] at hn
    rcases hn with hn | hn
    · exact hn
    · rw [← hn] at hlast
      exact absurd hlast hb
  · intro hn
    refine ⟨?_, List.dropLast_subset _ hn⟩
    -- `a` also sits in the last node, and the values of `l` are distinct
    rintro rfl
    have hnd := h.toList_nodup
    rw [hl, List.nodup_append] at hnd
    refine hnd.2.2 b ?_ b (by simp) rfl
    have : b ∈ l.popBack.toList := List.mem_map.2 ⟨_, hn, rfl⟩
    rwa [toList_popBack, hl, List.dropLast_concat] at this

/-- The distance of a tracked iterator is the position of its value. -/
theorem Tracks.index? (h : Tracks m l) {a : α} {it : Nat} (ha : m a = some it) :
    l.index? it = some (l.toList.idxOf a) := by
  have hmem : (it, a) ∈ l.nodes := (h a it).1 ha
  have hnode : ∀ n ∈ l.nodes, (n.1 == it) = (n.2 == a) := by
    rintro ⟨j, b⟩ hn
    have hb : m b = some j := (h b j).2 hn
    rw [Bool.eq_iff_iff, beq_iff_eq, beq_iff_eq]
    constructor
    · rintro rfl
      exact congrArg Prod.snd (List.inj_on_of_nodup_map l.nodup hn hmem rfl)
    · rintro rfl
      exact Option.some.inj (hb.symm.trans ha)
  have hlt : l.toList.idxOf a < l.toList.length :=
    List.idxOf_lt_length_of_mem (List.mem_map.2 ⟨_, hmem, rfl⟩)
  rw [IterList.index?, List.findIdx?_eq_some_iff_getElem]
  have hlen : l.toList.length = l.nodes.length := List.length_map _
  refine ⟨hlen ▸ hlt, ?_, ?_⟩
  · rw [hnode _ (List.getElem_mem _), beq_iff_eq]
    have hval : l.toList[l.toList.idxOf a] = a := List.getElem_idxOf hlt
    rwa [getElem_toList _ _ _ (hlen ▸ hlt)] at hval
  · intro j hj
    rw [hnode _ (List.getElem_mem _), beq_iff_eq]
    intro heq
    have hj' : j < l.toList.length := by omega
    have hval : l.toList[j] = a := by rwa [getElem_toList _ _ _ (hlen ▸ hj')]
    have := h.toList_nodup.idxOf_getElem j hj'
    rw [hval] at this
    omega

/-! ## Maps that outlive their elements

A map that is not told of every removal still sends each element of the list to its node, and
other keys to nodes that may be gone. -/

/-- `m` sends each element of `l` to its own node. -/
def Points (m : PartialMap α Nat) (l : IterList α) : Prop := ∀ n ∈ l.nodes, m n.2 = some n.1

/-- The entries of `m` for the elements of `l`. -/
def restrict (m : PartialMap α Nat) (l : IterList α) : PartialMap α Nat :=
  fun a => if a ∈ l.toList then m a else none

theorem Points.tracks (h : Points m l) : Tracks (restrict m l) l := by
  intro a it
  rw [restrict]
  split
  case isTrue ha =>
    obtain ⟨⟨j, b⟩, hn, rfl⟩ := List.mem_map.1 ha
    rw [h _ hn, Option.some.injEq]
    constructor
    · rintro rfl
      exact hn
    · intro hit
      have hb := h _ hit
      rw [h _ hn] at hb
      exact Option.some.inj hb
  case isFalse ha =>
    simp only [reduceCtorEq, false_iff]
    exact fun hn => ha (List.mem_map.2 ⟨_, hn, rfl⟩)

omit [DecidableEq α] in
theorem points_empty (m : PartialMap α Nat) : Points m (empty : IterList α) := by
  intro n hn
  cases hn

theorem Points.toList_nodup (h : Points m l) : l.toList.Nodup := h.tracks.toList_nodup

omit [DecidableEq α] in
theorem Points.popBack (h : Points m l) : Points m l.popBack :=
  fun n hn => h n (List.dropLast_subset _ hn)

theorem Points.pushFront (h : Points m l) {a : α} (ha : a ∉ l.toList) :
    Points (m.insertOrAssign a l.fresh) (l.pushFront a) := by
  intro n hn
  rcases List.mem_cons.1 hn with rfl | hn'
  · exact PartialMap.insertOrAssign_self m a l.fresh
  · have hne : n.2 ≠ a := by
      rintro rfl
      exact ha (List.mem_map.2 ⟨n, hn', rfl⟩)
    rw [PartialMap.insertOrAssign_of_ne _ _ hne]
    exact h n hn'

/-- The map still gives the node of an element of the list. -/
theorem Points.erase (h : Points m l) {a : α} (ha : a ∈ l.toList) :
    ∃ it l', m a = some it ∧ l.erase it = some l' ∧ Points m l' ∧
      l'.toList = l.toList.erase a := by
  obtain ⟨it, hit⟩ := (h.tracks.mem_iff a).1 ha
  have hm : m a = some it := by
    rw [restrict, if_pos ha] at hit
    exact hit
  obtain ⟨l', herase, htracks, hl'⟩ := h.tracks.erase hit
  refine ⟨it, l', hm, herase, fun n hn => ?_, hl'⟩
  have hn' := (htracks n.2 n.1).2 hn
  rw [PartialMap.erase_eq_some, restrict] at hn'
  split at hn'
  case isTrue => exact hn'.2
  case isFalse => exact nomatch hn'.2

end IterList
