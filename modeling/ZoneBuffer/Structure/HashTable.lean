import ZoneBuffer.Structure.LinkedList

set_option autoImplicit false

/-! # The hash table of `datastructure.cpp`

The table has `tablesize` chains of items. The first item of a chain is always there: a chain
without entries consists of one item with key -1, whose value is null in a new table and the
last value it had once an entry has been erased. `H_find` goes by the null value, `H_insert` and
`H_erase` by the key.

`Holds i m chain` says that a chain is that of bucket `i` in a table with the entries `m`. Each
function has one lemma for the bucket it works on, and `run_refines` compares whole runs with a
finite map. -/

namespace ZoneBuffer.Structure

open Outcome Machine

/-- An item without its `next`: a chain is the list of its items. -/
structure HashItem where
  key : Int
  value : Ptr
  deriving DecidableEq, Repr

def tablesize : Nat := 1000

/-- The chains, of which the first `tablesize` are the program's. -/
structure HashTable where
  hashtable : Nat → List HashItem

namespace HashTable

/-- `HashTable::HashTable()`. -/
def new : HashTable := ⟨fun _ => [⟨-1, none⟩]⟩

/-- The remainder has the sign of the key. -/
def hashFuction (key : Int) : Int := key.tmod tablesize

/-- `hashtable[index]`, the items from there on. -/
def chain (t : HashTable) (index : Int) : Except Stop (List HashItem) :=
  if 0 ≤ index ∧ index < tablesize then .ok (t.hashtable index.toNat) else .error .badIndex

def setChain (t : HashTable) (index : Int) (c : List HashItem) : HashTable :=
  ⟨Function.update t.hashtable index.toNat c⟩

/-- The loop of `H_find` over the items that are left, the next one being number `i`. -/
def findLoop (key : Int) : List HashItem → Nat → Option Nat
  | [], _ => none
  | p :: next, i => if p.key = key then some i else findLoop key next (i + 1)

/-- `H_find`: the position of the item in its chain, `none` for `nullptr`. -/
def hFind (key : Int) (t : HashTable) : Except Stop (Option Nat) := do
  let c ← t.chain (hashFuction key)
  match c with
  | [] => .error .badPointer
  | p :: _ => if p.value = none then pure none else pure (findLoop key c 0)

/-- The loop that finds the last item of a chain, and the new item put behind it. -/
def appendLoop (q : HashItem) : List HashItem → HashItem → List HashItem
  | [], newItem => [q, newItem]
  | q' :: next, newItem => q :: appendLoop q' next newItem

def hInsert (key : Int) (value : Ptr) (t : HashTable) : Except Stop HashTable := do
  let index := hashFuction key
  match ← hFind key t with
  | some i =>
      let c ← t.chain index
      pure (t.setChain index (c.modify i fun p => { p with value := value }))
  | none =>
      match ← t.chain index with
      | [] => .error .badPointer
      | q :: next =>
          if q.key = -1 then pure (t.setChain index [⟨key, value⟩])
          else pure (t.setChain index (appendLoop q next ⟨key, value⟩))

/-- The items behind the head without the one with `key`; `assert(p != nullptr)`. -/
def eraseLoop (key : Int) : List HashItem → Except Stop (List HashItem)
  | [] => .error .assertion
  | p :: next => if p.key ≠ key then (p :: ·) <$> eraseLoop key next else .ok next

def hErase (key : Int) (t : HashTable) : Except Stop HashTable := do
  let index := hashFuction key
  match ← t.chain index with
  | [] => .error .badPointer
  | q :: next =>
      if q.key = -1 then .error .assertion
      else if q.key = key ∧ next = [] then pure (t.setChain index [{ q with key := -1 }])
      -- the item behind the head becomes the head
      else if q.key = key then pure (t.setChain index next)
      else do
        let next ← eraseLoop key next
        pure (t.setChain index (q :: next))

/-! ## The entries of a chain -/

/-- The item of an entry. -/
def item (e : Nat × Addr) : HashItem := ⟨e.1, some e.2⟩

def keys (es : List (Nat × Addr)) : List Nat := es.map Prod.fst

/-- The chain of bucket `i` when the entries of the table are `m`. -/
inductive Holds (i : Nat) (m : PartialMap Nat Addr) : List HashItem → Prop where
  /-- Without an entry the head has key -1; its value may be one that was erased. -/
  | vacant (q : HashItem) (hq : q.key = -1) (hm : ∀ k, k % tablesize = i → m k = none) :
      Holds i m [q]
  | filled (es : List (Nat × Addr)) (hne : es ≠ []) (hnd : (keys es).Nodup)
      (hi : ∀ k ∈ keys es, k % tablesize = i)
      (hm : ∀ k v, k % tablesize = i → (m k = some v ↔ (k, v) ∈ es)) :
      Holds i m (es.map item)

variable {i j k : Nat} {v w : Addr} {m : PartialMap Nat Addr} {es xs ys : List (Nat × Addr)}
  {c : List HashItem} {t : HashTable}

/-- A bucket only knows of the keys that fall into it. -/
theorem Holds.congr {m' : PartialMap Nat Addr} (h : Holds i m c)
    (heq : ∀ k, k % tablesize = i → m' k = m k) : Holds i m' c := by
  cases h with
  | vacant q hq hm => exact .vacant q hq fun k hk => (heq k hk).trans (hm k hk)
  | filled es hne hnd hi hm =>
      refine .filled es hne hnd hi fun k v hk => ?_
      rw [heq k hk, hm k v hk]

/-- A key that occurs at the cut occurs on neither side of it. -/
theorem notMem_of_nodup (hnd : (keys (xs ++ (k, v) :: ys)).Nodup) : k ∉ keys xs ∧ k ∉ keys ys := by
  rw [keys, List.map_append, List.nodup_append] at hnd
  obtain ⟨-, hys, hdisj⟩ := hnd
  exact ⟨fun hx => hdisj k hx k (List.mem_cons_self ..) rfl, (List.nodup_cons.1 hys).1⟩

theorem mem_cut {u : Addr} (hxs : k ∉ keys xs) (hys : k ∉ keys ys) :
    (j, u) ∈ xs ++ (k, v) :: ys ↔ (j = k ∧ v = u) ∨ (j ≠ k ∧ (j, u) ∈ xs ++ ys) := by
  have hkey : ∀ zs : List (Nat × Addr), k ∉ keys zs → (j, u) ∈ zs → j ≠ k := by
    rintro zs hzs hmem rfl
    exact hzs (List.mem_map_of_mem hmem)
  have hx := hkey xs hxs
  have hy := hkey ys hys
  rw [List.mem_append, List.mem_cons, List.mem_append, Prod.mk.injEq]
  tauto

theorem item_key_ne {e : Nat × Addr} (hk : k ∉ keys (e :: es)) : (item e).key ≠ k := by
  intro h
  apply hk
  rw [keys, List.map_cons, ← Int.ofNat_inj.1 h]
  exact List.mem_cons_self ..

theorem item_key_ne_neg_one (e : Nat × Addr) : (item e).key ≠ -1 := by
  show (e.1 : Int) ≠ -1
  omega

/-! ## The loops -/

theorem findLoop_of_notMem (hk : k ∉ keys es) (n : Nat) :
    findLoop k (es.map item) n = none := by
  induction es generalizing n with
  | nil => rfl
  | cons e es ih =>
      rw [List.map_cons, findLoop, if_neg (item_key_ne hk)]
      exact ih (fun h => hk (List.mem_cons_of_mem _ h)) (n + 1)

theorem findLoop_cut (hk : k ∉ keys xs) (n : Nat) :
    findLoop k ((xs ++ (k, v) :: ys).map item) n = some (n + xs.length) := by
  induction xs generalizing n with
  | nil => simp [findLoop, item]
  | cons e xs ih =>
      rw [List.cons_append, List.map_cons, findLoop, if_neg (item_key_ne hk),
        ih (fun h => hk (List.mem_cons_of_mem _ h)) (n + 1), List.length_cons]
      congr 1
      omega

theorem eraseLoop_of_notMem (hk : k ∉ keys es) : eraseLoop k (es.map item) = .error .assertion := by
  induction es with
  | nil => rfl
  | cons e es ih =>
      rw [List.map_cons, eraseLoop, if_pos (item_key_ne hk),
        ih fun h => hk (List.mem_cons_of_mem _ h)]
      rfl

theorem eraseLoop_cut (hk : k ∉ keys xs) :
    eraseLoop k ((xs ++ (k, v) :: ys).map item) = .ok ((xs ++ ys).map item) := by
  induction xs with
  | nil => simp [eraseLoop, item]
  | cons e xs ih =>
      rw [List.cons_append, List.map_cons, eraseLoop, if_pos (item_key_ne hk),
        ih fun h => hk (List.mem_cons_of_mem _ h)]
      rfl

theorem appendLoop_eq (q : HashItem) (next : List HashItem) (newItem : HashItem) :
    appendLoop q next newItem = q :: next ++ [newItem] := by
  induction next generalizing q with
  | nil => rfl
  | cons q' next ih =>
      rw [appendLoop, ih]
      rfl

/-! ## One bucket -/

theorem hashFuction_natCast (k : Nat) : hashFuction k = (k % tablesize : Nat) :=
  (Int.ofNat_tmod k tablesize).symm

theorem mod_lt (k : Nat) : k % tablesize < tablesize := Nat.mod_lt k (by decide)

theorem chain_natCast (t : HashTable) (k : Nat) :
    t.chain (hashFuction k) = .ok (t.hashtable (k % tablesize)) := by
  have hlt := mod_lt k
  rw [hashFuction_natCast, chain, if_pos ⟨by omega, by omega⟩, Int.toNat_natCast]

/-- Each chain holds the entries of `m` that fall into its bucket. -/
def Represents (t : HashTable) (m : PartialMap Nat Addr) : Prop :=
  ∀ i, i < tablesize → Holds i m (t.hashtable i)

theorem represents_new : Represents new PartialMap.empty :=
  fun _ _ => .vacant _ rfl fun _ _ => rfl

/-- A call on `k` only touches the chain of `k` and the entry of `k`. -/
theorem Represents.setChain {m' : PartialMap Nat Addr} (ht : Represents t m)
    (hc : Holds (k % tablesize) m' c) (hm : ∀ j, j ≠ k → m' j = m j) :
    Represents (t.setChain (hashFuction k) c) m' := by
  intro i hi
  rw [hashFuction_natCast]
  show Holds i m' (Function.update t.hashtable (k % tablesize) c i)
  by_cases hik : i = k % tablesize
  · subst hik
    rw [Function.update_self]
    exact hc
  · rw [Function.update_of_ne hik]
    refine (ht i hi).congr fun j hj => hm j ?_
    rintro rfl
    exact hik hj.symm

theorem hFind_eq {p : HashItem} {next : List HashItem}
    (hc : t.hashtable (k % tablesize) = p :: next) :
    hFind k t = .ok (if p.value = none then none else findLoop k (p :: next) 0) := by
  unfold hFind
  rw [chain_natCast, ok_bind, hc]
  dsimp only
  split <;> rfl

/-- The entry of a key is among those of its chain. -/
theorem notMem_keys (hm : ∀ j v, j % tablesize = k % tablesize → (m j = some v ↔ (j, v) ∈ es))
    (hk : m k = none) : k ∉ keys es := by
  intro h
  obtain ⟨e, he, rfl⟩ := List.mem_map.1 h
  have hsome := (hm e.1 e.2 rfl).2 he
  rw [hk] at hsome
  cases hsome

/-- **`H_find` of a key without an entry.** -/
theorem hFind_none (ht : Represents t m) (hk : m k = none) : hFind k t = .ok none := by
  have hc := ht _ (mod_lt k)
  generalize hchain : t.hashtable (k % tablesize) = c at hc
  cases hc with
  | vacant q hq hm =>
      have hne : ¬ q.key = k := by omega
      rw [hFind_eq hchain, findLoop, if_neg hne, findLoop, ite_self]
  | filled es hne hnd hi hm =>
      have hloop := findLoop_of_notMem (notMem_keys hm hk) 0
      obtain ⟨e, es, rfl⟩ := List.exists_cons_of_ne_nil hne
      rw [List.map_cons] at hloop hchain
      rw [hFind_eq hchain, hloop, ite_self]

/-- The chain of `k` is cut at its item, which `H_find` returns. -/
structure Cut (t : HashTable) (m : PartialMap Nat Addr) (k : Nat) (v : Addr)
    (xs ys : List (Nat × Addr)) : Prop where
  chain_eq : t.hashtable (k % tablesize) = (xs ++ (k, v) :: ys).map item
  find_eq : hFind k t = .ok (some xs.length)
  nodup : (keys (xs ++ (k, v) :: ys)).Nodup
  index : ∀ j ∈ keys (xs ++ (k, v) :: ys), j % tablesize = k % tablesize
  entry_iff : ∀ j u, j % tablesize = k % tablesize →
    (m j = some u ↔ (j, u) ∈ xs ++ (k, v) :: ys)

/-- **`H_find` of a key with an entry.** -/
theorem exists_cut (ht : Represents t m) (hk : m k = some v) : ∃ xs ys, Cut t m k v xs ys := by
  have hc := ht _ (mod_lt k)
  generalize hchain : t.hashtable (k % tablesize) = c at hc
  cases hc with
  | vacant q hq hm =>
      rw [hm k rfl] at hk
      cases hk
  | filled es hne hnd hi hm =>
      obtain ⟨xs, ys, rfl⟩ := List.append_of_mem ((hm k v rfl).1 hk)
      refine ⟨xs, ys, hchain, ?_, hnd, hi, hm⟩
      have hloop : findLoop k ((xs ++ (k, v) :: ys).map item) 0 = _ :=
        findLoop_cut (notMem_of_nodup hnd).1 0
      obtain ⟨e, es, hes⟩ := List.exists_cons_of_ne_nil hne
      rw [hes, List.map_cons] at hloop hchain
      have hvalue : ¬ (item e).value = none := Option.some_ne_none e.2
      rw [hFind_eq hchain, hloop, if_neg hvalue, Nat.zero_add]

theorem modify_cut (xs ys : List (Nat × Addr)) (k : Nat) (v w : Addr) :
    ((xs ++ (k, v) :: ys).map item).modify xs.length (fun p => { p with value := some w }) =
      (xs ++ (k, w) :: ys).map item := by
  induction xs with
  | nil => rfl
  | cons e xs ih =>
      rw [List.cons_append, List.map_cons, List.length_cons, List.modify_succ_cons, ih]
      rfl

/-- A new value in the place of the old one. -/
theorem Cut.replace (h : Cut t m k v xs ys) (w : Addr) :
    Holds (k % tablesize) (m.insertOrAssign k w) ((xs ++ (k, w) :: ys).map item) := by
  have hkeys : keys (xs ++ (k, w) :: ys) = keys (xs ++ (k, v) :: ys) := by simp [keys]
  obtain ⟨hxs, hys⟩ := notMem_of_nodup h.nodup
  refine .filled _ (by simp) (hkeys ▸ h.nodup) (hkeys ▸ h.index) fun j u hj => ?_
  have hentry := h.entry_iff j u hj
  rw [mem_cut hxs hys] at hentry
  rw [PartialMap.insertOrAssign_eq_some, mem_cut hxs hys, hentry]
  tauto

/-- The chain without the item. -/
theorem Cut.remove (h : Cut t m k v xs ys) (hne : xs ++ ys ≠ []) :
    Holds (k % tablesize) (m.erase k) ((xs ++ ys).map item) := by
  obtain ⟨hxs, hys⟩ := notMem_of_nodup h.nodup
  have hsub : (keys (xs ++ ys)).Sublist (keys (xs ++ (k, v) :: ys)) :=
    (List.Sublist.append_left (List.sublist_cons_self _ _) xs).map Prod.fst
  refine .filled _ hne (h.nodup.sublist hsub) (fun j hj => h.index j (hsub.subset hj)) ?_
  intro j u hj
  have hentry := h.entry_iff j u hj
  rw [mem_cut hxs hys] at hentry
  rw [PartialMap.erase_eq_some, hentry]
  have hjk : (j, u) ∈ xs ++ ys → j ≠ k := by
    rintro hmem rfl
    have hkey : j ∈ keys (xs ++ ys) := List.mem_map_of_mem hmem
    rw [keys, List.map_append, List.mem_append] at hkey
    exact hkey.elim hxs hys
  tauto

/-- A new item behind the others. -/
theorem holds_append (hnd : (keys es).Nodup)
    (hi : ∀ j ∈ keys es, j % tablesize = k % tablesize)
    (hm : ∀ j u, j % tablesize = k % tablesize → (m j = some u ↔ (j, u) ∈ es)) (hk : m k = none)
    (w : Addr) :
    Holds (k % tablesize) (m.insertOrAssign k w) ((es ++ [(k, w)]).map item) := by
  have hnot := notMem_keys hm hk
  have hkeys : keys (es ++ [(k, w)]) = keys es ++ [k] := List.map_append
  refine .filled _ (by simp) ?_ ?_ fun j u hj => ?_
  · rw [hkeys, List.nodup_append]
    refine ⟨hnd, List.nodup_singleton k, ?_⟩
    rintro j hj b hb rfl
    exact hnot (List.mem_singleton.1 hb ▸ hj)
  · intro j hj
    rw [hkeys, List.mem_append, List.mem_singleton] at hj
    rcases hj with hj | rfl
    · exact hi j hj
    · rfl
  · rw [PartialMap.insertOrAssign_eq_some, mem_cut hnot List.not_mem_nil, List.append_nil,
      hm j u hj]

theorem hInsert_some {n : Nat} (hfind : hFind k t = .ok (some n)) (w : Addr) :
    hInsert k (some w) t = .ok (t.setChain (hashFuction k)
      ((t.hashtable (k % tablesize)).modify n fun p => { p with value := some w })) := by
  unfold hInsert
  rw [hfind, ok_bind]
  dsimp only
  rw [chain_natCast, ok_bind]
  rfl

theorem hInsert_none {q : HashItem} {next : List HashItem} (hfind : hFind k t = .ok none)
    (hc : t.hashtable (k % tablesize) = q :: next) (w : Addr) :
    hInsert k (some w) t = .ok (t.setChain (hashFuction k)
      (if q.key = -1 then [item (k, w)] else q :: next ++ [item (k, w)])) := by
  unfold hInsert
  rw [hfind, ok_bind]
  dsimp only
  rw [chain_natCast, ok_bind, hc]
  dsimp only
  rw [appendLoop_eq]
  split <;> rfl

/-- **What `H_insert` does to the entries.** -/
theorem hInsert_spec (ht : Represents t m) (k : Nat) (w : Addr) :
    ∃ t', hInsert k (some w) t = .ok t' ∧ Represents t' (m.insertOrAssign k w) := by
  have hother : ∀ j, j ≠ k → m.insertOrAssign k w j = m j := fun j hj =>
    PartialMap.insertOrAssign_of_ne m w hj
  cases hk : m k with
  | some v =>
      obtain ⟨xs, ys, hcut⟩ := exists_cut ht hk
      have hnew := hcut.replace w
      rw [← modify_cut xs ys k v w, ← hcut.chain_eq] at hnew
      exact ⟨_, hInsert_some hcut.find_eq w, ht.setChain hnew hother⟩
  | none =>
      have hfind := hFind_none ht hk
      have hc := ht _ (mod_lt k)
      generalize hchain : t.hashtable (k % tablesize) = c at hc
      cases hc with
      | vacant q hq hm =>
          have hnone : ∀ j u, j % tablesize = k % tablesize →
              (m j = some u ↔ (j, u) ∈ ([] : List (Nat × Addr))) := by
            intro j u hj
            simp [hm j hj]
          have hnd : (keys []).Nodup := List.nodup_nil
          have hnew := holds_append hnd (fun _ hj => nomatch hj) hnone hk w
          have hins := hInsert_none hfind hchain w
          rw [if_pos hq] at hins
          exact ⟨_, hins, ht.setChain hnew hother⟩
      | filled es hne hnd hi hm =>
          have hnew := holds_append hnd hi hm hk w
          obtain ⟨e, es, rfl⟩ := List.exists_cons_of_ne_nil hne
          have hq := item_key_ne_neg_one e
          have hins := hInsert_none hfind hchain w
          rw [if_neg hq] at hins
          rw [List.map_append] at hnew
          exact ⟨_, hins, ht.setChain hnew hother⟩

theorem hErase_eq {q : HashItem} {next : List HashItem}
    (hc : t.hashtable (k % tablesize) = q :: next) :
    hErase k t =
      if q.key = -1 then .error .assertion
      else if q.key = k ∧ next = [] then
        .ok (t.setChain (hashFuction k) [{ q with key := -1 }])
      else if q.key = k then .ok (t.setChain (hashFuction k) next)
      else eraseLoop k next >>= fun next => .ok (t.setChain (hashFuction k) (q :: next)) := by
  unfold hErase
  dsimp only
  rw [chain_natCast, ok_bind, hc]
  rfl

/-- **`H_erase` of a key without an entry fails its assertion.** -/
theorem hErase_none (ht : Represents t m) (hk : m k = none) : hErase k t = .error .assertion := by
  have hc := ht _ (mod_lt k)
  generalize hchain : t.hashtable (k % tablesize) = c at hc
  cases hc with
  | vacant q hq hm => rw [hErase_eq hchain, if_pos hq]
  | filled es hne hnd hi hm =>
      have hnot := notMem_keys hm hk
      obtain ⟨e, es, rfl⟩ := List.exists_cons_of_ne_nil hne
      have hq := item_key_ne_neg_one e
      have hne := item_key_ne hnot
      rw [List.map_cons] at hchain
      rw [hErase_eq hchain, if_neg hq, if_neg fun h => hne h.1, if_neg hne,
        eraseLoop_of_notMem fun h => hnot (List.mem_cons_of_mem _ h)]
      rfl

/-- **What `H_erase` does to the entries.** -/
theorem hErase_some (ht : Represents t m) (hk : m k = some v) :
    ∃ t', hErase k t = .ok t' ∧ Represents t' (m.erase k) := by
  have hother : ∀ j, j ≠ k → m.erase k j = m j := fun j hj => PartialMap.erase_of_ne m hj
  obtain ⟨xs, ys, hcut⟩ := exists_cut ht hk
  have hchain := hcut.chain_eq
  cases xs with
  | nil =>
      have hq := item_key_ne_neg_one (k, v)
      have hkey : (item (k, v)).key = k := rfl
      have herase := hErase_eq hchain
      cases ys with
      | nil =>
          rw [if_neg hq, if_pos ⟨rfl, rfl⟩] at herase
          refine ⟨_, herase, ht.setChain (.vacant _ rfl fun j hj => ?_) hother⟩
          rw [Option.eq_none_iff_forall_ne_some]
          intro u hu
          obtain ⟨hjk, hu⟩ := PartialMap.erase_eq_some.1 hu
          have hmem := (hcut.entry_iff j u hj).1 hu
          rw [List.nil_append, List.mem_singleton] at hmem
          exact hjk (congrArg Prod.fst hmem)
      | cons y ys =>
          rw [if_neg hq, if_neg (by simp), if_pos hkey] at herase
          exact ⟨_, herase, ht.setChain (hcut.remove (List.cons_ne_nil _ _)) hother⟩
  | cons x xs =>
      have hq := item_key_ne_neg_one x
      have hnot := (notMem_of_nodup hcut.nodup).1
      have hne := item_key_ne hnot
      have herase := hErase_eq hchain
      rw [if_neg hq, if_neg fun h => hne h.1, if_neg hne] at herase
      have hloop : eraseLoop k ((xs ++ (k, v) :: ys).map item) = _ :=
        eraseLoop_cut fun h => hnot (List.mem_cons_of_mem _ h)
      have hloop' : eraseLoop k (List.map item (xs.append ((k, v) :: ys))) = _ := hloop
      rw [hloop', ok_bind] at herase
      exact ⟨_, herase, ht.setChain (hcut.remove (List.cons_ne_nil _ _)) hother⟩

/-! ## Runs -/

/-- The calls, with a key that is not negative and a value that is not null. -/
inductive HashOp where
  | insert (key : Nat) (value : Addr)
  | erase (key : Nat)
  | find (key : Nat)

def step : HashOp → HashTable → Except Stop HashTable
  | .insert key value, t => hInsert key (some value) t
  | .erase key, t => hErase key t
  | .find key, t => hFind key t >>= fun _ => .ok t

/-- What a call does to the map. -/
def mapStep : HashOp → PartialMap Nat Addr → PartialMap Nat Addr
  | .insert key value, m => m.insertOrAssign key value
  | .erase key, m => m.erase key
  | .find _, m => m

/-- `H_erase` may only be called on a key that is there. -/
def Present (m : PartialMap Nat Addr) : HashOp → Prop
  | .erase key => m key ≠ none
  | _ => True

/-- What the calls show of the map `m`, and the shape of the chains. -/
structure Refines (t : HashTable) (m : PartialMap Nat Addr) : Prop where
  find_none : ∀ k : Nat, m k = none → hFind k t = .ok none
  find_some : ∀ (k : Nat) (v : Addr), m k = some v → ∃ l i, t.chain (hashFuction k) = .ok l ∧
    hFind k t = .ok (some i) ∧ l[i]? = some ⟨k, some v⟩
  nodup : ∀ i, i < tablesize → ((t.hashtable i).map HashItem.key).Nodup
  head : ∀ i, i < tablesize → ∀ q next, t.hashtable i = q :: next → q.key = -1 → next = []
  erase_iff : ∀ k : Nat, hErase k t = .error .assertion ↔ m k = none

theorem Represents.refines (ht : Represents t m) : Refines t m where
  find_none k hk := hFind_none ht hk
  find_some k v hk := by
    obtain ⟨xs, ys, hcut⟩ := exists_cut ht hk
    refine ⟨_, _, chain_natCast t k, hcut.find_eq, ?_⟩
    rw [hcut.chain_eq, List.getElem?_map, List.getElem?_append_right (Nat.le_refl _), Nat.sub_self]
    rfl
  nodup i hi := by
    have hc := ht i hi
    generalize t.hashtable i = c at hc
    cases hc with
    | vacant q hq hm => exact List.nodup_singleton _
    | filled es hne hnd hi hm =>
        have hkeys : (es.map item).map HashItem.key = (keys es).map Nat.cast := by
          simp [keys, item, Function.comp_def]
        rw [hkeys]
        exact hnd.map fun _ _ h => Int.ofNat_inj.1 h
  head i hi q next hchain hq := by
    have hc := ht i hi
    generalize hc' : t.hashtable i = c at hc
    cases hc with
    | vacant q' hq' hm =>
        rw [hchain] at hc'
        exact (List.cons.inj hc').2
    | filled es hne hnd hi hm =>
        obtain ⟨e, es, rfl⟩ := List.exists_cons_of_ne_nil hne
        rw [hchain] at hc'
        have hkey : (e.1 : Int) = -1 := by
          rw [← hq, (List.cons.inj hc').1]
          rfl
        omega
  erase_iff k := by
    refine ⟨fun h => ?_, hErase_none ht⟩
    cases hk : m k with
    | none => rfl
    | some v =>
        obtain ⟨t', ht', -⟩ := hErase_some ht hk
        rw [ht'] at h
        cases h

/-- **What one call does.** -/
theorem step_spec (ht : Represents t m) (op : HashOp) :
    Yields (step op t) (fun e => e = .assertion ∧ ¬ Present m op) fun t' =>
      Present m op ∧ Represents t' (mapStep op m) := by
  cases op with
  | insert key value =>
      have h := hInsert_spec ht key value
      show Yields (hInsert key (some value) t) _ _
      generalize hInsert key (some value) t = x at h
      obtain ⟨t', rfl, ht'⟩ := h
      exact ⟨trivial, ht'⟩
  | erase key =>
      show Yields (hErase key t) _ _
      cases hk : m key with
      | none =>
          rw [hErase_none ht hk]
          exact ⟨rfl, fun h => h hk⟩
      | some v =>
          have h := hErase_some ht hk
          generalize hErase key t = x at h
          obtain ⟨t', rfl, ht'⟩ := h
          refine ⟨?_, ht'⟩
          show m key ≠ none
          rw [hk]
          exact Option.some_ne_none v
  | find key =>
      show Yields (hFind key t >>= fun _ => .ok t) _ _
      cases hk : m key with
      | none =>
          rw [hFind_none ht hk]
          exact ⟨trivial, ht⟩
      | some v =>
          have h := exists_cut ht hk
          cases h with
          | intro xs h =>
              cases h with
              | intro ys hcut =>
                  rw [hcut.find_eq]
                  exact ⟨trivial, ht⟩

/-- **The table refines a finite map.** -/
theorem run_refines (ops : List HashOp) :
    Yields (run step ops new) (fun e => e = .assertion ∧ ¬ Legal Present mapStep ops .empty)
      fun t => Legal Present mapStep ops .empty ∧ Refines t (specRun mapStep ops .empty) := by
  have hrun := run_yields_checked Represents (fun t m op ht => step_spec ht op) ops new .empty
    represents_new
  exact hrun.imp fun t ht => ⟨ht.1, ht.2.refines⟩

end HashTable

end ZoneBuffer.Structure
