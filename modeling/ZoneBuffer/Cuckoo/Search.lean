import ZoneBuffer.Cuckoo.View
import ZoneBuffer.Lib.Breadth
import Mathlib.Tactic.IntervalCases

set_option autoImplicit false

/-! # The search for a path

`slot_search` runs over the buckets that the keys of full buckets could move to. Its nodes are
`b_slot`s, which spell a path of slots (`follow`) in their path code. The search is breadth first,
so the path it returns is a shortest one to its last bucket (`slotSearch_spec`): this is why
following it later never meets a slot that an earlier move has changed. Neither the queue nor the
rounds of the loop run out, for a node weighs one more than the nodes it can put into the queue. -/

namespace ZoneBuffer.Cuckoo

open Outcome Breadth CuckooMap

variable {K V : Type} {hash : K → UInt64} {m : CuckooMap K V} {hp i₁ i₂ : Nat}
  {v : Nat → Nat → Option (Slot K V)} {x : BSlot}

/-! ## One bucket -/

/-- The nodes for the keys in the slots `js` of the bucket of node `x`. -/
def childrenIn (hp : Nat) (b : Nat → Option (Slot K V)) (x : BSlot) (js : List Nat) : List BSlot :=
  if x.depth < MAX_BFS_PATH_LEN - 1 then
    js.filterMap fun j => (b j).map fun s =>
      ⟨altIndex hp s.partialKey x.bucket, x.pathcode * SLOT_PER_BUCKET + j, x.depth + 1⟩
  else []

/-- The nodes `slot_search` puts into the queue for node `x`. -/
def children (hp : Nat) (v : Nat → Nat → Option (Slot K V)) (x : BSlot) : List BSlot :=
  childrenIn hp (v x.bucket) x (scanOrder x.pathcode)

/-- All slots of bucket `i` are occupied. -/
def Full (v : Nat → Nat → Option (Slot K V)) (i : Nat) : Prop := ∀ j < SLOT_PER_BUCKET, v i j ≠ none

theorem mem_scanOrder {code j : Nat} : j ∈ scanOrder code ↔ j < SLOT_PER_BUCKET := by
  unfold scanOrder SLOT_PER_BUCKET
  simp only [List.mem_map, List.mem_range]
  constructor
  · rintro ⟨i, -, rfl⟩
    omega
  · intro hj
    exact ⟨(j + 4 - code % 4) % 4, by omega, by omega⟩

@[simp] theorem length_scanOrder (code : Nat) : (scanOrder code).length = SLOT_PER_BUCKET := by
  unfold scanOrder
  simp

theorem length_childrenIn_le (hp : Nat) (b : Nat → Option (Slot K V)) (x : BSlot) (js : List Nat) :
    (childrenIn hp b x js).length ≤ js.length := by
  unfold childrenIn
  split
  · exact List.length_filterMap_le ..
  · exact Nat.zero_le _

theorem enqueue_eq {q : BQueue} (h : q.last < MAX_CUCKOO_COUNT) (x : BSlot) :
    q.enqueue x = .ok ⟨q.slots ++ [x], q.last + 1⟩ := by
  unfold BQueue.enqueue
  rw [if_neg (by omega)]

/-- **The loop over the slots of a bucket.** -/
theorem scanSlots_eq (hp : Nat) (b : Nat → Option (Slot K V)) (js : List Nat) (q : BQueue)
    (hcap : x.depth < MAX_BFS_PATH_LEN - 1 → q.last + js.length ≤ MAX_CUCKOO_COUNT) :
    scanSlots hp b x js q = .ok (match js.find? fun j => (b j).isNone with
      | some j => .inl { x with pathcode := x.pathcode * SLOT_PER_BUCKET + j }
      | none => .inr ⟨q.slots ++ childrenIn hp b x js, q.last + (childrenIn hp b x js).length⟩) := by
  induction js generalizing q with
  | nil =>
      unfold scanSlots childrenIn
      simp
  | cons j js ih =>
      unfold scanSlots
      cases hb : b j with
      | none => simp [hb]
      | some s =>
          by_cases hdepth : x.depth < MAX_BFS_PATH_LEN - 1
          · have hroom := hcap hdepth
            rw [List.length_cons] at hroom
            simp only [if_pos hdepth, enqueue_eq (q := q) (by omega), ok_bind]
            rw [ih _ fun _ => by show q.last + 1 + js.length ≤ _; omega]
            simp only [List.find?_cons, hb, Option.isNone_some]
            cases js.find? fun j => (b j).isNone with
            | some j' => rfl
            | none =>
                unfold childrenIn
                simp only [if_pos hdepth, List.filterMap_cons, hb, Option.map_some,
                  List.length_cons, List.append_assoc, List.singleton_append]
                congr 3
                omega
          · simp only [if_neg hdepth]
            rw [ih _ fun h => absurd h hdepth]
            unfold childrenIn
            simp [hb, hdepth]

/-! ## Depths and weights -/

theorem graded (hp : Nat) (v : Nat → Nat → Option (Slot K V)) :
    ∀ x, ∀ y ∈ children hp v x, y.depth = x.depth + 1 := by
  intro x y hy
  unfold children childrenIn at hy
  split at hy
  · obtain ⟨j, -, hj⟩ := List.mem_filterMap.1 hy
    obtain ⟨s, -, rfl⟩ := Option.map_eq_some_iff.1 hj
    rfl
  · exact absurd hy List.not_mem_nil

/-- One more than the number of nodes a search below depth `d` can put into the queue. -/
def weight (d : Nat) : Nat :=
  (SLOT_PER_BUCKET ^ (MAX_BFS_PATH_LEN - 1 - d + 1) - 1) / (SLOT_PER_BUCKET - 1)

theorem weight_of_lt {d : Nat} (hd : d < MAX_BFS_PATH_LEN - 1) :
    weight d = SLOT_PER_BUCKET * weight (d + 1) + 1 := by
  unfold MAX_BFS_PATH_LEN at hd
  interval_cases d <;> decide

theorem weight_pos (d : Nat) : 0 < weight d := by
  by_cases hd : d < MAX_BFS_PATH_LEN - 1
  · rw [weight_of_lt hd]
    exact Nat.succ_pos _
  · have h0 : MAX_BFS_PATH_LEN - 1 - d = 0 := by omega
    unfold weight
    rw [h0]
    decide

theorem sum_weight_le {n : Nat} {l : List BSlot} (h : ∀ y ∈ l, y.depth = n) :
    (l.map fun y => weight y.depth).sum = l.length * weight n := by
  induction l with
  | nil => simp
  | cons y l ih =>
      have hy := h y List.mem_cons_self
      rw [List.map_cons, List.sum_cons, ih fun z hz => h z (List.mem_cons_of_mem y hz), hy,
        List.length_cons, Nat.succ_mul, Nat.add_comm]

/-- The children of a node weigh less than the node. -/
theorem weight_children (hp : Nat) (v : Nat → Nat → Option (Slot K V)) (x : BSlot) :
    ((children hp v x).map fun y => weight y.depth).sum + 1 ≤ weight x.depth := by
  rw [sum_weight_le (graded hp v x)]
  by_cases hd : x.depth < MAX_BFS_PATH_LEN - 1
  · have hlen : (children hp v x).length ≤ SLOT_PER_BUCKET := by
      have := length_childrenIn_le hp (v x.bucket) x (scanOrder x.pathcode)
      rwa [length_scanOrder] at this
    rw [weight_of_lt hd]
    exact Nat.succ_le_succ (Nat.mul_le_mul_right _ hlen)
  · have hnil : children hp v x = [] := by
      unfold children childrenIn
      rw [if_neg hd]
    rw [hnil]
    have := weight_pos x.depth
    simp only [List.length_nil, Nat.zero_mul]
    omega

/-! ## The search -/

/-- A slot that is not occupied, in a bucket no nearer node of which has one. -/
structure Nearest (hp : Nat) (v : Nat → Nat → Option (Slot K V)) (roots : List BSlot) (x : BSlot)
    (j : Nat) : Prop where
  reach : Reach (children hp v) roots x
  lt : j < SLOT_PER_BUCKET
  free : v x.bucket j = none
  full : ∀ y, Reach (children hp v) roots y → y.depth < x.depth → Full v y.bucket

/-- **The loop over the queue.** -/
theorem searchQueue_spec (roots : List BSlot) (rounds : Nat) (q : BQueue) (h : Inv hash m)
    (hv : m.view hash = v)
    (hfront : Frontier (children hp v) BSlot.depth (fun x => Full v x.bucket) roots q.slots)
    (hrounds : (q.slots.map fun y => weight y.depth).sum < rounds)
    (hcap : q.last + (q.slots.map fun y => weight y.depth).sum
      ≤ MAX_CUCKOO_COUNT + q.slots.length) :
    ∃ r m', searchQueue hash hp rounds q m = .ok (r, m') ∧ Inv hash m' ∧ Rehashed hash m m' ∧
      (∀ y, r = some y → ∃ x j, y = { x with pathcode := x.pathcode * SLOT_PER_BUCKET + j } ∧
        Nearest hp v roots x j) ∧
      (r = none → ∀ x, Reach (children hp v) roots x → Full v x.bucket) := by
  induction rounds generalizing q m with
  | zero => exact absurd hrounds (Nat.not_lt_zero _)
  | succ rounds ih =>
      unfold searchQueue
      cases hq : q.slots with
      | nil =>
          rw [hq] at hfront
          exact ⟨none, m, rfl, h, Rehashed.refl m, (fun y hy => by cases hy),
            fun _ x hx => hfront.exhausted hx⟩
      | cons x rest =>
          rw [hq] at hfront hrounds hcap
          obtain ⟨m₁, hok, hinv, hre, hmig⟩ := lockOne_spec h x.bucket
          have hview : m₁.view hash = v := hre.view.trans hv
          have hslot : m₁.buckets.slot x.bucket = v x.bucket := by
            rw [← view_of_migrated hmig, hview]
          -- the queue has room for the children of `x`
          have hweights := weight_expand (q := rest) (weight_children hp v x)
          rw [List.length_cons] at hcap
          rw [List.map_cons, List.sum_cons] at hrounds hcap hweights
          rw [List.map_append, List.sum_append] at hweights
          have hrest : rest.length ≤ (rest.map fun y => weight y.depth).sum := by
            have := List.length_le_sum_of_one_le (rest.map fun y => weight y.depth) (by
              intro w hw
              obtain ⟨y, -, rfl⟩ := List.mem_map.1 hw
              exact weight_pos _)
            rwa [List.length_map] at this
          have hroom : x.depth < MAX_BFS_PATH_LEN - 1 →
              q.last + (scanOrder x.pathcode).length ≤ MAX_CUCKOO_COUNT := by
            intro hd
            have hw := weight_of_lt hd
            have hpos := weight_pos (x.depth + 1)
            rw [length_scanOrder]
            unfold SLOT_PER_BUCKET at hw ⊢
            omega
          have hscan := scanSlots_eq hp (v x.bucket) (scanOrder x.pathcode)
            ⟨rest, q.last⟩ hroom
          simp only [hok, ok_bind, hslot, hscan]
          cases hfind : (scanOrder x.pathcode).find? fun j => (v x.bucket j).isNone with
          | some j =>
              have hmem := List.mem_of_find?_eq_some hfind
              have hnone := List.find?_some hfind
              refine ⟨_, m₁, rfl, hinv, hre, fun y hy => ?_, fun h => by cases h⟩
              cases hy
              refine ⟨x, j, rfl, hfront.reached x List.mem_cons_self, mem_scanOrder.1 hmem,
                Option.isNone_iff_eq_none.1 hnone, fun y hy hlt => ?_⟩
              have hfull := hfront.nearer (graded hp v) hy hlt
              exact hfull
          | none =>
              have hfull : Full v x.bucket := by
                intro j hj hnone
                have := List.find?_eq_none.1 hfind j (mem_scanOrder.2 hj)
                rw [hnone] at this
                exact this rfl
              have hnext := hfront.expand (graded hp v) hfull
              have hlen : (children hp v x).length ≤ ((children hp v x).map
                  fun y => weight y.depth).sum := by
                have := List.length_le_sum_of_one_le ((children hp v x).map
                  fun y => weight y.depth) (by
                  intro w hw
                  obtain ⟨y, -, rfl⟩ := List.mem_map.1 hw
                  exact weight_pos _)
                rwa [List.length_map] at this
              obtain ⟨r, m', hrun, hinv', hre', hres⟩ := ih ⟨rest ++ children hp v x,
                q.last + (children hp v x).length⟩ hinv hview hnext
                (by rw [List.map_append, List.sum_append]; omega)
                (by
                  show q.last + (children hp v x).length + _ ≤ _ + (rest ++ children hp v x).length
                  rw [List.map_append, List.sum_append, List.length_append]
                  omega)
              exact ⟨r, m', hrun, hinv', hre.trans hre', hres⟩

/-! ## The path a node spells -/

/-- The bucket that the key in slot `j` of bucket `b` could move to. -/
def next (hp : Nat) (v : Nat → Nat → Option (Slot K V)) (b j : Nat) : Option Nat :=
  (v b j).map fun s => altIndex hp s.partialKey b

/-- The nodes `slot_search` starts with. -/
def starts (i₁ i₂ : Nat) : List BSlot := [⟨i₁, 0, 0⟩, ⟨i₂, 1, 0⟩]

/-- The path code of `n` digits stands for the slots `js`, starting from bucket `b`. -/
def Decodes (i₁ i₂ n code b : Nat) (js : List Nat) : Prop :=
  pathSlots n code = (js, 0) ∧ b = i₁ ∨ pathSlots n code = (js, 1) ∧ b = i₂

theorem pathSlots_succ {code j n : Nat} (hj : j < SLOT_PER_BUCKET) :
    pathSlots (n + 1) (code * SLOT_PER_BUCKET + j)
      = ((pathSlots n code).1 ++ [j], (pathSlots n code).2) := by
  have hdiv : (code * SLOT_PER_BUCKET + j) / SLOT_PER_BUCKET = code := by
    unfold SLOT_PER_BUCKET at hj ⊢
    omega
  have hmod : (code * SLOT_PER_BUCKET + j) % SLOT_PER_BUCKET = j := by
    unfold SLOT_PER_BUCKET at hj ⊢
    omega
  conv_lhs => unfold pathSlots
  rw [hdiv, hmod]

theorem Decodes.snoc {n code b j : Nat} {js : List Nat} (h : Decodes i₁ i₂ n code b js)
    (hj : j < SLOT_PER_BUCKET) :
    Decodes i₁ i₂ (n + 1) (code * SLOT_PER_BUCKET + j) b (js ++ [j]) := by
  unfold Decodes at h ⊢
  rw [pathSlots_succ hj]
  rcases h with ⟨h, hb⟩ | ⟨h, hb⟩
  · exact Or.inl ⟨by rw [h], hb⟩
  · exact Or.inr ⟨by rw [h], hb⟩

theorem mem_children (hd : x.depth < MAX_BFS_PATH_LEN - 1) {y : BSlot} :
    y ∈ children hp v x ↔ ∃ j < SLOT_PER_BUCKET, ∃ e, next hp v x.bucket j = some e ∧
      y = ⟨e, x.pathcode * SLOT_PER_BUCKET + j, x.depth + 1⟩ := by
  unfold children childrenIn next
  rw [if_pos hd]
  simp only [List.mem_filterMap, Option.map_eq_some_iff, mem_scanOrder]
  constructor
  · rintro ⟨j, hj, s, hs, rfl⟩
    exact ⟨j, hj, _, ⟨s, hs, rfl⟩, rfl⟩
  · rintro ⟨j, hj, _, ⟨s, hs, rfl⟩, rfl⟩
    exact ⟨j, hj, s, hs, rfl⟩

/-- A node spells a path from one of the two buckets to its own. -/
def Spells (hp : Nat) (v : Nat → Nat → Option (Slot K V)) (i₁ i₂ : Nat) (x : BSlot) : Prop :=
  x.depth ≤ MAX_BFS_PATH_LEN - 1 ∧ ∃ b js, Decodes i₁ i₂ x.depth x.pathcode b js ∧
    js.length = x.depth ∧ follow (next hp v) b js = some x.bucket

/-- **Every node that is reached does.** -/
theorem spells_of_reach (h : Reach (children hp v) (starts i₁ i₂) x) : Spells hp v i₁ i₂ x := by
  apply h.induct
  case hroot =>
    intro x hx
    refine ⟨?_, x.bucket, [], ?_⟩ <;>
      rcases List.mem_pair.1 hx with rfl | rfl
    · exact Nat.zero_le _
    · exact Nat.zero_le _
    · exact ⟨Or.inl ⟨rfl, rfl⟩, rfl, rfl⟩
    · exact ⟨Or.inr ⟨rfl, rfl⟩, rfl, rfl⟩
  case hchild =>
    rintro x - ⟨-, b, js, hdec, hlen, hend⟩ y hy
    by_cases hd : x.depth < MAX_BFS_PATH_LEN - 1
    · obtain ⟨j, hj, e, he, rfl⟩ := (mem_children hd).1 hy
      refine ⟨hd, b, js ++ [j], hdec.snoc hj, by simp [hlen], ?_⟩
      rw [follow_append, hend]
      show (next hp v x.bucket j).bind (fun b => follow (next hp v) b []) = some e
      rw [he]
      rfl
    · unfold children childrenIn at hy
      rw [if_neg hd] at hy
      exact absurd hy List.not_mem_nil

/-- **Every path that is short enough is reached.** -/
theorem exists_reach (hslots : ∀ i j s, v i j = some s → j < SLOT_PER_BUCKET) {b e : Nat}
    {js : List Nat} (hb : b = i₁ ∨ b = i₂) (hlen : js.length ≤ MAX_BFS_PATH_LEN - 1)
    (hend : follow (next hp v) b js = some e) :
    ∃ x, Reach (children hp v) (starts i₁ i₂) x ∧ x.bucket = e ∧ x.depth = js.length := by
  induction js using List.reverseRecOn generalizing e with
  | nil =>
      cases hend
      rcases hb with rfl | rfl
      · exact ⟨⟨b, 0, 0⟩, reach_of_mem (by simp [starts]), rfl, rfl⟩
      · exact ⟨⟨b, 1, 0⟩, reach_of_mem (by simp [starts]), rfl, rfl⟩
  | append_singleton js j ih =>
      rw [List.length_append, List.length_singleton] at hlen
      rw [follow_append] at hend
      obtain ⟨e', hend', hlast⟩ := Option.bind_eq_some_iff.1 hend
      obtain ⟨x, hreach, rfl, hdepth⟩ := ih (by omega) hend'
      obtain ⟨e'', hnext, he⟩ := follow_cons hlast
      cases he
      obtain ⟨s, hs, -⟩ := Option.map_eq_some_iff.1 hnext
      refine ⟨_, hreach.child ((mem_children (by omega)).2 ⟨j, hslots _ _ s hs, e, hnext, rfl⟩),
        rfl, ?_⟩
      show x.depth + 1 = _
      rw [List.length_append, List.length_singleton, hdepth]

/-- **The search for a path** returns. A path it returns is a shortest one from one of the two
buckets to a slot that is not occupied; if it returns none, then no bucket that is near enough has
such a slot. -/
theorem slotSearch_spec (h : Inv hash m) (hv : m.view hash = v) (i₁ i₂ : Nat) :
    ∃ r m', slotSearch hash m.hashpower i₁ i₂ m = .ok (r, m') ∧ Inv hash m' ∧ Rehashed hash m m' ∧
      (∀ y, r = some y → ∃ b js j e, Decodes i₁ i₂ (y.depth + 1) y.pathcode b (js ++ [j]) ∧
        j < SLOT_PER_BUCKET ∧ js.length < MAX_BFS_PATH_LEN ∧ v e j = none ∧
        Shortest (next m.hashpower v) (fun e => ¬ Full v e) b js e) ∧
      (r = none → ∀ b js e, b = i₁ ∨ b = i₂ → js.length < MAX_BFS_PATH_LEN →
        follow (next m.hashpower v) b js = some e → Full v e) := by
  have hslots : ∀ i j s, v i j = some s → j < SLOT_PER_BUCKET := by
    intro i j s hs
    rw [← hv] at hs
    exact (h.placed i j s hs).1
  have hfront : Frontier (children m.hashpower v) BSlot.depth (fun x => Full v x.bucket)
      (starts i₁ i₂) (starts i₁ i₂) := by
    apply Frontier.init
    intro x hx
    rcases List.mem_pair.1 hx with rfl | rfl <;> rfl
  have hweight : ((starts i₁ i₂).map fun y => weight y.depth).sum = MAX_CUCKOO_COUNT := by
    show weight 0 + (weight 0 + 0) = MAX_CUCKOO_COUNT
    decide
  obtain ⟨r, m', hok, hinv, hre, hfound, hnone⟩ := searchQueue_spec (starts i₁ i₂) (MAX_CUCKOO_COUNT + 1)
    ⟨starts i₁ i₂, 2⟩ h hv hfront (by rw [hweight]; omega) (by
      show 2 + _ ≤ MAX_CUCKOO_COUNT + 2
      rw [hweight, Nat.add_comm])
  refine ⟨r, m', hok, hinv, hre, fun y hy => ?_, fun hr b js e hb hlen hend => ?_⟩
  case refine_2 =>
    obtain ⟨z, hz, rfl, -⟩ := exists_reach hslots hb (Nat.le_sub_one_of_lt hlen) hend
    exact hnone hr z hz
  obtain ⟨x, j, rfl, hnear⟩ := hfound y hy
  obtain ⟨hdepth, b, js, hdec, hlen, hend⟩ := spells_of_reach hnear.reach
  have hlt : js.length < MAX_BFS_PATH_LEN := by
    unfold MAX_BFS_PATH_LEN at hdepth ⊢
    omega
  refine ⟨b, js, j, x.bucket, hdec.snoc hnear.lt, hnear.lt, hlt, hnear.free, hend,
    fun hfull => hfull j hnear.lt hnear.free, fun js' e' hend' hgoal => ?_⟩
  -- a shorter path would have been passed over as full
  by_contra hshort
  have hb : b = i₁ ∨ b = i₂ := by
    rcases hdec with ⟨-, hb⟩ | ⟨-, hb⟩
    · exact Or.inl hb
    · exact Or.inr hb
  obtain ⟨z, hz, rfl, hzd⟩ := exists_reach hslots hb (Nat.le_trans (Nat.le_of_lt (Nat.lt_of_not_le hshort))
    (hlen ▸ hdepth)) hend'
  exact hgoal (hnear.full z hz (by omega))

end ZoneBuffer.Cuckoo
