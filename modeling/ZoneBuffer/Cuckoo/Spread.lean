import ZoneBuffer.Cuckoo.Hashing

set_option autoImplicit false

/-! # Moving the buckets of a table half the size

`move_bucket` leaves a key in the bucket it was in or puts it into the one a table's size further,
behind the keys that went there before it. `spread` says what becomes of the slots, and
`moveBuckets_eq` that this is what the loops over `move_bucket` do to buckets they find empty. -/

namespace ZoneBuffer.Cuckoo

open Outcome

variable {K V : Type} (hash : K → UInt64)

/-! ## Moving a bucket -/

/-- The slots of old bucket `i`, among those in `js`, whose keys go up, in order. -/
def moversIn (old : Buckets K V) (i : Nat) (js : List Nat) : List (Slot K V) :=
  js.filterMap fun j => (old.slot i j).filter fun s => goesUp hash old.hashpower i s.key

/-- What stays of slot `j` of old bucket `i`. -/
def stayer (old : Buckets K V) (i j : Nat) : Option (Slot K V) :=
  (old.slot i j).filter fun s => !goesUp hash old.hashpower i s.key

/-- Slot `j` of bucket `i` after the old buckets have been moved. -/
def spread (old : Buckets K V) (i j : Nat) : Option (Slot K V) :=
  if i < old.size then
    if j < SLOT_PER_BUCKET then stayer hash old i j else none
  else (moversIn hash old (i - old.size) (List.range SLOT_PER_BUCKET))[j]?

/-- Every key is in one of its buckets, with its partial key. -/
def Placed (b : Buckets K V) : Prop :=
  ∀ i j s, b.slot i j = some s → j < SLOT_PER_BUCKET ∧ BucketOf hash b.hashpower s.key i ∧
    s.partialKey = partialKey (hash s.key)

variable {hash} {old b : Buckets K V} {i j l : Nat} {s : Slot K V}

theorem Buckets.setKV_eq (h : b.slot i j = none) : b.setKV i j s = .ok (b.set i j (some s)) := by
  unfold setKV
  rw [h]

theorem Buckets.eraseKV_eq (h : b.slot i j = some s) : b.eraseKV i j = .ok (b.set i j none) := by
  unfold eraseKV
  rw [h]

theorem Buckets.size_pos (b : Buckets K V) : 0 < b.size := hashsize_pos _

variable (hash) in
/-- The buckets `b` after the slots `js` of old bucket `i` have been moved. -/
def spreadOver (old b : Buckets K V) (i : Nat) (js : List Nat) : Buckets K V :=
  { b with slot := fun i' j =>
      if i' = i then if j ∈ js then stayer hash old i j else none
      else if i' = i + old.size then (moversIn hash old i js)[j]?
      else b.slot i' j }

theorem moversIn_concat (js : List Nat) : moversIn hash old i (js ++ [j]) =
    moversIn hash old i js
      ++ ((old.slot i j).filter fun s => goesUp hash old.hashpower i s.key).toList := by
  unfold moversIn
  rw [List.filterMap_append]
  cases h : (old.slot i j).filter fun s => goesUp hash old.hashpower i s.key <;>
    simp only [List.filterMap_cons, List.filterMap_nil, h, Option.toList_none, Option.toList_some]

variable (hash) in
theorem stayer_some (hs : old.slot i j = some s) :
    stayer hash old i j = if goesUp hash old.hashpower i s.key then none else some s := by
  unfold stayer
  cases hup : goesUp hash old.hashpower i s.key <;> simp [hs, hup, Option.filter]

variable (hash) in
theorem moversIn_some (hs : old.slot i j = some s) (js : List Nat) :
    moversIn hash old i (js ++ [j]) = moversIn hash old i js
      ++ if goesUp hash old.hashpower i s.key then [s] else [] := by
  rw [moversIn_concat]
  cases hup : goesUp hash old.hashpower i s.key <;> simp [hs, hup, Option.filter]

/-- A slot whose key goes up. -/
theorem spreadOver_up {js : List Nat} (hj : j ∉ js) (hs : old.slot i j = some s)
    (hup : goesUp hash old.hashpower i s.key = true) :
    (spreadOver hash old b i js).set (i + old.size) (moversIn hash old i js).length (some s)
      = spreadOver hash old b i (js ++ [j]) := by
  have hpos : old.size ≠ 0 := old.size_pos.ne'
  have hstay := stayer_some hash hs
  have hmovers := moversIn_some hash hs js
  rw [hup, if_pos rfl] at hstay hmovers
  unfold spreadOver Buckets.set
  rw [hmovers]
  congr 1
  funext i' j'
  by_cases hi : i' = i
  · subst hi
    by_cases hj' : j' = j
    · subst hj'
      simp [hj, hstay, hpos]
    · simp [hj', hpos]
  · by_cases hi' : i' = i + old.size
    · subst hi'
      -- the key is put behind those that went up before it
      rcases lt_trichotomy j' (moversIn hash old i js).length with hlt | heq | hgt
      · simp [ne_of_lt hlt, hpos, List.getElem?_append_left hlt]
      · simp [heq, hpos]
      · rw [List.getElem?_eq_none (l := moversIn hash old i js ++ [s]) (by simp; omega)]
        simp [hpos, (ne_of_lt hgt).symm, hgt.le]
    · simp [hi, hi']

/-- A slot whose key stays. -/
theorem spreadOver_down {js : List Nat} (hs : old.slot i j = some s)
    (hup : goesUp hash old.hashpower i s.key = false) :
    (spreadOver hash old b i js).set i j (some s) = spreadOver hash old b i (js ++ [j]) := by
  have hstay := stayer_some hash hs
  have hmovers := moversIn_some hash hs js
  rw [hup, if_neg Bool.false_ne_true] at hstay hmovers
  rw [List.append_nil] at hmovers
  unfold spreadOver Buckets.set
  rw [hmovers]
  congr 1
  funext i' j'
  by_cases hi : i' = i
  · subst hi
    by_cases hj' : j' = j
    · subst hj'
      simp [hstay]
    · simp [hj']
  · simp [hi]

/-- One slot. -/
theorem moveSlot_eq (hplaced : Placed hash old) {js : List Nat} (hj : j ∉ js) :
    moveSlot hash old i (spreadOver hash old b i js, (moversIn hash old i js).length) j
      = .ok (spreadOver hash old b i (js ++ [j]), (moversIn hash old i (js ++ [j])).length) := by
  have hpos : old.size ≠ 0 := old.size_pos.ne'
  unfold moveSlot
  cases hs : old.slot i j with
  | none =>
      have hmovers : moversIn hash old i (js ++ [j]) = moversIn hash old i js := by
        simp [moversIn_concat, hs]
      have hsame : spreadOver hash old b i (js ++ [j]) = spreadOver hash old b i js := by
        unfold spreadOver
        rw [hmovers]
        congr 1
        funext i' j'
        by_cases hj' : j' = j
        · subst hj'
          simp [hj, stayer, hs]
        · simp [hj']
      rw [hsame, hmovers]
  | some s =>
      have hmovers := moversIn_some hash hs js
      cases hup : goesUp hash old.hashpower i s.key with
      | true =>
          have hfree : (spreadOver hash old b i js).slot (i + old.size)
              (moversIn hash old i js).length = none := by
            simp [spreadOver, hpos]
          rw [hup, if_pos rfl] at hmovers
          simp only [hup, if_true, Buckets.setKV_eq hfree, ok_bind, spreadOver_up hj hs hup, hmovers,
            List.length_append, List.length_singleton]
      | false =>
          have hfree : (spreadOver hash old b i js).slot i j = none := by
            simp [spreadOver, hj]
          have hdown := (hplaced i j s hs).2.1.staysDown hup
          rw [hup, if_neg Bool.false_ne_true, List.append_nil] at hmovers
          simp only [hup, Bool.false_eq_true, if_false, hdown, if_true, Buckets.setKV_eq hfree,
            ok_bind, spreadOver_down hs hup, hmovers]

/-- **What `move_bucket` does**, if it finds the two buckets it fills empty. -/
theorem moveBucket_eq (hplaced : Placed hash old)
    (hempty : ∀ j, b.slot i j = none ∧ b.slot (i + old.size) j = none) :
    moveBucket hash old b i = .ok (spreadOver hash old b i (List.range SLOT_PER_BUCKET)) := by
  have hstart : spreadOver hash old b i [] = b := by
    unfold spreadOver
    cases b with
    | mk hp slot =>
        replace hempty : ∀ j, slot i j = none ∧ slot (i + old.size) j = none := hempty
        congr 1
        funext i' j
        by_cases hi : i' = i
        · subst hi
          simp [(hempty j).1]
        · by_cases hi' : i' = i + old.size
          · subst hi'
            simp [moversIn, (hempty j).2]
          · simp [hi, hi']
  have hloop : Yields ((List.range SLOT_PER_BUCKET).foldlM (moveSlot hash old i) (b, 0))
      (fun _ => False) fun acc => acc = (spreadOver hash old b i (List.range SLOT_PER_BUCKET),
        (moversIn hash old i (List.range SLOT_PER_BUCKET)).length) := by
    refine Yields.foldlM_upto (fun js acc => acc = (spreadOver hash old b i js,
      (moversIn hash old i js).length)) _ _ (by rw [hstart]; rfl) ?_
    rintro js j todo acc hl rfl
    have hj : j ∉ js := by
      have hnodup := List.nodup_range (n := SLOT_PER_BUCKET)
      rw [hl] at hnodup
      exact fun hmem => (List.disjoint_of_nodup_append hnodup) hmem List.mem_cons_self
    rw [moveSlot_eq hplaced hj]
    rfl
  obtain ⟨acc, hok, hacc⟩ := hloop.exists_ok
  unfold moveBucket
  rw [hok, hacc]
  rfl

/-- The slots of the two buckets that one old bucket is moved to. -/
theorem spreadOver_range (hi : i < old.size) (i' j : Nat) :
    (spreadOver hash old b i (List.range SLOT_PER_BUCKET)).slot i' j =
      if i' < 2 * old.size ∧ i' % old.size = i then spread hash old i' j else b.slot i' j := by
  have hiff : i' < 2 * old.size ∧ i' % old.size = i ↔ i' = i ∨ i' = i + old.size := by
    constructor
    · rintro ⟨hlt, hmod⟩
      have hdiv := Nat.mod_add_div i' old.size
      have hq : i' / old.size < 2 := Nat.div_lt_of_lt_mul (by omega)
      rw [hmod] at hdiv
      rcases Nat.lt_succ_iff_lt_or_eq.1 hq with h0 | h1
      · rw [Nat.lt_one_iff.1 h0] at hdiv
        omega
      · rw [h1] at hdiv
        omega
    · rintro (rfl | rfl)
      · exact ⟨by omega, Nat.mod_eq_of_lt hi⟩
      · exact ⟨by omega, by rw [Nat.add_mod_right, Nat.mod_eq_of_lt hi]⟩
  simp only [hiff]
  unfold spreadOver spread
  by_cases h : i' = i
  · subst h
    simp [hi]
  · by_cases h' : i' = i + old.size
    · subst h'
      have hne : ¬ i + old.size < old.size := by omega
      simp [hne, old.size_pos.ne']
    · simp [h, h']

variable (hash) in
/-- The buckets `b` after the old buckets `is` have been moved. -/
def spreadAll (old b : Buckets K V) (is : List Nat) : Buckets K V :=
  { b with slot := fun i' j =>
      if i' < 2 * old.size ∧ i' % old.size ∈ is then spread hash old i' j else b.slot i' j }

/-- **The loops over `move_bucket`.** -/
theorem moveBuckets_eq (hplaced : Placed hash old) {is : List Nat} (hnodup : is.Nodup)
    (hlt : ∀ i ∈ is, i < old.size)
    (hempty : ∀ i ∈ is, ∀ j, b.slot i j = none ∧ b.slot (i + old.size) j = none) :
    is.foldlM (moveBucket hash old) b = .ok (spreadAll hash old b is) := by
  have hloop : Yields (is.foldlM (moveBucket hash old) b) (fun _ => False)
      (· = spreadAll hash old b is) := by
    refine Yields.foldlM_upto (fun done b' => b' = spreadAll hash old b done) _ _ ?_ ?_
    · simp [spreadAll]
    rintro done i todo b' hl rfl
    have hmem : i ∈ is := by
      rw [hl]
      simp
    have hi := hlt i hmem
    have hnot : i ∉ done := by
      rw [hl] at hnodup
      exact fun h => (List.disjoint_of_nodup_append hnodup) h List.mem_cons_self
    have hfree : ∀ j, (spreadAll hash old b done).slot i j = none ∧
        (spreadAll hash old b done).slot (i + old.size) j = none := by
      intro j
      have h1 : i % old.size = i := Nat.mod_eq_of_lt hi
      simp [spreadAll, h1, hnot, hempty i hmem j]
    rw [moveBucket_eq hplaced hfree]
    show spreadOver hash old _ i _ = _
    have hslot : (spreadOver hash old (spreadAll hash old b done) i
        (List.range SLOT_PER_BUCKET)).slot = (spreadAll hash old b (done ++ [i])).slot := by
      funext i' j
      rw [spreadOver_range hi]
      unfold spreadAll
      by_cases hlt' : i' < 2 * old.size
      · by_cases hmod : i' % old.size = i
        · simp [hlt', hmod]
        · simp [hlt', hmod]
      · simp [hlt']
    unfold spreadOver spreadAll at hslot ⊢
    simp only [List.mem_append, List.mem_singleton] at hslot ⊢
    exact congrArg (Buckets.mk b.hashpower) hslot
  obtain ⟨b', hok, rfl⟩ := hloop.exists_ok
  exact hok

/-! ## Where keys come from -/

/-- No key is in two slots. -/
def Buckets.Unique (b : Buckets K V) : Prop :=
  ∀ i j s i' j' s', b.slot i j = some s → b.slot i' j' = some s' → s.key = s'.key →
    i = i' ∧ j = j'

theorem mem_moversIn {js : List Nat} : s ∈ moversIn hash old i js ↔
    ∃ j ∈ js, old.slot i j = some s ∧ goesUp hash old.hashpower i s.key = true := by
  unfold moversIn
  rw [List.mem_filterMap]
  refine exists_congr fun j => and_congr_right fun _ => ?_
  rw [Option.filter_eq_some_iff]

theorem nodup_moversIn (hunique : old.Unique) {js : List Nat} (hjs : js.Nodup) :
    (moversIn hash old i js).Nodup := by
  refine List.Nodup.filterMap (fun j j' s hs hs' => ?_) hjs
  obtain ⟨hs, -⟩ := Option.filter_eq_some_iff.1 hs
  obtain ⟨hs', -⟩ := Option.filter_eq_some_iff.1 hs'
  exact (hunique i j s i j' s hs hs' rfl).2

/-- What is spread to a slot comes from an old slot, the bucket's own or one of the bucket a
table's size below. -/
theorem spread_source (hs : spread hash old i j = some s) : ∃ i' j', old.slot i' j' = some s ∧
    (i = i' ∧ j = j' ∧ goesUp hash old.hashpower i' s.key = false ∨
      i = i' + old.size ∧ goesUp hash old.hashpower i' s.key = true ∧
        (moversIn hash old i' (List.range SLOT_PER_BUCKET))[j]? = some s) := by
  unfold spread at hs
  by_cases hi : i < old.size
  · rw [if_pos hi] at hs
    by_cases hj : j < SLOT_PER_BUCKET
    · rw [if_pos hj] at hs
      obtain ⟨hslot, hdown⟩ := Option.filter_eq_some_iff.1 hs
      exact ⟨i, j, hslot, Or.inl ⟨rfl, rfl, by simpa using hdown⟩⟩
    · rw [if_neg hj] at hs
      cases hs
  · rw [if_neg hi] at hs
    obtain ⟨j', -, hslot, hup⟩ := mem_moversIn.1 (List.mem_of_getElem? hs)
    exact ⟨i - old.size, j', hslot, Or.inr ⟨by omega, hup, hs⟩⟩

/-- **No key is lost.** -/
theorem exists_spread (hplaced : Placed hash old) (hs : old.slot i j = some s) :
    ∃ i' j', spread hash old i' j' = some s := by
  obtain ⟨hj, hbucket, -⟩ := hplaced i j s hs
  cases hup : goesUp hash old.hashpower i s.key with
  | true =>
      have hmem : s ∈ moversIn hash old i (List.range SLOT_PER_BUCKET) :=
        mem_moversIn.2 ⟨j, List.mem_range.2 hj, hs, hup⟩
      obtain ⟨j', hj'⟩ := List.mem_iff_getElem?.1 hmem
      refine ⟨i + old.size, j', ?_⟩
      unfold spread
      rw [if_neg (by omega), Nat.add_sub_cancel]
      exact hj'
  | false =>
      have hi : i < old.size := hbucket.lt
      refine ⟨i, j, ?_⟩
      unfold spread
      rw [if_pos hi, if_pos hj, stayer_some hash hs, hup, if_neg Bool.false_ne_true]

/-- **Every key is where it belongs** in the table twice the size. -/
theorem spread_placed (hplaced : Placed hash old) (hs : spread hash old i j = some s) :
    j < SLOT_PER_BUCKET ∧ BucketOf hash (old.hashpower + 1) s.key i ∧
      s.partialKey = partialKey (hash s.key) := by
  obtain ⟨i', j', hslot, hcase⟩ := spread_source hs
  obtain ⟨hj, hbucket, hpartial⟩ := hplaced i' j' s hslot
  rcases hcase with ⟨rfl, rfl, hdown⟩ | ⟨rfl, hup, hget⟩
  · exact ⟨hj, bucketOf_of_staysDown (hbucket.staysDown hdown), hpartial⟩
  · refine ⟨?_, bucketOf_of_goesUp hup, hpartial⟩
    have hlt := (List.getElem?_eq_some_iff.1 hget).1
    have hle : (moversIn hash old i' (List.range SLOT_PER_BUCKET)).length ≤ SLOT_PER_BUCKET := by
      have := List.length_filterMap_le (fun j => (old.slot i' j).filter fun s =>
        goesUp hash old.hashpower i' s.key) (List.range SLOT_PER_BUCKET)
      rwa [List.length_range] at this
    exact Nat.lt_of_lt_of_le hlt hle

/-- **No key is doubled.** -/
theorem spread_unique (hunique : old.Unique) {i' j' : Nat} {s' : Slot K V}
    (hs : spread hash old i j = some s) (hs' : spread hash old i' j' = some s')
    (hkey : s.key = s'.key) : i = i' ∧ j = j' := by
  obtain ⟨i₁, j₁, hslot, hcase⟩ := spread_source hs
  obtain ⟨i₂, j₂, hslot', hcase'⟩ := spread_source hs'
  obtain ⟨rfl, rfl⟩ := hunique i₁ j₁ s i₂ j₂ s' hslot hslot' hkey
  rw [hslot] at hslot'
  cases hslot'
  rcases hcase with ⟨rfl, rfl, hdown⟩ | ⟨rfl, hup, hget⟩ <;>
    rcases hcase' with ⟨rfl, rfl, hdown'⟩ | ⟨rfl, hup', hget'⟩
  · exact ⟨rfl, rfl⟩
  · exact absurd (hdown.symm.trans hup') (by simp)
  · exact absurd (hdown'.symm.trans hup) (by simp)
  · have hlt := (List.getElem?_eq_some_iff.1 hget).1
    exact ⟨rfl, (List.getElem?_inj hlt (nodup_moversIn hunique List.nodup_range)).1
      (hget.trans hget'.symm)⟩

end ZoneBuffer.Cuckoo
