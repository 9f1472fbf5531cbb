import ZoneBuffer.Cuckoo.Search
import ZoneBuffer.Cuckoo.Content
import Mathlib.Data.List.Chain

set_option autoImplicit false

/-! # Moving keys along a path

`cuckoopath_search` writes a path down as records, and `cuckoopath_move` moves the key of each one
to the next, from the last record to the first. Each move empties the slot that the next one
fills. That no slot is used twice is what makes every move find its two slots as the search left
them, and it holds because the path is a shortest one. So with one thread in the table the first
path found can always be followed to its end (`runCuckoo_spec`). -/

namespace ZoneBuffer.Cuckoo

open Outcome Breadth CuckooMap

variable {K V : Type} {hash : K → UInt64} {m : CuckooMap K V} {hp i₁ i₂ b e j : Nat}
  {v v' : Nat → Nat → Option (Slot K V)} {s : Slot K V} {js : List Nat}
  {src dst : CuckooRecord} {path : List CuckooRecord}

/-! ## Records -/

/-- The key in the slot of `src` could move to the bucket of `dst`. -/
def Link (hash : K → UInt64) (hp : Nat) (v : Nat → Nat → Option (Slot K V))
    (src dst : CuckooRecord) : Prop :=
  ∃ s, v src.bucket src.slot = some s ∧ src.hv = some (hashedKey hash s.key) ∧
    dst.bucket = altIndex hp s.partialKey src.bucket

/-- The records, the last one first, of a path that can be followed. -/
structure Ready (hash : K → UInt64) (hp : Nat) (v : Nat → Nat → Option (Slot K V))
    (path : List CuckooRecord) : Prop where
  chain : path.IsChain fun dst src => Link hash hp v src dst
  free : ∀ r ∈ path.head?, v r.bucket r.slot = none
  slots : ∀ r ∈ path, r.slot < SLOT_PER_BUCKET
  nodup : (path.map CuckooRecord.bucket).Nodup

/-- **The loop that fills in the records.** -/
theorem fillPath_spec (h : Inv hash m) (hv : m.view hash = v)
    (hend : follow (next m.hashpower v) b js = some e) (hfree : v e j = none)
    (hj : j < SLOT_PER_BUCKET) :
    ∃ path m', fillPath hash m.hashpower b (js ++ [j]) m = .ok (path, m') ∧ Inv hash m' ∧
      Rehashed hash m m' ∧ path.map CuckooRecord.bucket = visited (next m.hashpower v) b js ∧
      path.IsChain (Link hash m.hashpower v) ∧ (∀ r ∈ path.getLast?, v r.bucket r.slot = none) ∧
      ∀ r ∈ path, r.slot < SLOT_PER_BUCKET := by
  induction js generalizing b m with
  | nil =>
      obtain rfl : b = e := Option.some.inj hend
      obtain ⟨m', hok, hinv, hre, hmig⟩ := lockOne_spec h b
      have hslot : m'.buckets.slot b j = none := by
        rw [← view_of_migrated hmig, hre.view, hv]
        exact hfree
      refine ⟨[⟨b, j, none⟩], m', ?_, hinv, hre, rfl, List.isChain_singleton _, ?_, ?_⟩
      · unfold fillPath
        rw [List.nil_append]
        simp only [hok, ok_bind, hslot]
      · intro r hr
        cases hr
        exact hfree
      · intro r hr
        rw [List.mem_singleton.1 hr]
        exact hj
  | cons j₀ js ih =>
      obtain ⟨b', hnext, hend'⟩ := follow_cons hend
      obtain ⟨s, hs, hb'⟩ := Option.map_eq_some_iff.1 hnext
      have hs' := hs
      rw [← hv] at hs'
      obtain ⟨hj₀, hbucket, hpartial⟩ := h.placed b j₀ s hs'
      obtain ⟨m₁, hok, hinv, hre, hmig⟩ := lockOne_spec h b
      have hhp : m₁.hashpower = m.hashpower := hre.hashpower
      have hslot : m₁.buckets.slot b j₀ = some s := by
        rw [← view_of_migrated hmig, hre.view, hv]
        exact hs
      obtain ⟨path, m', hfill, hinv', hre', hmap, hchain, hlast, hslots⟩ :=
        ih hinv (hre.view.trans hv) (b := b') (by rw [hhp]; exact hend')
      rw [hhp] at hfill hmap hchain
      -- the bucket of the first record of the rest is the one the key could move to
      have hhead : ∀ r ∈ path.head?, r.bucket = b' := by
        intro r hr
        cases path with
        | nil => cases hr
        | cons r' path =>
            cases hr
            rw [List.map_cons] at hmap
            cases js with
            | nil => exact (List.cons.inj hmap).1
            | cons j₁ js =>
                obtain ⟨b'', hb'', -⟩ := follow_cons hend'
                rw [visited_cons hb''] at hmap
                exact (List.cons.inj hmap).1
      have hne : path ≠ [] := by
        rintro rfl
        cases js with
        | nil => cases hmap
        | cons j₁ js =>
            obtain ⟨b'', hb'', -⟩ := follow_cons hend'
            rw [visited_cons hb''] at hmap
            cases hmap
      refine ⟨⟨b, j₀, some (hashedKey hash s.key)⟩ :: path, m', ?_, hinv', hre.trans hre', ?_, ?_,
        ?_, ?_⟩
      · rw [List.cons_append]
        unfold fillPath
        have hpk : (hashedKey hash s.key).partialKey = s.partialKey := hpartial.symm
        simp only [hok, ok_bind, hslot, isBucketOf_iff.2 hbucket, hpk, hb', hfill, if_true,
          List.append_eq_nil_iff, List.cons_ne_nil, and_false, if_false]
      · rw [List.map_cons, hmap, visited_cons hnext]
      · refine hchain.cons fun r hr => ⟨s, hs, rfl, ?_⟩
        rw [hhead r hr]
        exact hb'.symm
      · rw [List.getLast?_cons_of_ne_nil hne]
        exact hlast
      · exact List.forall_mem_cons.2 ⟨hj₀, hslots⟩

/-! ## Moves -/

/-- **One move.** -/
theorem moveKey_spec (h : Inv hash m) (hsrc : (m.locks (lockInd src.bucket)).isMigrated = true)
    (hdst : (m.locks (lockInd dst.bucket)).isMigrated = true)
    (hs : m.view hash src.bucket src.slot = some s) (hhv : src.hv = some (hashedKey hash s.key))
    (hfree : m.view hash dst.bucket dst.slot = none) (hslot : dst.slot < SLOT_PER_BUCKET)
    (hb : dst.bucket = altIndex m.hashpower s.partialKey src.bucket) :
    moveKey hash src dst m = .ok (true,
        (m.put dst.bucket dst.slot (some s)).put src.bucket src.slot none) ∧
      Inv hash ((m.put dst.bucket dst.slot (some s)).put src.bucket src.slot none) ∧
      Kept hash m ((m.put dst.bucket dst.slot (some s)).put src.bucket src.slot none) := by
  obtain ⟨-, hbucket, hpartial⟩ := h.placed _ _ s hs
  have hbelongs : BucketOf hash m.hashpower s.key dst.bucket := by
    rw [hb, hpartial]
    exact hbucket.alt
  have hread : m.buckets.slot src.bucket src.slot = some s := by
    rw [← view_of_migrated hsrc]
    exact hs
  have hread' : m.buckets.slot dst.bucket dst.slot = none := by
    rw [← view_of_migrated hdst]
    exact hfree
  have hne : ¬ (src.bucket = dst.bucket ∧ src.slot = dst.slot) := by
    rintro ⟨hb, hj⟩
    rw [hb, hj, hread'] at hread
    cases hread
  refine ⟨?_, move_spec h hsrc hdst hs hfree hslot hbelongs⟩
  have herase : (m.buckets.set dst.bucket dst.slot (some s)).slot src.bucket src.slot = some s := by
    unfold Buckets.set
    simp only [if_neg hne]
    exact hread
  have hhash : hash s.key = (hashedKey hash s.key).hash := rfl
  unfold moveKey
  simp only [hread, hread', hhv, if_pos hhash, Buckets.setKV_eq hread', ok_bind,
    Buckets.eraseKV_eq herase]
  rfl

/-- The locks that a move takes. -/
theorem lockMove_spec (h : Inv hash m) (src dst : CuckooRecord) (path : List CuckooRecord)
    (hends : path = [] → src.bucket = i₁ ∨ src.bucket = i₂) :
    ∃ m', (if path = [] then m.lockThree hash i₁ i₂ dst.bucket
        else m.lockTwo hash src.bucket dst.bucket) = .ok m' ∧ Inv hash m' ∧ Rehashed hash m m' ∧
      (m'.locks (lockInd src.bucket)).isMigrated = true ∧
      (m'.locks (lockInd dst.bucket)).isMigrated = true ∧
      (path = [] → (m'.locks (lockInd i₁)).isMigrated = true ∧
        (m'.locks (lockInd i₂)).isMigrated = true) := by
  by_cases hp : path = []
  · obtain ⟨m', hok, hinv, hre, h₁, h₂, h₃⟩ := lockThree_spec h i₁ i₂ dst.bucket
    refine ⟨m', by rw [if_pos hp]; exact hok, hinv, hre, ?_, h₃, fun _ => ⟨h₁, h₂⟩⟩
    rcases hends hp with hb | hb
    · rw [hb]
      exact h₁
    · rw [hb]
      exact h₂
  · obtain ⟨m', hok, hinv, hre, h₁, h₂⟩ := lockTwo_spec h src.bucket dst.bucket
    exact ⟨m', by rw [if_neg hp]; exact hok, hinv, hre, h₁, h₂, fun h => absurd h hp⟩

/-- After a move the rest of the path can be followed. -/
theorem Ready.rest (h : Ready hash hp v (dst :: src :: path))
    (hsrc : v' src.bucket src.slot = none)
    (hrest : ∀ i j, i ≠ src.bucket → i ≠ dst.bucket → v' i j = v i j) :
    Ready hash hp v' (src :: path) where
  chain := by
    refine (List.isChain_cons_cons.1 h.chain).2.imp_of_mem_tail_imp fun a r _ hr hlink => ?_
    obtain ⟨s, hs, hlink⟩ := hlink
    have hnodup := h.nodup
    rw [List.map_cons, List.map_cons, List.nodup_cons, List.nodup_cons] at hnodup
    have hmem : r.bucket ∈ path.map CuckooRecord.bucket := List.mem_map_of_mem hr
    refine ⟨s, ?_, hlink⟩
    rw [hrest]
    · exact hs
    · exact fun heq => hnodup.2.1 (heq ▸ hmem)
    · exact fun heq => hnodup.1 (List.mem_cons_of_mem _ (heq ▸ hmem))
  free r hr := by
    cases hr
    exact hsrc
  slots := (List.forall_mem_cons.1 h.slots).2
  nodup := (List.nodup_cons.1 h.nodup).2

/-- **The loop over the moves.** -/
theorem moveAlong_spec (h : Inv hash m)
    (hready : Ready hash m.hashpower (m.view hash) (dst :: path))
    (hends : ∀ r ∈ (dst :: path).getLast?, r.bucket = i₁ ∨ r.bucket = i₂) :
    ∃ m', moveAlong hash i₁ i₂ (dst :: path) m = .ok (true, m') ∧ Inv hash m' ∧ Kept hash m m' ∧
      (∀ r ∈ (dst :: path).getLast?, m'.view hash r.bucket r.slot = none) ∧
      (path ≠ [] → (m'.locks (lockInd i₁)).isMigrated = true ∧
        (m'.locks (lockInd i₂)).isMigrated = true) := by
  induction path generalizing dst m with
  | nil =>
      refine ⟨m, rfl, h, (Rehashed.refl m).kept, fun r hr => ?_, fun h => absurd rfl h⟩
      cases hr
      exact hready.free dst rfl
  | cons src path ih =>
      rw [List.getLast?_cons_cons] at hends ⊢
      have hsrcEnd : path = [] → src.bucket = i₁ ∨ src.bucket = i₂ := by
        rintro rfl
        exact hends src rfl
      obtain ⟨m₁, hok₁, hinv₁, hre, hmigs, hmigd, hboth⟩ := lockMove_spec h src dst path hsrcEnd
      obtain ⟨s, hs, hhv, hb⟩ := (List.isChain_cons_cons.1 hready.chain).1
      have hfree := hready.free dst rfl
      rw [← hre.view] at hs hfree
      rw [← hre.hashpower] at hb
      obtain ⟨hmove, hinv₂, hkept⟩ := moveKey_spec hinv₁ hmigs hmigd hs hhv hfree
        (hready.slots dst List.mem_cons_self) hb
      have hview : ∀ i j, ((m₁.put dst.bucket dst.slot (some s)).put src.bucket src.slot
          none).view hash i j = if i = src.bucket ∧ j = src.slot then none
            else if i = dst.bucket ∧ j = dst.slot then some s else m.view hash i j := by
        intro i j
        have hmigs' : ((m₁.put dst.bucket dst.slot (some s)).locks
          (lockInd src.bucket)).isMigrated = true := hmigs
        rw [view_put hmigs', view_put hmigd, hre.view]
      have hready' : Ready hash ((m₁.put dst.bucket dst.slot (some s)).put src.bucket src.slot
          none).hashpower (((m₁.put dst.bucket dst.slot (some s)).put src.bucket src.slot
          none).view hash) (src :: path) := by
        rw [hkept.hashpower, hre.hashpower]
        refine hready.rest ?_ fun i j hi hi' => ?_
        · rw [hview, if_pos ⟨rfl, rfl⟩]
        · rw [hview, if_neg fun h => hi h.1, if_neg fun h => hi' h.1]
      obtain ⟨m', hok, hinv, hkept', hlast, hmig⟩ := ih hinv₂ hready' hends
      refine ⟨m', ?_, hinv, (hre.kept.trans hkept).trans hkept', hlast, fun _ => ?_⟩
      · unfold moveAlong
        by_cases hp : path = []
        · rw [if_pos hp] at hok₁
          simp only [if_pos hp, hok₁, ok_bind, hmove, if_true]
          exact hok
        · rw [if_neg hp] at hok₁
          simp only [if_neg hp, hok₁, ok_bind, hmove, if_true]
          exact hok
      · by_cases hp : path = []
        · obtain ⟨h₁, h₂⟩ := hboth hp
          exact ⟨hkept'.migrated _ (hkept.migrated _ h₁), hkept'.migrated _ (hkept.migrated _ h₂)⟩
        · exact hmig hp

/-! ## A search and the moves it leads to -/

/-- Every bucket that a key in bucket `i₁` or `i₂` could make its way to in few enough moves is
full. -/
def Saturated (hp : Nat) (v : Nat → Nat → Option (Slot K V)) (i₁ i₂ : Nat) : Prop :=
  ∀ b js e, b = i₁ ∨ b = i₂ → js.length < MAX_BFS_PATH_LEN → follow (next hp v) b js = some e →
    Full v e

/-- **`cuckoopath_search`** returns a path that can be followed, unless there is none. -/
theorem cuckoopathSearch_spec (h : Inv hash m) (i₁ i₂ : Nat) :
    ∃ r m', cuckoopathSearch hash m.hashpower i₁ i₂ m = .ok (r, m') ∧ Inv hash m' ∧
      Rehashed hash m m' ∧ (r = none ↔ Saturated m.hashpower (m.view hash) i₁ i₂) ∧
      ∀ path, r = some path → Ready hash m.hashpower (m.view hash) path.reverse ∧
        ∃ first rest, path = first :: rest ∧ (first.bucket = i₁ ∨ first.bucket = i₂) := by
  obtain ⟨r, m₁, hok, hinv, hre, hres, hnone⟩ := slotSearch_spec h rfl i₁ i₂
  unfold cuckoopathSearch
  rw [hok, ok_bind]
  cases r with
  | none =>
      exact ⟨none, m₁, rfl, hinv, hre, ⟨fun _ => hnone rfl, fun _ => rfl⟩,
        fun path hp => by cases hp⟩
  | some y =>
      obtain ⟨b, js, j, e, hdec, hj, hlen, hfree, hshort⟩ := hres y rfl
      have hroot : b = i₁ ∨ b = i₂ := by
        rcases hdec with ⟨-, hb⟩ | ⟨-, hb⟩
        · exact Or.inl hb
        · exact Or.inr hb
      have hopen : ¬ Saturated m.hashpower (m.view hash) i₁ i₂ := fun hsat =>
        hsat b js e hroot hlen hshort.ends j hj hfree
      have hhp : m₁.hashpower = m.hashpower := hre.hashpower
      obtain ⟨path, m', hfill, hinv', hre', hmap, hchain, hlast, hslots⟩ :=
        fillPath_spec hinv hre.view (hhp ▸ hshort.ends) hfree hj
      rw [hhp] at hfill hmap hchain
      have hready : Ready hash m.hashpower (m.view hash) path.reverse := by
        refine ⟨List.isChain_reverse.2 hchain, ?_, fun r hr => hslots r (List.mem_reverse.1 hr), ?_⟩
        · rw [List.head?_reverse]
          exact hlast
        · rw [List.map_reverse, List.nodup_reverse, hmap]
          exact hshort.nodup
      have hfirst : ∃ first rest, path = first :: rest ∧ first.bucket = b := by
        cases path with
        | nil => cases js <;> cases hmap
        | cons first rest =>
            refine ⟨first, rest, rfl, ?_⟩
            rw [List.map_cons] at hmap
            cases js <;> exact (List.cons.inj hmap).1
      obtain ⟨first, rest, rfl, hb⟩ := hfirst
      refine ⟨some (first :: rest), m', ?_, hinv', hre.trans hre',
        ⟨(fun hr => by cases hr), fun hsat => absurd hsat hopen⟩, fun path hp => ?_⟩
      · rcases hdec with ⟨hcode, rfl⟩ | ⟨hcode, rfl⟩
        · simp only [hcode, if_true, hfill, ok_bind]
        · simp only [hcode, Nat.one_ne_zero, if_false, if_true, hfill, ok_bind]
      · cases hp
        rw [← hb] at hroot
        exact ⟨hready, first, rest, rfl, hroot⟩

/-- **`cuckoopath_move`** along such a path succeeds and frees the slot of its first record. -/
theorem cuckoopathMove_spec (h : Inv hash m) {first : CuckooRecord}
    (hready : Ready hash m.hashpower (m.view hash) (first :: path).reverse)
    (hfirst : first.bucket = i₁ ∨ first.bucket = i₂) :
    ∃ m', cuckoopathMove hash i₁ i₂ (first :: path) m = .ok (true, m') ∧ Inv hash m' ∧
      Kept hash m m' ∧ m'.view hash first.bucket first.slot = none ∧
      (m'.locks (lockInd i₁)).isMigrated = true ∧ (m'.locks (lockInd i₂)).isMigrated = true := by
  cases path with
  | nil =>
      obtain ⟨m', hok, hinv, hre, h₁, h₂⟩ := lockTwo_spec h i₁ i₂
      have hfree : m'.view hash first.bucket first.slot = none := by
        rw [hre.view]
        exact hready.free first rfl
      have hmig : (m'.locks (lockInd first.bucket)).isMigrated = true := by
        rcases hfirst with hb | hb
        · rw [hb]
          exact h₁
        · rw [hb]
          exact h₂
      have hread : m'.buckets.slot first.bucket first.slot = none := by
        rw [← view_of_migrated hmig]
        exact hfree
      refine ⟨m', ?_, hinv, hre.kept, hfree, h₁, h₂⟩
      unfold cuckoopathMove
      simp only [hok, ok_bind, hread, Option.isNone_none]
  | cons second path =>
      have hlast : (first :: second :: path).reverse.getLast? = some first := by
        rw [List.getLast?_reverse, List.head?_cons]
      have hlen : 2 ≤ (first :: second :: path).reverse.length := by simp
      have hmove : cuckoopathMove hash i₁ i₂ (first :: second :: path) m
          = moveAlong hash i₁ i₂ (first :: second :: path).reverse m := rfl
      rw [hmove]
      cases hrev : (first :: second :: path).reverse with
      | nil =>
          rw [hrev] at hlen
          exact absurd hlen (by simp)
      | cons dst rest =>
          rw [hrev] at hready hlast hlen
          have hrest : rest ≠ [] := by
            rintro rfl
            exact absurd hlen (by simp)
          obtain ⟨m', hok, hinv, hkept, hfree, hmig⟩ := moveAlong_spec h hready
            (by
              intro r hr
              rw [hlast] at hr
              cases hr
              exact hfirst)
          exact ⟨m', hok, hinv, hkept, hfree first hlast, hmig hrest⟩

/-- **`run_cuckoo`**: the first path that is found can be followed. The content stays, and a slot
of one of the two buckets is free, unless there is no path. -/
theorem runCuckoo_spec (h : Inv hash m) (i₁ i₂ : Nat) :
    ∃ r m', runCuckoo hash m.hashpower i₁ i₂ 1 m = .ok (r, m') ∧ Inv hash m' ∧ Kept hash m m' ∧
      (r = none ↔ Saturated m.hashpower (m.view hash) i₁ i₂) ∧ ∀ pos, r = some pos → (pos.index = i₁ ∨ pos.index = i₂) ∧ pos.slot < SLOT_PER_BUCKET ∧
        m'.view hash pos.index pos.slot = none ∧
        (m'.locks (lockInd i₁)).isMigrated = true ∧
        (m'.locks (lockInd i₂)).isMigrated = true := by
  obtain ⟨r, m₁, hok, hinv, hre, hnone, hres⟩ := cuckoopathSearch_spec h i₁ i₂
  unfold runCuckoo
  rw [hok, ok_bind]
  cases r with
  | none =>
      exact ⟨none, m₁, rfl, hinv, hre.kept, ⟨fun _ => hnone.1 rfl, fun _ => rfl⟩,
        fun pos hpos => by cases hpos⟩
  | some path =>
      obtain ⟨hready, first, rest, rfl, hfirst⟩ := hres path rfl
      have hready₁ := hready
      rw [← hre.hashpower, ← hre.view] at hready₁
      obtain ⟨m', hmove, hinv', hkept, hfree, h₁, h₂⟩ := cuckoopathMove_spec hinv hready₁ hfirst
      have hmig : (m'.locks (lockInd first.bucket)).isMigrated = true := by
        rcases hfirst with hb | hb
        · rw [hb]
          exact h₁
        · rw [hb]
          exact h₂
      have hread : m'.buckets.slot first.bucket first.slot = none := by
        rw [← view_of_migrated hmig]
        exact hfree
      have hopen : ¬ Saturated m.hashpower (m.view hash) i₁ i₂ := fun hsat => by
        cases hnone.2 hsat
      refine ⟨some ⟨first.bucket, first.slot⟩, m', ?_, hinv', hre.kept.trans hkept,
        ⟨(fun hr => by cases hr), fun hsat => absurd hsat hopen⟩, ?_⟩
      · simp only [hmove, ok_bind, not_true_eq_false, if_false, if_pos (And.intro hfirst hread)]
      · intro pos hpos
        cases hpos
        exact ⟨hfirst, hready.slots first (by simp), hfree, h₁, h₂⟩

end ZoneBuffer.Cuckoo
