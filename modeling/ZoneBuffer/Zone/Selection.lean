import ZoneBuffer.Zone.Controller
import ZoneBuffer.Lib.Outcome

set_option autoImplicit false

/-! # Choosing a zone

`select_write_zone` looks at the zones in turn. A zone of the cluster that is open is returned if
it has room and finished if not; where none is returned, the first zone that is empty is opened.
`Selected` says what this does to the zones. Nothing is assumed of the state it is called in. -/

namespace ZoneBuffer

open Outcome

namespace Controller

variable {g : Geometry} {c : Int} {n z : Nat} {s s' s'' : Controller}

theorem modifyZone_zone (s : Controller) (i : Nat) (f : ZoneDesc → ZoneDesc) (j : Nat) :
    (s.modifyZone i f).zone j = if j = i then f (s.zone i) else s.zone j :=
  Function.update_apply ..

/-- A field that the update keeps is kept in every zone. -/
theorem modifyZone_field {α : Type} (field : ZoneDesc → α) {f : ZoneDesc → ZoneDesc}
    (hf : ∀ d, field (f d) = field d) (s : Controller) (i j : Nat) :
    field ((s.modifyZone i f).zone j) = field (s.zone j) := by
  rw [modifyZone_zone]
  split
  case isTrue hj => rw [hf, hj]
  case isFalse => rfl

/-- Finish an open zone, on the device and in its descriptor. -/
def close (g : Geometry) (s : Controller) (i : Nat) : Controller :=
  (s.finishZone g i).modifyZone i fun d => { d with cond := .full }

/-- Open an empty zone for cluster `cf`, on the device and in its descriptor. -/
def openFor (s : Controller) (i : Nat) (cf : Int) : Controller :=
  (s.openZone i).modifyZone i fun d => { d with cond := .expOpen, cf := cf }

theorem close_zone (s : Controller) (i j : Nat) :
    (close g s i).zone j = if j = i then { s.zone i with cond := .full } else s.zone j :=
  modifyZone_zone ..

theorem close_dev (s : Controller) (i j : Nat) :
    (close g s i).dev.zone j
      = if j = i then ⟨.full, g.ofst i + g.zoneSize⟩ else s.dev.zone j :=
  Function.update_apply ..

theorem openFor_zone (s : Controller) (i : Nat) (cf : Int) (j : Nat) :
    (openFor s i cf).zone j
      = if j = i then { s.zone i with cond := .expOpen, cf := cf } else s.zone j :=
  modifyZone_zone ..

theorem openFor_dev (s : Controller) (i : Nat) (cf : Int) (j : Nat) :
    (openFor s i cf).dev.zone j
      = if j = i then ⟨.expOpen, (s.dev.zone i).wp⟩ else s.dev.zone j :=
  Function.update_apply ..

/-- Zone `z` is open, belongs to cluster `c` and has room for `n` pages. -/
structure Chosen (g : Geometry) (c : Int) (n z : Nat) (s : Controller) : Prop where
  cond : (s.zone z).cond = .expOpen
  cf : (s.zone z).cf = c
  room : (s.zone z).wp + n * PAGE_SIZE ≤ g.ofst z + g.cap

/-- Zone `i` is open for cluster `c` and has no room for `n` pages. -/
structure Cramped (g : Geometry) (c : Int) (n i : Nat) (s : Controller) : Prop where
  cond : (s.zone i).cond = .expOpen
  cf : (s.zone i).cf = c
  exceeds : g.ofst i + g.cap < (s.zone i).wp + n * PAGE_SIZE

/-- Whether a zone would do depends on its descriptor only. -/
theorem chosen_congr (hz : s'.zone z = s.zone z) : Chosen g c n z s' ↔ Chosen g c n z s := by
  constructor
  · rintro ⟨hcond, hcf, hroom⟩
    rw [hz] at hcond hcf hroom
    exact ⟨hcond, hcf, hroom⟩
  · rintro ⟨hcond, hcf, hroom⟩
    rw [← hz] at hcond hcf hroom
    exact ⟨hcond, hcf, hroom⟩

theorem cramped_congr (hz : s'.zone z = s.zone z) : Cramped g c n z s' ↔ Cramped g c n z s := by
  constructor
  · rintro ⟨hcond, hcf, hover⟩
    rw [hz] at hcond hcf hover
    exact ⟨hcond, hcf, hover⟩
  · rintro ⟨hcond, hcf, hover⟩
    rw [← hz] at hcond hcf hover
    exact ⟨hcond, hcf, hover⟩

/-- Zone `i` is as it was. -/
structure Same (s s' : Controller) (i : Nat) : Prop where
  zone : s'.zone i = s.zone i
  dev : s'.dev.zone i = s.dev.zone i

/-- Zone `i` has been finished for want of room. -/
structure Finished (g : Geometry) (c : Int) (n : Nat) (s s' : Controller) (i : Nat) : Prop where
  cramped : Cramped g c n i s
  zone : s'.zone i = { s.zone i with cond := .full }
  dev : s'.dev.zone i = ⟨.full, g.ofst i + g.zoneSize⟩

/-- Zone `i` was empty and has been opened. -/
structure Opened (c : Int) (s s' : Controller) (i : Nat) : Prop where
  free : (s.zone i).cf = -1
  cond : (s.zone i).cond = .empty
  zone : s'.zone i = { s.zone i with cond := .expOpen, cf := c }
  dev : s'.dev.zone i = ⟨.expOpen, (s.dev.zone i).wp⟩

/-- Nothing but the zones and what the device knows of them has changed. -/
def ZonesOnly (s s' : Controller) : Prop :=
  s' = { s with zone := s'.zone, dev := { s.dev with zone := s'.dev.zone } }

/-- **What choosing zone `z` for `n` pages of cluster `c` does.** -/
structure Selected (g : Geometry) (c : Int) (n : Nat) (s : Controller) (z : Nat)
    (s' : Controller) : Prop where
  lt : z < g.maxZoneNum
  only : ZonesOnly s s'
  target : Chosen g c n z s ∧ Same s s' z ∨ Opened c s s' z
  other : ∀ i, i ≠ z → Same s s' i ∨ Finished g c n s s' i

theorem ZonesOnly.trans (h : ZonesOnly s s') (h' : ZonesOnly s' s'') : ZonesOnly s s'' := by
  rw [ZonesOnly, h', h]

theorem Finished.not_open (h : Finished g c n s s' z) : (s'.zone z).cond ≠ .expOpen := by
  rw [h.zone]
  simp

/-- The first loop finishes zones, and returns one it has left alone. -/
theorem selectOpen_any (c : Int) (n : Nat) (is : List Nat) (s : Controller) :
    ZonesOnly s (selectOpen g c n is s).1 ∧
      (∀ i, Same s (selectOpen g c n is s).1 i ∨ Finished g c n s (selectOpen g c n is s).1 i) ∧
      ∀ z, (selectOpen g c n is s).2 = some z →
        z ∈ is ∧ Chosen g c n z s ∧ Same s (selectOpen g c n is s).1 z := by
  induction is generalizing s with
  | nil =>
      refine ⟨rfl, fun _ => Or.inl ⟨rfl, rfl⟩, fun z hz => ?_⟩
      cases hz
  | cons i is ih =>
      rw [selectOpen]
      split
      case isTrue hfit =>
        refine ⟨rfl, fun _ => Or.inl ⟨rfl, rfl⟩, fun z hz => ?_⟩
        cases hz
        exact ⟨List.mem_cons_self, ⟨hfit.2.1, hfit.1, hfit.2.2⟩, rfl, rfl⟩
      case isFalse hfit =>
        split
        case isFalse =>
          obtain ⟨honly, hall, hsome⟩ := ih s
          exact ⟨honly, hall, fun z hz =>
            ⟨List.mem_cons_of_mem i (hsome z hz).1, (hsome z hz).2⟩⟩
        case isTrue hover =>
          obtain ⟨honly, hall, hsome⟩ := ih (close g s i)
          have hother : ∀ j, j ≠ i → Same s (close g s i) j := fun j hj =>
            ⟨by rw [close_zone, if_neg hj], by rw [close_dev, if_neg hj]⟩
          have hself : Finished g c n s (close g s i) i :=
            ⟨⟨hover.2.1, hover.1, hover.2.2⟩, by rw [close_zone, if_pos rfl],
              by rw [close_dev, if_pos rfl]⟩
          refine ⟨?_, fun j => ?_, fun z hz => ?_⟩
          · exact ZonesOnly.trans (rfl : ZonesOnly s (close g s i)) honly
          · by_cases hj : j = i
            · subst hj
              right
              rcases hall j with hsame | hfin
              · exact ⟨hself.cramped, hsame.zone.trans hself.zone, hsame.dev.trans hself.dev⟩
              · exact absurd hfin.cramped.cond hself.not_open
            · have hsame₁ := hother j hj
              rcases hall j with hsame | hfin
              · exact Or.inl ⟨hsame.zone.trans hsame₁.zone, hsame.dev.trans hsame₁.dev⟩
              · exact Or.inr ⟨(cramped_congr hsame₁.zone).1 hfin.cramped,
                  by rw [← hsame₁.zone]; exact hfin.zone, hfin.dev⟩
          · obtain ⟨hmem, hchosen, hsame⟩ := hsome z hz
            have hne : z ≠ i := by
              rintro rfl
              exact hself.not_open hchosen.cond
            have hsame₁ := hother z hne
            exact ⟨List.mem_cons_of_mem i hmem, (chosen_congr hsame₁.zone).1 hchosen,
              hsame.zone.trans hsame₁.zone, hsame.dev.trans hsame₁.dev⟩

/-- If the first loop returns no zone, none was as asked for, and none of the cluster is open any
more. -/
theorem selectOpen_none {is : List Nat} (h : (selectOpen g c n is s).2 = none) :
    ∀ i ∈ is, ¬ Chosen g c n i s ∧ (((selectOpen g c n is s).1.zone i).cond = .expOpen →
      ((selectOpen g c n is s).1.zone i).cf ≠ c) := by
  induction is generalizing s with
  | nil => exact fun i hi => absurd hi List.not_mem_nil
  | cons i is ih =>
      rw [selectOpen] at h ⊢
      split at h
      case isTrue => cases h
      case isFalse hfit =>
        have hi : ¬ Chosen g c n i s := fun hi => hfit ⟨hi.cf, hi.cond, hi.room⟩
        rw [if_neg hfit]
        split at h
        case isFalse hover =>
          rw [if_neg hover]
          refine List.forall_mem_cons.2 ⟨⟨hi, fun hopen hcf => ?_⟩, ih h⟩
          -- the rest of the loop leaves zone `i` alone, for a zone it finishes is not open
          have hsame := ((selectOpen_any (g := g) c n is s).2.1 i).resolve_right
            fun hfin => hfin.not_open hopen
          rw [hsame.zone] at hopen hcf
          have hroom : ¬ (s.zone i).wp + n * PAGE_SIZE ≤ g.ofst i + g.cap :=
            fun hroom => hi ⟨hopen, hcf, hroom⟩
          exact hover ⟨hcf, hopen, not_le.1 hroom⟩
        case isTrue hover =>
          rw [if_pos hover]
          have hself : ((close g s i).zone i).cond = .full := by rw [close_zone, if_pos rfl]
          refine List.forall_mem_cons.2 ⟨⟨hi, fun hopen => ?_⟩, fun j hj => ?_⟩
          · rcases (selectOpen_any (g := g) c n is (close g s i)).2.1 i with hsame | hfin
            · have hfull := (congrArg ZoneDesc.cond hsame.zone).trans hself
              cases hopen.symm.trans hfull
            · exact absurd hopen hfin.not_open
          · obtain ⟨hunfit, hclosed⟩ := ih (s := close g s i) h j hj
            refine ⟨fun hchosen => hunfit ?_, hclosed⟩
            have hji : j ≠ i := by
              rintro rfl
              exact hi hchosen
            have hzone : (close g s i).zone j = s.zone j := by rw [close_zone, if_neg hji]
            exact (chosen_congr hzone).2 hchosen

/-- The first zone that is empty and belongs to no cluster. -/
def firstFree (g : Geometry) (s : Controller) : Option Nat :=
  (List.range g.maxZoneNum).find? fun i => (s.zone i).cf = -1 ∧ (s.zone i).cond = .empty

theorem firstFree_eq_some (h : firstFree g s = some z) :
    z < g.maxZoneNum ∧ (s.zone z).cf = -1 ∧ (s.zone z).cond = .empty :=
  ⟨List.mem_range.1 (List.mem_of_find?_eq_some h), by simpa using List.find?_some h⟩

theorem firstFree_eq_none (h : firstFree g s = none) :
    ∀ i < g.maxZoneNum, (s.zone i).cf = -1 → (s.zone i).cond ≠ .empty := by
  simpa [firstFree] using h

/-- The first loop leaves the zones that are free as they are, and makes none free. -/
theorem firstFree_congr (h : ∀ i, Same s s' i ∨ Finished g c n s s' i) :
    firstFree g s' = firstFree g s := by
  have hfree : ∀ i, ((s'.zone i).cf = -1 ∧ (s'.zone i).cond = .empty) ↔
      ((s.zone i).cf = -1 ∧ (s.zone i).cond = .empty) := by
    intro i
    rcases h i with hsame | hfin
    · rw [hsame.zone]
    · have hopen := hfin.cramped.cond
      rw [hfin.zone]
      simp [hopen]
  simp only [firstFree, hfree]

/-- The second loop opens the first zone of the list that is empty and belongs to no cluster. -/
theorem selectEmpty_eq (c : Int) (is : List Nat) (s : Controller) : selectEmpty c is s =
    match is.find? fun i => (s.zone i).cf = -1 ∧ (s.zone i).cond = .empty with
    | some i => .ok (i, openFor s i c)
    | none => .error .noZone := by
  induction is with
  | nil => rfl
  | cons i is ih =>
      rw [selectEmpty]
      split
      case isTrue hi =>
        rw [List.find?_cons_of_pos (by simpa using hi)]
        rfl
      case isFalse hi =>
        rw [List.find?_cons_of_neg (by simpa using hi)]
        exact ih

theorem opened_openFor (c : Int) (hfree : (s.zone z).cf = -1) (hcond : (s.zone z).cond = .empty) :
    Opened c s (openFor s z c) z :=
  ⟨hfree, hcond, by rw [openFor_zone, if_pos rfl], by rw [openFor_dev, if_pos rfl]⟩

/-- A zone that is empty after the first loop was so before. -/
theorem Same.of_empty (h : Same s s' z ∨ Finished g c n s s' z)
    (hcond : (s'.zone z).cond = .empty) : Same s s' z := by
  refine h.resolve_right fun hfin => ?_
  rw [hfin.zone] at hcond
  cases hcond

/-- Zone `z` has been opened as no zone was as asked for. It was the first that was free, and it
is the only one of its cluster that is open now. -/
structure Newly (g : Geometry) (c : Int) (n : Nat) (s : Controller) (z : Nat)
    (s' : Controller) : Prop where
  first : firstFree g s = some z
  unfit : ∀ i < g.maxZoneNum, ¬ Chosen g c n i s
  alone : ∀ i < g.maxZoneNum, i ≠ z → (s'.zone i).cond = .expOpen → (s'.zone i).cf ≠ c

/-- **A zone is chosen, or there is none to choose.** -/
theorem selectWriteZone_any (cf : Int) (n : Nat) (s : Controller) :
    (∃ z s', selectWriteZone g cf n s = .ok (z, s') ∧
        Selected g (cf.tmod g.clusterNum) n s z s' ∧
        ((s.zone z).cond = .empty → Newly g (cf.tmod g.clusterNum) n s z s')) ∨
      (selectWriteZone g cf n s = .error .noZone ∧ firstFree g s = none ∧
        ∀ i < g.maxZoneNum, ¬ Chosen g (cf.tmod g.clusterNum) n i s) := by
  set c := cf.tmod g.clusterNum with hc
  have hloop := selectOpen_any (g := g) c n (List.range g.maxZoneNum) s
  have hnone := @selectOpen_none g c n s (List.range g.maxZoneNum)
  rcases hr : selectOpen g c n (List.range g.maxZoneNum) s with ⟨s₁, o⟩
  rw [hr] at hloop hnone
  obtain ⟨honly, hall, hsome⟩ := hloop
  simp only [selectWriteZone, ← hc, hr]
  cases o with
  | some z =>
      obtain ⟨hmem, hchosen, hsame⟩ := hsome z rfl
      refine Or.inl ⟨z, s₁, rfl, ⟨List.mem_range.1 hmem, honly, Or.inl ⟨hchosen, hsame⟩,
        fun i _ => hall i⟩, fun hempty => ?_⟩
      cases hchosen.cond.symm.trans hempty
  | none =>
      have hunfit : ∀ i < g.maxZoneNum, ¬ Chosen g c n i s := fun i hi =>
        (hnone rfl i (List.mem_range.2 hi)).1
      have hempty := selectEmpty_eq c (List.range g.maxZoneNum) s₁
      rw [← firstFree, firstFree_congr hall] at hempty
      simp only [hempty]
      cases hfirst : firstFree g s with
      | none => exact Or.inr ⟨rfl, rfl, hunfit⟩
      | some z =>
          obtain ⟨hlt, hfree, hcond⟩ := firstFree_eq_some ((firstFree_congr hall).trans hfirst)
          have hsame := Same.of_empty (hall z) hcond
          have hopened := opened_openFor c hfree hcond
          have hother : ∀ i, i ≠ z → Same s₁ (openFor s₁ z c) i := fun i hi =>
            ⟨by rw [openFor_zone, if_neg hi], by rw [openFor_dev, if_neg hi]⟩
          refine Or.inl ⟨z, openFor s₁ z c, rfl, ⟨hlt, ?_, Or.inr ⟨?_, ?_, ?_, ?_⟩,
            fun i hi => ?_⟩, fun _ => ⟨hfirst, hunfit, fun i hi hne => ?_⟩⟩
          · exact honly.trans (rfl : ZonesOnly s₁ (openFor s₁ z c))
          · rw [← hsame.zone]
            exact hfree
          · rw [← hsame.zone]
            exact hcond
          · rw [← hsame.zone]
            exact hopened.zone
          · rw [← hsame.dev]
            exact hopened.dev
          · have hi' := hother i hi
            rcases hall i with h | h
            · exact Or.inl ⟨hi'.zone.trans h.zone, hi'.dev.trans h.dev⟩
            · exact Or.inr ⟨h.cramped, hi'.zone.trans h.zone, hi'.dev.trans h.dev⟩
          · rw [(hother i hne).zone]
            exact (hnone rfl i (List.mem_range.2 hi)).2

theorem selectWriteZone_selected {cf : Int}
    (h : selectWriteZone g cf n s = .ok (z, s')) :
    Selected g (cf.tmod g.clusterNum) n s z s' := by
  rcases selectWriteZone_any (g := g) cf n s with ⟨z', s₁, hok, hsel, -⟩ | ⟨herr, -⟩
  · cases hok.symm.trans h
    exact hsel
  · cases herr.symm.trans h

/-- **A zone is opened only if no open zone would do.** -/
theorem selectWriteZone_opened {cf : Int} (h : selectWriteZone g cf n s = .ok (z, s'))
    (hcond : (s.zone z).cond = .empty) : Newly g (cf.tmod g.clusterNum) n s z s' := by
  rcases selectWriteZone_any (g := g) cf n s with ⟨z', s₁, hok, -, hnew⟩ | ⟨herr, -⟩
  · cases hok.symm.trans h
    exact hnew hcond
  · cases herr.symm.trans h

theorem Selected.cond (h : Selected g c n s z s') : (s'.zone z).cond = .expOpen := by
  rcases h.target with ⟨hchosen, hsame⟩ | hopened
  · rw [hsame.zone]
    exact hchosen.cond
  · rw [hopened.zone]

theorem Selected.cf (h : Selected g c n s z s') : (s'.zone z).cf = c := by
  rcases h.target with ⟨hchosen, hsame⟩ | hopened
  · rw [hsame.zone]
    exact hchosen.cf
  · rw [hopened.zone]

/-- What becomes of each zone. -/
theorem Selected.zone_cases (h : Selected g c n s z s') (i : Nat) :
    Same s s' i ∨ Finished g c n s s' i ∨ i = z ∧ Opened c s s' i := by
  by_cases hi : i = z
  · subst hi
    rcases h.target with ⟨-, hsame⟩ | hopened
    · exact Or.inl hsame
    · exact Or.inr (Or.inr ⟨rfl, hopened⟩)
  · rcases h.other i hi with hsame | hfin
    · exact Or.inl hsame
    · exact Or.inr (Or.inl hfin)

/-- Choosing a zone changes conditions and cluster ids only. -/
theorem Selected.zone_eq (h : Selected g c n s z s') (i : Nat) :
    s'.zone i = { s.zone i with cond := (s'.zone i).cond, cf := (s'.zone i).cf } := by
  rcases h.zone_cases i with hsame | hfin | ⟨-, hopened⟩
  · rw [hsame.zone]
  · rw [hfin.zone]
  · rw [hopened.zone]

theorem Selected.wp (h : Selected g c n s z s') (i : Nat) : (s'.zone i).wp = (s.zone i).wp := by
  rw [h.zone_eq]

end Controller

end ZoneBuffer
