import ZoneBuffer.Zone.Batches

set_option autoImplicit false

/-! # Two writers

The foreground and the thread of a collection write at the same time. A call takes two steps:
`select_write_zone` returns a zone, and later the call takes the mutex of that zone and works in
it, or starts again if the zone has been closed meanwhile.

What is looked at again under the mutex is the condition of the zone, not its room. Two calls that
have chosen the same zone when there was room for either of them overrun it
(`zone_overrun`). If each call is given a zone with room for the other as well (`Roomy`), none is
written past its capacity (`withinCap_run`). -/

namespace ZoneBuffer

open Outcome Machine Controller

/-- The calls of a writer. A cluster comes as its pages with their ids. -/
inductive Write where
  | createNewPage (p : PageId) (b : Page)
  | writePage (cf : Int) (p : PageId) (b : Page)
  | writePageGc (cf : Int) (p : PageId) (b : Page)
  | writeCluster (cf : Int) (l : List (PageId × Page))

namespace Write

/-- The cluster a zone is chosen for. -/
def cf : Write → Int
  | createNewPage _ _ => 0
  | writePage cf _ _ => cf
  | writePageGc cf _ _ => cf
  | writeCluster cf _ => cf

/-- The pages a zone is chosen for. -/
def size : Write → Nat
  | createNewPage _ _ => 1
  | writePage _ _ _ => 1
  | writePageGc _ _ _ => 1
  | writeCluster _ l => l.length

/-- The body under the mutex of zone `z`. -/
def locked (g : Geometry) (z : Nat) : Write → Controller → Except Fault Controller
  | createNewPage p b, s => createNewPageLocked g z p b s
  | writePage _ p b, s => writePageLocked g z p b s
  | writePageGc _ p b, s => writePageGcLocked g z p b s
  | writeCluster _ l, s => writeClusterLocked g z (l.map Prod.snd) (l.map Prod.fst) s

/-- What a call goes on with when it finds its zone closed: `create_new_page` calls `write_page`,
the others start again. -/
def retried : Write → Write
  | createNewPage p b => writePage 0 p b
  | w => w

end Write

/-- Where a writer is. -/
inductive WriterState where
  | idle
  /-- The call is about to choose a zone. -/
  | waiting (w : Write)
  /-- The call has chosen zone `z` and is about to take its mutex. -/
  | holding (w : Write) (z : Nat)

/-- The two writers. -/
inductive Party where
  | fg
  | gc
  deriving DecidableEq

def Party.other : Party → Party
  | fg => gc
  | gc => fg

theorem Party.eq_or_other (a b : Party) : b = a ∨ b = a.other := by
  cases a <;> cases b <;> simp [Party.other]

theorem Party.other_other (a : Party) : a.other.other = a := by
  cases a <;> rfl

theorem Party.other_ne (a : Party) : a.other ≠ a := by
  cases a <;> simp [Party.other]

/-- The controller with its two writers. -/
structure Writers where
  ctl : Controller
  state : Party → WriterState

/-- What can happen next. -/
inductive WriterEvent where
  | call (who : Party) (w : Write)
  | select (who : Party)
  | lock (who : Party)

namespace Writers

variable (g : Geometry)

/-- Both writers are idle. -/
def start (ctl : Controller) : Writers := ⟨ctl, fun _ => .idle⟩

def set (s : Writers) (who : Party) (ws : WriterState) : Writers :=
  { s with state := Function.update s.state who ws }

/-- One step of the two writers. -/
def step : WriterEvent → Writers → Except Fault Writers
  | .call who w, s =>
      match s.state who with
      | .idle => .ok (s.set who (.waiting w))
      | _ => .ok s
  | .select who, s =>
      match s.state who with
      | .waiting w => do
          let (z, ctl) ← selectWriteZone g w.cf w.size s.ctl
          .ok ({ s with ctl := ctl }.set who (.holding w z))
      | _ => .ok s
  | .lock who, s =>
      match s.state who with
      | .holding w z =>
          if (s.ctl.zone z).cond ≠ .expOpen then .ok (s.set who (.waiting w.retried))
          else do
            let ctl ← w.locked g z s.ctl
            .ok ({ s with ctl := ctl }.set who .idle)
      | _ => .ok s

/-- No zone is written past its capacity, and every mapped page is where a relocation scans. -/
structure WithinCap (s : Writers) : Prop where
  wp : ∀ z, (s.ctl.zone z).wp ≤ g.ofst z + g.cap
  table : ∀ p a, s.ctl.table p = some a →
    g.ofst (a / g.zoneSize) ≤ a ∧ a < g.ofst (a / g.zoneSize) + g.cap

/-- A zone is chosen for no more pages than a zone has room for; and if the other writer has
chosen an open zone that fits, there is room in it for both. -/
def Roomy (s : Writers) : WriterEvent → Prop
  | .select who =>
      match s.state who with
      | .waiting w => w.size * PAGE_SIZE ≤ g.cap ∧
          match s.state who.other with
          | .holding w' z => Chosen g (w.cf.tmod g.clusterNum) w.size z s.ctl →
              (s.ctl.zone z).wp + (w.size + w'.size) * PAGE_SIZE ≤ g.ofst z + g.cap
          | _ => True
      | _ => True
  | _ => True

variable {g} {s s' : Writers} {c c' : Controller} {w w' : Write} {z : Nat} {who : Party}

@[simp] theorem set_ctl (s : Writers) (who : Party) (ws : WriterState) :
    (s.set who ws).ctl = s.ctl := rfl

@[simp] theorem set_state_self (s : Writers) (who : Party) (ws : WriterState) :
    (s.set who ws).state who = ws := Function.update_self ..

theorem set_state_of_ne (s : Writers) {a b : Party} (ws : WriterState) (h : b ≠ a) :
    (s.set a ws).state b = s.state b := Function.update_of_ne h ..

/-- **What a step does to the controller.** -/
theorem step_ctl {e : WriterEvent} (h : step g e s = .ok s') :
    s'.ctl = s.ctl ∨
      (∃ who w z, e = .select who ∧ s.state who = .waiting w ∧
        selectWriteZone g w.cf w.size s.ctl = .ok (z, s'.ctl)) ∨
      (∃ who w z, e = .lock who ∧ s.state who = .holding w z ∧
        (s.ctl.zone z).cond = .expOpen ∧ w.locked g z s.ctl = .ok s'.ctl) := by
  cases e with
  | call who w =>
      rw [step] at h
      split at h
      · cases h
        exact Or.inl rfl
      · cases h
        exact Or.inl rfl
  | select who =>
      rw [step] at h
      split at h
      case h_1 w hst =>
        obtain ⟨⟨z, c⟩, hsel, h⟩ := bind_eq_ok.1 h
        cases h
        exact Or.inr (Or.inl ⟨who, w, z, rfl, hst, hsel⟩)
      case h_2 =>
        cases h
        exact Or.inl rfl
  | lock who =>
      rw [step] at h
      split at h
      case h_1 w z hst =>
        split at h
        case isTrue =>
          cases h
          exact Or.inl rfl
        case isFalse hopen =>
          obtain ⟨c, hlock, h⟩ := bind_eq_ok.1 h
          cases h
          exact Or.inr (Or.inr ⟨who, w, z, rfl, hst, not_not.1 hopen, hlock⟩)
      case h_2 =>
        cases h
        exact Or.inl rfl

/-! ## What the body of a call does -/

theorem locked_worked (h : w.locked g z c = .ok c') : Worked z w.size c c' := by
  cases w with
  | createNewPage p b => exact createNewPageLocked_worked h
  | writePage cf p b => exact writePageLocked_worked h
  | writePageGc cf p b => exact writePageGcLocked_worked h
  | writeCluster cf l =>
      have hwork := writeClusterLocked_worked (by rw [List.length_map, List.length_map]) h
      rwa [List.length_map] at hwork

/-- Every page mapped by a body is mapped to one of the positions the body stores. -/
theorem locked_table (h : w.locked g z c = .ok c') {p : PageId} {a : Nat}
    (hp : c'.table p = some a) : c.table p = some a ∨
      ∃ i < w.size, a = (c.zone z).wp + i * PAGE_SIZE := by
  -- the calls that store one page map it to the write pointer
  have hinsert : ∀ {q}, c'.table = c.table.insertOrAssign q (c.zone z).wp →
      c.table p = some a ∨ ∃ i < 1, a = (c.zone z).wp + i * PAGE_SIZE := by
    intro q ht
    rw [ht, PartialMap.insertOrAssign_eq_some] at hp
    rcases hp with ⟨-, rfl⟩ | ⟨-, hp⟩
    · exact Or.inr ⟨0, by decide, by rw [Nat.zero_mul, Nat.add_zero]⟩
    · exact Or.inl hp
  cases w with
  | createNewPage q b => exact hinsert (createNewPageLocked_table h)
  | writePage cf q b => exact hinsert (writePageLocked_table h)
  | writePageGc cf q b => exact hinsert (writePageGcLocked_table h)
  | writeCluster cf l =>
      have hc := writeClusterLocked_table (by rw [List.length_map, List.length_map]) h hp
      rwa [List.length_map] at hc

/-! ## The invariant -/

/-- The zones are filled from their start and within their capacity, and every mapped page is in
the filled part of its zone. -/
structure Filled (g : Geometry) (c : Controller) : Prop where
  wp_ge : ∀ z, g.ofst z ≤ (c.zone z).wp
  wp_le : ∀ z, (c.zone z).wp ≤ g.ofst z + g.cap
  empty : ∀ z, (c.zone z).cond = .empty → (c.zone z).wp = g.ofst z
  table : ∀ p a, c.table p = some a →
    g.ofst (a / g.zoneSize) ≤ a ∧ a < (c.zone (a / g.zoneSize)).wp

/-- Zone `z` is in use and, as long as it is open, has room for `n` pages. -/
structure Fits (g : Geometry) (c : Controller) (n z : Nat) : Prop where
  used : (c.zone z).cond ≠ .empty
  room : (c.zone z).cond = .expOpen → (c.zone z).wp + n * PAGE_SIZE ≤ g.ofst z + g.cap

/-- **Each zone chosen has room for what it has been chosen for**, and a zone chosen by both
writers has room for both. -/
structure Bounded (g : Geometry) (s : Writers) : Prop where
  filled : Filled g s.ctl
  fits : ∀ who w z, s.state who = .holding w z → Fits g s.ctl w.size z
  both : ∀ who w w' z, s.state who = .holding w z → s.state who.other = .holding w' z →
    Fits g s.ctl (w.size + w'.size) z

theorem Filled.init (g : Geometry) (rates : Nat → Rates) : Filled g (Controller.init g rates) :=
  ⟨fun _ => le_refl _, fun _ => Nat.le_add_right _ _, fun _ _ => rfl, fun _ _ h => by cases h⟩

theorem Bounded.start (h : Filled g c) : Bounded g (Writers.start c) :=
  ⟨h, fun _ _ _ h => (by cases h), fun _ _ _ _ h => (by cases h)⟩

theorem Bounded.withinCap (h : Bounded g s) : s.WithinCap g :=
  ⟨h.filled.wp_le, fun p a hp => by
    obtain ⟨hge, hlt⟩ := h.filled.table p a hp
    exact ⟨hge, lt_of_lt_of_le hlt (h.filled.wp_le _)⟩⟩

/-! ## Choosing a zone -/

variable {cl : Int} {n m y : Nat}

theorem Filled.selected (h : Filled g c) (hsel : Selected g cl n c z c') : Filled g c' where
  wp_ge i := by rw [hsel.wp]; exact h.wp_ge i
  wp_le i := by rw [hsel.wp]; exact h.wp_le i
  empty i hi := by
    -- the zone chosen is open now, so an empty zone is another one
    have hne : i ≠ z := by
      rintro rfl
      rw [hsel.cond] at hi
      cases hi
    have hsame := (Same.of_empty (hsel.other i hne) hi).zone
    rw [hsame] at hi ⊢
    exact h.empty i hi
  table p a hp := by
    rw [hsel.only] at hp
    rw [hsel.wp]
    exact h.table p a hp

/-- A zone just chosen has room. -/
theorem Filled.fits (h : Filled g c) (hsel : Selected g cl n c z c')
    (hn : n * PAGE_SIZE ≤ g.cap) : Fits g c' n z where
  used := by simp [hsel.cond]
  room _ := by
    rw [hsel.wp]
    -- found open with room, or opened at its start
    rcases hsel.target with ⟨hchosen, -⟩ | hopened
    · exact hchosen.room
    · rw [h.empty z hopened.cond]
      exact Nat.add_le_add_left hn _

/-- A zone in use that is chosen was chosen for the room it had. -/
theorem Fits.chosen (h : Fits g c m z) (hsel : Selected g cl n c z c') : Chosen g cl n z c := by
  rcases hsel.target with ⟨hchosen, -⟩ | hopened
  · exact hchosen
  · exact absurd hopened.cond h.used

/-- The room of a zone is not touched when a zone is chosen. -/
theorem Fits.selected (h : Fits g c m y) (hsel : Selected g cl n c z c') : Fits g c' m y := by
  by_cases hy : y = z
  · subst hy
    refine ⟨by simp [hsel.cond], fun _ => ?_⟩
    rw [hsel.wp]
    exact h.room (h.chosen hsel).cond
  -- another zone stays as it is, or has been finished
  · rcases hsel.other y hy with hsame | hfin
    · exact ⟨by rw [hsame.zone]; exact h.used, by rw [hsame.zone]; exact h.room⟩
    · exact ⟨by simp [hfin.zone], fun hopen => absurd hopen hfin.not_open⟩

theorem Bounded.set (h : Bounded g s) {ws : WriterState} (hws : ∀ w z, ws ≠ .holding w z)
    (who : Party) : Bounded g (s.set who ws) where
  filled := h.filled
  fits a w z ha := by
    by_cases hwho : a = who
    · subst hwho
      rw [set_state_self] at ha
      exact absurd ha (hws w z)
    · rw [set_state_of_ne s ws hwho] at ha
      exact h.fits a w z ha
  both a w w' z ha ha' := by
    rcases Party.eq_or_other a who with rfl | rfl
    · rw [set_state_self] at ha
      exact absurd ha (hws w z)
    · rw [set_state_self] at ha'
      exact absurd ha' (hws w' z)

/-- **Choosing a zone**, with room for both writers if the other has chosen the same. -/
theorem select_bounded (h : Bounded g s) (hroomy : Roomy g s (.select who)) :
    Yields (step g (.select who) s) (fun _ => True) (Bounded g) := by
  rw [step]
  rw [Roomy] at hroomy
  cases hst : s.state who with
  | idle => exact h
  | holding w z => exact h
  | waiting w =>
      rw [hst] at hroomy
      obtain ⟨hsize, hother⟩ := hroomy
      refine yields_partial_iff.2 fun s' hs' => ?_
      obtain ⟨⟨z, c⟩, hsel, hs'⟩ := bind_eq_ok.1 hs'
      cases hs'
      have hsel := selectWriteZone_selected hsel
      have hself : Fits g c w.size z := h.filled.fits hsel hsize
      -- what the other writer has chosen still fits
      have hkeep : ∀ w' y, s.state who.other = .holding w' y → Fits g c w'.size y :=
        fun w' y hw' => (h.fits who.other w' y hw').selected hsel
      -- if it has chosen the same zone, `Roomy` leaves room for both
      have hsum : ∀ w', s.state who.other = .holding w' z → Fits g c (w.size + w'.size) z := by
        intro w' hw'
        rw [hw'] at hother
        refine ⟨hself.used, fun _ => ?_⟩
        rw [hsel.wp]
        exact hother ((h.fits who.other w' z hw').chosen hsel)
      refine ⟨h.filled.selected hsel, fun a w' y ha => ?_, fun a w₁ w₂ y ha ha' => ?_⟩
      · rcases Party.eq_or_other who a with rfl | rfl
        · rw [set_state_self] at ha
          cases ha
          exact hself
        · rw [set_state_of_ne _ _ who.other_ne] at ha
          exact hkeep w' y ha
      · rcases Party.eq_or_other who a with rfl | rfl
        · rw [set_state_self] at ha
          rw [set_state_of_ne _ _ (Party.other_ne _)] at ha'
          cases ha
          exact hsum w₂ ha'
        · rw [set_state_of_ne _ _ who.other_ne] at ha
          rw [Party.other_other, set_state_self] at ha'
          cases ha'
          rw [Nat.add_comm]
          exact hsum w₁ ha

/-! ## Working in the zone -/

theorem Fits.worked (h : Fits g c (n + m) z) (hwork : Worked z n c c') : Fits g c' m z := by
  refine ⟨by rw [hwork.cond]; exact h.used, fun hopen => ?_⟩
  rw [hwork.cond] at hopen
  rw [hwork.wp, if_pos rfl, Nat.add_assoc, ← Nat.add_mul]
  exact h.room hopen

theorem Fits.worked_of_ne (h : Fits g c m y) (hwork : Worked z n c c') (hy : y ≠ z) :
    Fits g c' m y := by
  refine ⟨by rw [hwork.cond]; exact h.used, fun hopen => ?_⟩
  rw [hwork.cond] at hopen
  rw [hwork.wp, if_neg hy]
  exact h.room hopen

theorem Filled.locked (h : Filled g c) (hfits : Fits g c w.size z)
    (hopen : (c.zone z).cond = .expOpen) (hlock : w.locked g z c = .ok c') : Filled g c' := by
  have hwork := locked_worked hlock
  have hroom := hfits.room hopen
  have hge := h.wp_ge z
  refine ⟨fun i => ?_, fun i => ?_, fun i hi => ?_, fun p a hp => ?_⟩
  · rw [hwork.wp]
    split
    case isTrue hi =>
      subst hi
      omega
    case isFalse => exact h.wp_ge i
  · rw [hwork.wp]
    split
    case isTrue hi =>
      subst hi
      exact hroom
    case isFalse => exact h.wp_le i
  · rw [hwork.cond] at hi
    have hne : i ≠ z := by
      rintro rfl
      exact hfits.used hi
    rw [hwork.wp, if_neg hne]
    exact h.empty i hi
  · rw [hwork.wp]
    -- a page mapped before is below the old write pointer, one mapped now below the new one
    rcases locked_table hlock hp with hold | ⟨i, hi, rfl⟩
    · obtain ⟨hage, halt⟩ := h.table p a hold
      refine ⟨hage, ?_⟩
      split
      case isTrue haz =>
        rw [haz] at halt
        omega
      case isFalse => exact halt
    · have hlt : i * PAGE_SIZE < w.size * PAGE_SIZE := Nat.mul_lt_mul_of_pos_right hi (by decide)
      have hcap := g.cap_lt
      have hdiv : ((c.zone z).wp + i * PAGE_SIZE) / g.zoneSize = z :=
        g.div_zoneSize (by omega) (by omega)
      rw [hdiv, if_pos rfl]
      exact ⟨by omega, by omega⟩

/-- **Working in the zone chosen.** -/
theorem lock_bounded (h : Bounded g s) (who : Party) :
    Yields (step g (.lock who) s) (fun _ => True) (Bounded g) := by
  rw [step]
  cases hst : s.state who with
  | idle => exact h
  | waiting w => exact h
  | holding w z =>
      show Yields (if _ then _ else _) _ _
      have hfits := h.fits who w z hst
      split
      -- the zone is no longer open: the call starts again
      case isTrue => exact h.set (fun _ _ hw => by cases hw) who
      case isFalse hopen =>
        rw [not_not] at hopen
        refine yields_partial_iff.2 fun s' hs' => ?_
        obtain ⟨c, hlock, hs'⟩ := bind_eq_ok.1 hs'
        cases hs'
        have hwork := locked_worked hlock
        refine ⟨h.filled.locked hfits hopen hlock, fun a w' y ha => ?_, fun a w₁ w₂ y ha ha' => ?_⟩
        · rcases Party.eq_or_other who a with rfl | rfl
          · rw [set_state_self] at ha
            cases ha
          · rw [set_state_of_ne _ _ who.other_ne] at ha
            by_cases hy : y = z
            -- both had chosen `z`: what this call leaves is enough for the other
            · subst hy
              exact (h.both who w w' y hst ha).worked hwork
            · exact (h.fits who.other w' y ha).worked_of_ne hwork hy
        · rcases Party.eq_or_other who a with rfl | rfl
          · rw [set_state_self] at ha
            cases ha
          · rw [Party.other_other, set_state_self] at ha'
            cases ha'

/-- One step of the two writers. -/
theorem step_bounded (h : Bounded g s) (e : WriterEvent) (hroomy : Roomy g s e) :
    Yields (step g e s) (fun _ => True) (Bounded g) := by
  cases e with
  | select who => exact select_bounded h hroomy
  | lock who => exact lock_bounded h who
  | call who w =>
      rw [step]
      split
      case h_1 => exact h.set (fun _ _ hw => by cases hw) who
      case h_2 => exact h

/-- **Where no call is given a zone the other writer will fill, no zone is written past its
capacity** in any state two writers reach. -/
theorem withinCap_run (g : Geometry) (rates : Nat → Rates) (es : List WriterEvent)
    (hroomy : Along (step g) (Roomy g) es (start (Controller.init g rates))) (s : Writers)
    (hs : Visits (step g) es (start (Controller.init g rates)) s) : s.WithinCap g := by
  refine hs.elim (legal_true (fun _ t => t) es ()) hroomy fun js _ hjs s' hs' => ?_
  have hrun := run_yields_cond (Bounded g) (fun s e h he => step_bounded h e he) js _
    (Bounded.start (Filled.init g rates)) hjs
  exact (hrun.of_ok hs').withinCap

/-! ## A zone overrun -/

instance (c : Controller) (cl : Int) (n z : Nat) : Decidable (Chosen g cl n z c) :=
  decidable_of_iff ((c.zone z).cond = .expOpen ∧ (c.zone z).cf = cl ∧
      (c.zone z).wp + n * PAGE_SIZE ≤ g.ofst z + g.cap)
    ⟨fun h => ⟨h.1, h.2.1, h.2.2⟩, fun h => ⟨h.cond, h.cf, h.room⟩⟩

instance (s : Writers) (e : WriterEvent) : Decidable (Roomy g s e) :=
  match e with
  | .call _ _ => isTrue trivial
  | .lock _ => isTrue trivial
  | .select who =>
      match hst : s.state who, hot : s.state who.other with
      | .idle, _ => isTrue (by simp only [Roomy, hst])
      | .holding _ _, _ => isTrue (by simp only [Roomy, hst])
      | .waiting w, .idle => decidable_of_iff (w.size * PAGE_SIZE ≤ g.cap)
          (by simp only [Roomy, hst, hot, and_true])
      | .waiting w, .waiting _ => decidable_of_iff (w.size * PAGE_SIZE ≤ g.cap)
          (by simp only [Roomy, hst, hot, and_true])
      | .waiting w, .holding w' z => decidable_of_iff (w.size * PAGE_SIZE ≤ g.cap ∧
            (Chosen g (w.cf.tmod g.clusterNum) w.size z s.ctl →
              (s.ctl.zone z).wp + (w.size + w'.size) * PAGE_SIZE ≤ g.ofst z + g.cap))
          (by simp only [Roomy, hst, hot])

/-- The events of a call that is not interrupted. -/
def alone (who : Party) (w : Write) : List WriterEvent := [.call who w, .select who, .lock who]

/-- The state before the runs below. -/
def smallWriters : Writers := start smallStart

/-- Three pages leave one page of zone 1 free; then a page is moved and a page created, and both
calls choose the zone before either works in it. -/
@[irreducible] def overrun : List WriterEvent :=
  alone .fg (.createNewPage 1 (frameOf 1 10)) ++ alone .fg (.createNewPage 2 (frameOf 2 20)) ++
    alone .fg (.createNewPage 3 (frameOf 3 30)) ++
    [.call .gc (.writePageGc 0 1 (frameOf 1 10)), .select .gc,
      .call .fg (.createNewPage 4 (frameOf 4 40)), .select .fg, .lock .gc, .lock .fg]

/-- **Two calls overrun the zone they share**: page 4 is mapped past the part of zone 1 that a
relocation scans. -/
theorem zone_overrun : ∃ s, run (step .small) overrun smallWriters = .ok s ∧
    s.ctl.table 4 = some (Geometry.small.ofst 1 + Geometry.small.cap) ∧
    ¬ s.WithinCap .small := by
  obtain ⟨s, hs, htable, hwp⟩ : ∃ s, run (step .small) overrun smallWriters = .ok s ∧
      s.ctl.table 4 = some (Geometry.small.ofst 1 + Geometry.small.cap) ∧
      Geometry.small.ofst 1 + Geometry.small.cap < (s.ctl.zone 1).wp :=
    exists_ok_of_decide (by decide +kernel)
  exact ⟨s, hs, htable, fun h => absurd (h.wp 1) (Nat.not_le.2 hwp)⟩

/-- The same calls one page earlier: zone 1 has room for both. -/
@[irreducible] def shared : List WriterEvent :=
  alone .fg (.createNewPage 1 (frameOf 1 10)) ++ alone .fg (.createNewPage 2 (frameOf 2 20)) ++
    [.call .fg (.createNewPage 3 (frameOf 3 30)), .select .fg,
      .call .gc (.writePageGc 0 1 (frameOf 1 10)), .select .gc, .lock .gc, .lock .fg]

theorem withinCap_run_shared :
    ∃ s, run (step .small) shared smallWriters = .ok s ∧ s.WithinCap .small := by
  have hall := withinCap_run .small (fun _ => ⟨0, 0, 0⟩) shared (by decide +kernel)
  obtain ⟨s, hs, -⟩ : ∃ s, run (step .small) shared smallWriters = .ok s ∧ True :=
    exists_ok_of_decide (by decide +kernel)
  exact ⟨s, hs, hall s ⟨shared, [], (List.append_nil _).symm, hs⟩⟩

end Writers

end ZoneBuffer
