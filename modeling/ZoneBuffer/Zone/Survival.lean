import ZoneBuffer.Zone.Sharing

set_option autoImplicit false

/-! # A call that loses its zone

`create_new_page` chooses a zone and later takes its mutex. If the other writer has finished the
zone meanwhile, the call goes on as `write_page`, whose body starts by looking up the address the
page has. A page that is being created has none, so the call fails (`finish_closed`).

If the zone is still open the call ends well in every state in which the position at the write
pointer is not marked valid (`survives_iff`). Beside a thread that moves pages no other state is
reached (`createNewPage_survives`). -/

namespace ZoneBuffer

open Outcome Machine Controller

/-- The calls of a collection. -/
def Write.IsMove : Write → Prop
  | writePageGc _ _ _ => True
  | _ => False

namespace Writers

variable (g : Geometry)

/-- The rest of a call that has chosen a zone, if it is not interrupted: should the zone be
closed, another is chosen, which is open. -/
def finish : List WriterEvent := [.lock .fg, .select .fg, .lock .fg]

/-- In `s'` the call has ended. Page `p` is mapped to a valid position that holds `b`, and the
other pages to what they are mapped to in `s`. -/
structure Created (p : PageId) (b : Page) (s s' : Writers) : Prop where
  idle : s'.state .fg = .idle
  mapped : ∃ a, s'.ctl.table p = some a ∧ s'.ctl.getValid a = true ∧ s'.ctl.dev.page a = some b
  others : ∀ q, q ≠ p → s'.ctl.table q = s.ctl.table q

/-- The call the foreground is in ends with page `p` created. -/
def Survives (p : PageId) (b : Page) (s : Writers) : Prop :=
  ∃ s', run (step g) finish s = .ok s' ∧ Created p b s s'

/-- The foreground is about to create page `p`. -/
def creating (c : Controller) (p : PageId) (b : Page) : Writers :=
  (start c).set .fg (.waiting (.createNewPage p b))

/-- What happens beside the call until it takes the mutex. -/
def Beside : WriterEvent → Prop
  | .call who w => who = .gc ∧ w.IsMove
  | .select _ => True
  | .lock who => who = .gc

variable {g} {s s' : Writers} {c c' : Controller} {w : Write} {z : Nat} {who : Party}
  {p q : PageId} {b : Page}

/-! ## The steps of a call -/

theorem step_select (hst : s.state who = .waiting w) :
    step g (.select who) s = selectWriteZone g w.cf w.size s.ctl >>= fun r =>
      .ok ({ s with ctl := r.2 }.set who (.holding w r.1)) := by
  rw [step, hst]

theorem step_lock_open (hst : s.state who = .holding w z)
    (hopen : (s.ctl.zone z).cond = .expOpen) :
    step g (.lock who) s = w.locked g z s.ctl >>= fun ctl =>
      .ok ({ s with ctl := ctl }.set who .idle) := by
  rw [step, hst]
  exact if_neg (not_not.2 hopen)

theorem step_lock_closed (hst : s.state who = .holding w z)
    (hclosed : (s.ctl.zone z).cond ≠ .expOpen) :
    step g (.lock who) s = .ok (s.set who (.waiting w.retried)) := by
  rw [step, hst]
  exact if_pos hclosed

theorem step_select_idle (hst : s.state who = .idle) : step g (.select who) s = .ok s := by
  rw [step, hst]

theorem step_lock_idle (hst : s.state who = .idle) : step g (.lock who) s = .ok s := by
  rw [step, hst]

/-! ## Creating a page in any state -/

/-- What the body of `create_new_page` leaves. -/
theorem createNewPageLocked_created (hfree : c.getValid (c.zone z).wp = false) :
    ∃ c', createNewPageLocked g z p b c = .ok c' ∧
      c'.table = c.table.insertOrAssign p (c.zone z).wp ∧
      c'.getValid (c.zone z).wp = true ∧ c'.dev.page (c.zone z).wp = some b := by
  have hne : (c.setPageAddr p (c.zone z).wp).metaPage ((c.zone z).wp / PAGE_SIZE) ≠ true := by
    rw [setPageAddr_eq]
    exact Bool.eq_false_iff.1 hfree
  rw [createNewPageLocked_eq, mapNew, setValid_of_ne g hne, setPageAddr_eq]
  exact ⟨_, rfl, rfl, Function.update_self .., Function.update_self ..⟩

theorem createNewPageLocked_error (hvalid : c.getValid (c.zone z).wp = true) :
    createNewPageLocked g z p b c = .error .setValid := by
  have heq : (c.setPageAddr p (c.zone z).wp).metaPage ((c.zone z).wp / PAGE_SIZE) = true := by
    rw [setPageAddr_eq]
    exact hvalid
  rw [createNewPageLocked_eq, mapNew, setValid_eq, if_pos heq]
  rfl

/-- **In a closed zone the call fails**: `write_page` finds no address. -/
theorem finish_closed (hfg : s.state .fg = .holding (.createNewPage p b) z)
    (hp : s.ctl.table p = none) (hclosed : (s.ctl.zone z).cond ≠ .expOpen) :
    run (step g) finish s = .error .noZone ∨ run (step g) finish s = .error .outOfRange := by
  have hlock : step g (.lock .fg) s = .ok (s.set .fg (.waiting (.writePage 0 p b))) :=
    step_lock_closed hfg hclosed
  have hselect := step_select (g := g)
    (set_state_self s .fg (.waiting (.writePage 0 p b)))
  rw [finish, run_cons, hlock, ok_bind, run_cons]
  rcases selectWriteZone_any (g := g) 0 1 s.ctl with ⟨y, c, hsel, hselected, -⟩ | ⟨hsel, -⟩
  -- `write_page` is given a zone, but the page has no address
  · right
    have hsel' : selectWriteZone g (Write.writePage 0 p b).cf (Write.writePage 0 p b).size
        (s.set .fg (.waiting (.writePage 0 p b))).ctl = .ok (y, c) := hsel
    rw [hsel', ok_bind] at hselect
    have hretry := step_lock_open (g := g)
      (set_state_self { s.set .fg (.waiting (.writePage 0 p b)) with ctl := c } .fg
        (.holding (.writePage 0 p b) y)) hselected.cond
    have hnone : c.table p = none := by rw [hselected.only]; exact hp
    have herr : (Write.writePage 0 p b).locked g y c = .error .outOfRange := by
      show writePageLocked g y p b c = _
      rw [writePageLocked, getPageAddr, hnone]
      rfl
    rw [set_ctl, herr, error_bind] at hretry
    rw [hselect, ok_bind, run_cons, hretry]
    rfl
  -- no zone is left for `write_page`
  · left
    have hsel' : selectWriteZone g (Write.writePage 0 p b).cf (Write.writePage 0 p b).size
        (s.set .fg (.waiting (.writePage 0 p b))).ctl = .error .noZone := hsel
    rw [hsel', error_bind] at hselect
    rw [hselect]
    rfl

/-- **When a call of `create_new_page` ends well**, in any state in which it has chosen a
zone. -/
theorem survives_iff (hfg : s.state .fg = .holding (.createNewPage p b) z)
    (hp : s.ctl.table p = none) : Survives g p b s ↔
      (s.ctl.zone z).cond = .expOpen ∧ s.ctl.getValid (s.ctl.zone z).wp = false := by
  constructor
  · rintro ⟨s', hrun, -⟩
    have hopen : (s.ctl.zone z).cond = .expOpen := by
      by_contra hclosed
      rcases finish_closed (g := g) hfg hp hclosed with herr | herr
      · cases herr.symm.trans hrun
      · cases herr.symm.trans hrun
    refine ⟨hopen, Bool.eq_false_iff.2 fun hvalid => ?_⟩
    have herr : (Write.createNewPage p b).locked g z s.ctl = .error .setValid :=
      createNewPageLocked_error hvalid
    rw [finish, run_cons, step_lock_open hfg hopen, herr] at hrun
    cases hrun
  · rintro ⟨hopen, hfree⟩
    obtain ⟨c, hc, htable, hvalid, hpage⟩ :=
      createNewPageLocked_created (g := g) (p := p) (b := b) hfree
    replace hc : (Write.createNewPage p b).locked g z s.ctl = .ok c := hc
    have hidle : ({ s with ctl := c }.set .fg .idle).state .fg = .idle := set_state_self ..
    refine ⟨{ s with ctl := c }.set .fg .idle, ?_, hidle, ⟨(s.ctl.zone z).wp, ?_, hvalid, hpage⟩,
      fun q hq => ?_⟩
    -- the call takes the mutex, and the two events that follow find it idle
    · rw [finish, run_cons, step_lock_open hfg hopen, hc, ok_bind, ok_bind, run_cons,
        step_select_idle hidle, ok_bind, run_cons, step_lock_idle hidle]
      rfl
    · exact (congrFun htable p).trans (PartialMap.insertOrAssign_self ..)
    · exact (congrFun htable q).trans (PartialMap.insertOrAssign_of_ne _ _ hq)

/-! ## Beside a thread that moves pages -/

/-- Only positions below the write pointers are marked valid. -/
structure Marked (g : Geometry) (c : Controller) : Prop where
  filled : Filled g c
  wp_dvd : ∀ z, PAGE_SIZE ∣ (c.zone z).wp
  below : ∀ i, c.metaPage i = true →
    i * PAGE_SIZE < (c.zone (i * PAGE_SIZE / g.zoneSize)).wp

/-- What holds until the call takes the mutex: the position its zone will give it is free, and
its page is not mapped. -/
structure Spared (g : Geometry) (p : PageId) (s : Writers) : Prop where
  marked : Marked g s.ctl
  waiting : ∀ w, s.state .gc = .waiting w → w.IsMove
  holding : ∀ w z, s.state .gc = .holding w z → w.IsMove ∧ Fits g s.ctl w.size z
  fresh : s.ctl.table p = none

theorem Marked.wp_free (h : Marked g c) (z : Nat) : c.getValid (c.zone z).wp = false := by
  refine Bool.eq_false_iff.2 fun hvalid => ?_
  have hlt := h.below _ hvalid
  have hge := h.filled.wp_ge z
  have hle := h.filled.wp_le z
  have hcap := g.cap_lt
  rw [Nat.div_mul_cancel (h.wp_dvd z), g.div_zoneSize hge (by omega)] at hlt
  exact absurd hlt (lt_irrefl _)

theorem Marked.of_inv {K : Int → Prop} (h : Inv g K c) : Marked g c where
  filled := ⟨h.wp_ge, h.wp_le, fun z hz => (h.empty z hz).2.1, fun p a hp =>
    ⟨(g.ofst_le_of_div rfl).1, (h.live p a hp).below⟩⟩
  wp_dvd := h.wp_dvd
  below i hi := by
    obtain ⟨p, -, hp⟩ := (h.book.valid i).1 hi
    exact (h.live p _ hp).below

theorem Marked.selected {cl : Int} {n : Nat} (h : Marked g c) (hsel : Selected g cl n c z c') :
    Marked g c' where
  filled := h.filled.selected hsel
  wp_dvd i := by rw [hsel.wp]; exact h.wp_dvd i
  below i hi := by
    rw [hsel.only] at hi
    rw [hsel.wp]
    exact h.below i hi

theorem setValid_metaPage {a : Nat} {v : Bool} (h : c.setValid g a v = .ok c') :
    c'.metaPage = Function.update c.metaPage (a / PAGE_SIZE) v := by
  rw [setValid_eq] at h
  split at h
  · cases h
  · cases h
    rfl

/-- A page moved was mapped, and no bit is set but that of its new address. -/
theorem remap_marks {a i : Nat} (h : c.remap g q a = .ok c') :
    c.table q ≠ none ∧ (c'.metaPage i = true → c.metaPage i = true ∨ i = a / PAGE_SIZE) := by
  rw [remap] at h
  obtain ⟨old, hold, h⟩ := bind_eq_ok.1 h
  obtain ⟨c₁, h₁, h⟩ := bind_eq_ok.1 h
  refine ⟨fun hnone => ?_, fun hi => ?_⟩
  · rw [getPageAddr, hnone] at hold
    cases hold
  · have hset := setValid_metaPage h
    rw [setPageAddr_eq] at hset
    replace hset : c'.metaPage = Function.update c₁.metaPage (a / PAGE_SIZE) true := hset
    -- two bits are written: the new address is set after the old one has been cleared
    rw [hset, setValid_metaPage h₁, Function.update_apply, Function.update_apply] at hi
    by_cases hia : i = a / PAGE_SIZE
    · exact Or.inr hia
    · left
      rw [if_neg hia] at hi
      split at hi
      · cases hi
      · exact hi

theorem writePageGcLocked_marks {i : Nat} (h : writePageGcLocked g z q b c = .ok c') :
    c.table q ≠ none ∧
      (c'.metaPage i = true → c.metaPage i = true ∨ i = (c.zone z).wp / PAGE_SIZE) := by
  rw [writePageGcLocked_eq, appendOne] at h
  obtain ⟨c₁, happ, h⟩ := bind_eq_ok.1 h
  obtain ⟨c₂, hmap, happ⟩ := bind_eq_ok.1 happ
  cases happ
  cases h
  exact (remap_marks hmap : _ ∧ (c₂.metaPage i = true → _))

theorem Marked.moved {cl : Int} (h : Marked g c)
    (hfits : Fits g c (Write.writePageGc cl q b).size z) (hopen : (c.zone z).cond = .expOpen)
    (hlock : (Write.writePageGc cl q b).locked g z c = .ok c') : Marked g c' := by
  have hwork : Worked z 1 c c' := locked_worked hlock
  have hge := h.filled.wp_ge z
  have hroom := hfits.room hopen
  have hcap := g.cap_lt
  have hdiv : (c.zone z).wp / g.zoneSize = z :=
    g.div_zoneSize hge (lt_of_le_of_lt (h.filled.wp_le z) (by omega))
  refine ⟨h.filled.locked hfits hopen hlock, fun i => ?_, fun i hi => ?_⟩
  · rw [hwork.wp]
    split
    case isTrue => exact Nat.dvd_add (h.wp_dvd z) (Dvd.intro_left _ rfl)
    case isFalse => exact h.wp_dvd i
  · rw [hwork.wp]
    -- a bit set before lies below the old pointer, the bit set now below the new one
    rcases (writePageGcLocked_marks hlock).2 hi with hold | rfl
    · have hlt := h.below i hold
      split
      case isTrue hz =>
        rw [hz] at hlt
        exact lt_of_lt_of_le hlt (Nat.le_add_right _ _)
      case isFalse => exact hlt
    · rw [Nat.div_mul_cancel (h.wp_dvd z), hdiv, if_pos rfl]
      exact Nat.lt_add_of_pos_right (by decide)

/-- The thread goes over to the state `ws`. -/
theorem Spared.set {ws : WriterState} (hmarked : Marked g c)
    (hwaiting : ∀ w, ws = .waiting w → w.IsMove)
    (hholding : ∀ w z, ws = .holding w z → w.IsMove ∧ Fits g c w.size z)
    (hfresh : c.table p = none) : Spared g p ({ s with ctl := c }.set .gc ws) where
  marked := hmarked
  waiting w hw := by
    rw [set_state_self] at hw
    exact hwaiting w hw
  holding w z hw := by
    rw [set_state_self] at hw
    exact hholding w z hw
  fresh := hfresh

theorem size_le_cap_of_isMove (h : w.IsMove) : w.size * PAGE_SIZE ≤ g.cap := by
  cases w with
  | writePageGc cl q b => exact one_page_le_cap g
  | _ => cases h

/-- Somebody chooses a zone. -/
theorem select_spared (h : Spared g p s) (who : Party) :
    Yields (step g (.select who) s) (fun _ => True) (Spared g p) := by
  cases hst : s.state who with
  | idle =>
      rw [step_select_idle hst]
      exact h
  | holding w z =>
      rw [step, hst]
      exact h
  | waiting w =>
      rw [step_select hst]
      refine yields_partial_iff.2 fun s' hs' => ?_
      obtain ⟨⟨z, c⟩, hsel, hs'⟩ := bind_eq_ok.1 hs'
      cases hs'
      have hsel := selectWriteZone_selected hsel
      have hmarked := h.marked.selected hsel
      have hfresh : c.table p = none := by
        rw [hsel.only]
        exact h.fresh
      cases who with
      | fg =>
          -- the zone the thread holds may have been finished, but it has not been filled
          refine ⟨hmarked, h.waiting, fun w' y hw' => ?_, hfresh⟩
          obtain ⟨hmove, hfits⟩ := h.holding w' y hw'
          exact ⟨hmove, hfits.selected hsel⟩
      | gc =>
          have hmove := h.waiting w hst
          have hfits := h.marked.filled.fits hsel (size_le_cap_of_isMove hmove)
          refine Spared.set hmarked (fun w' hw' => by cases hw') (fun w' y hw' => ?_) hfresh
          cases hw'
          exact ⟨hmove, hfits⟩

/-- The thread works in its zone. -/
theorem lock_spared (h : Spared g p s) :
    Yields (step g (.lock .gc) s) (fun _ => True) (Spared g p) := by
  cases hst : s.state .gc with
  | idle =>
      rw [step_lock_idle hst]
      exact h
  | waiting w =>
      rw [step, hst]
      exact h
  | holding w z =>
      obtain ⟨hmove, hfits⟩ := h.holding w z hst
      by_cases hopen : (s.ctl.zone z).cond = .expOpen
      · rw [step_lock_open hst hopen]
        refine yields_partial_iff.2 fun s' hs' => ?_
        obtain ⟨c, hlock, hs'⟩ := bind_eq_ok.1 hs'
        cases hs'
        cases w with
        | writePageGc cl q b =>
            -- a page that is moved is mapped, so it is not the one to be created
            have hne : p ≠ q := by
              rintro rfl
              exact (writePageGcLocked_marks (i := 0) hlock).1 h.fresh
            have hfresh : c.table p = none := by
              rw [writePageGcLocked_table hlock, PartialMap.insertOrAssign_of_ne _ _ hne]
              exact h.fresh
            exact Spared.set (h.marked.moved hfits hopen hlock) (fun w' hw' => by cases hw')
              (fun w' y hw' => by cases hw') hfresh
        | _ => cases hmove
      · rw [step_lock_closed hst hopen]
        refine Spared.set h.marked (fun w' hw' => ?_) (fun w' y hw' => by cases hw') h.fresh
        cases w with
        | writePageGc cl q b =>
            cases hw'
            trivial
        | _ => cases hmove

/-- **One step beside the call.** -/
theorem step_spared (h : Spared g p s) (e : WriterEvent) (hbeside : Beside e) :
    Yields (step g e s) (fun _ => True) (Spared g p) := by
  cases e with
  | call who w =>
      obtain ⟨rfl, hmove⟩ := hbeside
      rw [step]
      split
      case h_1 =>
        refine Spared.set h.marked (fun w' hw' => ?_) (fun w' y hw' => by cases hw') h.fresh
        cases hw'
        exact hmove
      case h_2 => exact h
  | select who => exact select_spared h who
  | lock who =>
      obtain rfl : who = .gc := hbeside
      exact lock_spared h

/-- **A call of `create_new_page` survives exactly if its zone is still open** when it takes the
mutex, whatever a thread that moves pages has done since the call chose the zone, and before. -/
theorem createNewPage_survives (g : Geometry) (rates : Nat → Rates) (ops : List Op)
    (hl : Legal (Op.Pre g) Op.spec ops .empty) {c : Controller}
    (hc : run (Controller.step g) ops (Controller.init g rates) = .ok c) {p : PageId}
    (hp : c.table p = none) (b : Page) (es : List WriterEvent) (hes : ∀ e ∈ es, Beside e)
    {s : Writers} (hs : run (step g) es (creating c p b) = .ok s) {z : Nat}
    (hfg : s.state .fg = .holding (.createNewPage p b) z) :
    Survives g p b s ↔ (s.ctl.zone z).cond = .expOpen := by
  have hinv := ((run_spec_any rates ops hl).of_ok hc).inv
  have hstart : Spared g p (creating c p b) :=
    ⟨Marked.of_inv hinv, fun _ h => (by cases h), fun _ _ h => (by cases h), hp⟩
  have hrun : Yields (run (step g) es (creating c p b)) (fun _ => True) (Spared g p) :=
    Yields.foldlM (Spared g p) es _ hstart fun e he s h => step_spared h e (hes e he)
  have hspared := hrun.of_ok hs
  rw [survives_iff hfg hspared.fresh]
  exact and_iff_left (hspared.marked.wp_free z)

/-- Beside the call the foreground makes no other. -/
theorem step_calling {e : WriterEvent} (hbeside : Beside e)
    (h : ∀ w' z, s.state .fg = .waiting w' ∨ s.state .fg = .holding w' z → w' = w) :
    Yields (step g e s) (fun _ => True) fun s' =>
      ∀ w' z, s'.state .fg = .waiting w' ∨ s'.state .fg = .holding w' z → w' = w := by
  refine yields_partial_iff.2 fun s' hs' => ?_
  cases e with
  | call who w₁ =>
      obtain ⟨rfl, -⟩ := hbeside
      rw [step] at hs'
      split at hs'
      · cases hs'
        exact h
      · cases hs'
        exact h
  | lock who =>
      obtain rfl : who = .gc := hbeside
      rw [step] at hs'
      split at hs'
      · split at hs'
        · cases hs'
          exact h
        · obtain ⟨c, -, hs'⟩ := bind_eq_ok.1 hs'
          cases hs'
          exact h
      · cases hs'
        exact h
  | select who =>
      cases hst : s.state who with
      | waiting w₁ =>
          rw [step_select hst] at hs'
          obtain ⟨⟨z, c⟩, -, hs'⟩ := bind_eq_ok.1 hs'
          cases hs'
          cases who with
          | gc => exact h
          | fg =>
              -- the foreground's own choice does not change its call
              intro w' y hw'
              have hw₁ := h w₁ 0 (Or.inl hst)
              rw [set_state_self] at hw'
              rcases hw' with hw' | hw'
              · cases hw'
              · cases hw'
                exact hw₁
      | idle =>
          cases (step_select_idle hst).symm.trans hs'
          exact h
      | holding w₁ z =>
          rw [step, hst] at hs'
          cases hs'
          exact h

/-! ## A zone lost -/

/-- The zone a writer has chosen. -/
def held (s : Writers) (who : Party) : Option Nat :=
  match s.state who with
  | .holding _ z => some z
  | _ => none

/-- The zone chosen is chosen for the call that creates the page. -/
theorem holding_of_held {es : List WriterEvent} (hes : ∀ e ∈ es, Beside e)
    (hs : run (step g) es (creating c p b) = .ok s) (hheld : s.held .fg = some z) :
    s.state .fg = .holding (.createNewPage p b) z := by
  have hrun : Yields (run (step g) es (creating c p b)) (fun _ => True) fun s =>
      ∀ w' z, s.state .fg = .waiting w' ∨ s.state .fg = .holding w' z →
        w' = .createNewPage p b := by
    refine Yields.foldlM _ es _ (fun w' z hw' => ?_) fun e he s h => step_calling (hes e he) h
    rw [creating, set_state_self] at hw'
    rcases hw' with hw' | hw'
    · cases hw'
      rfl
    · cases hw'
  rw [held] at hheld
  split at hheld
  case h_1 w' z' hst =>
    cases hheld
    rw [hst, hrun.of_ok hs w' z (Or.inr hst)]
  case h_2 => cases hheld

instance (w : Write) : Decidable w.IsMove :=
  match w with
  | .writePageGc _ _ _ => isTrue trivial
  | .createNewPage _ _ => isFalse id
  | .writePage _ _ _ => isFalse id
  | .writeCluster _ _ => isFalse id

instance (e : WriterEvent) : Decidable (Beside e) :=
  match e with
  | .call _ _ => inferInstanceAs (Decidable (_ ∧ _))
  | .select _ => isTrue trivial
  | .lock _ => inferInstanceAs (Decidable (_ = _))

/-- Three pages leave one page of zone 1 free. -/
@[irreducible] def threePages : List Op :=
  [.createNewPage 1 (frameOf 1 10), .createNewPage 2 (frameOf 2 20),
    .createNewPage 3 (frameOf 3 30)]

/-- The call chooses zone 1; then a page moves there. -/
def moveIn : List WriterEvent :=
  [.select .fg] ++ alone .gc (.writePageGc 0 1 (frameOf 1 10))

/-- The next page that moves finds zone 1 full and finishes it. -/
@[irreducible] def loseZone : List WriterEvent :=
  moveIn ++ [.call .gc (.writePageGc 0 2 (frameOf 2 20)), .select .gc]

@[irreducible] def keepZone : List WriterEvent := moveIn

/-- The state in which the call that creates page 4 is to take the mutex, with that before it. -/
def atLock (es : List WriterEvent) : Except Fault (Controller × Writers) := do
  let c ← run (Controller.step .small) threePages smallStart
  let s ← run (step .small) es (creating c 4 (frameOf 4 40))
  .ok (c, s)

theorem atLock_eq_ok {es : List WriterEvent} (h : atLock es = .ok (c, s)) :
    run (Controller.step .small) threePages smallStart = .ok c ∧
      run (step .small) es (creating c 4 (frameOf 4 40)) = .ok s := by
  obtain ⟨c', hc, h⟩ := bind_eq_ok.1 h
  obtain ⟨s', hs, h⟩ := bind_eq_ok.1 h
  cases h
  exact ⟨hc, hs⟩

/-- The fault a computation stops with. -/
def fault {α : Type} : Except Fault α → Option Fault
  | .ok _ => none
  | .error e => some e

/-- **A page moved at the wrong moment makes `create_new_page` fail**: it looks up the address of
the page it is to create. -/
theorem lost_zone : ∃ c s, run (Controller.step .small) threePages smallStart = .ok c ∧
    c.table 4 = none ∧ run (step .small) loseZone (creating c 4 (frameOf 4 40)) = .ok s ∧
    s.held .fg = some 1 ∧ run (step .small) finish s = .error .outOfRange ∧
    ¬ Survives .small 4 (frameOf 4 40) s := by
  obtain ⟨⟨c, s⟩, hcs, hnone, hheld, hfault⟩ : ∃ cs, atLock loseZone = .ok cs ∧
      cs.1.table 4 = none ∧ cs.2.held .fg = some 1 ∧
      fault (run (step .small) finish cs.2) = some .outOfRange :=
    exists_ok_of_decide (by decide +kernel)
  obtain ⟨hc, hs⟩ := atLock_eq_ok hcs
  have hrun : run (step .small) finish s = .error .outOfRange := by
    cases hr : run (step .small) finish s with
    | ok s' =>
        rw [hr] at hfault
        cases hfault
    | error e =>
        rw [hr] at hfault
        rw [Option.some.inj hfault]
  refine ⟨c, s, hc, hnone, hs, hheld, hrun, ?_⟩
  rintro ⟨s', hs', -⟩
  cases hrun.symm.trans hs'

theorem threePages_legal : Legal (Op.Pre .small) Op.spec threePages .empty := by
  simp [threePages, Legal, Op.Pre, Op.spec, Op.writes, PartialMap.assignAll,
    PartialMap.insertOrAssign_apply]

theorem keepZone_beside : ∀ e ∈ keepZone, Beside e := by
  decide +kernel

theorem createNewPage_survives_moveIn :
    ∃ c s, run (Controller.step .small) threePages smallStart = .ok c ∧
      run (step .small) keepZone (creating c 4 (frameOf 4 40)) = .ok s ∧
      (Survives .small 4 (frameOf 4 40) s ↔ (s.ctl.zone 1).cond = .expOpen) := by
  obtain ⟨⟨c, s⟩, hcs, hnone, hheld⟩ : ∃ cs, atLock keepZone = .ok cs ∧
      cs.1.table 4 = none ∧ cs.2.held .fg = some 1 :=
    exists_ok_of_decide (by decide +kernel)
  obtain ⟨hc, hs⟩ := atLock_eq_ok hcs
  exact ⟨c, s, hc, hs, createNewPage_survives .small (fun _ => ⟨0, 0, 0⟩) threePages
    threePages_legal hc hnone (frameOf 4 40) keepZone keepZone_beside hs
    (holding_of_held keepZone_beside hs hheld)⟩

end Writers

end ZoneBuffer
