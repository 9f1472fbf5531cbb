import ZoneBuffer.Zone.Sharing

set_option autoImplicit false

/-! # Recycling beside the writers

At its end `garbage_collection` makes its zone available again: it resets the zone, stores
`EMPTY`, `-1` and the start of the zone in the descriptor, and clears the bits that are still
set, one position after the other (`gcSteps_eq`). It does so without the mutex of the zone, and
`select_write_zone` reads the descriptors without it.

So a zone can be opened as soon as its descriptor says that it is empty and free, before its write
pointer is back at the start (`stale_pointer`) and before the bits are cleared
(`fresh_bit_cleared`). If no request opens a zone between the stores and no page is stored where
the clearing has yet to come (`Timely`), every zone is opened at its start, and the collection
that has recycled it leaves it alone (`recycled_run`). -/

namespace ZoneBuffer

open Outcome Machine Controller

/-- Where the collection of a zone is, from the end of its scan on. -/
inductive Stage where
  | idle
  | scanned
  | reset
  /-- The condition has been stored. -/
  | emptied
  /-- The cluster id has been stored. -/
  | released
  /-- The write pointer has been stored, and the clearing has come to byte `pos`. -/
  | clearing (pos : Nat)
  deriving DecidableEq

namespace Stage

/-- The descriptor says that the zone is empty, and its write pointer is that of the full zone. -/
def InGap (st : Stage) : Prop := st = emptied ∨ st = released

/-- The write pointer has not been stored yet. -/
def Early (st : Stage) : Prop := st = scanned ∨ st = reset ∨ st.InGap

instance (st : Stage) : Decidable st.InGap := inferInstanceAs (Decidable (_ ∨ _))

end Stage

/-- The writers and the collections. `since` lists where pages have been stored in a zone since it
was opened, if it has been since its last collection began. -/
structure Recycler where
  writers : Writers
  stage : Nat → Stage
  since : Nat → Option (List Nat)

/-- What can happen next. -/
inductive RecycleEvent where
  | writer (e : WriterEvent)
  /-- The scan of zone `z` is over. -/
  | collect (z : Nat)
  /-- The collection of zone `z` takes its next step. -/
  | gc (z : Nat)

/-- The addresses a call stores its pages at from byte `a` on. -/
def Write.positions (w : Write) (a : Nat) : List Nat :=
  (List.range w.size).map fun i => a + i * PAGE_SIZE

/-- The addresses of zone `z` at which a step stores pages. -/
def Writers.stored (s : Writers) (z : Nat) : WriterEvent → List Nat
  | .lock who =>
      match s.state who with
      | .holding w y =>
          if y = z ∧ (s.ctl.zone z).cond = .expOpen then w.positions (s.ctl.zone z).wp else []
      | _ => []
  | _ => []

namespace Recycler

variable (g : Geometry)

def ctl (s : Recycler) : Controller := s.writers.ctl

/-- No collection is under way. -/
def start (c : Controller) : Recycler := ⟨Writers.start c, fun _ => .idle, fun _ => none⟩

/-- The collection of zone `z` goes on to stage `st`, leaving the controller in state `c`. -/
def next (s : Recycler) (z : Nat) (c : Controller) (st : Stage) : Recycler :=
  { s with
    writers := { s.writers with ctl := c }
    stage := Function.update s.stage z st }

/-- One iteration of the loop that clears bits. -/
def clearPosition (c : Controller) (pos : Nat) : Except Fault Controller :=
  if c.getValid pos then c.setValid g pos false else .ok c

/-- The last stores of the collection of zone `z`. -/
def finish (z : Nat) (c : Controller) : Controller :=
  let c := c.modifyZone z fun d => { d with rates := { d.rates with idle := 0, gc := 0 } }
  let c := c.modifyZone z fun d => { d with inGc := false }
  { c with gc := false }

/-- The next step of the collection of zone `z`. -/
def gcStep (z : Nat) (s : Recycler) : Except Fault Recycler :=
  match s.stage z with
  | .idle => .ok s
  | .scanned => .ok (s.next z (s.ctl.resetZone g z) .reset)
  | .reset => .ok (s.next z (s.ctl.modifyZone z fun d => { d with cond := .empty }) .emptied)
  | .emptied => .ok (s.next z (s.ctl.modifyZone z fun d => { d with cf := -1 }) .released)
  | .released =>
      .ok (s.next z (s.ctl.modifyZone z fun d => { d with wp := g.ofst z })
        (.clearing (g.ofst z)))
  | .clearing pos =>
      if pos < g.ofst z + g.cap then do
        let c ← clearPosition g s.ctl pos
        .ok (s.next z c (.clearing (pos + PAGE_SIZE)))
      else .ok (s.next z (finish z s.ctl) .idle)

/-- What `since` becomes when a step of a writer leaves the controller in state `c`. -/
def noted (s : Recycler) (e : WriterEvent) (c : Controller) (z : Nat) : Option (List Nat) :=
  if (s.ctl.zone z).cond = .empty ∧ (c.zone z).cond = .expOpen then some []
  else (s.since z).map (· ++ s.writers.stored z e)

/-- One step. A collection is under way for full zones only, and for no zone twice. -/
def step : RecycleEvent → Recycler → Except Fault Recycler
  | .writer e, s => do
      let writers ← s.writers.step g e
      .ok { s with writers := writers, since := s.noted e writers.ctl }
  | .collect z, s =>
      if (s.ctl.zone z).cond = .full ∧ (s.ctl.zone z).inGc = false then
        let c := s.ctl.modifyZone z fun d => { d with inGc := true }
        .ok { s.next z c .scanned with since := Function.update s.since z none }
      else .ok s
  | .gc z, s => s.gcStep g z

/-- A zone that is opened is written from its start, and the collection that has recycled a zone
changes neither its write pointer nor the valid bits of the pages stored since. -/
structure StepOk (s : Recycler) (e : RecycleEvent) (s' : Recycler) : Prop where
  opened : ∀ z, (s.ctl.zone z).cond = .empty → (s'.ctl.zone z).cond = .expOpen →
    (s'.ctl.zone z).wp = g.ofst z
  wp : ∀ z l, e = .gc z → s.since z = some l → (s'.ctl.zone z).wp = (s.ctl.zone z).wp
  valid : ∀ z l, e = .gc z → s.since z = some l → ∀ a ∈ l, s.ctl.getValid a = true →
    s'.ctl.getValid a = true

def Sound (s : Recycler) (e : RecycleEvent) : Prop :=
  ∀ s', step g e s = .ok s' → StepOk g s e s'

/-- A request that finds no open zone with room does not meet a zone between the stores, and a
page stored in a zone whose bits are being cleared goes where they have been. -/
def Timely (s : Recycler) : RecycleEvent → Prop
  | .writer (.select who) =>
      match s.writers.state who with
      | .waiting w =>
          (∃ i < g.maxZoneNum, Chosen g (w.cf.tmod g.clusterNum) w.size i s.ctl) ∨
            ∀ z ∈ firstFree g s.ctl, ¬ (s.stage z).InGap
      | _ => True
  | .writer (.lock who) =>
      match s.writers.state who with
      | .holding w z =>
          match s.stage z with
          | .clearing pos => (s.ctl.zone z).cond = .expOpen →
              ∀ a ∈ w.positions (s.ctl.zone z).wp, a < pos
          | _ => True
      | _ => True
  | _ => True

variable {g} {s s' : Recycler} {c : Controller} {z : Nat} {e : WriterEvent}

@[simp] theorem next_ctl (s : Recycler) (z : Nat) (c : Controller) (st : Stage) :
    (s.next z c st).ctl = c := rfl

theorem next_stage (s : Recycler) (z : Nat) (c : Controller) (st : Stage) (i : Nat) :
    (s.next z c st).stage i = if i = z then st else s.stage i := Function.update_apply ..

/-! ## The invariant -/

structure RecInv (g : Geometry) (s : Recycler) : Prop where
  empty : ∀ z, (s.ctl.zone z).cond = .empty →
    (s.stage z).InGap ∨ (s.ctl.zone z).wp = g.ofst z
  full : ∀ z, s.stage z = .scanned ∨ s.stage z = .reset → (s.ctl.zone z).cond = .full
  early : ∀ z, (s.stage z).Early → s.since z = none
  aligned : ∀ z pos, s.stage z = .clearing pos → PAGE_SIZE ∣ pos
  passed : ∀ z pos l, s.stage z = .clearing pos → s.since z = some l → ∀ a ∈ l, a < pos

theorem RecInv.start {K : Int → Prop} (h : Inv g K c) : RecInv g (Recycler.start c) where
  empty z hz := Or.inr (h.empty z hz).2.1
  full _ hz := by rcases hz with hz | hz <;> cases hz
  early _ _ := rfl
  aligned _ _ hz := by cases hz
  passed _ _ _ hz := by cases hz

/-! ## The steps of the writers -/

/-- A step of a writer opens at most the first free zone, if no open zone would do, and changes
the write pointers of open zones only. -/
structure Stepped (g : Geometry) (s : Writers) (e : WriterEvent) (c : Controller) : Prop where
  empty : ∀ z, (c.zone z).cond = .empty → (s.ctl.zone z).cond = .empty
  full : ∀ z, (s.ctl.zone z).cond = .full → (c.zone z).cond = .full
  wp : ∀ z, (s.ctl.zone z).cond ≠ .expOpen → (c.zone z).wp = (s.ctl.zone z).wp
  opened : ∀ z, (s.ctl.zone z).cond = .empty → (c.zone z).cond = .expOpen →
    ∃ who w, e = .select who ∧ s.state who = .waiting w ∧ firstFree g s.ctl = some z ∧
      ∀ i < g.maxZoneNum, ¬ Chosen g (w.cf.tmod g.clusterNum) w.size i s.ctl

theorem stepped {ws ws' : Writers} (h : ws.step g e = .ok ws') : Stepped g ws e ws'.ctl := by
  rcases Writers.step_ctl h with heq | ⟨who, w, z, rfl, hst, hselect⟩ |
    ⟨who, w, z, rfl, hst, hopen, hlock⟩
  -- a call: no zone changes
  · rw [heq]
    refine ⟨fun _ => id, fun _ => id, fun _ _ => rfl, fun i hi hi' => ?_⟩
    cases hi.symm.trans hi'
  -- a choice: zones are finished and at most one is opened
  · have hsel := selectWriteZone_selected hselect
    refine ⟨fun i hi => ?_, fun i hi => ?_, fun i _ => hsel.wp i, fun i hi hi' => ?_⟩
    · have hne : i ≠ z := by
        rintro rfl
        cases hsel.cond.symm.trans hi
      rw [← (Same.of_empty (hsel.other i hne) hi).zone]
      exact hi
    · have hne : i ≠ z := by
        rintro rfl
        rcases hsel.target with ⟨hchosen, -⟩ | hopened
        · cases hchosen.cond.symm.trans hi
        · cases hopened.cond.symm.trans hi
      rcases hsel.other i hne with hsame | hfin
      · rw [hsame.zone]
        exact hi
      · rw [hfin.zone]
    · -- the only zone opened is the one chosen
      have heq : i = z := by
        by_contra hne
        rcases hsel.other i hne with hsame | hfin
        · rw [hsame.zone] at hi'
          cases hi.symm.trans hi'
        · exact hfin.not_open hi'
      subst heq
      have hnewly := selectWriteZone_opened hselect hi
      exact ⟨who, w, rfl, hst, hnewly.first, hnewly.unfit⟩
  -- a body: conditions stay, and the write pointer moves in an open zone
  · have hwork := Writers.locked_worked hlock
    refine ⟨fun i hi => ?_, fun i hi => ?_, fun i hi => ?_, fun i hi hi' => ?_⟩
    · rwa [hwork.cond] at hi
    · rwa [hwork.cond]
    · rw [hwork.wp, if_neg]
      rintro rfl
      exact hi hopen
    · rw [hwork.cond] at hi'
      cases hi.symm.trans hi'

/-- A zone that is opened in time has its write pointer at its start. -/
theorem RecInv.opened (h : RecInv g s) (hstep : Stepped g s.writers e c)
    (htimely : Timely g s (.writer e)) (hz : (s.ctl.zone z).cond = .empty)
    (hz' : (c.zone z).cond = .expOpen) : ¬ (s.stage z).InGap ∧ (s.ctl.zone z).wp = g.ofst z := by
  obtain ⟨who, w, rfl, hst, hfirst, hnone⟩ := hstep.opened z hz hz'
  simp only [Timely, hst] at htimely
  rcases htimely with ⟨i, hi, hchosen⟩ | hgap
  -- an open zone has room, so nothing is opened
  · exact absurd hchosen (hnone i hi)
  · exact ⟨hgap z hfirst, (h.empty z hz).resolve_left (hgap z hfirst)⟩

/-- What is stored in time is stored where the bits have been cleared. -/
theorem stored_lt (htimely : Timely g s (.writer e)) {pos a : Nat}
    (hstage : s.stage z = .clearing pos) (ha : a ∈ s.writers.stored z e) : a < pos := by
  cases e with
  | call who w => cases ha
  | select who => cases ha
  | lock who =>
      cases hst : s.writers.state who with
      | idle => simp [Writers.stored, hst] at ha
      | waiting w => simp [Writers.stored, hst] at ha
      | holding w y =>
          simp only [Writers.stored, hst] at ha
          split at ha
          case isFalse => cases ha
          case isTrue hy =>
            obtain ⟨rfl, hopen⟩ := hy
            simp only [Timely, hst, hstage] at htimely
            exact htimely hopen a ha

theorem writer_spec (h : RecInv g s) (htimely : Timely g s (.writer e))
    (hs : step g (.writer e) s = .ok s') : StepOk g s (.writer e) s' ∧ RecInv g s' := by
  obtain ⟨ws, hws, hs⟩ := bind_eq_ok.1 hs
  cases hs
  have hstep := stepped hws
  have hopened : ∀ z, (s.ctl.zone z).cond = .empty → (ws.ctl.zone z).cond = .expOpen →
      ¬ (s.stage z).InGap ∧ (s.ctl.zone z).wp = g.ofst z := fun z => h.opened hstep htimely
  refine ⟨⟨fun z hz hz' => ?_, fun z l he => ?_, fun z l he => ?_⟩, fun z hz => ?_, fun z hz => ?_,
    fun z hz => ?_, h.aligned, fun z pos l hz hl a ha => ?_⟩
  · rw [← (hopened z hz hz').2]
    exact hstep.wp z (by rw [show s.writers.ctl = s.ctl from rfl, hz]; decide)
  · cases he
  · cases he
  · have hold := hstep.empty z hz
    have hwp : (ws.ctl.zone z).wp = (s.ctl.zone z).wp := hstep.wp z (by rw [hold]; decide)
    show (s.stage z).InGap ∨ (ws.ctl.zone z).wp = _
    rw [hwp]
    exact h.empty z hold
  · exact hstep.full z (h.full z hz)
  -- in an early stage the zone is full, or not opened in time: nothing is noted
  · show s.noted e ws.ctl z = none
    rw [noted, if_neg, h.early z hz, Option.map_none]
    rintro ⟨hempty, hopen⟩
    rcases hz with hz | hz | hz
    · cases (h.full z (Or.inl hz)).symm.trans hempty
    · cases (h.full z (Or.inr hz)).symm.trans hempty
    · exact (hopened z hempty hopen).1 hz
  · replace hl : s.noted e ws.ctl z = some l := hl
    rw [noted] at hl
    split at hl
    -- just opened: nothing stored since
    case isTrue =>
      cases hl
      cases ha
    case isFalse =>
      obtain ⟨l₀, hl₀, rfl⟩ := Option.map_eq_some_iff.1 hl
      rcases List.mem_append.1 ha with ha | ha
      · exact h.passed z pos l₀ hz hl₀ a ha
      · exact stored_lt htimely hz ha

/-! ## The steps of the collections -/

/-- What a step of the collection of zone `z` from stage `st` to stage `st'` has to leave. -/
theorem RecInv.next (h : RecInv g s) {st : Stage}
    (hcond : ∀ i, i ≠ z → (c.zone i).cond = (s.ctl.zone i).cond)
    (hwp : ∀ i, i ≠ z → (c.zone i).wp = (s.ctl.zone i).wp)
    (hempty : (c.zone z).cond = .empty → st.InGap ∨ (c.zone z).wp = g.ofst z)
    (hfull : st = .scanned ∨ st = .reset → (c.zone z).cond = .full)
    (hearly : st.Early → s.since z = none)
    (haligned : ∀ pos, st = .clearing pos → PAGE_SIZE ∣ pos)
    (hpassed : ∀ pos l, st = .clearing pos → s.since z = some l → ∀ a ∈ l, a < pos) :
    RecInv g (s.next z c st) := by
  refine ⟨fun i hi => ?_, fun i hi => ?_, fun i hi => ?_, fun i pos hi => ?_,
    fun i pos l hi => ?_⟩
  -- in each field, zone `z` by what the step leaves and the others by the invariant before it
  · rw [next_ctl] at hi ⊢
    rw [next_stage]
    split
    case isTrue hiz =>
      subst hiz
      exact hempty hi
    case isFalse hiz =>
      rw [hcond i hiz] at hi
      rw [hwp i hiz]
      exact h.empty i hi
  · rw [next_stage] at hi
    rw [next_ctl]
    split at hi
    case isTrue hiz =>
      subst hiz
      exact hfull hi
    case isFalse hiz =>
      rw [hcond i hiz]
      exact h.full i hi
  · rw [next_stage] at hi
    split at hi
    case isTrue hiz =>
      subst hiz
      exact hearly hi
    case isFalse => exact h.early i hi
  · rw [next_stage] at hi
    split at hi
    case isTrue => exact haligned pos hi
    case isFalse => exact h.aligned i pos hi
  · rw [next_stage] at hi
    split at hi
    case isTrue hiz =>
      subst hiz
      exact hpassed pos l hi
    case isFalse => exact h.passed i pos l hi

/-- A step that opens no zone, and whose zone has not been opened since its collection began. -/
theorem StepOk.of_unopened {e : RecycleEvent} (hcond : ∀ i, (s.ctl.zone i).cond = .empty →
      (s'.ctl.zone i).cond ≠ .expOpen) (hsince : ∀ z, e = .gc z → s.since z = none) :
    StepOk g s e s' where
  opened i hi hi' := absurd hi' (hcond i hi)
  wp z l he hl := by cases (hsince z he).symm.trans hl
  valid z l he hl := by cases (hsince z he).symm.trans hl

/-- A change of the descriptor of one zone that opens nothing. -/
theorem not_opened {f : ZoneDesc → ZoneDesc} (hf : (f (s.ctl.zone z)).cond ≠ .expOpen ∨
      (f (s.ctl.zone z)).cond = (s.ctl.zone z).cond) (i : Nat)
    (hi : (s.ctl.zone i).cond = .empty) :
    ((s.ctl.modifyZone z f).zone i).cond ≠ .expOpen := by
  rw [modifyZone_zone]
  split
  case isTrue hiz =>
    subst hiz
    rcases hf with hf | hf
    · exact hf
    · simp [hf, hi]
  case isFalse => simp [hi]

theorem collect_spec (h : RecInv g s) (hs : step g (.collect z) s = .ok s') :
    StepOk g s (.collect z) s' ∧ RecInv g s' := by
  rw [step] at hs
  split at hs
  case isFalse =>
    cases hs
    exact ⟨.of_unopened (fun i hi => by simp [hi]) (fun _ he => by cases he), h⟩
  case isTrue hfull =>
    cases hs
    refine ⟨.of_unopened (fun i hi => ?_) (fun _ he => by cases he), ?_⟩
    · exact not_opened (f := fun d => { d with inGc := true }) (Or.inr rfl) i hi
    · -- forgetting where pages have been stored leaves less to show
      have hforget : RecInv g { s with since := Function.update s.since z none } := by
        refine ⟨h.empty, h.full, fun i hi => ?_, h.aligned, fun i pos l hi hl => ?_⟩
        · show Function.update s.since z none i = none
          rw [Function.update_apply]
          split
          · rfl
          · exact h.early i hi
        · replace hl : Function.update s.since z none i = some l := hl
          rw [Function.update_apply] at hl
          split at hl
          · cases hl
          · exact h.passed i pos l hi hl
      have hmark := modifyZone_zone s.ctl z fun d => { d with inGc := true }
      show RecInv g (({ s with since := Function.update s.since z none } : Recycler).next z
        (s.ctl.modifyZone z fun d => { d with inGc := true }) .scanned)
      refine hforget.next (fun i hi => ?_) (fun i hi => ?_) (fun hz => ?_) (fun _ => ?_)
        (fun _ => Function.update_self ..) (fun _ he => by cases he) (fun _ _ he => by cases he)
      · rw [hmark, if_neg hi]
        rfl
      · rw [hmark, if_neg hi]
        rfl
      · rw [hmark, if_pos rfl] at hz
        cases hfull.1.symm.trans hz
      · rw [hmark, if_pos rfl]
        exact hfull.1

/-- Clearing one position leaves the bits below it. -/
theorem clearPosition_frame {c' : Controller} {pos : Nat} (haligned : PAGE_SIZE ∣ pos)
    (h : clearPosition g c pos = .ok c') : ∃ m v, c' = c.withBook c.table m v ∧
      ∀ a, a < pos → m (a / PAGE_SIZE) = c.metaPage (a / PAGE_SIZE) := by
  rw [clearPosition] at h
  split at h
  case isFalse =>
    cases h
    exact ⟨_, fun i => (c.zone i).validPage, rfl, fun _ _ => rfl⟩
  case isTrue =>
    rw [setValid_eq] at h
    split at h
    case isTrue => cases h
    case isFalse =>
      cases h
      refine ⟨_, _, rfl, fun a ha => Function.update_of_ne ?_ ..⟩
      obtain ⟨k, rfl⟩ := haligned
      -- an address below `pos` is on an earlier page
      rw [Nat.mul_div_cancel_left k (by decide)]
      exact ne_of_lt ((Nat.div_lt_iff_lt_mul (by decide)).2 (by rwa [Nat.mul_comm k]))

theorem finish_zone (z : Nat) (c : Controller) (i : Nat) :
    ((finish z c).zone i).cond = (c.zone i).cond ∧ ((finish z c).zone i).wp = (c.zone i).wp := by
  simp only [finish, modifyZone_zone]
  split
  case isTrue hi =>
    subst hi
    exact ⟨rfl, rfl⟩
  case isFalse => exact ⟨rfl, rfl⟩

/-- **The clearing**: the bits of the pages stored since are behind it. -/
theorem clearing_spec (h : RecInv g s) {pos : Nat} (hst : s.stage z = .clearing pos)
    (hs : (if pos < g.ofst z + g.cap then do
        let c ← clearPosition g s.ctl pos
        .ok (s.next z c (.clearing (pos + PAGE_SIZE)))
      else .ok (s.next z (finish z s.ctl) .idle)) = .ok s') :
    StepOk g s (.gc z) s' ∧ RecInv g s' := by
  have haligned := h.aligned z pos hst
  have hlt : ∀ l, s.since z = some l → ∀ a ∈ l, a < pos := fun l => h.passed z pos l hst
  have hempty : (s.ctl.zone z).cond = .empty → (s.ctl.zone z).wp = g.ofst z := fun hz =>
    (h.empty z hz).resolve_left (by rw [hst]; rintro (hgap | hgap) <;> cases hgap)
  split at hs
  -- the clearing goes on
  case isTrue =>
    obtain ⟨c, hc, hs⟩ := bind_eq_ok.1 hs
    cases hs
    obtain ⟨m, v, rfl, hm⟩ := clearPosition_frame haligned hc
    refine ⟨⟨fun i hi hi' => ?_, fun _ _ _ _ => rfl, ?_⟩,
      h.next (fun _ _ => rfl) (fun _ _ => rfl) (fun hz => Or.inr (hempty hz))
        (fun he => by rcases he with he | he <;> cases he)
        (fun he => by rcases he with he | he | he | he <;> cases he)
        (fun pos' he => ?_) (fun pos' l he hl a ha => ?_)⟩
    · cases hi.symm.trans hi'
    -- what has been stored since lies below `pos`
    · rintro z' l ⟨⟩ hl a ha hvalid
      show m (a / PAGE_SIZE) = true
      rw [hm a (hlt l hl a ha)]
      exact hvalid
    · cases he
      exact Nat.dvd_add haligned (dvd_refl _)
    · cases he
      exact lt_of_lt_of_le (hlt l hl a ha) (Nat.le_add_right _ _)
  -- the collection is over; write pointers and bits stay
  case isFalse =>
    cases hs
    refine ⟨⟨fun i hi hi' => ?_, fun z' _ _ _ => (finish_zone z s.ctl z').2, ?_⟩,
      h.next (fun i _ => (finish_zone z s.ctl i).1) (fun i _ => (finish_zone z s.ctl i).2)
        (fun hz => Or.inr ?_)
        (fun he => by rcases he with he | he <;> cases he)
        (fun he => by rcases he with he | he | he | he <;> cases he)
        (fun _ he => by cases he) (fun _ _ he => by cases he)⟩
    · rw [next_ctl, (finish_zone z s.ctl i).1] at hi'
      cases hi.symm.trans hi'
    · exact fun _ _ _ _ _ _ => id
    · rw [(finish_zone z s.ctl z).1] at hz
      rw [(finish_zone z s.ctl z).2]
      exact hempty hz

theorem gc_spec (h : RecInv g s) (hs : step g (.gc z) s = .ok s') :
    StepOk g s (.gc z) s' ∧ RecInv g s' := by
  have hearly : (s.stage z).Early → ∀ z', RecycleEvent.gc z = .gc z' → s.since z' = none := by
    rintro hst z' ⟨⟩
    exact h.early z hst
  rw [step, gcStep] at hs
  split at hs
  -- no collection under way
  case h_1 hst =>
    cases hs
    refine ⟨⟨fun i hi hi' => ?_, fun _ _ _ _ => rfl, fun _ _ _ _ _ _ => id⟩, h⟩
    cases hi.symm.trans hi'
  -- `reset_zone` does not touch the descriptor
  case h_2 hst =>
    cases hs
    have hfull := h.full z (Or.inl hst)
    refine ⟨.of_unopened (fun i hi => ?_) (hearly (Or.inl hst)),
      h.next (fun _ _ => rfl) (fun _ _ => rfl) (fun hz => ?_) (fun _ => hfull) (fun _ => ?_)
        (fun _ he => by cases he) (fun _ _ he => by cases he)⟩
    · exact fun hi' => by cases hi.symm.trans hi'
    · cases hfull.symm.trans hz
    · exact h.early z (Or.inl hst)
  -- the condition is stored: from here on the zone counts as empty
  case h_3 hst =>
    cases hs
    refine ⟨.of_unopened (fun i hi => ?_) (hearly (Or.inr (Or.inl hst))),
      h.next (fun i hi => by rw [modifyZone_zone, if_neg hi])
        (fun i hi => by rw [modifyZone_zone, if_neg hi]) (fun _ => Or.inl (Or.inl rfl))
        (fun he => by rcases he with he | he <;> cases he) (fun _ => ?_)
        (fun _ he => by cases he) (fun _ _ he => by cases he)⟩
    · exact not_opened (f := fun d => { d with cond := .empty }) (Or.inl (by simp)) i hi
    · exact h.early z (Or.inr (Or.inl hst))
  -- the cluster id is stored
  case h_4 hst =>
    cases hs
    refine ⟨.of_unopened (fun i hi => ?_) (hearly (Or.inr (Or.inr (Or.inl hst)))),
      h.next (fun i hi => by rw [modifyZone_zone, if_neg hi])
        (fun i hi => by rw [modifyZone_zone, if_neg hi]) (fun _ => Or.inl (Or.inr rfl))
        (fun he => by rcases he with he | he <;> cases he) (fun _ => ?_)
        (fun _ he => by cases he) (fun _ _ he => by cases he)⟩
    · exact not_opened (f := fun d => { d with cf := -1 }) (Or.inr rfl) i hi
    · exact h.early z (Or.inr (Or.inr (Or.inl hst)))
  -- the write pointer is stored: the zone is as a new one
  case h_5 hst =>
    cases hs
    have hnone := h.early z (Or.inr (Or.inr (Or.inr hst)))
    refine ⟨.of_unopened (fun i hi => ?_) (hearly (Or.inr (Or.inr (Or.inr hst)))),
      h.next (fun i hi => by rw [modifyZone_zone, if_neg hi])
        (fun i hi => by rw [modifyZone_zone, if_neg hi]) (fun _ => Or.inr ?_)
        (fun he => by rcases he with he | he <;> cases he) (fun _ => hnone)
        (fun pos he => ?_) (fun pos l _ hl => by cases hnone.symm.trans hl)⟩
    · exact not_opened (f := fun d => { d with wp := g.ofst z }) (Or.inr rfl) i hi
    · rw [modifyZone_zone, if_pos rfl]
    · cases he
      exact g.ofst_dvd z
  case h_6 pos hst =>
    exact clearing_spec h hst hs

/-- **One step.** -/
theorem step_spec (h : RecInv g s) (e : RecycleEvent) (htimely : Timely g s e)
    (hs : step g e s = .ok s') : StepOk g s e s' ∧ RecInv g s' := by
  cases e with
  | writer e => exact writer_spec h htimely hs
  | collect z => exact collect_spec h hs
  | gc z => exact gc_spec h hs

/-- **Where no request comes between the stores and no page where bits are still cleared, zones
are handed out recycled.** -/
theorem recycled_run (g : Geometry) (rates : Nat → Rates) (ops : List Op)
    (hl : Legal (Op.Pre g) Op.spec ops .empty) {c : Controller}
    (hc : run (Controller.step g) ops (Controller.init g rates) = .ok c)
    (es : List RecycleEvent) (htimely : Along (step g) (Timely g) es (start c)) :
    Along (step g) (Sound g) es (start c) := by
  refine htimely.of_inv (RecInv g) (fun s e h he => ?_)
    (RecInv.start ((run_spec_any rates ops hl).of_ok hc).inv)
  exact ⟨fun s' hs' => (step_spec h e he hs').1, fun s' hs' => (step_spec h e he hs').2⟩

/-! ## The steps make up the recycling -/

theorem next_next (s : Recycler) (z : Nat) (c c' : Controller) (st st' : Stage) :
    (s.next z c st).next z c' st' = s.next z c' st' := by
  simp only [next, Function.update_idem]

theorem modifyZone_modifyZone (c : Controller) (z : Nat) (f f' : ZoneDesc → ZoneDesc) :
    (c.modifyZone z f).modifyZone z f' = c.modifyZone z fun d => f' (f d) := by
  simp only [modifyZone, Function.update_idem, Function.update_self]

/-- The clearing, from position `k` of the scan on. -/
theorem run_clearing (m : Nat) : ∀ (k : Nat) (s : Recycler),
    k + m = (g.cap + (PAGE_SIZE - 1)) / PAGE_SIZE →
    s.stage z = .clearing (g.ofst z + k * PAGE_SIZE) →
    run (step g) (List.replicate (m + 1) (.gc z)) s
      = ((List.range' k m).map fun i => g.ofst z + i * PAGE_SIZE).foldlM (clearPosition g) s.ctl
        >>= fun c => .ok (s.next z (finish z c) .idle) := by
  induction m with
  | zero =>
      intro k s hk hst
      have hge : ¬ g.ofst z + k * PAGE_SIZE < g.ofst z + g.cap := by
        have := Nat.div_add_mod (g.cap + (PAGE_SIZE - 1)) PAGE_SIZE
        have := Nat.mod_lt (g.cap + (PAGE_SIZE - 1)) (show PAGE_SIZE > 0 by decide)
        unfold PAGE_SIZE at *
        omega
      have hstep : step g (.gc z) s = .ok (s.next z (finish z s.ctl) .idle) := by
        rw [step, gcStep, hst]
        exact if_neg hge
      rw [List.replicate_one, run_cons, hstep]
      rfl
  | succ m ih =>
      intro k s hk hst
      have hlt : g.ofst z + k * PAGE_SIZE < g.ofst z + g.cap := by
        have := Nat.div_mul_le_self (g.cap + (PAGE_SIZE - 1)) PAGE_SIZE
        unfold PAGE_SIZE at *
        omega
      have hstep : step g (.gc z) s = clearPosition g s.ctl (g.ofst z + k * PAGE_SIZE) >>= fun c =>
          .ok (s.next z c (.clearing (g.ofst z + (k + 1) * PAGE_SIZE))) := by
        rw [step, gcStep, hst, Nat.add_mul k, Nat.one_mul, ← Nat.add_assoc]
        exact if_pos hlt
      rw [List.replicate_succ, run_cons, hstep, List.range'_succ, List.map_cons, List.foldlM_cons]
      cases clearPosition g s.ctl (g.ofst z + k * PAGE_SIZE) with
      | error e => rfl
      | ok c =>
          have hnext := ih (k + 1) (s.next z c (.clearing (g.ofst z + (k + 1) * PAGE_SIZE)))
            (by omega) (Function.update_self ..)
          rw [ok_bind, ok_bind, ok_bind, hnext, next_ctl]
          simp only [next_next]

/-- **Taken without interruption, the steps of a collection are the end of
`garbage_collection`.** -/
theorem gcSteps_eq (hst : s.stage z = .scanned) :
    run (step g) (List.replicate ((scanPositions g z).length + 5) (.gc z)) s
      = recycleZone g z s.ctl >>= fun c =>
        .ok (s.next z { c.modifyZone z fun d => { d with inGc := false } with gc := false }
          .idle) := by
  have hlen : (scanPositions g z).length = (g.cap + (PAGE_SIZE - 1)) / PAGE_SIZE := by
    rw [scanPositions, List.length_map, List.length_range]
  set c := (s.ctl.resetZone g z).modifyZone z
    fun d => { d with cond := .empty, cf := -1, wp := g.ofst z } with hc
  have hstores : run (step g) (List.replicate 4 (.gc z)) s
      = .ok (s.next z c (.clearing (g.ofst z))) := by
    have hstage : ∀ (c : Controller) st, (s.next z c st).stage z = st := fun _ _ =>
      Function.update_self ..
    simp only [List.replicate_succ, List.replicate_zero, run_cons, ok_bind, step, gcStep, hst,
      hstage, next_next, next_ctl, modifyZone_modifyZone, run_nil, hc]
  have hclear := run_clearing (g := g) (z := z) _ 0 (s.next z c (.clearing (g.ofst z)))
    (Nat.zero_add _) (by rw [Nat.zero_mul, Nat.add_zero]; exact Function.update_self ..)
  rw [Nat.add_comm, hlen, show 5 + (g.cap + (PAGE_SIZE - 1)) / PAGE_SIZE
      = 4 + ((g.cap + (PAGE_SIZE - 1)) / PAGE_SIZE + 1) by omega, List.replicate_add, run_append,
    hstores, ok_bind, hclear, next_ctl, ← List.range_eq_range']
  show (scanPositions g z).foldlM (clearPosition g) c >>= _ =
    ((scanPositions g z).foldlM (clearPosition g) c >>= _) >>= _
  cases (scanPositions g z).foldlM (clearPosition g) c with
  | error e => rfl
  | ok c' =>
      rw [ok_bind, next_next]
      rfl

/-! ## Zones handed out too early -/

instance (s : Recycler) (e : RecycleEvent) : Decidable (Timely g s e) :=
  match e with
  | .collect _ => isTrue trivial
  | .gc _ => isTrue trivial
  | .writer (.call _ _) => isTrue trivial
  | .writer (.select who) =>
      match hst : s.writers.state who with
      | .idle => isTrue (by simp only [Timely, hst])
      | .holding _ _ => isTrue (by simp only [Timely, hst])
      | .waiting w => decidable_of_iff
          ((∃ i < g.maxZoneNum, Chosen g (w.cf.tmod g.clusterNum) w.size i s.ctl) ∨
            ∀ z ∈ firstFree g s.ctl, ¬ (s.stage z).InGap)
          (by simp only [Timely, hst])
  | .writer (.lock who) =>
      match hst : s.writers.state who with
      | .idle => isTrue (by simp only [Timely, hst])
      | .waiting _ => isTrue (by simp only [Timely, hst])
      | .holding w z =>
          match hstage : s.stage z with
          | .clearing pos => decidable_of_iff ((s.ctl.zone z).cond = .expOpen →
              ∀ a ∈ w.positions (s.ctl.zone z).wp, a < pos)
              (by simp only [Timely, hst, hstage])
          | .idle => isTrue (by simp only [Timely, hst, hstage])
          | .scanned => isTrue (by simp only [Timely, hst, hstage])
          | .reset => isTrue (by simp only [Timely, hst, hstage])
          | .emptied => isTrue (by simp only [Timely, hst, hstage])
          | .released => isTrue (by simp only [Timely, hst, hstage])

/-- Pages 1 and 2 fill zone 0 and are rewritten elsewhere. -/
@[irreducible] def vacate : List Op :=
  [.createNewPage 1 (frameOf 1 10), .createNewPage 2 (frameOf 2 20),
    .createNewPage 3 (frameOf 3 30), .writePage 0 1 (frameOf 1 11), .writePage 0 2 (frameOf 2 21)]

/-- The next write of page 3 needs a new zone. -/
def rewrite : Write := .writePage 1 3 (frameOf 3 31)

/-- The collection of zone 0 takes `n` steps, and page 3 is to be rewritten. -/
def collecting (n : Nat) : List RecycleEvent :=
  [.collect 0] ++ List.replicate n (.gc 0) ++ [.writer (.call .fg rewrite)]

/-- The zone is chosen between the stores of the collection. -/
@[irreducible] def betweenStores : List RecycleEvent := collecting 3

/-- The page is stored before the bits have been cleared. -/
@[irreducible] def beforeClearing : List RecycleEvent :=
  collecting 4 ++ [.writer (.select .fg), .writer (.lock .fg)]

/-- The states before and after the last event. -/
def lastStep (es : List RecycleEvent) (e : RecycleEvent) :
    Except Fault (Controller × Recycler × Recycler) := do
  let c ← run (Controller.step .small) vacate smallStart
  let s ← run (step .small) es (start c)
  let s' ← step .small e s
  .ok (c, s, s')

theorem not_sound_of_lastStep {es : List RecycleEvent} {e : RecycleEvent}
    (h : lastStep es e = .ok (c, s, s')) (hbad : ¬ StepOk .small s e s') :
    run (Controller.step .small) vacate smallStart = .ok c ∧
      ¬ Along (step .small) (Sound .small) (es ++ [e]) (start c) := by
  obtain ⟨c', hc, h⟩ := bind_eq_ok.1 h
  obtain ⟨s₁, hs₁, h⟩ := bind_eq_ok.1 h
  obtain ⟨s₂, hs₂, h⟩ := bind_eq_ok.1 h
  cases h
  exact ⟨hc, fun hall => hbad (((along_append ..).1 hall).2 s hs₁ |>.1 s' hs₂)⟩

/-- **A zone is opened with the write pointer it had when it was full.** -/
theorem stale_pointer : ∃ c, run (Controller.step .small) vacate smallStart = .ok c ∧
    ¬ Along (step .small) (Sound .small) (betweenStores ++ [.writer (.select .fg)]) (start c) := by
  obtain ⟨⟨c, s, s'⟩, hlast, hempty, hopen, hwp⟩ :
      ∃ r, lastStep betweenStores (.writer (.select .fg)) = .ok r ∧
        (r.2.1.ctl.zone 0).cond = .empty ∧ (r.2.2.ctl.zone 0).cond = .expOpen ∧
        (r.2.2.ctl.zone 0).wp ≠ Geometry.small.ofst 0 :=
    exists_ok_of_decide (by decide +kernel)
  exact ⟨c, not_sound_of_lastStep hlast fun hok => hwp (hok.opened 0 hempty hopen)⟩

/-- **A collection clears the bit of a page stored in a zone it has handed out.** -/
theorem fresh_bit_cleared : ∃ c, run (Controller.step .small) vacate smallStart = .ok c ∧
    ¬ Along (step .small) (Sound .small) (beforeClearing ++ [.gc 0]) (start c) := by
  obtain ⟨⟨c, s, s'⟩, hlast, hsince, hvalid, hclear⟩ :
      ∃ r, lastStep beforeClearing (.gc 0) = .ok r ∧ r.2.1.since 0 = some [0] ∧
        r.2.1.ctl.getValid 0 = true ∧ r.2.2.ctl.getValid 0 = false :=
    exists_ok_of_decide (by decide +kernel)
  refine ⟨c, not_sound_of_lastStep hlast fun hok => ?_⟩
  have hkept := hok.valid 0 [0] rfl hsince 0 (List.mem_singleton_self 0) hvalid
  cases hkept.symm.trans hclear

/-- The page is stored in the zone when its first bit has been cleared, before the second. -/
@[irreducible] def behindClearing : List RecycleEvent :=
  collecting 5 ++ [.writer (.select .fg), .writer (.lock .fg), .gc 0, .gc 0]

theorem vacate_legal : Legal (Op.Pre .small) Op.spec vacate .empty := by
  simp [vacate, Legal, Op.Pre, Op.spec, Op.writes, PartialMap.assignAll,
    PartialMap.insertOrAssign_apply]

theorem recycled_run_behindClearing :
    ∃ c, run (Controller.step .small) vacate smallStart = .ok c ∧
      Along (step .small) (Sound .small) behindClearing (start c) := by
  obtain ⟨c, hc, htimely⟩ : ∃ c, run (Controller.step .small) vacate smallStart = .ok c ∧
      Along (step .small) (Timely .small) behindClearing (start c) :=
    exists_ok_of_decide (by decide +kernel)
  exact ⟨c, hc, recycled_run .small (fun _ => ⟨0, 0, 0⟩) vacate vacate_legal hc behindClearing
    htimely⟩

end Recycler

end ZoneBuffer
