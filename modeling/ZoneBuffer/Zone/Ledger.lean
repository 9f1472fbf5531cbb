import ZoneBuffer.Zone.Counting
import ZoneBuffer.Zone.Supply

set_option autoImplicit false

/-! # The ledger of the store

Every page handed to the device is either stored in a zone or has been erased with one. A call
enters what it does into that ledger (`Posted`): the pages of the caller, the pages a relocation
has moved, and the pages erased when a zone is reset. The entries of a run add up, so the
counters the program prints can be read off the calls: `write_count` counts a page of the caller
once and a page moved twice, and of the two totals of `get_gc_info` one is the number of pages
created and the other the number of pages sent that have not been erased (`ledger_run`). -/

namespace ZoneBuffer

open Outcome Machine

namespace Controller

variable {g : Geometry} {K : Int → Prop} {cf : Int} {n z pos i : Nat}
  {own own' moved moved' erased erased' : Nat} {s s' s'' : Controller}

/-! ## The pages stored -/

/-- The pages written to zone `i` since its last reset. -/
def usedPages (g : Geometry) (s : Controller) (i : Nat) : Nat :=
  ((s.zone i).wp - g.ofst i) / PAGE_SIZE

/-- The pages written to all zones since their last resets. -/
def pagesHeld (g : Geometry) (s : Controller) : Nat :=
  ∑ i ∈ Finset.range g.maxZoneNum, s.usedPages g i

/-- No write pointer is before its zone. -/
def Started (g : Geometry) (s : Controller) : Prop := ∀ i, g.ofst i ≤ (s.zone i).wp

theorem usedPages_congr (h : (s'.zone i).wp = (s.zone i).wp) :
    s'.usedPages g i = s.usedPages g i := by
  rw [usedPages, h, usedPages]

theorem pagesHeld_congr (h : ∀ i, (s'.zone i).wp = (s.zone i).wp) :
    s'.pagesHeld g = s.pagesHeld g :=
  Finset.sum_congr rfl fun i _ => usedPages_congr (h i)

theorem started_congr (h : ∀ i, (s'.zone i).wp = (s.zone i).wp) (hs : s.Started g) :
    s'.Started g := by
  intro i
  rw [h]
  exact hs i

/-- The write pointer of one zone advances by `n` pages. -/
theorem pagesHeld_advance (hs : s.Started g) (hz : z < g.maxZoneNum)
    (hwp : ∀ i, (s'.zone i).wp = if i = z then (s.zone z).wp + n * PAGE_SIZE else (s.zone i).wp) :
    s'.pagesHeld g = s.pagesHeld g + n := by
  have hused : ∀ i, s'.usedPages g i = s.usedPages g i + if z = i then n else 0 := by
    intro i
    have hge := hs i
    rw [usedPages, hwp, usedPages]
    by_cases hi : z = i
    · subst hi
      rw [if_pos rfl, if_pos rfl, Nat.sub_add_comm hge, Nat.add_mul_div_right _ _ (by decide)]
    · rw [if_neg (Ne.symm hi), if_neg hi, Nat.add_zero]
  calc s'.pagesHeld g
      = ∑ i ∈ Finset.range g.maxZoneNum, (s.usedPages g i + if z = i then n else 0) :=
        Finset.sum_congr rfl fun i _ => hused i
    _ = s.pagesHeld g + n := by
        rw [Finset.sum_add_distrib, Finset.sum_ite_eq, if_pos (Finset.mem_range.2 hz), pagesHeld]

/-- The write pointer of one zone returns to its start. -/
theorem pagesHeld_reset (hz : z < g.maxZoneNum)
    (hwp : ∀ i, (s'.zone i).wp = if i = z then g.ofst z else (s.zone i).wp) :
    s'.pagesHeld g + s.usedPages g z = s.pagesHeld g := by
  have hused : ∀ i, s'.usedPages g i + (if z = i then s.usedPages g z else 0)
      = s.usedPages g i := by
    intro i
    by_cases hi : z = i
    · subst hi
      rw [if_pos rfl, usedPages, hwp, if_pos rfl, Nat.sub_self, Nat.zero_div, Nat.zero_add]
    · have hsame : (s'.zone i).wp = (s.zone i).wp := by rw [hwp, if_neg (Ne.symm hi)]
      rw [if_neg hi, Nat.add_zero, usedPages_congr hsame]
  calc s'.pagesHeld g + s.usedPages g z
      = ∑ i ∈ Finset.range g.maxZoneNum,
          (s'.usedPages g i + if z = i then s.usedPages g z else 0) := by
        rw [Finset.sum_add_distrib, Finset.sum_ite_eq, if_pos (Finset.mem_range.2 hz), pagesHeld]
    _ = s.pagesHeld g := Finset.sum_congr rfl fun i _ => hused i

/-! ## Entries -/

/-- **What a call enters into the ledger**: `own` pages of the caller and `moved` pages of
relocations have been sent, and `erased` pages are gone with the zones that have been reset. -/
structure Posted (g : Geometry) (own moved erased : Nat) (s s' : Controller) : Prop where
  sent : s'.pagesSent = s.pagesSent + own + moved
  held : s'.pagesHeld g + erased = s.pagesHeld g + own + moved
  count : s'.writeCount = s.writeCount + UInt32.ofNat (own + 2 * moved)
  started : s'.Started g

/-- Nothing is entered by what leaves the log, `write_count` and the write pointers alone. -/
theorem Posted.of_same (hs : s.Started g) (hlog : s'.pwrites = s.pwrites)
    (hcount : s'.writeCount = s.writeCount) (hwp : ∀ i, (s'.zone i).wp = (s.zone i).wp) :
    Posted g 0 0 0 s s' where
  sent := by
    rw [pagesSent, hlog]
    rfl
  held := pagesHeld_congr hwp
  count := by rw [hcount]; exact (UInt32.add_zero _).symm
  started := started_congr hwp hs

theorem Posted.refl (hs : s.Started g) : Posted g 0 0 0 s s :=
  .of_same hs rfl rfl fun _ => rfl

theorem Posted.trans (h : Posted g own moved erased s s')
    (h' : Posted g own' moved' erased' s' s'') :
    Posted g (own + own') (moved + moved') (erased + erased') s s'' where
  sent := by
    rw [h'.sent, h.sent]
    omega
  held := by
    have h1 := h.held
    have h2 := h'.held
    omega
  count := by
    rw [h'.count, h.count, UInt32.add_assoc, ← UInt32.ofNat_add]
    congr 2
    omega
  started := h'.started

/-- A writer enters the pages it stores. -/
theorem Ran.posted (h : Ran g cf n s s') (hs : s.Started g) : Posted g n 0 0 s s' := by
  obtain ⟨z, s₁, hsel, hwork⟩ := h
  obtain ⟨pages, hlog, hlen⟩ := hwork.sent
  have hwp : ∀ i, (s'.zone i).wp
      = if i = z then (s.zone z).wp + n * PAGE_SIZE else (s.zone i).wp := by
    intro i
    rw [hwork.wp, hsel.wp, hsel.wp]
  have hsent₁ : s₁.pagesSent = s.pagesSent := by rw [hsel.only]; rfl
  have hcount₁ : s₁.writeCount = s.writeCount := by rw [hsel.only]
  refine ⟨?_, pagesHeld_advance hs hsel.lt hwp, ?_, fun i => ?_⟩
  · rw [hlog.pagesSent, hsent₁, hlen, Nat.add_zero]
  · rw [hwork.count, hcount₁]
    rfl
  · rw [hwp]
    split
    case isTrue hi =>
      subst hi
      exact le_trans (hs i) (Nat.le_add_right _ _)
    case isFalse => exact hs i

/-- A relocated page is counted once more than it is sent. -/
theorem Ran.posted_moved (h : Ran g cf 1 (s.addWriteCount 1) s') (hs : s.Started g) :
    Posted g 0 1 0 s s' := by
  have hp := h.posted hs
  refine ⟨hp.sent, hp.held, ?_, hp.started⟩
  rw [hp.count]
  show s.writeCount + UInt32.ofNat 1 + UInt32.ofNat 1 = _
  rw [UInt32.add_assoc]
  rfl

/-! ## The zones in use -/

/-- A zone that is full has no room for `n` more pages. -/
def Filled (g : Geometry) (n : Nat) (s : Controller) : Prop :=
  ∀ i, (s.zone i).cond = .full → g.ofst i + g.cap < (s.zone i).wp + n * PAGE_SIZE

/-- What becomes of the zones in use while pages are stored, at most `n` at a time. -/
structure Advanced (g : Geometry) (n : Nat) (s s' : Controller) : Prop where
  used : ∀ i, (s.zone i).cond ≠ .empty →
    (s'.zone i).cond ≠ .empty ∧ (s'.zone i).cf = (s.zone i).cf
  full : ∀ i, (s.zone i).cond = .full →
    (s'.zone i).cond = .full ∧ (s'.zone i).wp = (s.zone i).wp
  filled : s.Filled g n → s'.Filled g n

theorem Advanced.refl (g : Geometry) (n : Nat) (s : Controller) : Advanced g n s s :=
  ⟨fun _ h => ⟨h, rfl⟩, fun _ h => ⟨h, rfl⟩, fun h => h⟩

theorem Advanced.trans (h : Advanced g n s s') (h' : Advanced g n s' s'') :
    Advanced g n s s'' where
  used i hi := by
    obtain ⟨h1, h2⟩ := h.used i hi
    obtain ⟨h3, h4⟩ := h'.used i h1
    exact ⟨h3, h4.trans h2⟩
  full i hi := by
    obtain ⟨h1, h2⟩ := h.full i hi
    obtain ⟨h3, h4⟩ := h'.full i h1
    exact ⟨h3, h4.trans h2⟩
  filled hs := h'.filled (h.filled hs)

/-- **A zone is finished only for want of room**, and the page goes to none that is full. -/
theorem Ran.advanced {k : Nat} (h : Ran g cf k s s') (hk : k ≤ n) : Advanced g n s s' := by
  obtain ⟨z, s₁, hsel, hwork⟩ := h
  have hcf : ∀ i, (s'.zone i).cf = (s₁.zone i).cf := fun i => by rw [hwork.zone]
  -- the zone written to is open
  have hwp : ∀ i, (s₁.zone i).cond = .full → (s'.zone i).wp = (s.zone i).wp := by
    intro i hi
    have hiz : i ≠ z := by
      rintro rfl
      cases hi.symm.trans hsel.cond
    rw [hwork.wp, if_neg hiz, hsel.wp]
  refine ⟨fun i hi => ?_, fun i hi => ?_, fun hs i hi => ?_⟩
  · rw [hwork.cond, hcf]
    rcases hsel.zone_cases i with hsame | hfin | ⟨-, hopened⟩
    · rw [hsame.zone]
      exact ⟨hi, rfl⟩
    · rw [hfin.zone]
      simp
    · exact absurd hopened.cond hi
  · rcases hsel.zone_cases i with hsame | hfin | ⟨-, hopened⟩
    · have hfull : (s₁.zone i).cond = .full := by rw [hsame.zone, hi]
      exact ⟨(hwork.cond i).trans hfull, hwp i hfull⟩
    · cases hi.symm.trans hfin.cramped.cond
    · cases hi.symm.trans hopened.cond
  · rw [hwork.cond] at hi
    rw [hwp i hi]
    rcases hsel.zone_cases i with hsame | hfin | ⟨-, hopened⟩
    · rw [hsame.zone] at hi
      exact hs i hi
    · have hexceeds := hfin.cramped.exceeds
      have hle := Nat.mul_le_mul_right PAGE_SIZE hk
      omega
    · rw [hopened.zone] at hi
      cases hi

/-! ## The counts of the collections -/

/-- The counters of `garbage_collection` are as they were. -/
def Untallied (s s' : Controller) : Prop :=
  s'.gcValidCount = s.gcValidCount ∧ s'.gcCount = s.gcCount

theorem Untallied.trans (h : Untallied s s') (h' : Untallied s' s'') : Untallied s s'' :=
  ⟨h'.1.trans h.1, h'.2.trans h.2⟩

theorem untallied_selected {c : Int} (h : Selected g c n s z s') : Untallied s s' := by
  rw [Untallied, h.only]
  exact ⟨rfl, rfl⟩

theorem untallied_appendOne {p : PageId} {b : Page} (h : appendOne g z s (p, b) = .ok s') :
    Untallied s s' := by
  rw [appendOne] at h
  obtain ⟨s₁, hmap, h⟩ := bind_eq_ok.1 h
  cases h
  obtain ⟨t, v, w, rfl⟩ := remap_frame hmap
  exact ⟨rfl, rfl⟩

theorem writePageGc_untallied {attempts : Nat} {p : PageId} {b : Page}
    (h : writePageGc g attempts cf p b s = .ok s') : Untallied s s' := by
  cases attempts with
  | zero => cases h
  | succ attempts =>
      obtain ⟨z, s₁, hsel, hbody⟩ := choose_any (writePageGc g attempts cf p b)
        (fun z => writePageGcLocked g z p b) h
      rw [writePageGcLocked_eq] at hbody
      obtain ⟨s₂, happ, hbody⟩ := bind_eq_ok.1 hbody
      cases hbody
      have hstored : Untallied s₁ s₂ := untallied_appendOne happ
      exact (untallied_selected hsel).trans hstored

/-! ## Relocations -/

/-- **What a scan does that moves `m` pages**, of which `gc_valid_count` counts `w * m`. -/
structure Hauled (g : Geometry) (n w m : Nat) (s s' : Controller) : Prop
    extends Posted g 0 m 0 s s', Advanced g n s s' where
  tally : s'.gcValidCount = s.gcValidCount + UInt32.ofNat (w * m)
  gcCount : s'.gcCount = s.gcCount

theorem Hauled.refl (n w : Nat) (hs : s.Started g) : Hauled g n w 0 s s where
  toPosted := .refl hs
  toAdvanced := .refl g n s
  tally := (UInt32.add_zero _).symm
  gcCount := rfl

theorem Hauled.trans {w m m' : Nat} (h : Hauled g n w m s s') (h' : Hauled g n w m' s' s'') :
    Hauled g n w (m + m') s s'' where
  toPosted := h.toPosted.trans h'.toPosted
  toAdvanced := h.toAdvanced.trans h'.toAdvanced
  tally := by rw [h'.tally, h.tally, UInt32.add_assoc, ← UInt32.ofNat_add, Nat.mul_add]
  gcCount := h'.gcCount.trans h.gcCount

theorem gcPosition_hauled (hn : 1 ≤ n) (hs : s.Started g) (h : gcPosition g z s pos = .ok s') :
    ∃ m, Hauled g n 1 m s s' := by
  rw [gcPosition] at h
  split at h
  case isTrue =>
    obtain ⟨b, -, h⟩ := bind_eq_ok.1 h
    have hran := writePageGc_ran h
    have hp := hran.posted_moved hs
    have hadv := hran.advanced hn
    obtain ⟨hvalid, hcount⟩ := writePageGc_untallied h
    exact ⟨1, ⟨hp.sent, hp.held, hp.count, hp.started⟩, ⟨hadv.used, hadv.full, hadv.filled⟩,
      hvalid, hcount⟩
  case isFalse =>
    cases h
    exact ⟨0, .refl n 1 hs⟩

theorem restructPosition_hauled (hn : 1 ≤ n) (hs : s.Started g)
    (h : restructPosition g s pos = .ok s') : ∃ m, Hauled g n 0 m s s' := by
  rw [restructPosition] at h
  split at h
  case isTrue =>
    obtain ⟨b, -, h⟩ := bind_eq_ok.1 h
    have hran := writePageGc_ran h
    have hp := hran.posted_moved hs
    have hadv := hran.advanced hn
    obtain ⟨hvalid, hcount⟩ := writePageGc_untallied h
    exact ⟨1, hp, ⟨hadv.used, hadv.full, hadv.filled⟩, hvalid.trans (UInt32.add_zero _).symm,
      hcount⟩
  case isFalse =>
    cases h
    exact ⟨0, .refl n 0 hs⟩

/-- **The scan of a zone.** -/
theorem scan_hauled {w : Nat} {f : Controller → Nat → Except Fault Controller}
    (hstep : ∀ s s' pos, s.Started g → f s pos = .ok s' → ∃ m, Hauled g n w m s s')
    (hs : s.Started g) (h : (scanPositions g z).foldlM f s = .ok s') :
    ∃ m, Hauled g n w m s s' := by
  have hloop : Yields ((scanPositions g z).foldlM f s) (fun _ => True) fun s' =>
      ∃ m, Hauled g n w m s s' := by
    refine Yields.foldlM (fun s' => ∃ m, Hauled g n w m s s') _ s ⟨0, .refl n w hs⟩ ?_
    rintro pos - s₁ ⟨m, hp⟩
    refine yields_partial_iff.2 fun s₂ h₂ => ?_
    obtain ⟨m', hp'⟩ := hstep s₁ s₂ pos hp.started h₂
    exact ⟨m + m', hp.trans hp'⟩
  exact hloop.of_ok h

/-- A loop whose steps move pages moves pages. -/
theorem posted_foldlM {f : Controller → Nat → Except Fault Controller} {l : List Nat}
    (hstep : ∀ x ∈ l, ∀ s s', s.Started g → f s x = .ok s' → ∃ m e, Posted g 0 m e s s')
    (hs : s.Started g) (h : l.foldlM f s = .ok s') : ∃ m e, Posted g 0 m e s s' := by
  induction l generalizing s with
  | nil =>
      cases h
      exact ⟨0, 0, .refl hs⟩
  | cons x l ih =>
      rw [List.foldlM_cons] at h
      obtain ⟨s₁, hx, h⟩ := bind_eq_ok.1 h
      obtain ⟨m, e, hp⟩ := hstep x List.mem_cons_self s s₁ hs hx
      obtain ⟨m', e', hp'⟩ := ih (fun y hy => hstep y (List.mem_cons_of_mem x hy)) hp.started h
      exact ⟨m + m', e + e', hp.trans hp'⟩

/-- Clearing the bits left in a zone moves no write pointer. -/
theorem clearBits_frame {l : List Nat}
    (h : l.foldlM (fun s pos => if s.getValid pos then s.setValid g pos false else .ok s) s
      = .ok s') : ∃ m w, s' = s.withBook s.table m w := by
  have hloop : Yields (l.foldlM
      (fun s pos => if s.getValid pos then s.setValid g pos false else .ok s) s) (fun _ => True)
      fun s' => ∃ m w, s' = s.withBook s.table m w := by
    refine Yields.foldlM (fun s' => ∃ m w, s' = s.withBook s.table m w) _ s
      ⟨s.metaPage, fun i => (s.zone i).validPage, rfl⟩ ?_
    rintro pos - _ ⟨m, w, rfl⟩
    refine yields_partial_iff.2 fun s₂ h₂ => ?_
    split at h₂
    case isTrue =>
      obtain ⟨m', w', rfl⟩ := setValid_frame g h₂
      exact ⟨m', w', rfl⟩
    case isFalse =>
      cases h₂
      exact ⟨m, w, rfl⟩
  exact hloop.of_ok h

/-- **Recycling a zone erases the pages written to it.** -/
theorem recycleZone_posted (hz : z < g.maxZoneNum) (hs : s.Started g)
    (h : recycleZone g z s = .ok s') : Posted g 0 0 (s.usedPages g z) s s' := by
  rw [recycleZone] at h
  obtain ⟨s₁, hclear, h⟩ := bind_eq_ok.1 h
  cases h
  obtain ⟨m, w, rfl⟩ := clearBits_frame hclear
  set s₂ := (s.resetZone g z).modifyZone z
    fun d => { d with cond := .empty, cf := -1, wp := g.ofst z } with hs₂
  have hwp : ∀ i, (((s₂.withBook s₂.table m w).modifyZone z
      fun d => { d with rates := { d.rates with idle := 0, gc := 0 } }).zone i).wp
      = if i = z then g.ofst z else (s.zone i).wp := by
    intro i
    have hlast := modifyZone_field (·.wp) (fun _ => rfl) (s₂.withBook s₂.table m w) z i
      (f := fun d => { d with rates := { d.rates with idle := 0, gc := 0 } })
    refine hlast.trans ?_
    rw [withBook_zone, hs₂, modifyZone_zone]
    split
    · rfl
    · rfl
  refine ⟨rfl, pagesHeld_reset hz hwp, (UInt32.add_zero _).symm, fun i => ?_⟩
  rw [hwp]
  split
  case isTrue hi => rw [hi]
  case isFalse => exact hs i

/-- **`garbage_collection`.** -/
theorem garbageCollection_posted (hz : z < g.maxZoneNum) (hs : s.Started g)
    (h : garbageCollection g z s = .ok s') : ∃ m e, Posted g 0 m e s s' := by
  rw [garbageCollection] at h
  obtain ⟨s₁, hscan, h⟩ := bind_eq_ok.1 h
  obtain ⟨s₂, hrecycle, h⟩ := bind_eq_ok.1 h
  cases h
  have hbegin : Posted g 0 0 0 s (({ s with gc := true, gcCount := s.gcCount + 1 } :
      Controller).getGcInfo g) :=
    .of_same hs rfl rfl fun i => (getGcInfo_wp (g := g) _ i).1
  obtain ⟨m, hhauled⟩ := scan_hauled (fun _ _ _ hs h => gcPosition_hauled (le_refl 1) hs h)
    hbegin.started hscan
  have herased := recycleZone_posted hz hhauled.started hrecycle
  have hend : Posted g 0 0 0 s₂
      { s₂.modifyZone z (fun d => { d with inGc := false }) with gc := false } :=
    .of_same herased.started rfl rfl (alike_gcEnd z s₂).wp
  have hall := ((hbegin.trans hhauled.toPosted).trans herased).trans hend
  exact ⟨_, _, hall⟩

theorem restructZone_posted (hz : z < g.maxZoneNum) (hs : s.Started g)
    (h : restructZone g s z = .ok s') : ∃ m e, Posted g 0 m e s s' := by
  rw [restructZone] at h
  obtain ⟨s₁, hscan, hrecycle⟩ := bind_eq_ok.1 h
  obtain ⟨m, hhauled⟩ := scan_hauled (fun _ _ _ hs h => restructPosition_hauled (le_refl 1) hs h)
    hs hscan
  exact ⟨_, _, hhauled.toPosted.trans (recycleZone_posted hz hhauled.started hrecycle)⟩

/-- **`cold_data_restruct`.** -/
theorem coldDataRestruct_posted {restruct : List Nat} (hz : ∀ z ∈ restruct, z < g.maxZoneNum)
    (hs : s.Started g) (h : coldDataRestruct g restruct s = .ok s') :
    ∃ m e, Posted g 0 m e s s' := by
  rw [coldDataRestruct] at h
  obtain ⟨s₁, hloop, h⟩ := bind_eq_ok.1 h
  cases h
  have hbegin : Posted g 0 0 0 s { s with cd := true, cdCount := s.cdCount + 1 } :=
    .of_same hs rfl rfl fun _ => rfl
  obtain ⟨m, e, hmoved⟩ := posted_foldlM (fun z hmem _ _ hs h => restructZone_posted (hz z hmem) hs h)
    hbegin.started hloop
  have hend : Posted g 0 0 0 s₁ { s₁ with cd := false } :=
    .of_same hmoved.started rfl rfl fun _ => rfl
  exact ⟨_, _, (hbegin.trans hmoved).trans hend⟩

theorem detectZone_posted (t : RateTests) (hi : i < g.maxZoneNum) (hs : s.Started g)
    (h : detectZone g t s i = .ok s') : ∃ m e, Posted g 0 m e s s' := by
  rw [detectZone] at h
  split at h
  case isFalse =>
    cases h
    exact ⟨0, 0, .refl hs⟩
  case isTrue =>
    -- the flag of the zone moves no write pointer
    have halike : Alike s (s.modifyZone i fun d => { d with inGc := true }) :=
      alike_modifyZone s i _ fun _ => ⟨rfl, rfl, rfl, rfl⟩
    have hflag : Posted g 0 0 0 s (s.modifyZone i fun d => { d with inGc := true }) :=
      .of_same hs rfl rfl halike.wp
    obtain ⟨m, e, hmoved⟩ := garbageCollection_posted hi hflag.started h
    exact ⟨_, _, hflag.trans hmoved⟩

/-- **`garbage_collection_detect`.** -/
theorem garbageCollectionDetect_posted (t : RateTests) (hs : s.Started g)
    (h : garbageCollectionDetect g t s = .ok s') : ∃ m e, Posted g 0 m e s s' := by
  rw [garbageCollectionDetect] at h
  split at h
  case isTrue => cases h
  case isFalse =>
    have hbegin : Posted g 0 0 0 s (s.getGcInfo g) :=
      .of_same hs rfl rfl fun i => (getGcInfo_wp (g := g) s i).1
    dsimp only at h
    split at h
    case isTrue =>
      cases h
      exact ⟨0, 0, hbegin⟩
    case isFalse =>
      obtain ⟨m, e, hmoved⟩ := posted_foldlM
        (fun i hi _ _ hs₁ h₁ => detectZone_posted t (List.mem_range.1 hi) hs₁ h₁) hbegin.started h
      exact ⟨_, _, hbegin.trans hmoved⟩

/-- **`cd_detect`.** -/
theorem cdDetect_posted (t : RateTests) (hs : s.Started g) (h : cdDetect g t s = .ok s') :
    ∃ m e, Posted g 0 m e s s' := by
  rw [cdDetect] at h
  split at h
  case isTrue => cases h
  case isFalse =>
    split at h
    case isTrue =>
      cases h
      exact ⟨0, 0, .refl hs⟩
    case isFalse =>
      have hbegin : Posted g 0 0 0 s (s.getGcInfo g) :=
        .of_same hs rfl rfl fun i => (getGcInfo_wp (g := g) s i).1
      have hend : ∀ s₁ : Controller, s₁.Started g →
          Posted g 0 0 0 s₁ ((s₁.getGcInfo g).keepRates g) := by
        intro s₁ hs₁
        refine .of_same hs₁ rfl rfl fun i => ?_
        rw [(keepRates_wp (g := g) _ i).1, (getGcInfo_wp (g := g) s₁ i).1]
      dsimp only at h
      split at h
      case isTrue =>
        obtain ⟨s₁, hrestruct, h⟩ := bind_eq_ok.1 h
        cases h
        have hcold : ∀ z ∈ (s.getGcInfo g).coldZones g t, z < g.maxZoneNum := fun z hz =>
          List.mem_range.1 (List.mem_filter.1 hz).1
        obtain ⟨m, e, hmoved⟩ := coldDataRestruct_posted hcold hbegin.started hrestruct
        exact ⟨_, _, (hbegin.trans hmoved).trans (hend s₁ hmoved.started)⟩
      case isFalse =>
        cases h
        exact ⟨_, _, hbegin.trans (hend _ hbegin.started)⟩

/-! ## The totals of `get_gc_info` -/

/-- `real_data` and `valid_data`, as the loop of `get_gc_info` adds them up. -/
def gcTotals (g : Geometry) (s : Controller) : Rat × Rat :=
  (List.range g.maxZoneNum).foldl (fun t i =>
    if (s.zone i).cond = .expOpen ∨ (s.zone i).cond = .full then
      (t.1 + (((s.zone i).wp : Rat) - (g.ofst i : Rat)) / (PAGE_SIZE : Rat),
        t.2 + ((s.zone i).validPage : Rat))
    else t) (0, 0)

/-- The write pointer of a zone is its start and the pages used. -/
theorem Inv.wp_eq (h : Inv g K s) (i : Nat) :
    (s.zone i).wp = g.ofst i + s.usedPages g i * PAGE_SIZE := by
  have hge := h.wp_ge i
  have hdvd : PAGE_SIZE ∣ (s.zone i).wp - g.ofst i := Nat.dvd_sub (h.wp_dvd i) (g.ofst_dvd i)
  rw [usedPages, Nat.div_mul_cancel hdvd]
  omega

theorem Inv.started (h : Inv g K s) : s.Started g := h.wp_ge

/-- No zone has more valid pages than pages. -/
theorem Inv.validPage_le_used (h : Inv g K s) (i : Nat) :
    (s.zone i).validPage ≤ s.usedPages g i := by
  have hle := h.validPage_le i
  rw [h.wp_eq i] at hle
  push_cast at hle
  simp only [PAGE_SIZE] at hle
  omega

theorem Inv.used_empty (h : Inv g K s) (hempty : (s.zone i).cond = .empty) :
    s.usedPages g i = 0 := by
  rw [usedPages, (h.empty i hempty).2.1, Nat.sub_self, Nat.zero_div]

/-- No zone has more pages than the controller uses of it. -/
theorem Inv.used_le (h : Inv g K s) (i : Nat) : s.usedPages g i ≤ g.cap / PAGE_SIZE := by
  have hle := h.wp_le i
  rw [h.wp_eq i] at hle
  rw [Nat.le_div_iff_mul_le (by decide)]
  omega

/-- **The loop adds up the pages held and the valid ones.** -/
theorem Inv.gcTotals_eq (h : Inv g K s) : s.gcTotals g = ((s.pagesHeld g : Rat),
    ((∑ i ∈ Finset.range g.maxZoneNum, (s.zone i).validPage : Int) : Rat)) := by
  have hstep : ∀ (t : Rat × Rat) (i : Nat),
      (if (s.zone i).cond = .expOpen ∨ (s.zone i).cond = .full then
        (t.1 + (((s.zone i).wp : Rat) - (g.ofst i : Rat)) / (PAGE_SIZE : Rat),
          t.2 + ((s.zone i).validPage : Rat))
      else t) = (t.1 + (s.usedPages g i : Rat), t.2 + ((s.zone i).validPage : Rat)) := by
    intro t i
    split
    case isTrue =>
      rw [h.wp_eq i]
      push_cast
      rw [add_sub_cancel_left, mul_div_cancel_right₀ _ (by norm_num [PAGE_SIZE])]
    -- an empty zone would add nothing
    case isFalse hcond =>
      have hempty : (s.zone i).cond = .empty := by
        cases hc : (s.zone i).cond with
        | empty => rfl
        | expOpen => exact absurd (Or.inl hc) hcond
        | full => exact absurd (Or.inr hc) hcond
      rw [h.used_empty hempty, h.validPage_empty hempty]
      simp
  unfold gcTotals pagesHeld
  simp only [hstep]
  generalize g.maxZoneNum = m
  induction m with
  | zero => simp
  | succ m ih =>
      rw [List.range_succ, List.foldl_append, ih, Finset.sum_range_succ, Finset.sum_range_succ]
      push_cast
      rfl

/-- **The rates lie between 0 and 1.** -/
theorem Inv.rates_bounds (h : Inv g K s) (hused : (s.zone i).cond ≠ .empty) :
    0 ≤ (zoneRates g i (s.zone i)).idle ∧ (zoneRates g i (s.zone i)).idle ≤ 1 ∧
      0 ≤ (zoneRates g i (s.zone i)).gc ∧ (zoneRates g i (s.zone i)).gc ≤ 1 := by
  have hcond : (s.zone i).cond = .expOpen ∨ (s.zone i).cond = .full := by
    cases hc : (s.zone i).cond with
    | empty => exact absurd hc hused
    | expOpen => exact Or.inl rfl
    | full => exact Or.inr rfl
  have hcap : (0 : Rat) < (g.cap : Rat) :=
    Nat.cast_pos.2 (lt_of_lt_of_le (by decide) g.page_le_cap)
  have hpages : (0 : Rat) < ((g.cap / PAGE_SIZE : Nat) : Rat) :=
    Nat.cast_pos.2 (Nat.div_pos g.page_le_cap (by decide))
  have hge : (g.ofst i : Rat) ≤ ((s.zone i).wp : Rat) := Nat.cast_le.2 (h.wp_ge i)
  have hle : ((s.zone i).wp : Rat) ≤ (g.ofst i : Rat) + (g.cap : Rat) := by
    exact_mod_cast h.wp_le i
  have hnonneg : (0 : Rat) ≤ ((s.zone i).validPage : Rat) := by
    exact_mod_cast h.validPage_nonneg i
  have hvalid : ((s.zone i).validPage : Rat) ≤ ((g.cap / PAGE_SIZE : Nat) : Rat) := by
    have hcast := (Int.cast_le (R := Rat)).2
      (le_trans (h.validPage_le_used i) (Int.ofNat_le.2 (h.used_le i)))
    rwa [Int.cast_natCast] at hcast
  rw [zoneRates, if_pos hcond]
  dsimp only
  refine ⟨div_nonneg (by linarith) hcap.le, (div_le_one₀ hcap).2 (by linarith), ?_, ?_⟩
  · have := (div_le_one₀ hpages).2 hvalid
    linarith
  · have := div_nonneg hnonneg hpages.le
    linarith

/-- **The valid pages are the pages of the table**: all of them are counted, and once. -/
theorem Inv.sum_validPage_eq (h : Inv g K s) {N : Finset PageId}
    (hN : ∀ p, s.content p ≠ none ↔ p ∈ N) :
    ∑ i ∈ Finset.range g.maxZoneNum, (s.zone i).validPage = N.card := by
  refine le_antisymm (h.sum_validPage_le fun p hp => (hN p).1 hp) ?_
  set bits : Nat → Finset Nat := fun i => (g.pagesOf i).filter fun j => s.metaPage j = true
  have haddr : ∀ p ∈ N, ∃ a, s.table p = some a := fun p hp => h.table_of_content ((hN p).2 hp)
  -- each page of the table has a valid bit of its own
  have hmaps : ∀ p ∈ N, (s.table p).getD 0 / PAGE_SIZE
      ∈ (Finset.range g.maxZoneNum).biUnion bits := by
    intro p hp
    obtain ⟨a, ha⟩ := haddr p hp
    rw [ha, Option.getD_some]
    have hlive := h.live p a ha
    exact Finset.mem_biUnion.2 ⟨a / g.zoneSize, Finset.mem_range.2 (h.lt _ hlive.used),
      Finset.mem_filter.2 ⟨g.mem_pagesOf.2 rfl, h.valid_of_mapped ha⟩⟩
  have hinj : Set.InjOn (fun p => (s.table p).getD 0 / PAGE_SIZE) N := by
    intro p hp q hq hpq
    obtain ⟨a, ha⟩ := haddr p hp
    obtain ⟨b, hb⟩ := haddr q hq
    simp only [ha, hb, Option.getD_some] at hpq
    have hab : a = b := by
      rw [← Nat.div_mul_cancel (h.book.aligned p a ha), hpq,
        Nat.div_mul_cancel (h.book.aligned q b hb)]
    exact h.book.inj p q a ha (hab ▸ hb)
  calc (N.card : Int)
      ≤ (((Finset.range g.maxZoneNum).biUnion bits).card : Int) :=
        Int.ofNat_le.2 (Finset.card_le_card_of_injOn _ hmaps hinj)
    _ ≤ ((∑ i ∈ Finset.range g.maxZoneNum, (bits i).card : Nat) : Int) :=
        Int.ofNat_le.2 Finset.card_biUnion_le
    _ = ∑ i ∈ Finset.range g.maxZoneNum, (s.zone i).validPage := by
        rw [Nat.cast_sum]
        exact Finset.sum_congr rfl fun i _ => (h.book.count i).symm

/-! ## Runs -/

/-- **One call.** -/
theorem step_posted {m : Contents} {op : Op} (hpre : op.Pre g m) (hs : s.Started g)
    (h : step g op s = .ok s') :
    ∃ moved erased, Posted g op.writes.length moved erased s s' := by
  cases op with
  | createNewPage p b => exact ⟨0, 0, (createNewPage_ran h).posted hs⟩
  | writePage cf p b => exact ⟨0, 0, (writePage_ran h).posted hs⟩
  | writePageGc cf p b => exact ⟨0, 0, (writePageGc_ran h).posted hs⟩
  | writeCluster cf buf pageList =>
      have hlen : (Op.writeCluster cf buf pageList).writes.length = pageList.length := by
        simp only [Op.writes, List.length_zip, hpre.1, Nat.min_self]
      rw [hlen]
      exact ⟨0, 0, (writeCluster_ran hpre.1 h).posted hs⟩
  | garbageCollection z => exact garbageCollection_posted hpre hs h
  | coldDataRestruct restruct => exact coldDataRestruct_posted hpre hs h
  | garbageCollectionDetect t => exact garbageCollectionDetect_posted t hs h
  | cdDetect t => exact cdDetect_posted t hs h
  | readPage p =>
      obtain ⟨r, hread, h⟩ := bind_eq_ok.1 h
      cases h
      rw [readPage] at hread
      obtain ⟨a, -, hread⟩ := bind_eq_ok.1 hread
      obtain ⟨b, -, hread⟩ := bind_eq_ok.1 hread
      cases hread
      exact ⟨0, 0, .of_same hs rfl rfl fun _ => rfl⟩

end Controller

namespace Op

/-- The page a call creates. -/
def created : Op → Option PageId
  | createNewPage p _ => some p
  | _ => none

/-- The pages of the caller a call sends to the device. -/
def own (op : Op) : Nat := op.writes.length

end Op

/-- The pages a run creates. -/
def createdPages (ops : List Op) : Finset PageId := (ops.filterMap Op.created).toFinset

/-- The pages of the caller a run sends to the device. -/
def ownPages (ops : List Op) : Nat := (ops.map Op.own).sum

/-- A call of the program makes a page exist only by creating it. -/
theorem Op.spec_ne_none_iff {g : Geometry} {m : Contents} {op : Op} (hpre : op.Pre g m)
    (p : PageId) : op.spec m p ≠ none ↔ m p ≠ none ∨ op.created = some p := by
  have hknown : (∀ pb ∈ op.writes, m pb.1 ≠ none) → op.created = none →
      (op.spec m p ≠ none ↔ m p ≠ none ∨ op.created = some p) := by
    intro hwrites hcreated
    rw [Op.spec, PartialMap.assignAll_ne_none_iff, hcreated]
    constructor
    · rintro (hp | ⟨pb, hpb, rfl⟩)
      · exact Or.inl hp
      · exact Or.inl (hwrites pb hpb)
    · rintro (hp | hp)
      · exact Or.inl hp
      · cases hp
  cases op with
  | createNewPage q b => simp [Op.spec, Op.writes, Op.created, PartialMap.assignAll_ne_none_iff]
  | writePage cf q b =>
      refine hknown (fun pb hpb => ?_) rfl
      rw [List.mem_singleton.1 hpb]
      exact hpre.1
  | writePageGc cf q b =>
      refine hknown (fun pb hpb => ?_) rfl
      rw [List.mem_singleton.1 hpb]
      exact hpre.1
  | writeCluster cf buf pageList => exact hknown (fun pb hpb => (hpre.2.2 pb hpb).1) rfl
  | readPage q => exact hknown (fun _ hpb => absurd hpb List.not_mem_nil) rfl
  | garbageCollection z => exact hknown (fun _ hpb => absurd hpb List.not_mem_nil) rfl
  | coldDataRestruct restruct => exact hknown (fun _ hpb => absurd hpb List.not_mem_nil) rfl
  | garbageCollectionDetect t => exact hknown (fun _ hpb => absurd hpb List.not_mem_nil) rfl
  | cdDetect t => exact hknown (fun _ hpb => absurd hpb List.not_mem_nil) rfl

theorem specRun_ne_none_iff {g : Geometry} (ops : List Op) (m : Contents)
    (hl : Legal (Op.Pre g) Op.spec ops m) (p : PageId) :
    specRun Op.spec ops m p ≠ none ↔ m p ≠ none ∨ p ∈ createdPages ops := by
  induction ops generalizing m with
  | nil => simp [createdPages]
  | cons op ops ih =>
      obtain ⟨hpre, hl⟩ := hl
      rw [specRun_cons, ih _ hl, Op.spec_ne_none_iff hpre, createdPages, createdPages, or_assoc]
      refine or_congr_right ?_
      cases hc : op.created with
      | none => simp [hc]
      | some q => simp [hc, eq_comm]

namespace Controller

/-- **The books balance** after a run that has sent `own` pages of the caller and created
`created` pages: what `write_count` counts too much are the pages moved, what has been sent is
held or erased, and the totals of `get_gc_info` are the pages held and the pages created. -/
structure Balanced (g : Geometry) (own created : Nat) (s : Controller) : Prop where
  own_le : own ≤ s.pagesSent
  count : s.writeCount + UInt32.ofNat own = UInt32.ofNat (2 * s.pagesSent)
  held_le : s.pagesHeld g ≤ s.pagesSent
  totals : s.gcTotals g = ((s.pagesHeld g : Rat), (created : Rat))
  created_le : created ≤ s.pagesHeld g
  rates : ∀ i, (s.zone i).cond ≠ .empty →
    0 ≤ (zoneRates g i (s.zone i)).idle ∧ (zoneRates g i (s.zone i)).idle ≤ 1 ∧
      0 ≤ (zoneRates g i (s.zone i)).gc ∧ (zoneRates g i (s.zone i)).gc ≤ 1

theorem started_init (g : Geometry) (rates : Nat → Rates) : (Controller.init g rates).Started g :=
  fun _ => le_refl _

theorem pagesHeld_init (g : Geometry) (rates : Nat → Rates) :
    (Controller.init g rates).pagesHeld g = 0 := by
  refine Finset.sum_eq_zero fun i _ => ?_
  rw [usedPages]
  show (g.ofst i - g.ofst i) / PAGE_SIZE = 0
  rw [Nat.sub_self, Nat.zero_div]

theorem Posted.balanced {g : Geometry} {rates : Nat → Rates} {own moved erased : Nat}
    {K : Int → Prop} {s : Controller} (hp : Posted g own moved erased (.init g rates) s)
    (h : Inv g K s) {N : Finset PageId} (hN : ∀ p, s.content p ≠ none ↔ p ∈ N) :
    Balanced g own N.card s := by
  have hsent : s.pagesSent = own + moved := by
    have := hp.sent
    rw [show (Controller.init g rates).pagesSent = 0 from rfl] at this
    omega
  have hheld : s.pagesHeld g + erased = own + moved := by
    have := hp.held
    rw [pagesHeld_init] at this
    omega
  have hcount : s.writeCount = UInt32.ofNat (own + 2 * moved) := by
    rw [hp.count]
    exact UInt32.zero_add _
  have hvalid := h.sum_validPage_eq hN
  refine ⟨by omega, ?_, by omega, ?_, ?_, fun i => h.rates_bounds⟩
  · rw [hcount, ← UInt32.ofNat_add, hsent]
    congr 1
    omega
  · rw [h.gcTotals_eq, hvalid, Int.cast_natCast]
  -- zone by zone, the valid pages are among those held
  · have hle : ((N.card : Nat) : Int) ≤ ((s.pagesHeld g : Nat) : Int) := by
      rw [← hvalid, pagesHeld, Nat.cast_sum]
      exact Finset.sum_le_sum fun i _ => h.validPage_le_used i
    exact_mod_cast hle

/-- The entries of a run add up. -/
theorem run_posted {g : Geometry} {ops : List Op} {m : Contents} {s s' : Controller}
    (hl : Legal (Op.Pre g) Op.spec ops m) (hs : s.Started g) (h : run (step g) ops s = .ok s') :
    ∃ moved erased, Posted g (ownPages ops) moved erased s s' := by
  induction ops generalizing s m with
  | nil =>
      cases h
      exact ⟨0, 0, .refl hs⟩
  | cons op ops ih =>
      rw [run_cons] at h
      obtain ⟨s₁, hop, h⟩ := bind_eq_ok.1 h
      obtain ⟨moved, erased, hp⟩ := step_posted hl.1 hs hop
      obtain ⟨moved', erased', hp'⟩ := ih hl.2 hp.started h
      have hown : ownPages (op :: ops) = op.writes.length + ownPages ops := by
        rw [ownPages, List.map_cons, List.sum_cons, ownPages, Op.own]
      rw [hown]
      exact ⟨_, _, hp.trans hp'⟩

/-- **The books of every run balance.** -/
theorem balanced_run (g : Geometry) (rates : Nat → Rates) (ops : List Op)
    (hl : Legal (Op.Pre g) Op.spec ops .empty) :
    Yields (run (step g) ops (Controller.init g rates)) (· = .noZone)
      (Balanced g (ownPages ops) (createdPages ops).card) := by
  refine (run_spec_any rates ops hl).imp_ok fun s hs hsim => ?_
  obtain ⟨moved, erased, hp⟩ := run_posted hl (started_init g rates) hs
  refine hp.balanced hsim.inv fun p => ?_
  rw [hsim.content, specRun_ne_none_iff ops .empty hl]
  simp

/-- Zone 0 is collected while page 8 is still in it. -/
theorem balanced_run_thinned : ∃ s, run (step .small) thinningOps smallStart = .ok s ∧
    Balanced .small 4 3 s := by
  have hrun := balanced_run .small (fun _ => ⟨0, 0, 0⟩) thinningOps (by decide +kernel)
  have hok : (run (step .small) thinningOps smallStart).isOk = true := by decide +kernel
  obtain ⟨s, hs, hbalanced⟩ := hrun.of_isOk hok
  have hown : ownPages thinningOps = 4 := by decide +kernel
  have hcreated : (createdPages thinningOps).card = 3 := by decide +kernel
  rw [hown, hcreated] at hbalanced
  exact ⟨s, hs, hbalanced⟩

end Controller

end ZoneBuffer
