import ZoneBuffer.Zone.Reclaim
import Mathlib.Algebra.BigOperators.Ring.Finset
import Mathlib.Algebra.Order.BigOperators.Group.Finset
import Mathlib.Tactic.Linarith

set_option autoImplicit false

/-! # The supply of empty zones

A zone is collected when it is full and poor in valid pages, so the full zones that are not poor
are few if the pages are. The poor ones are few after each pass of the detector: a pass collects
all zones that are full and poor when it begins, and a zone that becomes full while it runs either
was open at its beginning or holds relocated pages only. So what is bounded is the number of zones
that are full and poor or may become so (`AtRisk`); stowing a page puts no zone at risk.

`Rested` holds between the calls of the manager, `Supply` during an eviction: of `k` flushes still
to come each may open a zone, and one zone more is empty for the relocations, each of which opens
at most one before it gives one back. -/

namespace ZoneBuffer

open Outcome TrueCount

namespace Controller

variable {g : Geometry} {K : Int → Prop} {N : Finset PageId} {U : Finset Nat} {c : Int}
  {k n y z i : Nat} {s s₀ s' : Controller} {t : RateTests}

/-! ## Zones at risk -/

/-- Fewer than 15 per cent of the pages of zone `i` are valid. -/
def Poor (g : Geometry) (s : Controller) (i : Nat) : Prop :=
  100 * (s.zone i).validPage < 15 * (g.cap / PAGE_SIZE : Nat)

/-- Zone `i` is full and poor, or open and may become so. -/
def AtRisk (g : Geometry) (s : Controller) (i : Nat) : Prop :=
  (s.zone i).cond = .full ∧ s.Poor g i ∨ (s.zone i).cond = .expOpen ∧ s.waste g i ≠ 0

instance (s : Controller) (i : Nat) : Decidable (s.Poor g i) :=
  inferInstanceAs (Decidable (_ < _))

instance (s : Controller) (i : Nat) : Decidable (s.AtRisk g i) :=
  inferInstanceAs (Decidable (_ ∧ _ ∨ _ ∧ _))

/-- A zone filled with valid pages is not poor. -/
theorem Tight.not_poor (h : s.Tight g i) (hw : s.waste g i = 0) : ¬ s.Poor g i := by
  unfold Tight at h
  unfold waste at hw
  unfold Poor
  simp only [PAGE_SIZE] at h hw ⊢
  omega

theorem Inv.waste_empty (h : Inv g K s) (hempty : (s.zone i).cond = .empty) : s.waste g i = 0 := by
  rw [waste, (h.empty i hempty).2.1, h.validPage_empty hempty]
  simp

/-- **Stowing pages puts no zone at risk.** -/
theorem Drift.atRisk (hd : Drift g s s' i) (h : Inv g K s) (hrisk : s'.AtRisk g i) :
    s.AtRisk g i := by
  -- a zone that has wasted pages now had them before, so it was in use
  have hused : s'.waste g i ≠ 0 → (s.zone i).cond ≠ .empty := by
    intro hw hempty
    rw [hd.waste, h.waste_empty hempty] at hw
    exact hw rfl
  rcases hrisk with ⟨hfull, hpoor⟩ | ⟨hopen, hw⟩
  · rcases hd.tight hfull with hfull₀ | htight
    · refine Or.inl ⟨hfull₀, ?_⟩
      rw [Poor, ← hd.full hfull₀]
      exact hpoor
    -- finished for want of room for one page: were all its pages valid, it would not be poor
    · have hw : s'.waste g i ≠ 0 := fun hw => htight.not_poor hw hpoor
      cases hcond : (s.zone i).cond with
      | empty => exact absurd hcond (hused hw)
      | expOpen => exact Or.inr ⟨hcond, hd.waste ▸ hw⟩
      | full =>
          refine Or.inl ⟨hcond, ?_⟩
          rw [Poor, ← hd.full hcond]
          exact hpoor
  · cases hcond : (s.zone i).cond with
    | empty => exact absurd hcond (hused hw)
    | expOpen => exact Or.inr ⟨hcond, hd.waste ▸ hw⟩
    | full =>
        rw [hd.full hcond, hcond] at hopen
        cases hopen

/-- The detector finds a poor zone to be garbage, if the rate is compared exactly. -/
theorem garbage_of_poor (hused : (s.zone i).cond ≠ .empty) (hpoor : s.Poor g i) :
    RateTests.exact.garbage (zoneRates g i (s.zone i)).gc = true := by
  have hpos : (0 : Rat) < (g.cap / PAGE_SIZE : Nat) :=
    Nat.cast_pos.2 (Nat.div_pos g.page_le_cap (by decide))
  have hcond : (s.zone i).cond = .expOpen ∨ (s.zone i).cond = .full := by
    cases hc : (s.zone i).cond with
    | empty => exact absurd hc hused
    | expOpen => exact Or.inl rfl
    | full => exact Or.inr rfl
  have hrate : ((s.zone i).validPage : Rat) / (g.cap / PAGE_SIZE : Nat) < 15 / 100 := by
    rw [div_lt_div_iff₀ hpos (by norm_num)]
    have hlt := (Int.cast_lt (R := Rat)).2 hpoor
    simp only [Int.cast_mul, Int.cast_natCast, Int.cast_ofNat] at hlt
    linarith
  rw [zoneRates, if_pos hcond]
  simp only [RateTests.exact, decide_eq_true_eq]
  linarith

/-! ## Counting zones -/

/-- The empty zones. -/
def emptyZones (g : Geometry) (s : Controller) : Finset Nat :=
  (Finset.range g.maxZoneNum).filter fun i => (s.zone i).cond = .empty

/-- The zones at risk. -/
def riskZones (g : Geometry) (s : Controller) : Finset Nat :=
  (Finset.range g.maxZoneNum).filter fun i => s.AtRisk g i

/-- The zones that are full and not poor. -/
def richZones (g : Geometry) (s : Controller) : Finset Nat :=
  (Finset.range g.maxZoneNum).filter fun i => (s.zone i).cond = .full ∧ ¬ s.Poor g i

theorem maxZoneNum_le (g : Geometry) (s : Controller) : g.maxZoneNum ≤ (s.emptyZones g).card +
    (s.openZones g).card + (s.richZones g).card + (s.riskZones g).card := by
  have hcover : Finset.range g.maxZoneNum
      ⊆ s.emptyZones g ∪ s.openZones g ∪ s.richZones g ∪ s.riskZones g := by
    -- every zone is empty, open, full and not poor, or full and poor
    intro i hi
    simp only [Finset.mem_union, emptyZones, openZones, richZones, riskZones, Finset.mem_filter]
    cases hc : (s.zone i).cond with
    | empty => simp [hi]
    | expOpen => simp [hi]
    | full =>
        by_cases hpoor : s.Poor g i
        · exact Or.inr ⟨hi, Or.inl ⟨hc, hpoor⟩⟩
        · exact Or.inl (Or.inr ⟨hi, rfl, hpoor⟩)
  have hcard := Finset.card_le_card hcover
  rw [Finset.card_range] at hcard
  have h1 := Finset.card_union_le (s.emptyZones g ∪ s.openZones g ∪ s.richZones g) (s.riskZones g)
  have h2 := Finset.card_union_le (s.emptyZones g ∪ s.openZones g) (s.richZones g)
  have h3 := Finset.card_union_le (s.emptyZones g) (s.openZones g)
  omega

/-- **The valid pages are no more than the pages known.** -/
theorem Inv.sum_validPage_le (h : Inv g K s) (hN : ∀ p, s.content p ≠ none → p ∈ N) :
    ∑ i ∈ Finset.range g.maxZoneNum, (s.zone i).validPage ≤ N.card := by
  -- the valid bits of different zones are different, and each stands for a page of the table
  set bits : Nat → Finset Nat := fun i => (g.pagesOf i).filter fun j => s.metaPage j = true
  have hdisjoint : Set.PairwiseDisjoint (Finset.range g.maxZoneNum : Set Nat) bits := by
    intro i _ j _ hij
    refine Finset.disjoint_left.2 fun x hi hj => hij ?_
    have hx := (Finset.mem_filter.1 hi).1
    have hx' := (Finset.mem_filter.1 hj).1
    rw [← Nat.mul_div_cancel x (show 0 < PAGE_SIZE by decide), g.mem_pagesOf] at hx hx'
    exact hx.symm.trans hx'
  have himage : (Finset.range g.maxZoneNum).biUnion bits
      ⊆ N.image fun p => (s.table p).getD 0 / PAGE_SIZE := by
    intro x hx
    obtain ⟨i, -, hi⟩ := Finset.mem_biUnion.1 hx
    obtain ⟨p, -, hp⟩ := (h.book.valid x).1 (Finset.mem_filter.1 hi).2
    refine Finset.mem_image.2 ⟨p, hN p ?_, ?_⟩
    · rw [ne_eq, h.content_eq_none, hp]
      exact Option.some_ne_none _
    · rw [hp]
      exact Nat.mul_div_cancel x (by decide)
  calc ∑ i ∈ Finset.range g.maxZoneNum, (s.zone i).validPage
      = ∑ i ∈ Finset.range g.maxZoneNum, ((bits i).card : Int) :=
        Finset.sum_congr rfl fun i _ => h.book.count i
    _ = (((Finset.range g.maxZoneNum).biUnion bits).card : Int) := by
        rw [Finset.card_biUnion hdisjoint, Nat.cast_sum]
    _ ≤ N.card := by
        exact_mod_cast le_trans (Finset.card_le_card himage) Finset.card_image_le

/-- The pages known are few enough: were they all in zones that are just not poor, the zones of
the device would leave `4 * clusterNum + 2` over. -/
def Few (g : Geometry) (N : Finset PageId) : Prop :=
  100 * (N.card : Int) ≤ 15 * (g.cap / PAGE_SIZE : Nat) * (g.maxZoneNum - 4 * g.clusterNum - 2)

/-- **The zones that are full and not poor are few.** -/
theorem Inv.card_richZones (h : Inv g K s) (hN : ∀ p, s.content p ≠ none → p ∈ N)
    (hfew : Few g N) : ((s.richZones g).card : Int) ≤ g.maxZoneNum - 4 * g.clusterNum - 2 := by
  have hpos : (0 : Int) < (g.cap / PAGE_SIZE : Nat) :=
    Nat.cast_pos.2 (Nat.div_pos g.page_le_cap (by decide))
  -- each of them holds 15 per cent of a zone in valid pages
  have hrich : (s.richZones g).card • (15 * (g.cap / PAGE_SIZE : Nat) : Int)
      ≤ ∑ i ∈ s.richZones g, 100 * (s.zone i).validPage :=
    Finset.card_nsmul_le_sum _ _ _ fun i hi => not_lt.1 (Finset.mem_filter.1 hi).2.2
  have hsum : ∑ i ∈ s.richZones g, 100 * (s.zone i).validPage
      ≤ ∑ i ∈ Finset.range g.maxZoneNum, 100 * (s.zone i).validPage :=
    Finset.sum_le_sum_of_subset_of_nonneg (Finset.filter_subset _ _) fun i _ _ =>
      mul_nonneg (by norm_num) (h.validPage_nonneg i)
  have hle := h.sum_validPage_le hN
  unfold Few at hfew
  rw [nsmul_eq_mul] at hrich
  refine le_of_mul_le_mul_left ?_ (show (0 : Int) < 15 * (g.cap / PAGE_SIZE : Nat) by linarith)
  calc 15 * ((g.cap / PAGE_SIZE : Nat) : Int) * (s.richZones g).card
      = (s.richZones g).card * (15 * (g.cap / PAGE_SIZE : Nat) : Int) := mul_comm _ _
    _ ≤ ∑ i ∈ Finset.range g.maxZoneNum, 100 * (s.zone i).validPage := le_trans hrich hsum
    _ = 100 * ∑ i ∈ Finset.range g.maxZoneNum, (s.zone i).validPage := (Finset.mul_sum ..).symm
    _ ≤ 100 * (N.card : Int) := by linarith
    _ ≤ _ := hfew

/-! ## The invariants -/

/-- What holds of the store beside the invariant: the clusters have ids that are not negative, the
pages stored are among those of `N`, and no zone is being collected. -/
structure Stock (g : Geometry) (N : Finset PageId) (s : Controller) : Prop where
  inv : Inv g (fun c => 0 ≤ c) s
  known : ∀ p, s.content p ≠ none → p ∈ N
  calm : ∀ i, (s.zone i).inGc = false

/-- There are more than `k` empty zones. -/
structure Supply (g : Geometry) (N : Finset PageId) (k : Nat) (s : Controller) : Prop
    extends Stock g N s where
  spare : k < (s.emptyZones g).card

/-- No more zones are at risk than there are clusters. -/
structure Rested (g : Geometry) (N : Finset PageId) (s : Controller) : Prop
    extends Stock g N s where
  calmed : (s.riskZones g).card ≤ g.clusterNum

theorem Stock.init (g : Geometry) (N : Finset PageId) (rates : Nat → Rates) :
    Stock g N (Controller.init g rates) where
  inv := Inv.init g _ rates
  known _ hp := absurd rfl hp
  calm _ := rfl

theorem Rested.init (g : Geometry) (N : Finset PageId) (rates : Nat → Rates) :
    Rested g N (Controller.init g rates) where
  toStock := Stock.init g N rates
  calmed := by
    have hnone : (Controller.init g rates).riskZones g = ∅ := by
      refine Finset.filter_eq_empty_iff.2 fun i _ hrisk => ?_
      rcases hrisk with ⟨hfull, -⟩ | ⟨hopen, -⟩
      · cases hfull
      · cases hopen
    rw [hnone]
    exact Nat.zero_le _

/-- **Where few zones are at risk, many are empty.** -/
theorem Rested.supply (h : Rested g N s) (hfew : Few g N) : Supply g N g.clusterNum s where
  toStock := h.toStock
  spare := by
    have hall := maxZoneNum_le g s
    have hopen := h.inv.card_openZones_nonneg
    have hrich := h.inv.card_richZones h.known hfew
    have hrisk := h.calmed
    omega

theorem Supply.exists_empty (h : Supply g N k s) :
    ∃ i < g.maxZoneNum, (s.zone i).cond = .empty := by
  obtain ⟨i, hi⟩ := Finset.card_pos.1 (Nat.zero_lt_of_lt h.spare)
  exact ⟨i, Finset.mem_range.1 (Finset.mem_filter.1 hi).1, (Finset.mem_filter.1 hi).2⟩

theorem Supply.not_noRoom (h : Supply g N k s) : ¬ NoRoom g c n s := by
  obtain ⟨i, hi, hempty⟩ := h.exists_empty
  exact fun hno => (hno i hi).1 hempty

/-- A call that fails for want of room alone succeeds. -/
theorem Supply.yields {Q : Controller → Prop} {x : Except Fault Controller}
    (h : Supply g N k s) (hx : Yields x (fun e => e = .noZone ∧ NoRoom g c n s) Q) :
    Yields x (fun _ => False) Q :=
  hx.mono (fun _ he => h.not_noRoom he.2) fun _ hs => hs

theorem emptyZones_congr (h : ∀ i, (s'.zone i).cond = (s.zone i).cond) :
    s'.emptyZones g = s.emptyZones g := by
  unfold emptyZones
  simp only [h]

/-- The counters and the flags of the controller make no difference. -/
theorem Stock.congr (h : Stock g N s) (hz : s'.zone = s.zone) (ht : s'.table = s.table)
    (hm : s'.metaPage = s.metaPage) (hd : s'.dev = s.dev) (hl : s'.pwrites = s.pwrites) :
    Stock g N s' where
  inv := h.inv.congr (by simp [hz]) (by simp [hz]) (by simp [hz]) (by simp [hz]) ht hm hd
    (hl ▸ h.inv.log)
  known p hp := by
    refine h.known p ?_
    unfold content at hp ⊢
    rwa [ht, hd] at hp
  calm := by
    rw [hz]
    exact h.calm

theorem Stock.known_congr (h : Stock g N s) (hcontent : s'.content = s.content) :
    ∀ p, s'.content p ≠ none → p ∈ N := by
  rw [hcontent]
  exact h.known

/-! ## Writing -/

/-- **A writer leaves all zones but one as empty as they were.** -/
theorem Ran.card_emptyZones {cf : Int} (h : Ran g cf n s s') :
    (s.emptyZones g).card ≤ (s'.emptyZones g).card + 1 := by
  obtain ⟨z, s₁, hsel, hwork⟩ := h
  have hsub : s.emptyZones g ⊆ insert z (s'.emptyZones g) := by
    intro i hi
    obtain ⟨hlt, hempty⟩ := Finset.mem_filter.1 hi
    by_cases hz : i = z
    · exact Finset.mem_insert.2 (Or.inl hz)
    · refine Finset.mem_insert_of_mem (Finset.mem_filter.2 ⟨hlt, ?_⟩)
      rw [hwork.cond]
      rcases hsel.other i hz with hsame | hfin
      · rw [hsame.zone]
        exact hempty
      · cases hempty.symm.trans hfin.cramped.cond
  exact le_trans (Finset.card_le_card hsub) (Finset.card_insert_le _ _)

theorem Ran.inGc {cf : Int} (h : Ran g cf n s s') (i : Nat) :
    (s'.zone i).inGc = (s.zone i).inGc := by
  obtain ⟨z, s₁, hsel, hwork⟩ := h
  rw [hwork.zone, hsel.zone_eq]

/-- **`write_cluster`** opens a zone at most. -/
theorem writeCluster_supply {cf : Int} {buf : List Page} {pl : List PageId}
    (h : Supply g N (k + 1) s) (hcf : 0 ≤ cf) (hlen : buf.length = pl.length)
    (hcap : pl.length * PAGE_SIZE ≤ g.cap)
    (hl : ∀ pb ∈ pl.zip buf, s.content pb.1 ≠ none ∧ readId pb.2 = pb.1) :
    Yields (writeCluster g 1 cf buf pl s) (fun _ => False) (Supply g N k) := by
  have hK : 0 ≤ cf.tmod g.clusterNum := Int.tmod_nonneg _ hcf
  have hwrites := writeCluster_room h.inv 0 cf hK hlen hcap hl
  refine (h.yields hwrites).imp_ok fun s' hs' hw => ?_
  have hran := writeCluster_ran hlen hs'
  refine ⟨⟨hw.inv, fun p hp => ?_, fun i => (hran.inGc i).trans (h.calm i)⟩, ?_⟩
  · by_contra hnot
    have hnone : s.content p = none := by_contra fun hne => hnot (h.known p hne)
    rw [hw.content, PartialMap.assignAll_of_notMem] at hp
    · exact hp hnone
    · rintro pb hpb rfl
      exact (hl pb hpb).1 hnone
  · have hcard := hran.card_emptyZones
    have hspare := h.spare
    omega

/-- **`create_new_page`** puts no zone at risk. -/
theorem createNewPage_rested {p : PageId} {b : Page} (h : Rested g N s) (hfew : Few g N)
    (hp : s.content p = none) (hid : readId b = p) (hmem : p ∈ N) (attempts : Nat) :
    Yields (createNewPage g attempts p b s) (fun _ => False) (Rested g N) := by
  have hzero : (0 : Int).tmod g.clusterNum = 0 := Int.zero_tmod _
  have hcreates : Yields (createNewPage g attempts p b s)
      (fun e => e = .noZone ∧ NoRoom g ((0 : Int).tmod g.clusterNum) 1 s) fun s' =>
      Wrote g (fun c => 0 ≤ c) s s' [(p, b)] ∧ ∀ i, Drift g s s' i := by
    refine choose_room h.inv (by rw [hzero]) (one_page_le_cap g) (writePage g attempts 0 p b)
      (fun z => createNewPageLocked g z p b) fun y s₁ hsel hinv hkept hchosen => ?_
    have hnone : s₁.content p = none := hkept.content ▸ hp
    refine (createNewPageLocked_spec hinv hchosen hnone hid).imp_ok fun s' hs' happ => ?_
    have hwrote := hkept.wrote happ.toWrote
    have hstowed := (createNewPageLocked_worked hs').stowed hsel
    have htable : s'.table = s.table.insertOrAssign p (s.zone y).wp := by
      rw [createNewPageLocked_table hs', hkept.table, hkept.wp]
    refine ⟨hwrote, fun i => hstowed.drift ?_⟩
    have hvalid := h.inv.validPage_created hwrote.inv ((h.inv.content_eq_none p).1 hp) htable
      (h.inv.wp_free y) i
    rwa [h.inv.wp_div] at hvalid
  refine ((h.supply hfew).yields hcreates).imp ?_
  rintro s' ⟨hw, hdrift⟩
  refine ⟨⟨hw.inv, fun q hq => ?_, fun i => (hdrift i).inGc.trans (h.calm i)⟩, ?_⟩
  · by_cases hqp : q = p
    · rw [hqp]
      exact hmem
    · refine h.known q ?_
      rw [hw.content] at hq
      rwa [PartialMap.assignAll_of_notMem (by simpa using Ne.symm hqp)] at hq
  · refine le_trans (Finset.card_le_card fun i hi => ?_) h.calmed
    obtain ⟨hlt, hrisk⟩ := Finset.mem_filter.1 hi
    exact Finset.mem_filter.2 ⟨hlt, (hdrift i).atRisk h.inv hrisk⟩

/-! ## Relocations -/

/-- **A relocation opens at most one zone and gives one back.** -/
theorem Spent.card_emptyZones (h : Spent g c z s s') (hz : (s.zone z).cond ≠ .empty)
    (hz' : (s'.zone z).cond ≠ .empty) (hlt : z < g.maxZoneNum) :
    (s.emptyZones g).card ≤ ((recycled g z s').emptyZones g).card := by
  have hnot : z ∉ s'.emptyZones g := fun hmem => hz' (Finset.mem_filter.1 hmem).2
  -- zone `z` is gained
  have hgained : insert z (s'.emptyZones g) ⊆ (recycled g z s').emptyZones g := by
    intro i hi
    rcases Finset.mem_insert.1 hi with rfl | hi
    · refine Finset.mem_filter.2 ⟨Finset.mem_range.2 hlt, ?_⟩
      rw [recycled_zone, if_pos rfl]
    · have hiz : i ≠ z := by
        rintro rfl
        exact hnot ‹_›
      obtain ⟨hi, hempty⟩ := Finset.mem_filter.1 hi
      refine Finset.mem_filter.2 ⟨hi, ?_⟩
      rw [recycled_zone, if_neg hiz]
      exact hempty
  have hgain := Finset.card_le_card hgained
  rw [Finset.card_insert_of_notMem hnot] at hgain
  -- at most zone `y` is lost
  obtain ⟨y, hy⟩ : ∃ y, s.emptyZones g ⊆ insert y (s'.emptyZones g) := by
    rcases h with hall | ⟨y, -, hrest⟩
    · refine ⟨z, fun i hi => Finset.mem_insert_of_mem ?_⟩
      obtain ⟨hi, hempty⟩ := Finset.mem_filter.1 hi
      exact Finset.mem_filter.2 ⟨hi, hall i hempty⟩
    · refine ⟨y, fun i hi => ?_⟩
      obtain ⟨hi, hempty⟩ := Finset.mem_filter.1 hi
      by_cases hiy : i = y
      · exact Finset.mem_insert.2 (Or.inl hiy)
      · exact Finset.mem_insert_of_mem (Finset.mem_filter.2 ⟨hi, hrest i hiy hempty⟩)
  exact le_trans (Finset.card_le_card hy) (le_trans (Finset.card_insert_le _ _) hgain)

/-- **`cold_data_restruct` for one full zone.** The other full zones stay full. -/
theorem restructZone_supply (h : Supply g N k s) (hfull : (s.zone z).cond = .full) :
    Yields (restructZone g s z) (fun _ => False) fun s' => Supply g N k s' ∧
      ∀ i, i ≠ z → (s.zone i).cond = .full → (s'.zone i).cond = .full := by
  have hscan := h.yields (scan_moves (f := restructPosition g) h.inv hfull
    fun s' pos hinv _ _ ha => restructPosition_moves hinv (le_refl 0) ha)
  rw [restructZone]
  refine hscan.bind ?_
  rintro s₂ ⟨a, l, ha, hvac, -⟩
  have hvacant := hvac.vacant ha
  rw [recycleZone_eq (hvac.inv.clear_of_vacant hvacant)]
  obtain ⟨hinv', hcontent'⟩ := hvac.inv.recycled hvacant
  have hcard := hvac.spent.card_emptyZones (by simp [hfull]) (by simp [hvac.full hfull])
    (h.inv.lt z (by simp [hfull]))
  refine ⟨⟨⟨hinv', h.known_congr (hcontent'.trans hvac.content), fun i => ?_⟩,
    lt_of_lt_of_le h.spare hcard⟩, fun i hi hfulli => ?_⟩
  · rw [recycled_zone]
    split
    case isTrue hi => rw [hvac.self, h.calm]
    case isFalse hi => rw [(hvac.drift i hi).inGc, h.calm]
  · rw [recycled_zone, if_neg hi, (hvac.drift i hi).full hfulli, hfulli]

/-- **`cold_data_restruct`** of different full zones. -/
theorem restructZones_supply {restruct : List Nat} (h : Supply g N k s) (hnodup : restruct.Nodup)
    (hfull : ∀ z ∈ restruct, (s.zone z).cond = .full) :
    Yields (restruct.foldlM (restructZone g) s) (fun _ => False) (Supply g N k) := by
  induction restruct generalizing s with
  | nil => exact h
  | cons z restruct ih =>
      obtain ⟨hnot, hnodup⟩ := List.nodup_cons.1 hnodup
      rw [List.foldlM_cons]
      refine (restructZone_supply h (hfull z List.mem_cons_self)).bind ?_
      rintro s' ⟨hs', hkeep⟩
      refine ih hs' hnodup fun i hi => hkeep i ?_ (hfull i (List.mem_cons_of_mem z hi))
      -- the zones left to restructure are other ones, and stay full
      rintro rfl
      exact hnot hi

/-- Computing the rates changes no supply. -/
theorem Supply.getGcInfo (h : Supply g N k s) : Supply g N k (s.getGcInfo g) where
  inv := h.inv.getGcInfo
  known := h.known
  calm i := (getGcInfo_inGc s i).trans (h.calm i)
  spare := by
    rw [emptyZones_congr fun i => (getGcInfo_wp s i).2.1]
    exact h.spare

theorem Supply.keepRates (h : Supply g N k s) : Supply g N k (s.keepRates g) where
  inv := h.inv.keepRates
  known := h.known
  calm i := (keepRates_inGc s i).trans (h.calm i)
  spare := by
    rw [emptyZones_congr fun i => (keepRates_wp s i).2.1]
    exact h.spare

/-- **`cd_detect`**, with the restructuring it starts. -/
theorem cdDetect_supply (t : RateTests) (h : Supply g N k s) (hidle : s.Idle) :
    Yields (cdDetect g t s) (fun _ => False) (Supply g N k) := by
  have h₁ := h.getGcInfo
  rw [cdDetect, if_neg (by simp [hidle.gc]), if_neg (by simp [hidle.cd])]
  dsimp only
  split
  case isTrue =>
    set s₁ := s.getGcInfo g
    set s₂ : Controller := { s₁ with cd := true, cdCount := s₁.cdCount + 1 }
    have h₂ : Supply g N k s₂ := ⟨h₁.congr rfl rfl rfl rfl rfl, h₁.spare⟩
    -- the zones found cold are full, and none is found twice
    have hcold : ∀ z ∈ s₁.coldZones g t, (s₂.zone z).cond = .full := by
      intro z hz
      have := (List.mem_filter.1 hz).2
      rw [Bool.and_eq_true, decide_eq_true_eq] at this
      exact this.1
    have hnodup : (s₁.coldZones g t).Nodup := List.nodup_range.filter _
    rw [coldDataRestruct, bind_assoc]
    refine (restructZones_supply h₂ hnodup hcold).bind fun s₃ h₃ => ?_
    have h₄ : Supply g N k { s₃ with cd := false } := ⟨h₃.congr rfl rfl rfl rfl rfl, h₃.spare⟩
    exact h₄.getGcInfo.keepRates
  case isFalse => exact h₁.getGcInfo.keepRates

/-! ## The pass of the detector -/

theorem AtRisk.congr (h : s'.AtRisk g i) (hcond : (s'.zone i).cond = (s.zone i).cond)
    (hwp : (s'.zone i).wp = (s.zone i).wp)
    (hvalid : (s'.zone i).validPage = (s.zone i).validPage) : s.AtRisk g i := by
  unfold AtRisk Poor waste at h ⊢
  rwa [hcond, hwp, hvalid] at h

/-- The loop of `garbage_collection_detect` has reached zone `i`; the zones `U` were open when it
began. A zone at risk that was not will be collected when the loop comes to it. -/
structure Pass (g : Geometry) (N : Finset PageId) (U : Finset Nat) (k i : Nat) (s : Controller) :
    Prop extends Supply g N k s where
  idle : s.Idle
  risk : ∀ j, s.AtRisk g j → j ∈ U ∨
    i ≤ j ∧ (s.zone j).cond = .full ∧ RateTests.exact.garbage (s.zone j).rates.gc = true

theorem AtRisk.poor (h : s.AtRisk g i) (hfull : (s.zone i).cond = .full) : s.Poor g i := by
  rcases h with ⟨-, hpoor⟩ | ⟨hopen, -⟩
  · exact hpoor
  · cases hfull.symm.trans hopen

theorem Drift.congr {s'' : Controller} (h : Drift g s s' i) (hz : s''.zone i = s'.zone i) :
    Drift g s s'' i where
  rates := by rw [hz, h.rates]
  inGc := by rw [hz, h.inGc]
  waste := by
    unfold Controller.waste
    rw [hz]
    exact h.waste
  full hi := hz.trans (h.full hi)
  tight := by
    rw [Tight, hz]
    exact h.tight
  used := by
    rw [hz]
    exact h.used

/-- Zone `z` has been collected: it is empty again, and the others have drifted from what they were
when the scan began. -/
structure Collected (g : Geometry) (z : Nat) (s s' : Controller) : Prop where
  cond : (s'.zone z).cond = .empty
  inGc : (s'.zone z).inGc = false
  drift : ∀ i, i ≠ z → Drift g (gcBegin g s) s' i
  spare : (s.emptyZones g).card ≤ (s'.emptyZones g).card

theorem garbageCollection_collected (h : Inv g K s) (hfull : (s.zone z).cond = .full) :
    Yields (garbageCollection g z s)
      (fun e => e = .noZone ∧ NoRoom g (s.zone z).cf (s.zone z).validPage.toNat s)
      (Collected g z s) := by
  refine (garbageCollection_scans h hfull).imp ?_
  rintro _ ⟨s₂, a, l, ha, hvac, -, rfl⟩
  have halike := alike_gcBegin g s
  have hfull₁ : ((gcBegin g s).zone z).cond = .full := (halike.cond z).trans hfull
  refine ⟨?_, ?_, fun i hi => (hvac.drift i hi).congr ?_, ?_⟩
  · rw [gcEnd_zone, if_pos rfl, recycled_zone, if_pos rfl]
  · rw [gcEnd_zone, if_pos rfl]
  · rw [gcEnd_zone, if_neg hi, recycled_zone_of_ne hi]
  · rw [emptyZones_congr (alike_gcEnd z _).cond, ← emptyZones_congr halike.cond]
    exact hvac.spent.card_emptyZones (by simp [hfull₁]) (by simp [hvac.full hfull₁])
      (h.lt z (by simp [hfull]))

/-- **One zone of the pass.** -/
theorem detectZone_pass (ht : t.garbage = RateTests.exact.garbage) (h : Pass g N U k i s) :
    Yields (detectZone g t s i) (fun _ => False) (Pass g N U k (i + 1)) := by
  rw [detectZone]
  split
  case isFalse hnot =>
    -- the zone is not at risk, unless it was open when the pass began
    refine ⟨h.toSupply, h.idle, fun j hj => ?_⟩
    rcases h.risk j hj with hU | ⟨hle, hfull, hgarbage⟩
    · exact Or.inl hU
    · refine Or.inr ⟨lt_of_le_of_ne hle ?_, hfull, hgarbage⟩
      rintro rfl
      exact hnot ⟨hfull, by rw [ht]; exact hgarbage, h.calm i⟩
  case isTrue hgarbage =>
    obtain ⟨hfull, -, -⟩ := hgarbage
    set s₀ := s.modifyZone i fun d => { d with inGc := true } with hs₀
    have halike₀ : Alike s s₀ := alike_modifyZone s i _ fun _ => ⟨rfl, rfl, rfl, rfl⟩
    have halike := alike_gcBegin g s₀
    have hinv₀ : Inv g (fun c => 0 ≤ c) s₀ := h.inv.modifyZone i _ fun _ => ⟨rfl, rfl, rfl, rfl⟩
    have hfull₀ : (s₀.zone i).cond = .full := (halike₀.cond i).trans hfull
    have hother₀ : ∀ j, j ≠ i → s₀.zone j = s.zone j := by
      intro j hj
      rw [hs₀, modifyZone_zone, if_neg hj]
    have hroom : ∀ e : Fault, e = .noZone ∧ NoRoom g (s₀.zone i).cf (s₀.zone i).validPage.toNat s₀ →
        False := by
      rintro e ⟨-, hno⟩
      obtain ⟨j, hj, hempty⟩ := h.exists_empty
      exact (hno j hj).1 ((halike₀.cond j).trans hempty)
    refine ((garbageCollection_collected hinv₀ hfull₀).mono hroom fun _ hs => hs).imp_ok
      fun s' hs' hcol => ?_
    obtain ⟨hinv', hcontent', hgc', hcd'⟩ := (garbageCollection_spec hinv₀ i).of_ok hs'
    refine ⟨⟨⟨hinv', h.known_congr hcontent', fun j => ?_⟩, ?_⟩, ⟨hgc', hcd'.trans h.idle.cd⟩,
      fun j hj => ?_⟩
    · by_cases hji : j = i
      · rw [hji, hcol.inGc]
      · rw [(hcol.drift j hji).inGc, gcBegin_inGc, hother₀ j hji]
        exact h.calm j
    · refine lt_of_lt_of_le h.spare ?_
      rw [← emptyZones_congr halike₀.cond]
      exact hcol.spare
    -- the zone collected is empty now, so it is not at risk
    · have hji : j ≠ i := by
        rintro rfl
        rcases hj with ⟨hc, -⟩ | ⟨hc, -⟩
        · cases hcol.cond.symm.trans hc
        · cases hcol.cond.symm.trans hc
      have hdrift := hcol.drift j hji
      have hrisk : s.AtRisk g j := (hdrift.atRisk hinv₀.gcBegin hj).congr
        ((halike.cond j).trans (halike₀.cond j)) ((halike.wp j).trans (halike₀.wp j))
        ((halike.validPage j).trans (halike₀.validPage j))
      rcases h.risk j hrisk with hU | ⟨hle, hfullj, -⟩
      · exact Or.inl hU
      · -- the collection has computed the rates anew before it touched any zone
        have hfullj₁ : ((gcBegin g s₀).zone j).cond = .full := by
          rw [halike.cond, halike₀.cond, hfullj]
        have hused : (s.zone j).cond ≠ .empty := by simp [hfullj]
        rw [hdrift.full hfullj₁, gcBegin_rates s₀ (h.inv.lt j hused), hother₀ j hji]
        exact Or.inr ⟨lt_of_le_of_ne hle (Ne.symm hji), hfullj₁,
          garbage_of_poor hused (hrisk.poor hfullj)⟩

theorem range_split {m : Nat} {done todo : List Nat} (h : List.range m = done ++ i :: todo) :
    i = done.length := by
  have hget : (List.range m)[done.length]? = some i := by
    rw [h, List.getElem?_append_right (le_refl _), Nat.sub_self]
    rfl
  obtain ⟨hlt, hi⟩ := List.getElem?_eq_some_iff.1 hget
  rw [← hi, List.getElem_range]

/-- **`garbage_collection_detect`** leaves the store rested. -/
theorem garbageCollectionDetect_rested (ht : t.garbage = RateTests.exact.garbage)
    (h : Supply g N k s) (hidle : s.Idle) :
    Yields (garbageCollectionDetect g t s) (fun _ => False) (Rested g N) := by
  set s₁ := s.getGcInfo g with hs₁
  set U := s₁.openZones g with hU
  have hbegin : Pass g N U k 0 s₁ := by
    refine ⟨h.getGcInfo, ⟨hidle.gc, hidle.cd⟩, fun j hj => ?_⟩
    rcases hj with ⟨hfull, hpoor⟩ | ⟨hopen, -⟩
    · have hcond : (s.zone j).cond = .full := (getGcInfo_wp (g := g) s j).2.1 ▸ hfull
      have hused : (s.zone j).cond ≠ .empty := by simp [hcond]
      have hrates : (s₁.zone j).rates = zoneRates g j (s.zone j) := by
        rw [hs₁]
        simp only [Controller.getGcInfo, if_pos (h.inv.lt j hused)]
      refine Or.inr ⟨Nat.zero_le j, hfull, ?_⟩
      rw [hrates]
      refine garbage_of_poor hused ?_
      rw [Poor, ← (getGcInfo_wp (g := g) s j).2.2.2]
      exact hpoor
    · have hlt := h.getGcInfo.inv.lt j fun hempty => by cases hopen.symm.trans hempty
      exact Or.inl (Finset.mem_filter.2 ⟨Finset.mem_range.2 hlt, hopen⟩)
  rw [garbageCollectionDetect, if_neg (by simp [hidle.cd])]
  dsimp only
  have hgc : (s.getGcInfo g).gc = false := hidle.gc
  rw [if_neg (by simp [hgc])]
  have hloop : Yields ((List.range g.maxZoneNum).foldlM (detectZone g t) s₁) (fun _ => False)
      (Pass g N U k (List.range g.maxZoneNum).length) := by
    refine Yields.foldlM_upto (fun done => Pass g N U k done.length) _ s₁ hbegin ?_
    intro done i todo s' hsplit hs'
    rw [List.length_append, List.length_singleton, range_split hsplit]
    exact detectZone_pass ht hs'
  refine hloop.imp fun s' hs' => ⟨hs'.toStock, ?_⟩
  refine le_trans (Finset.card_le_card fun j hj => ?_) h.getGcInfo.inv.card_openZones_nonneg
  obtain ⟨hlt, hrisk⟩ := Finset.mem_filter.1 hj
  -- what is at risk after the pass was open when it began
  refine (hs'.risk j hrisk).resolve_right ?_
  rintro ⟨hle, -⟩
  rw [List.length_range] at hle
  exact absurd (Finset.mem_range.1 hlt) (Nat.not_lt.2 hle)

end Controller

end ZoneBuffer
