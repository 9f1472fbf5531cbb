import ZoneBuffer.Zone.Moving
import ZoneBuffer.Zone.Runs
import Mathlib.Algebra.BigOperators.Group.Finset.Piecewise

set_option autoImplicit false

/-! # What a collection reclaims

A scan reads the bitmap and the table of the zone while every page it moves changes both, and
maybe which zones are open or full. Its invariant has two parts: `Vacating` says what has become
of the zones, `Carried` where the pages found so far have gone, as a list of moves in the order of
their old addresses. Recycling the zone then loses nothing, and `garbage_collection` ends with one
more empty zone and the same pages (`garbageCollection_reclaims`). -/

namespace ZoneBuffer

open Outcome Machine

/-- A page that went from address `old` to address `new`. -/
structure Move where
  page : PageId
  old : Nat
  new : Nat

namespace Controller

variable {g : Geometry} {K : Int → Prop} {c : Int} {y z i a pos : Nat} {s s₀ s' : Controller}
  {p : PageId} {l : List Move}

/-! ## The invariant of a scan -/

/-- What the scan of zone `z`, begun in state `s₀`, has done to the zones once it reaches
byte `a`. -/
structure Vacating (g : Geometry) (K : Int → Prop) (c : Int) (z : Nat) (s₀ s : Controller)
    (a : Nat) : Prop extends Scanned g K s₀ s z a where
  self : s.zone z = { s₀.zone z with validPage := (s.zone z).validPage }
  drift : ∀ i, i ≠ z → Drift g s₀ s i
  spent : Spent g c z s₀ s
  keep : ∀ y, Roomy g c z y s₀ → Roomy g c z y s

/-- The moves `l` have been made: they are those of the pages mapped to zone `z` below byte `a`,
and those that went to one zone fill it from its write pointer on. -/
structure Carried (g : Geometry) (c : Int) (z : Nat) (s₀ s : Controller) (a : Nat)
    (l : List Move) : Prop where
  sorted : l.Pairwise fun m m' => m.old < m'.old
  source : ∀ m ∈ l, s₀.table m.page = some m.old ∧ m.old / g.zoneSize = z ∧ m.old < a
  target : ∀ m ∈ l, s.table m.page = some m.new ∧ m.new / g.zoneSize ≠ z ∧
    (s.zone (m.new / g.zoneSize)).cf = c
  all : ∀ p b, s₀.table p = some b → b / g.zoneSize = z → b < a → ∃ m ∈ l, m.page = p ∧ m.old = b
  stay : ∀ p b, s₀.table p = some b → (b / g.zoneSize = z → a ≤ b) → s.table p = some b
  appended : ∀ y, y ≠ z → ∃ k, (s.zone y).wp = (s₀.zone y).wp + k * PAGE_SIZE ∧
    (l.filter fun m => m.new / g.zoneSize = y).map Move.new
      = (List.range k).map fun i => (s₀.zone y).wp + i * PAGE_SIZE
  total : ∑ i ∈ Finset.range g.maxZoneNum, (s.zone i).validPage
    = ∑ i ∈ Finset.range g.maxZoneNum, (s₀.zone i).validPage

theorem Vacating.full (h : Vacating g K c z s₀ s a) (hz : (s₀.zone z).cond = .full) :
    (s.zone z).cond = .full := by
  rw [h.self]
  exact hz

theorem Vacating.init (h : Inv g K s) (z : Nat) : Vacating g K c z s s (g.ofst z) where
  inv := h
  content := rfl
  vacated _ _ _ hb := (g.ofst_le_of_div hb).1
  gc := rfl
  cd := rfl
  self := rfl
  drift i _ := Drift.refl g s i
  spent := Or.inl fun _ hi => hi
  keep _ hy := hy

theorem Carried.init (g : Geometry) (c : Int) (z : Nat) (s : Controller) :
    Carried g c z s s (g.ofst z) [] where
  sorted := List.Pairwise.nil
  source := by
    intro m hm
    cases hm
  target := by
    intro m hm
    cases hm
  all p b _ hz hb := by
    have := (g.ofst_le_of_div hz).1
    omega
  stay p b hp _ := hp
  appended y _ := ⟨0, by rw [Nat.zero_mul, Nat.add_zero], rfl⟩
  total := rfl

/-- An aligned address in a page is the address of the page. -/
theorem eq_of_lt_add_page {b : Nat} (ha : PAGE_SIZE ∣ a) (hb : PAGE_SIZE ∣ b) (hle : a ≤ b)
    (hlt : b < a + PAGE_SIZE) : b = a := by
  by_contra hne
  have := add_page_le ha hb (lt_of_le_of_ne hle (Ne.symm hne))
  omega

/-! ## A position without a page -/

theorem Vacating.skip (h : Vacating g K c z s₀ s pos) (ha : PAGE_SIZE ∣ pos)
    (hv : s.getValid pos = false) : Vacating g K c z s₀ s (pos + PAGE_SIZE) :=
  { h with vacated := vacated_of_not_valid h.inv ha h.vacated (by simp [hv]) }

theorem Carried.skip (h : Carried g c z s₀ s pos l) (h₀ : Inv g K s₀) (hinv : Inv g K s)
    (ha : PAGE_SIZE ∣ pos) (hv : s.getValid pos = false) :
    Carried g c z s₀ s (pos + PAGE_SIZE) l where
  sorted := h.sorted
  source m hm := by
    obtain ⟨h1, h2, h3⟩ := h.source m hm
    exact ⟨h1, h2, by omega⟩
  target := h.target
  all p b hp hz hb := by
    by_cases hlt : b < pos
    · exact h.all p b hp hz hlt
    · -- a page mapped to the position would be valid
      obtain rfl := eq_of_lt_add_page ha (h₀.book.aligned p b hp) (Nat.le_of_not_lt hlt) hb
      have hmapped := h.stay p b hp fun _ => le_refl b
      rw [hinv.valid_of_mapped hmapped] at hv
      cases hv
  stay p b hp hb := h.stay p b hp fun hz => le_trans (Nat.le_add_right ..) (hb hz)
  appended := h.appended
  total := h.total

/-! ## A position with a page -/

theorem Vacating.move (h : Vacating g K c z s₀ s pos) (hfull : (s₀.zone z).cond = .full)
    (hz : pos / g.zoneSize = z) (hp : s.table p = some pos)
    (hm : Moved g K c p y s s') : Vacating g K c z s₀ s' (pos + PAGE_SIZE) where
  inv := hm.inv
  content := hm.content.trans h.content
  vacated q b hq hb := by
    have hyz := hm.ne_of_full (h.full hfull)
    have hpos := h.inv.book.aligned p pos hp
    rw [hm.table, PartialMap.insertOrAssign_eq_some] at hq
    -- the page moved has left the zone; another one is not at its address
    rcases hq with ⟨-, rfl⟩ | ⟨hqp, hq⟩
    · rw [h.inv.wp_div] at hb
      exact absurd hb.symm hyz
    · refine add_page_le hpos (h.inv.book.aligned q b hq) ?_
      refine lt_of_le_of_ne (h.vacated q b hq hb) ?_
      rintro rfl
      exact hqp (h.inv.book.inj q p pos hq hp)
  gc := hm.gc.trans h.gc
  cd := hm.cd.trans h.cd
  self := by
    rw [hm.zone_of_full (h.full hfull), h.self]
  drift i hi := (h.drift i hi).trans (hm.drift h.inv hp (hz.symm ▸ hi))
  spent := hm.spent h.inv hp hz (h.full hfull) h.spent
  keep y hy := (hm.roomy h.inv hp hz (h.full hfull) (h.keep y hy)).2

/-- A page found in the zone is where it was when the scan began. -/
theorem Carried.source_eq (h : Carried g c z s₀ s pos l) (h₀ : Inv g K s₀) (hinv : Inv g K s)
    (hcontent : s.content = s₀.content) (hz : pos / g.zoneSize = z) (hp : s.table p = some pos) :
    s₀.table p = some pos := by
  -- it was mapped somewhere, since its content is the same
  obtain ⟨b, hb⟩ : ∃ b, s₀.table p = some b := by
    refine h₀.table_of_content ?_
    rw [← hcontent, ne_eq, hinv.content_eq_none, hp]
    exact Option.some_ne_none pos
  by_cases hstay : b / g.zoneSize = z → pos ≤ b
  · rw [hb]
    exact (h.stay p b hb hstay).symm.trans hp
  -- a page of the zone below the scan has been moved to another zone
  · push Not at hstay
    obtain ⟨m, hm, rfl, -⟩ := h.all p b hb hstay.1 hstay.2
    obtain ⟨hnew, hne, -⟩ := h.target m hm
    cases hnew.symm.trans hp
    exact absurd hz hne

/-- The sum of the counts does not change. -/
theorem Moved.total (hm : Moved g K c p y s s') (h : Inv g K s) (hp : s.table p = some pos) :
    ∑ i ∈ Finset.range g.maxZoneNum, (s'.zone i).validPage
      = ∑ i ∈ Finset.range g.maxZoneNum, (s.zone i).validPage := by
  have hold : pos / g.zoneSize ∈ Finset.range g.maxZoneNum :=
    Finset.mem_range.2 (h.lt _ (h.live p pos hp).used)
  have hnew : y ∈ Finset.range g.maxZoneNum :=
    Finset.mem_range.2 (hm.inv.lt y (by rw [hm.zone]; simp))
  -- both zones are zones of the device, so each is counted once in its sum
  have hsum := Finset.sum_congr rfl fun i (_ : i ∈ Finset.range g.maxZoneNum) =>
    hm.validPage h hp i
  rw [Finset.sum_add_distrib, Finset.sum_add_distrib, Finset.sum_ite_eq, Finset.sum_ite_eq,
    if_pos hold, if_pos hnew] at hsum
  exact add_right_cancel hsum

theorem Carried.move (h : Carried g c z s₀ s pos l) (h₀ : Inv g K s₀)
    (hvac : Vacating g K c z s₀ s pos) (hfull : (s₀.zone z).cond = .full)
    (hz : pos / g.zoneSize = z) (hp : s.table p = some pos) (hm : Moved g K c p y s s') :
    Carried g c z s₀ s' (pos + PAGE_SIZE) (l ++ [⟨p, pos, (s.zone y).wp⟩]) := by
  have hp₀ := h.source_eq h₀ hvac.inv hvac.content hz hp
  have hyz := hm.ne_of_full (hvac.full hfull)
  have hdiv := hvac.inv.wp_div y
  exact {
    sorted := by
      refine List.pairwise_append.2 ⟨h.sorted, List.pairwise_singleton _ _, fun m hm m' hm' => ?_⟩
      rw [List.mem_singleton.1 hm']
      exact (h.source m hm).2.2
    source := by
      intro m hm
      rcases List.mem_append.1 hm with hm | hm
      · obtain ⟨h1, h2, h3⟩ := h.source m hm
        exact ⟨h1, h2, by omega⟩
      · rw [List.mem_singleton.1 hm]
        exact ⟨hp₀, hz, Nat.lt_add_of_pos_right (by decide)⟩
    target := by
      intro m hmem
      rcases List.mem_append.1 hmem with hmem | hmem
      · obtain ⟨h1, h2, h3⟩ := h.target m hmem
        -- the pages moved before are no longer in zone `z`, so this one is not among them
        have hne : m.page ≠ p := by
          rintro rfl
          cases h1.symm.trans hp
          exact h2 hz
        refine ⟨by rw [hm.table, PartialMap.insertOrAssign_of_ne _ _ hne, h1], h2, ?_⟩
        by_cases hy : m.new / g.zoneSize = y
        · rw [hy, hm.zone]
        · rcases hm.other _ hy with heq | ⟨-, heq⟩
          · rw [heq]
            exact h3
          · rw [heq]
            exact h3
      · rw [List.mem_singleton.1 hmem]
        refine ⟨by rw [hm.table, PartialMap.insertOrAssign_self], ?_, ?_⟩
        · show (s.zone y).wp / g.zoneSize ≠ z
          rw [hdiv]
          exact Ne.symm hyz
        · show (s'.zone ((s.zone y).wp / g.zoneSize)).cf = c
          rw [hdiv, hm.zone]
    all := by
      intro q b hq hqz hb
      by_cases hlt : b < pos
      · obtain ⟨m, hm, hpage⟩ := h.all q b hq hqz hlt
        exact ⟨m, List.mem_append_left _ hm, hpage⟩
      · have hb := eq_of_lt_add_page (h₀.book.aligned p pos hp₀) (h₀.book.aligned q b hq)
          (Nat.le_of_not_lt hlt) hb
        subst hb
        exact ⟨_, List.mem_append_right _ List.mem_cons_self, h₀.book.inj p q b hp₀ hq, rfl⟩
    stay := by
      intro q b hq hb
      have hne : q ≠ p := by
        rintro rfl
        cases hq.symm.trans hp₀
        have := hb hz
        have hpos : 0 < PAGE_SIZE := by decide
        omega
      rw [hm.table, PartialMap.insertOrAssign_of_ne _ _ hne]
      exact h.stay q b hq fun hbz => le_trans (Nat.le_add_right ..) (hb hbz)
    appended := by
      intro x hx
      obtain ⟨k, hwp, hl⟩ := h.appended x hx
      rw [List.filter_append, List.map_append, hl]
      by_cases hxy : x = y
      · subst hxy
        refine ⟨k + 1, ?_, ?_⟩
        · rw [hm.wp_self, hwp, Nat.add_mul, Nat.one_mul, Nat.add_assoc]
        -- the page is stored where the pages moved to `y` before it end
        · rw [List.range_succ, List.map_append, List.filter_cons_of_pos (by simpa using hdiv)]
          show _ ++ [(s.zone x).wp] = _ ++ [(s₀.zone x).wp + k * PAGE_SIZE]
          rw [hwp]
      · refine ⟨k, by rw [hm.wp_other hxy, hwp], ?_⟩
        have hnot : ¬ (s.zone y).wp / g.zoneSize = x := by
          rw [hdiv]
          exact Ne.symm hxy
        rw [List.filter_cons_of_neg (by simpa using hnot)]
        exact List.append_nil _
    total := (hm.total hvac.inv hp).trans h.total }

/-! ## The scan -/

/-- A scan that finds no room for a page could not have had room for all of them. -/
theorem Vacating.noRoom (h : Vacating g K c z s₀ s a) (hleft : 0 < (s.zone z).validPage)
    (hno : NoRoom g c 1 s) : NoRoom g c (s₀.zone z).validPage.toNat s₀ := by
  -- no zone is roomy now, so none was when the scan began
  have hnot : ∀ y, ¬ Roomy g c z y s := by
    intro y hy
    have hchosen := hy.chosen hleft
    exact (hno y (h.inv.lt y (by simp [hchosen.cond]))).2 hchosen
  intro i hi
  refine ⟨fun hempty => ?_, fun hroomy => hnot i (h.keep i hroomy)⟩
  rcases h.spent with hall | ⟨y, hy, -⟩
  · exact (hno i hi).1 (hall i hempty)
  · exact hnot y hy

/-- **A scan of a full zone.** It fails only if no zone is empty and none open for the cluster has
room for all pages of the zone. -/
theorem scan_moves {f : Controller → Nat → Except Fault Controller} (h : Inv g K s₀)
    (hfull : (s₀.zone z).cond = .full)
    (hstep : ∀ s pos, Inv g K s → (s.zone z).cf = (s₀.zone z).cf → pos / g.zoneSize = z →
      PAGE_SIZE ∣ pos → MovesTo g K c s pos (f s pos)) :
    Yields ((scanPositions g z).foldlM f s₀)
      (fun e => e = .noZone ∧ NoRoom g c (s₀.zone z).validPage.toNat s₀) fun s =>
      ∃ a l, g.ofst z + g.cap ≤ a ∧ Vacating g K c z s₀ s a ∧ Carried g c z s₀ s a l := by
  have hinit : g.ofst z + ([] : List Nat).length * PAGE_SIZE = g.ofst z := by simp
  -- the invariant after `done` positions, with the moves made so far
  refine (Yields.foldlM_upto (fun done s => ∃ l,
    Vacating g K c z s₀ s (g.ofst z + done.length * PAGE_SIZE) ∧
      Carried g c z s₀ s (g.ofst z + done.length * PAGE_SIZE) l) _ s₀
    ⟨[], hinit.symm ▸ Vacating.init h z, hinit.symm ▸ Carried.init g c z s₀⟩ ?_).imp ?_
  · rintro done pos todo s hsplit ⟨l, hvac, hcar⟩
    obtain ⟨hpos, -⟩ := scanPositions_split hsplit
    obtain ⟨hz, ha⟩ := mem_scanPositions (g := g) (z := z) (by rw [hsplit]; simp : pos ∈ _)
    have hnext : g.ofst z + (done ++ [pos]).length * PAGE_SIZE = pos + PAGE_SIZE := by
      rw [List.length_append, List.length_singleton, Nat.add_mul, Nat.one_mul, hpos, Nat.add_assoc]
    rw [← hpos] at hvac hcar
    simp only [hnext]
    refine (hstep s pos hvac.inv (by rw [hvac.self]) hz ha).mono ?_ ?_
    · rintro e ⟨rfl, hv, hno⟩
      obtain ⟨p, hp⟩ := hvac.inv.mapped_of_valid ha hv
      exact ⟨rfl, hvac.noRoom (hz ▸ hvac.inv.validPage_pos hp) hno⟩
    · rintro s' (⟨hv, rfl⟩ | ⟨p, y, hp, hm⟩)
      · exact ⟨l, hvac.skip ha hv, hcar.skip h hvac.inv ha hv⟩
      · exact ⟨_, hvac.move hfull hz hp hm, hcar.move h hvac hfull hz hp hm⟩
  · rintro s ⟨l, hvac, hcar⟩
    exact ⟨_, l, Nat.add_le_add_left (cap_le_scan g z) _, hvac, hcar⟩

/-! ## What is reclaimed -/

/-- The pages mapped to zone `z` in state `s` have been moved as the list `l` says, in the order of
their addresses. In every other zone the new addresses follow one another from the write pointer
on, and the zones they lie in belong to the cluster zone `z` had. -/
structure Relocated (g : Geometry) (z : Nat) (s s' : Controller) (l : List Move) : Prop where
  sorted : l.Pairwise fun m m' => m.old < m'.old
  pages : ∀ p a, s.table p = some a ∧ a / g.zoneSize = z ↔ ∃ m ∈ l, m.page = p ∧ m.old = a
  remapped : ∀ m ∈ l, s'.table m.page = some m.new ∧ s'.dev.page m.new = s.dev.page m.old
  cluster : ∀ m ∈ l, m.new / g.zoneSize ≠ z ∧ (s'.zone (m.new / g.zoneSize)).cf = (s.zone z).cf
  appended : ∀ y, y ≠ z → ∃ k, (s'.zone y).wp = (s.zone y).wp + k * PAGE_SIZE ∧
    (l.filter fun m => m.new / g.zoneSize = y).map Move.new
      = (List.range k).map fun i => (s.zone y).wp + i * PAGE_SIZE

/-- **Zone `z`, and no other, has been reclaimed**, and the pages in it have been moved. -/
structure Reclaimed (g : Geometry) (z : Nat) (s s' : Controller) : Prop where
  cond : (s'.zone z).cond = .empty
  cf : (s'.zone z).cf = -1
  wp : (s'.zone z).wp = g.ofst z
  validPage : (s'.zone z).validPage = 0
  vacant : s'.Vacant g z
  others : ∀ i, i ≠ z → (s.zone i).cond ≠ .empty → (s'.zone i).cond ≠ .empty
  outside : ∀ p a, s.table p = some a → a / g.zoneSize ≠ z →
    s'.table p = some a ∧ s'.dev.page a = s.dev.page a
  unmapped : ∀ p, s.table p = none → s'.table p = none
  moves : ∃ l, Relocated g z s s' l
  total : ∑ i ∈ Finset.range g.maxZoneNum, (s'.zone i).validPage
    = ∑ i ∈ Finset.range g.maxZoneNum, (s.zone i).validPage

/-- The bytes of a page that is mapped are its content. -/
theorem page_of_mapped (hp : s.table p = some a) : s.dev.page a = s.content p := by
  rw [content, hp]
  rfl

theorem Vacating.vacant (h : Vacating g K c z s₀ s a) (ha : g.ofst z + g.cap ≤ a) :
    s.Vacant g z :=
  h.inv.vacant fun p b hp hb => le_trans ha (h.vacated p b hp hb)

/-- The bytes of a page are what they were before the scan, wherever it is mapped now. -/
theorem Vacating.page_eq (h : Vacating g K c z s₀ s a) (ha : g.ofst z + g.cap ≤ a) {b b' : Nat}
    (hb : s₀.table p = some b) (hb' : s.table p = some b') :
    (recycled g z s).dev.page b' = s₀.dev.page b := by
  have hcontent := (h.inv.recycled (h.vacant ha)).2.trans h.content
  have hmapped : (recycled g z s).table p = some b' := hb'
  rw [page_of_mapped hb, page_of_mapped hmapped, hcontent]

theorem recycled_zone_of_ne (hi : i ≠ z) : (recycled g z s).zone i = s.zone i := by
  rw [recycled_zone, if_neg hi]

theorem Vacating.relocated (h₀ : Inv g K s₀) (h : Vacating g K (s₀.zone z).cf z s₀ s a)
    (hc : Carried g (s₀.zone z).cf z s₀ s a l) (ha : g.ofst z + g.cap ≤ a) :
    Relocated g z s₀ (recycled g z s) l where
  sorted := hc.sorted
  pages p b := by
    constructor
    · rintro ⟨hp, hb⟩
      refine hc.all p b hp hb ?_
      -- a mapped page lies below the write pointer, and the scan has passed that
      have hlive := (h₀.live p b hp).below
      rw [hb] at hlive
      exact lt_of_lt_of_le hlive (le_trans (h₀.wp_le z) ha)
    · rintro ⟨m, hm, rfl, rfl⟩
      exact ⟨(hc.source m hm).1, (hc.source m hm).2.1⟩
  remapped m hm := by
    have hnew := (hc.target m hm).1
    exact ⟨hnew, h.page_eq ha (hc.source m hm).1 hnew⟩
  cluster m hm := by
    obtain ⟨-, hne, hcf⟩ := hc.target m hm
    exact ⟨hne, by rw [recycled_zone_of_ne hne, hcf]⟩
  appended y hy := by
    rw [recycled_zone_of_ne hy]
    exact hc.appended y hy

/-- **A scan of zone `z` followed by its recycling.** -/
theorem Vacating.reclaimed (h₀ : Inv g K s₀) (h : Vacating g K (s₀.zone z).cf z s₀ s a)
    (hc : Carried g (s₀.zone z).cf z s₀ s a l) (ha : g.ofst z + g.cap ≤ a) :
    Reclaimed g z s₀ (recycled g z s) := by
  have hvac := h.vacant ha
  have hself : (recycled g z s).zone z = { s.zone z with
      cond := .empty
      cf := -1
      wp := g.ofst z
      rates := { (s.zone z).rates with idle := 0, gc := 0 } } := by
    rw [recycled_zone, if_pos rfl]
  have hcond : ((recycled g z s).zone z).cond = .empty := by rw [hself]
  exact {
    cond := hcond
    cf := by rw [hself]
    wp := by rw [hself]
    validPage := (h.inv.recycled hvac).1.validPage_empty hcond
    vacant := hvac
    others := fun i hi hused => by
      rw [recycled_zone_of_ne hi]
      exact (h.drift i hi).used hused
    outside := fun p b hp hb => by
      have hstay := hc.stay p b hp fun hbz => absurd hbz hb
      exact ⟨hstay, h.page_eq ha hp hstay⟩
    unmapped := fun p hp => by
      show s.table p = none
      rw [← h.inv.content_eq_none, h.content, h₀.content_eq_none]
      exact hp
    moves := ⟨l, h.relocated h₀ hc ha⟩
    total := by
      rw [← hc.total]
      refine Finset.sum_congr rfl fun i _ => ?_
      by_cases hi : i = z
      · rw [hi, hself]
      · rw [recycled_zone_of_ne hi] }

/-- The two states differ in rates, flags and counters only. -/
structure Alike (s s' : Controller) : Prop where
  table : s'.table = s.table
  page : s'.dev.page = s.dev.page
  wp : ∀ i, (s'.zone i).wp = (s.zone i).wp
  cond : ∀ i, (s'.zone i).cond = (s.zone i).cond
  cf : ∀ i, (s'.zone i).cf = (s.zone i).cf
  validPage : ∀ i, (s'.zone i).validPage = (s.zone i).validPage

theorem Alike.refl (s : Controller) : Alike s s :=
  ⟨rfl, rfl, fun _ => rfl, fun _ => rfl, fun _ => rfl, fun _ => rfl⟩

theorem Alike.trans {s'' : Controller} (h : Alike s s') (h' : Alike s' s'') : Alike s s'' :=
  ⟨h'.table.trans h.table, h'.page.trans h.page, fun i => (h'.wp i).trans (h.wp i),
    fun i => (h'.cond i).trans (h.cond i), fun i => (h'.cf i).trans (h.cf i),
    fun i => (h'.validPage i).trans (h.validPage i)⟩

theorem Alike.chosen_iff {n : Nat} (h : Alike s s') : Chosen g c n i s' ↔ Chosen g c n i s := by
  constructor
  · rintro ⟨hcond, hcf, hroom⟩
    rw [h.cond] at hcond
    rw [h.cf] at hcf
    rw [h.wp] at hroom
    exact ⟨hcond, hcf, hroom⟩
  · rintro ⟨hcond, hcf, hroom⟩
    rw [← h.cond] at hcond
    rw [← h.cf] at hcf
    rw [← h.wp] at hroom
    exact ⟨hcond, hcf, hroom⟩

theorem Relocated.congr {s₁ s₂ : Controller} (h : Relocated g z s₁ s₂ l) (hs : Alike s s₁)
    (hs' : Alike s₂ s') : Relocated g z s s' l where
  sorted := h.sorted
  pages := by
    rw [← hs.table]
    exact h.pages
  remapped := by
    rw [← hs.page, hs'.table, hs'.page]
    exact h.remapped
  cluster m hm := by
    rw [hs'.cf, ← hs.cf]
    exact h.cluster m hm
  appended y hy := by
    rw [hs'.wp, ← hs.wp]
    exact h.appended y hy

theorem Reclaimed.congr {s₁ s₂ : Controller} (h : Reclaimed g z s₁ s₂) (hs : Alike s s₁)
    (hs' : Alike s₂ s') : Reclaimed g z s s' where
  cond := by rw [hs'.cond, h.cond]
  cf := by rw [hs'.cf, h.cf]
  wp := by rw [hs'.wp, h.wp]
  validPage := by rw [hs'.validPage, h.validPage]
  vacant := by
    rw [Vacant, hs'.table]
    exact h.vacant
  others i hi := by
    rw [← hs.cond, hs'.cond]
    exact h.others i hi
  outside := by
    rw [← hs.table, ← hs.page, hs'.table, hs'.page]
    exact h.outside
  unmapped := by
    rw [← hs.table, hs'.table]
    exact h.unmapped
  moves := by
    obtain ⟨l, hl⟩ := h.moves
    exact ⟨l, hl.congr hs hs'⟩
  total := by
    simp only [hs'.validPage, ← hs.validPage]
    exact h.total

/-! ## The call -/

/-- The state in which `garbage_collection` begins to scan. -/
def gcBegin (g : Geometry) (s : Controller) : Controller :=
  ({ s with gc := true, gcCount := s.gcCount + 1 } : Controller).getGcInfo g

/-- The end of `garbage_collection`, the zone recycled. -/
def gcEnd (z : Nat) (s : Controller) : Controller :=
  { s.modifyZone z (fun d => { d with inGc := false }) with gc := false }

theorem alike_gcBegin (g : Geometry) (s : Controller) : Alike s (gcBegin g s) where
  table := rfl
  page := rfl
  wp i := (getGcInfo_wp (g := g) _ i).1
  cond i := (getGcInfo_wp (g := g) _ i).2.1
  cf i := (getGcInfo_wp (g := g) _ i).2.2.1
  validPage i := (getGcInfo_wp (g := g) _ i).2.2.2

theorem alike_getGcInfo (g : Geometry) (s : Controller) : Alike s (s.getGcInfo g) :=
  ⟨rfl, rfl, fun i => (getGcInfo_wp s i).1, fun i => (getGcInfo_wp s i).2.1,
    fun i => (getGcInfo_wp s i).2.2.1, fun i => (getGcInfo_wp s i).2.2.2⟩

theorem alike_keepRates (g : Geometry) (s : Controller) : Alike s (s.keepRates g) :=
  ⟨rfl, rfl, fun i => (keepRates_wp s i).1, fun i => (keepRates_wp s i).2.1,
    fun i => (keepRates_wp s i).2.2.1, fun i => (keepRates_wp s i).2.2.2⟩

/-- The scan begins with the rates as they are. -/
theorem gcBegin_rates (s : Controller) (hi : i < g.maxZoneNum) :
    ((gcBegin g s).zone i).rates = zoneRates g i (s.zone i) := by
  simp only [gcBegin, getGcInfo, if_pos hi]

theorem gcBegin_inGc (g : Geometry) (s : Controller) (i : Nat) :
    ((gcBegin g s).zone i).inGc = (s.zone i).inGc :=
  getGcInfo_inGc (g := g) _ i

theorem gcEnd_zone (z : Nat) (s : Controller) (i : Nat) :
    (gcEnd z s).zone i = if i = z then { s.zone z with inGc := false } else s.zone i :=
  modifyZone_zone s z (fun d => { d with inGc := false }) i

/-- Changing the flag or the rates of a zone. -/
theorem alike_modifyZone (s : Controller) (i : Nat) (f : ZoneDesc → ZoneDesc)
    (hf : ∀ d, (f d).wp = d.wp ∧ (f d).cond = d.cond ∧ (f d).cf = d.cf ∧
      (f d).validPage = d.validPage) : Alike s (s.modifyZone i f) := by
  refine ⟨rfl, rfl, ?_, ?_, ?_, ?_⟩
  · exact modifyZone_field (·.wp) (fun d => (hf d).1) s i
  · exact modifyZone_field (·.cond) (fun d => (hf d).2.1) s i
  · exact modifyZone_field (·.cf) (fun d => (hf d).2.2.1) s i
  · exact modifyZone_field (·.validPage) (fun d => (hf d).2.2.2) s i

theorem alike_gcEnd (z : Nat) (s : Controller) : Alike s (gcEnd z s) := by
  have h := alike_modifyZone s z (fun d => { d with inGc := false }) fun _ => ⟨rfl, rfl, rfl, rfl⟩
  exact ⟨h.table, h.page, h.wp, h.cond, h.cf, h.validPage⟩

theorem Inv.gcBegin (h : Inv g K s) : Inv g K (gcBegin g s) :=
  (h.counters rfl rfl rfl rfl rfl :
    Inv g K { s with gc := true, gcCount := s.gcCount + 1 }).getGcInfo

/-- **`garbage_collection` of a full zone**, in terms of its scan. -/
theorem garbageCollection_scans (h : Inv g K s) (hfull : (s.zone z).cond = .full) :
    Yields (garbageCollection g z s)
      (fun e => e = .noZone ∧ NoRoom g (s.zone z).cf (s.zone z).validPage.toNat s) fun s' =>
      ∃ s₂ a l, g.ofst z + g.cap ≤ a ∧
        Vacating g K (s.zone z).cf z (Controller.gcBegin g s) s₂ a ∧
        Carried g (s.zone z).cf z (Controller.gcBegin g s) s₂ a l ∧
        s' = gcEnd z (recycled g z s₂) := by
  have halike := alike_gcBegin g s
  have hscan := scan_moves (f := gcPosition g z) (c := (s.zone z).cf) h.gcBegin
    (by rw [halike.cond]; exact hfull) fun s' pos hinv hcf hz ha => by
      rw [← halike.cf, ← hcf]
      exact gcPosition_moves hinv hz ha
  rw [halike.validPage] at hscan
  -- the flags and counters set before the scan make no difference to the zones
  have hno : NoRoom g (s.zone z).cf (s.zone z).validPage.toNat (Controller.gcBegin g s) →
      NoRoom g (s.zone z).cf (s.zone z).validPage.toNat s := by
    intro hno i hi
    rw [← halike.cond, ← halike.chosen_iff]
    exact hno i hi
  rw [garbageCollection]
  refine (hscan.mono (fun e he => ⟨he.1, hno he.2⟩) fun _ hs => hs).bind ?_
  rintro s₂ ⟨a, l, ha, hvac, hcar⟩
  rw [recycleZone_eq (hvac.inv.clear_of_vacant (hvac.vacant ha))]
  exact ⟨s₂, a, l, ha, hvac, hcar, rfl⟩

/-- **Collecting a full zone reclaims it.** -/
theorem garbageCollection_reclaimed (h : Inv g K s) (hfull : (s.zone z).cond = .full) :
    Yields (garbageCollection g z s)
      (fun e => e = .noZone ∧ NoRoom g (s.zone z).cf (s.zone z).validPage.toNat s)
      (Reclaimed g z s) := by
  refine (garbageCollection_scans h hfull).imp ?_
  rintro _ ⟨s₂, a, l, ha, hvac, hcar, rfl⟩
  have halike := alike_gcBegin g s
  rw [← halike.cf] at hvac hcar
  exact (hvac.reclaimed h.gcBegin hcar ha).congr halike (alike_gcEnd z _)

/-- **Garbage collection reclaims exactly one zone.** In every state a run reaches, collecting a
full zone moves the pages mapped to it and loses none. The call fails only where no zone is empty
and none that is open for the cluster has room for these pages. -/
theorem garbageCollection_reclaims (g : Geometry) (rates : Nat → Rates) (ops : List Op)
    (hl : Legal (Op.Pre g) Op.spec ops .empty) :
    Yields (run (step g) ops (Controller.init g rates)) (· = .noZone) fun s =>
      ∀ z, (s.zone z).cond = .full →
        Yields (garbageCollection g z s)
          (fun e => e = .noZone ∧ NoRoom g (s.zone z).cf (s.zone z).validPage.toNat s)
          (Reclaimed g z s) :=
  (run_spec_any rates ops hl).imp fun _ h _ hfull => garbageCollection_reclaimed h.inv hfull

/-- Zone 0 is filled and finished, and one of its pages rewritten in zone 1. -/
@[irreducible] def thinnedOps : List Op :=
  [.createNewPage 7 (frameOf 7 1), .createNewPage 8 (frameOf 8 2), .createNewPage 9 (frameOf 9 3),
    .writePage 0 7 (frameOf 7 4)]

theorem garbageCollection_reclaims_thinned : ∃ s s',
    run (step .small) thinnedOps smallStart = .ok s ∧
      garbageCollection .small 0 s = .ok s' ∧ Reclaimed .small 0 s s' := by
  obtain ⟨s, hs, hfull, hok⟩ : ∃ s, run (step .small) thinnedOps smallStart = .ok s ∧
      (s.zone 0).cond = .full ∧ (garbageCollection .small 0 s).isOk = true :=
    exists_ok_of_decide (by decide +kernel)
  have hreclaims := (garbageCollection_reclaims .small (fun _ => ⟨0, 0, 0⟩) thinnedOps
    (by decide +kernel)).of_ok hs 0 hfull
  obtain ⟨s', hs', hreclaimed⟩ := hreclaims.of_isOk hok
  exact ⟨s, s', hs, hs', hreclaimed⟩

end Controller

end ZoneBuffer
