import ZoneBuffer.Zone.Relocation
import ZoneBuffer.Zone.Batches

set_option autoImplicit false

/-! # Moving the pages of a zone, one by one

The scans of `garbage_collection` and `cold_data_restruct` call `write_page_gc` for every valid
page they meet. `Moved` is what one such call does to the table, the zones and the valid-page
counts, in terms of the state before it. Two things follow that hold for both scans: the pages
left in the zone scanned are counted by its `valid_page`, and a scan opens at most one zone,
since a zone just opened has room for all that is left (`Roomy`). -/

namespace ZoneBuffer

open Outcome TrueCount

namespace Controller

variable {g : Geometry} {K : Int → Prop} {c : Int} {n y z i pos old new : Nat}
  {s s₀ s' s'' : Controller} {p : PageId} {b : Page}

/-! ## The valid-page counts -/

/-- **The bitmap after a page has moved**, read off the two tables. -/
theorem Book.metaPage_moved (h : s.Book g none) (h' : s'.Book g none)
    (hp : s.table p = some old) (ht : s'.table = s.table.insertOrAssign p new) :
    s'.metaPage = Function.update (Function.update s.metaPage (old / PAGE_SIZE) false)
      (new / PAGE_SIZE) true := by
  have hnew : PAGE_SIZE ∣ new := h'.aligned p new (by rw [ht, PartialMap.insertOrAssign_self])
  have hold : PAGE_SIZE ∣ old := h.aligned p old hp
  funext i
  rw [Bool.eq_iff_iff, h'.valid, ht]
  by_cases hi : i = new / PAGE_SIZE
  · subst hi
    -- the new address is mapped by `p`, whatever was there before
    rw [Function.update_self, Nat.div_mul_cancel hnew]
    exact ⟨fun _ => rfl, fun _ => ⟨p, by simp, PartialMap.insertOrAssign_self ..⟩⟩
  · have hne : i * PAGE_SIZE ≠ new := by
      rintro rfl
      exact hi (Nat.mul_div_cancel _ (by decide)).symm
    rw [Function.update_of_ne hi]
    by_cases hio : i = old / PAGE_SIZE
    · subst hio
      -- the old one was mapped by `p` alone
      rw [Function.update_self, Nat.div_mul_cancel hold] at *
      refine ⟨?_, fun hfalse => by cases hfalse⟩
      rintro ⟨q, -, hq⟩
      rcases PartialMap.insertOrAssign_eq_some.1 hq with ⟨-, hq⟩ | ⟨hqp, hq⟩
      · exact absurd hq.symm hne
      · exact absurd (h.inj q p old hq hp) hqp
    -- any other address is mapped as before
    · rw [Function.update_of_ne hio, h.valid]
      constructor
      · rintro ⟨q, hhole, hq⟩
        rcases PartialMap.insertOrAssign_eq_some.1 hq with ⟨-, hq⟩ | ⟨-, hq⟩
        · exact absurd hq.symm hne
        · exact ⟨q, hhole, hq⟩
      · rintro ⟨q, hhole, hq⟩
        refine ⟨q, hhole, PartialMap.insertOrAssign_eq_some.2 (Or.inr ⟨?_, hq⟩)⟩
        rintro rfl
        refine hio ?_
        rw [← Option.some.inj (hq.symm.trans hp), Nat.mul_div_cancel _ (by decide)]

/-- The count of a zone after one of the bits is set. -/
theorem trueCount_set_page (f : Nat → Bool) (i : Nat) {a : Nat} (hf : f (a / PAGE_SIZE) = false) :
    trueCount (Function.update f (a / PAGE_SIZE) true) (g.pagesOf i)
      = trueCount f (g.pagesOf i) + if a / g.zoneSize = i then 1 else 0 := by
  split
  case isTrue hi => exact trueCount_set f (g.mem_pagesOf.2 hi) hf
  case isFalse hi =>
    rw [trueCount_update_of_notMem f true fun hmem => hi (g.mem_pagesOf.1 hmem), Nat.add_zero]

/-- The count of a zone before one of the bits is cleared. -/
theorem trueCount_clear_page (f : Nat → Bool) (i : Nat) {a : Nat} (hf : f (a / PAGE_SIZE) = true) :
    trueCount f (g.pagesOf i) = trueCount (Function.update f (a / PAGE_SIZE) false) (g.pagesOf i)
      + if a / g.zoneSize = i then 1 else 0 := by
  split
  case isTrue hi => exact (trueCount_clear f (g.mem_pagesOf.2 hi) hf).symm
  case isFalse hi =>
    rw [trueCount_update_of_notMem f false fun hmem => hi (g.mem_pagesOf.1 hmem), Nat.add_zero]

/-- **A page that moves is counted where it goes and no longer where it was.** -/
theorem Inv.validPage_moved (h : Inv g K s) (h' : Inv g K s') (hp : s.table p = some old)
    (ht : s'.table = s.table.insertOrAssign p new) (hfree : ∀ q, s.table q ≠ some new) (i : Nat) :
    (s'.zone i).validPage + (if old / g.zoneSize = i then 1 else 0)
      = (s.zone i).validPage + if new / g.zoneSize = i then 1 else 0 := by
  have hnew : PAGE_SIZE ∣ new := h'.book.aligned p new (by rw [ht, PartialMap.insertOrAssign_self])
  have hclear : s.metaPage (old / PAGE_SIZE) = true := h.valid_of_mapped hp
  -- the bit of the new address is clear once the old one is: no page was mapped there
  have hset : Function.update s.metaPage (old / PAGE_SIZE) false (new / PAGE_SIZE) = false := by
    by_cases heq : new / PAGE_SIZE = old / PAGE_SIZE
    · rw [heq, Function.update_self]
    · rw [Function.update_of_ne heq, ← Bool.not_eq_true]
      intro hm
      obtain ⟨q, hq⟩ := h.mapped_of_valid hnew hm
      exact hfree q hq
  have h1 := trueCount_clear_page (g := g) s.metaPage i hclear
  have h2 := trueCount_set_page (g := g) _ i hset
  rw [h.book.count, h'.book.count, h.book.metaPage_moved h'.book hp ht, h1, h2]
  push_cast
  ring

/-- **A page created is counted where it goes.** -/
theorem Inv.validPage_created (h : Inv g K s) (h' : Inv g K s') (hp : s.table p = none)
    (ht : s'.table = s.table.insertOrAssign p new) (hfree : ∀ q, s.table q ≠ some new) (i : Nat) :
    (s'.zone i).validPage = (s.zone i).validPage + if new / g.zoneSize = i then 1 else 0 := by
  have hnew : PAGE_SIZE ∣ new := h'.book.aligned p new (by rw [ht, PartialMap.insertOrAssign_self])
  have hset : s.metaPage (new / PAGE_SIZE) = false := by
    rw [← Bool.not_eq_true]
    intro hm
    obtain ⟨q, hq⟩ := h.mapped_of_valid hnew hm
    exact hfree q hq
  have hmeta : s'.metaPage = Function.update s.metaPage (new / PAGE_SIZE) true := by
    funext i
    rw [Bool.eq_iff_iff, h'.book.valid, ht]
    by_cases hi : i = new / PAGE_SIZE
    · subst hi
      rw [Function.update_self, Nat.div_mul_cancel hnew]
      exact ⟨fun _ => rfl, fun _ => ⟨p, by simp, PartialMap.insertOrAssign_self ..⟩⟩
    · rw [Function.update_of_ne hi, h.book.valid]
      refine exists_congr fun q => and_congr_right fun _ => ?_
      rw [PartialMap.insertOrAssign_eq_some]
      constructor
      · rintro (⟨-, hq⟩ | ⟨-, hq⟩)
        · exact absurd (by rw [hq, Nat.mul_div_cancel _ (by decide)]) hi
        · exact hq
      · intro hq
        refine Or.inr ⟨?_, hq⟩
        rintro rfl
        cases hp.symm.trans hq
  rw [h.book.count, h'.book.count, hmeta, trueCount_set_page _ i hset]
  push_cast
  rfl

/-- The valid pages of a zone lie between its start and its write pointer. -/
theorem Inv.validPage_le (h : Inv g K s) (i : Nat) :
    g.ofst i + (s.zone i).validPage * PAGE_SIZE ≤ (s.zone i).wp := by
  obtain ⟨k, hk⟩ := h.wp_dvd i
  obtain ⟨m, hm⟩ := g.ofst_dvd i
  have hge := h.wp_ge i
  -- in pages: the zone starts at page `m` and has been filled up to page `k`
  have hsub : (g.pagesOf i).filter (fun j => s.metaPage j = true) ⊆ Finset.Ico m k := by
    intro j hj
    obtain ⟨hmem, hbit⟩ := Finset.mem_filter.1 hj
    obtain ⟨q, -, hq⟩ := (h.book.valid j).1 hbit
    have hdiv : j * PAGE_SIZE / g.zoneSize = i := by
      rw [← g.mem_pagesOf, Nat.mul_div_cancel _ (by decide)]
      exact hmem
    have hlow := (g.ofst_le_of_div hdiv).1
    have hhigh := (h.live q _ hq).below
    rw [hdiv, hk, Nat.mul_comm] at hhigh
    rw [hm, Nat.mul_comm] at hlow
    have hpos : 0 < PAGE_SIZE := by decide
    exact Finset.mem_Ico.2 ⟨Nat.le_of_mul_le_mul_right (by rwa [Nat.mul_comm] at hlow ⊢) hpos,
      Nat.lt_of_mul_lt_mul_left hhigh⟩
  have hcard := Finset.card_le_card hsub
  rw [Nat.card_Ico] at hcard
  rw [h.book.count, trueCount, hk, hm]
  rw [hk, hm] at hge
  have hmk : m ≤ k := Nat.le_of_mul_le_mul_left hge (by decide)
  have hsum := Nat.mul_le_mul_left PAGE_SIZE (Nat.add_le_of_le_sub hmk hcard)
  rw [Nat.mul_add, Nat.add_comm, Nat.mul_comm PAGE_SIZE (Finset.card _)] at hsum
  exact_mod_cast hsum

theorem Inv.validPage_nonneg (h : Inv g K s) (i : Nat) : 0 ≤ (s.zone i).validPage := by
  rw [h.book.count]
  exact Int.natCast_nonneg _

/-- A zone a page is mapped to has a valid page. -/
theorem Inv.validPage_pos (h : Inv g K s) (hp : s.table p = some pos) :
    0 < (s.zone (pos / g.zoneSize)).validPage := by
  rw [h.book.count, Int.natCast_pos, Nat.pos_iff_ne_zero, ne_eq, trueCount_eq_zero]
  intro hnone
  have hbit := hnone (pos / PAGE_SIZE) (g.mem_pagesOf.2 rfl)
  rw [← Controller.getValid, h.valid_of_mapped hp] at hbit
  cases hbit

/-! ## One page -/

/-- **A page stowed in cluster `c`.** It goes to the write pointer of zone `y`, which is open for
the cluster and has room, or is opened because none of them has; and an open zone of the cluster
without room is finished. -/
structure Stowed (g : Geometry) (c : Int) (y : Nat) (s s' : Controller) : Prop where
  target : Chosen g c 1 y s ∨ (s.zone y).cond = .empty ∧ ∀ i < g.maxZoneNum, ¬ Chosen g c 1 i s
  zone : s'.zone y = { s.zone y with
    cond := .expOpen
    cf := c
    wp := (s.zone y).wp + PAGE_SIZE
    validPage := (s'.zone y).validPage }
  other : ∀ i, i ≠ y → s'.zone i = { s.zone i with validPage := (s'.zone i).validPage } ∨
    Cramped g c 1 i s ∧ s'.zone i = { s.zone i with
      cond := .full
      validPage := (s'.zone i).validPage }

/-- **A page moved to cluster `c`**, into zone `y`. -/
structure Moved (g : Geometry) (K : Int → Prop) (c : Int) (p : PageId) (y : Nat)
    (s s' : Controller) : Prop extends Stowed g c y s s' where
  inv : Inv g K s'
  content : s'.content = s.content
  gc : s'.gc = s.gc
  cd : s'.cd = s.cd
  table : s'.table = s.table.insertOrAssign p (s.zone y).wp

/-- A writer of one page stows it. -/
theorem Worked.stowed {cf : Int} {s₁ : Controller} (hw : Worked y 1 s₁ s')
    (hsel : selectWriteZone g cf 1 s = .ok (y, s₁)) :
    Stowed g (cf.tmod g.clusterNum) y s s' := by
  have hselected := selectWriteZone_selected hsel
  refine ⟨?_, ?_, fun i hi => ?_⟩
  · rcases hselected.target with ⟨hchosen, -⟩ | hopened
    · exact Or.inl hchosen
    · exact Or.inr ⟨hopened.cond, (selectWriteZone_opened hsel hopened.cond).unfit⟩
  · rw [hw.zone y, if_pos rfl, hselected.wp, Nat.one_mul, hselected.zone_eq y, hselected.cond,
      hselected.cf]
  · rw [hw.zone i, if_neg hi]
    rcases hselected.other i hi with hsame | hfin
    · exact Or.inl (by rw [hsame.zone])
    · exact Or.inr ⟨hfin.cramped, by rw [hfin.zone]⟩

theorem writePageGcLocked_spec (h : Inv g K s) (hz : Chosen g c 1 z s) (hp : s.content p ≠ none)
    (hid : readId b = p) :
    Yields (writePageGcLocked g z p b s) (fun _ => False) fun s' =>
      Appended g K s s' [(p, b)] := by
  rw [writePageGcLocked_eq]
  refine (appendOne_spec h hz hp hid).bind ?_
  rintro s₂ ⟨happ, -, -⟩
  exact happ.of_forget rfl happ.inv.log

/-- **`write_page_gc` of a stored page.** -/
theorem writePageGc_moved (h : Inv g K s) (cf : Int) (hK : K (cf.tmod g.clusterNum))
    (hp : s.table p = some old) (hb : s.dev.page old = some b) :
    Yields (writePageGc g 1 cf (readId b) b s)
      (fun e => e = .noZone ∧ NoRoom g (cf.tmod g.clusterNum) 1 s)
      fun s' => ∃ y, Moved g K (cf.tmod g.clusterNum) p y s s' := by
  obtain ⟨b', hcontent, hb', hid⟩ := h.content_eq_some hp
  cases hb.symm.trans hb'
  rw [hid]
  refine choose_room h hK (one_page_le_cap g) (writePageGc g 0 cf p b)
    (fun z => writePageGcLocked g z p b) fun y s₁ hsel hinv₁ hkept hchosen => ?_
  have hstored : s₁.content p ≠ none := by
    rw [hkept.content, hcontent]
    exact Option.some_ne_none b
  refine (writePageGcLocked_spec hinv₁ hchosen hstored hid).imp_ok fun s' hs' happ => ?_
  have hwrote := hkept.wrote happ.toWrote
  refine ⟨y, (writePageGcLocked_worked hs').stowed hsel, hwrote.inv, ?_, hwrote.grew.gc,
    hwrote.grew.cd, ?_⟩
  -- a page that is moved keeps its content
  · rw [hwrote.content]
    exact Function.update_eq_self_iff.2 hcontent.symm
  · rw [writePageGcLocked_table hs', hkept.table, hkept.wp]

theorem NoRoom.congr (h : NoRoom g c n s) (hz : s'.zone = s.zone) : NoRoom g c n s' := by
  intro i hi
  rw [hz, chosen_congr (congrFun hz i)]
  exact h i hi

/-- The counters make no difference to a move. -/
theorem Moved.congr (hm : Moved g K c p y s s'') (hz : s'.zone = s.zone)
    (ht : s'.table = s.table) (hd : s'.dev = s.dev) (hgc : s'.gc = s.gc) (hcd : s'.cd = s.cd) :
    Moved g K c p y s' s'' where
  inv := hm.inv
  content := by
    rw [hm.content]
    unfold Controller.content
    rw [ht, hd]
  gc := hm.gc.trans hgc.symm
  cd := hm.cd.trans hcd.symm
  table := by
    rw [hm.table, ht, hz]
  target := by
    simp only [chosen_congr (congrFun hz _), hz]
    exact hm.target
  zone := by
    rw [hz]
    exact hm.zone
  other i hi := by
    rw [hz]
    rcases hm.other i hi with h | ⟨hcramped, h⟩
    · exact Or.inl h
    · exact Or.inr ⟨(cramped_congr (congrFun hz i)).2 hcramped, h⟩

/-- **One position of a scan of zone `z`.** A page found there is moved to cluster `c`. -/
def MovesTo (g : Geometry) (K : Int → Prop) (c : Int) (s : Controller) (pos : Nat)
    (x : Except Fault Controller) : Prop :=
  Yields x (fun e => e = .noZone ∧ s.getValid pos = true ∧ NoRoom g c 1 s) fun s' =>
    s.getValid pos = false ∧ s' = s ∨
      ∃ p y, s.table p = some pos ∧ Moved g K c p y s s'

/-- The relocation of a valid position, in terms of the state before. -/
theorem relocate_moves (h : Inv g K s) (ha : PAGE_SIZE ∣ pos) (hv : s.getValid pos = true)
    {cf : Int} (hcf : cf.tmod g.clusterNum = c) (hK : K c) :
    Yields (s.pread pos >>= fun buf => writePageGc g 1 cf (readId buf) buf s)
      (fun e => e = .noZone ∧ NoRoom g c 1 s) fun s' =>
        ∃ p y, s.table p = some pos ∧ Moved g K c p y s s' := by
  obtain ⟨p, hp⟩ := h.mapped_of_valid ha hv
  obtain ⟨b, hb, -⟩ := h.held p pos hp
  have hmoved := writePageGc_moved h cf (hcf.symm ▸ hK) hp hb
  rw [hcf] at hmoved
  refine Yields.bind_ok (a := b) (by rw [pread]; simp only [hb]) ?_
  refine hmoved.imp ?_
  rintro s' ⟨y, hy⟩
  exact ⟨p, y, hp, hy⟩

theorem gcPosition_moves (h : Inv g K s) (hz : pos / g.zoneSize = z) (ha : PAGE_SIZE ∣ pos) :
    MovesTo g K (s.zone z).cf s pos (gcPosition g z s pos) := by
  rw [MovesTo, gcPosition]
  split
  case isTrue hv =>
    obtain ⟨p, hp⟩ := h.mapped_of_valid ha hv
    have hused : (s.zone z).cond ≠ .empty := hz ▸ (h.live p pos hp).used
    obtain ⟨hK, hmod⟩ := h.cluster z hused
    -- the counters come first and make no difference
    have hinv₁ : Inv g K ({ s with gcValidCount := s.gcValidCount + 1 }.addWriteCount 1) :=
      h.counters rfl rfl rfl rfl rfl
    refine (relocate_moves hinv₁ ha hv hmod hK).mono
      (fun e he => ⟨he.1, hv, he.2.congr rfl⟩) ?_
    rintro s' ⟨p, y, hp, hy⟩
    exact Or.inr ⟨p, y, hp, hy.congr rfl rfl rfl rfl rfl⟩
  case isFalse hv => exact Or.inl ⟨Bool.eq_false_iff.2 hv, rfl⟩

theorem restructPosition_moves (h : Inv g K s) (hK : K 0) (ha : PAGE_SIZE ∣ pos) :
    MovesTo g K 0 s pos (restructPosition g s pos) := by
  rw [MovesTo, restructPosition]
  split
  case isTrue hv =>
    have hinv₁ : Inv g K (s.addWriteCount 1) := h.counters rfl rfl rfl rfl rfl
    refine (relocate_moves hinv₁ ha hv (Int.zero_tmod _) hK).mono
      (fun e he => ⟨he.1, hv, he.2.congr rfl⟩) ?_
    rintro s' ⟨p, y, hp, hy⟩
    exact Or.inr ⟨p, y, hp, hy.congr rfl rfl rfl rfl rfl⟩
  case isFalse hv => exact Or.inl ⟨Bool.eq_false_iff.2 hv, rfl⟩

/-! ## What becomes of the zones -/

theorem Stowed.wp_self (hm : Stowed g c y s s') : (s'.zone y).wp = (s.zone y).wp + PAGE_SIZE := by
  rw [hm.zone]

theorem Stowed.wp_other (hm : Stowed g c y s s') (hi : i ≠ y) :
    (s'.zone i).wp = (s.zone i).wp := by
  rcases hm.other i hi with h | ⟨-, h⟩
  · rw [h]
  · rw [h]

/-- No page goes to a zone that is full. -/
theorem Stowed.ne_of_full (hm : Stowed g c y s s') (hz : (s.zone z).cond = .full) : z ≠ y := by
  rintro rfl
  rcases hm.target with hchosen | ⟨hempty, -⟩
  · cases hz.symm.trans hchosen.cond
  · cases hz.symm.trans hempty

/-- A zone that is full stays as it is, but for its valid pages. -/
theorem Stowed.zone_of_full (hm : Stowed g c y s s') (hz : (s.zone z).cond = .full) :
    s'.zone z = { s.zone z with validPage := (s'.zone z).validPage } := by
  refine (hm.other z (hm.ne_of_full hz)).resolve_right ?_
  rintro ⟨hcramped, -⟩
  cases hz.symm.trans hcramped.cond

/-- Only the zone the page goes to ceases to be empty. -/
theorem Stowed.empty_other (hm : Stowed g c y s s') (hi : i ≠ y)
    (hempty : (s.zone i).cond = .empty) : (s'.zone i).cond = .empty := by
  rcases hm.other i hi with h | ⟨hcramped, -⟩
  · rw [h]
    exact hempty
  · cases hempty.symm.trans hcramped.cond

/-- The page leaves zone `z` for zone `y`. -/
theorem Moved.validPage (hm : Moved g K c p y s s') (h : Inv g K s) (hp : s.table p = some pos)
    (i : Nat) : (s'.zone i).validPage + (if pos / g.zoneSize = i then 1 else 0)
      = (s.zone i).validPage + if y = i then 1 else 0 := by
  have hvalid := h.validPage_moved hm.inv hp hm.table (h.wp_free y) i
  rwa [h.wp_div] at hvalid

/-- The bytes of a zone up to its write pointer that hold no valid page. -/
def waste (g : Geometry) (s : Controller) (i : Nat) : Int :=
  (s.zone i).wp - g.ofst i - (s.zone i).validPage * PAGE_SIZE

/-- No further page fits in zone `i`. -/
def Tight (g : Geometry) (s : Controller) (i : Nat) : Prop :=
  g.ofst i + g.cap < (s.zone i).wp + PAGE_SIZE

/-- What stowing pages that come from elsewhere does to zone `i`. -/
structure Drift (g : Geometry) (s s' : Controller) (i : Nat) : Prop where
  rates : (s'.zone i).rates = (s.zone i).rates
  inGc : (s'.zone i).inGc = (s.zone i).inGc
  waste : s'.waste g i = s.waste g i
  full : (s.zone i).cond = .full → s'.zone i = s.zone i
  tight : (s'.zone i).cond = .full → (s.zone i).cond = .full ∨ s'.Tight g i
  used : (s.zone i).cond ≠ .empty → (s'.zone i).cond ≠ .empty

theorem Drift.refl (g : Geometry) (s : Controller) (i : Nat) : Drift g s s i :=
  ⟨rfl, rfl, rfl, fun _ => rfl, Or.inl, fun h => h⟩

theorem Drift.trans (h : Drift g s s' i) (h' : Drift g s' s'' i) : Drift g s s'' i where
  rates := h'.rates.trans h.rates
  inGc := h'.inGc.trans h.inGc
  waste := h'.waste.trans h.waste
  full hi := by
    have hs := h.full hi
    rw [h'.full (by rw [hs]; exact hi), hs]
  tight hi := by
    rcases h'.tight hi with hfull | htight
    · rcases h.tight hfull with hfull₀ | htight
      · exact Or.inl hfull₀
      -- a zone found full on the way keeps its write pointer
      · right
        rw [Tight, h'.full hfull]
        exact htight
    · exact Or.inr htight
  used hi := h'.used (h.used hi)

theorem Stowed.drift (hm : Stowed g c y s s')
    (hvalid : (s'.zone i).validPage = (s.zone i).validPage + if y = i then 1 else 0) :
    Drift g s s' i := by
  by_cases hy : y = i
  · subst hy
    rw [if_pos rfl] at hvalid
    refine ⟨by rw [hm.zone], by rw [hm.zone], ?_, fun hfull => ?_, fun hfull => ?_, fun _ => ?_⟩
    -- the zone of the page: the write pointer and the valid pages grow together
    · rw [Controller.waste, hm.wp_self, hvalid, Controller.waste]
      push_cast
      ring
    · exact absurd rfl (hm.ne_of_full hfull)
    · rw [hm.zone] at hfull
      cases hfull
    · rw [hm.zone]
      simp
  · have hwp := hm.wp_other (Ne.symm hy)
    rw [if_neg hy, Int.add_zero] at hvalid
    have hwaste : s'.waste g i = s.waste g i := by
      rw [Controller.waste, hwp, hvalid, Controller.waste]
    rcases hm.other i (Ne.symm hy) with heq | ⟨hcramped, heq⟩
    · rw [hvalid] at heq
      have hsame : s'.zone i = s.zone i := heq
      exact ⟨by rw [hsame], by rw [hsame], hwaste, fun _ => hsame,
        fun hfull => Or.inl (hsame ▸ hfull), fun hused => hsame.symm ▸ hused⟩
    · refine ⟨by rw [heq], by rw [heq], hwaste, fun hfull => ?_, fun _ => Or.inr ?_, fun _ => ?_⟩
      · cases hfull.symm.trans hcramped.cond
      -- a zone finished on the way had no room for another page
      · rw [Tight, hwp]
        simpa only [Nat.one_mul] using hcramped.exceeds
      · rw [heq]
        simp

theorem Moved.drift (hm : Moved g K c p y s s') (h : Inv g K s) (hp : s.table p = some pos)
    (hi : i ≠ pos / g.zoneSize) : Drift g s s' i := by
  have hvalid := hm.validPage h hp i
  rw [if_neg (Ne.symm hi), Int.add_zero] at hvalid
  exact hm.toStowed.drift hvalid

/-! ## At most one zone is opened -/

/-- Zone `y` is open for cluster `c` and has room for what is left in zone `z`. -/
def Roomy (g : Geometry) (c : Int) (z y : Nat) (s : Controller) : Prop :=
  Chosen g c (s.zone z).validPage.toNat y s

/-- While zone `z` is scanned no zone has been opened, or one that is roomy. -/
def Spent (g : Geometry) (c : Int) (z : Nat) (s s' : Controller) : Prop :=
  (∀ i, (s.zone i).cond = .empty → (s'.zone i).cond = .empty) ∨
    ∃ y, Roomy g c z y s' ∧ ∀ i, i ≠ y → (s.zone i).cond = .empty → (s'.zone i).cond = .empty

/-- A roomy zone has room for a page while there is a page left. -/
theorem Roomy.chosen (hr : Roomy g c z y s) (hleft : 0 < (s.zone z).validPage) :
    Chosen g c 1 y s := by
  refine ⟨hr.cond, hr.cf, le_trans (Nat.add_le_add_left (Nat.mul_le_mul_right _ ?_) _) hr.room⟩
  omega

/-- One page less is left in the zone scanned. -/
theorem Moved.left (hm : Moved g K c p y s s') (h : Inv g K s) (hp : s.table p = some pos)
    (hz : pos / g.zoneSize = z) (hfull : (s.zone z).cond = .full) :
    (s'.zone z).validPage + 1 = (s.zone z).validPage := by
  have hvalid := hm.validPage h hp z
  rwa [if_pos hz, if_neg (Ne.symm (hm.ne_of_full hfull)), Int.add_zero] at hvalid

/-- The page goes to a zone that was roomy, if there is one, and it stays so. -/
theorem Moved.roomy {y₀ : Nat} (hm : Moved g K c p y s s') (h : Inv g K s)
    (hp : s.table p = some pos) (hz : pos / g.zoneSize = z) (hfull : (s.zone z).cond = .full)
    (hr : Roomy g c z y₀ s) : y = y₀ ∧ Roomy g c z y₀ s' := by
  have hleft := hm.left h hp hz hfull
  have hnonneg := hm.inv.validPage_nonneg z
  have hchosen := hr.chosen (by omega)
  -- the cluster has one open zone, and a second is opened only where that has no room
  have hy : y = y₀ := by
    rcases hm.target with hc | ⟨-, hnone⟩
    · exact h.one_open y y₀ hc.cond hchosen.cond (hc.cf.trans hchosen.cf.symm)
    · exact absurd hchosen (hnone y₀ (h.lt y₀ (by simp [hchosen.cond])))
  subst hy
  refine ⟨rfl, by rw [hm.zone], by rw [hm.zone], ?_⟩
  have hroom := hr.room
  have hsum : (s.zone z).validPage.toNat = (s'.zone z).validPage.toNat + 1 := by omega
  rw [hsum, Nat.add_mul, Nat.one_mul] at hroom
  rw [hm.wp_self]
  omega

/-- A zone that is opened for a page is roomy. -/
theorem Moved.opened (hm : Moved g K c p y s s') (h : Inv g K s) (hp : s.table p = some pos)
    (hz : pos / g.zoneSize = z) (hfull : (s.zone z).cond = .full)
    (hempty : (s.zone y).cond = .empty) : Roomy g c z y s' := by
  have hleft := hm.left h hp hz hfull
  have hnonneg := hm.inv.validPage_nonneg z
  refine ⟨by rw [hm.zone], by rw [hm.zone], ?_⟩
  -- what is left in a full zone fits in an empty one
  have hcap : (s.zone z).validPage.toNat * PAGE_SIZE ≤ g.cap := by
    have h1 := h.validPage_le z
    have h2 := h.wp_le z
    rw [← Int.toNat_of_nonneg (h.validPage_nonneg z)] at h1
    omega
  have hsum : (s.zone z).validPage.toNat = (s'.zone z).validPage.toNat + 1 := by omega
  rw [hsum, Nat.add_mul, Nat.one_mul] at hcap
  rw [hm.wp_self, (h.empty y hempty).2.1]
  omega

theorem Moved.spent (hm : Moved g K c p y s s') (h : Inv g K s) (hp : s.table p = some pos)
    (hz : pos / g.zoneSize = z) (hfull : (s.zone z).cond = .full) (hs : Spent g c z s₀ s) :
    Spent g c z s₀ s' := by
  rcases hs with hall | ⟨y₀, hr, hrest⟩
  · by_cases hempty : (s.zone y).cond = .empty
    · exact Or.inr ⟨y, hm.opened h hp hz hfull hempty,
        fun i hi hi₀ => hm.empty_other hi (hall i hi₀)⟩
    · refine Or.inl fun i hi₀ => hm.empty_other ?_ (hall i hi₀)
      rintro rfl
      exact hempty (hall i hi₀)
  · obtain ⟨rfl, hr'⟩ := hm.roomy h hp hz hfull hr
    exact Or.inr ⟨y, hr', fun i hi hi₀ => hm.empty_other hi (hrest i hi hi₀)⟩

end Controller

end ZoneBuffer
