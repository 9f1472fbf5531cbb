import ZoneBuffer.Zone.Writers

set_option autoImplicit false

/-! # Relocation

`garbage_collection` and `cold_data_restruct` scan a zone, move every valid page to another
address and recycle the zone. The scan reads the table through the bitmap while it changes
both. Its invariant (`Scanned`) is that no page is mapped below the position reached: a page
found there is moved to a fresh address, which lies in another zone or above the write pointer.
At the end the zone holds no mapped page and recycling it loses nothing.

The detectors start these two calls on zones they choose; their specifications say that they
leave every content as it is. -/

namespace ZoneBuffer

open Outcome

namespace Controller

variable {g : Geometry} {K : Int → Prop} {s s' : Controller} {z : Nat}

/-! ## The positions of a scan -/

theorem scanPositions_split {done todo : List Nat} {pos : Nat}
    (h : scanPositions g z = done ++ pos :: todo) :
    pos = g.ofst z + done.length * PAGE_SIZE ∧ done.length * PAGE_SIZE < g.cap := by
  have hget : (scanPositions g z)[done.length]? = some pos := by
    rw [h, List.getElem?_append_right (le_refl _), Nat.sub_self]
    rfl
  rw [scanPositions, List.getElem?_map, Option.map_eq_some_iff] at hget
  obtain ⟨i, hi, rfl⟩ := hget
  obtain ⟨hlt, rfl⟩ := List.getElem?_eq_some_iff.1 hi
  rw [List.length_range] at hlt
  rw [List.getElem_range]
  refine ⟨rfl, ?_⟩
  have hle := (Nat.le_div_iff_mul_le (show 0 < PAGE_SIZE by decide)).1 (Nat.succ_le_of_lt hlt)
  have hpos : 0 < PAGE_SIZE := by decide
  rw [Nat.succ_mul] at hle
  omega

theorem cap_le_scan (g : Geometry) (z : Nat) :
    g.cap ≤ (scanPositions g z).length * PAGE_SIZE := by
  rw [scanPositions, List.length_map, List.length_range]
  have h := Nat.div_add_mod (g.cap + (PAGE_SIZE - 1)) PAGE_SIZE
  have hmod := Nat.mod_lt (g.cap + (PAGE_SIZE - 1)) (show 0 < PAGE_SIZE by decide)
  rw [Nat.mul_comm]
  omega

theorem mem_scanPositions {pos : Nat} (h : pos ∈ scanPositions g z) :
    pos / g.zoneSize = z ∧ PAGE_SIZE ∣ pos := by
  obtain ⟨done, todo, hsplit⟩ := List.append_of_mem h
  obtain ⟨rfl, hlt⟩ := scanPositions_split hsplit
  have := g.cap_lt
  exact ⟨g.div_zoneSize (by omega) (by omega), Nat.dvd_add (g.ofst_dvd z) (Nat.dvd_mul_left _ _)⟩

/-! ## The scan -/

/-- No page is mapped to zone `z` below byte `a`. -/
def VacatedTo (g : Geometry) (s : Controller) (z a : Nat) : Prop :=
  ∀ p b, s.table p = some b → b / g.zoneSize = z → a ≤ b

/-- What the scan of zone `z`, begun in state `s`, keeps. -/
structure Scanned (g : Geometry) (K : Int → Prop) (s s' : Controller) (z a : Nat) : Prop where
  inv : Inv g K s'
  content : s'.content = s.content
  vacated : s'.VacatedTo g z a
  gc : s'.gc = s.gc
  cd : s'.cd = s.cd

/-- A bit is set for a mapped page only. -/
theorem Inv.mapped_of_valid (h : Inv g K s) {pos : Nat} (ha : PAGE_SIZE ∣ pos)
    (hv : s.getValid pos = true) : ∃ p, s.table p = some pos := by
  obtain ⟨p, -, hp⟩ := (h.book.valid _).1 hv
  rw [Nat.div_mul_cancel ha] at hp
  exact ⟨p, hp⟩

theorem Inv.valid_of_mapped (h : Inv g K s) {p : PageId} {a : Nat} (hp : s.table p = some a) :
    s.getValid a = true := (h.book.metaPage_eq hp).2 (by simp)

/-- Two page addresses of which the first is smaller are a page apart. -/
theorem add_page_le {a b : Nat} (ha : PAGE_SIZE ∣ a) (hb : PAGE_SIZE ∣ b) (h : a < b) :
    a + PAGE_SIZE ≤ b := by
  obtain ⟨i, rfl⟩ := ha
  obtain ⟨j, rfl⟩ := hb
  have hij : i < j := Nat.lt_of_mul_lt_mul_left h
  have := Nat.mul_le_mul_left PAGE_SIZE (Nat.succ_le_of_lt hij)
  rwa [Nat.mul_succ] at this

/-- **One page moved.** Nothing is mapped to its old position afterwards. -/
theorem move_spec (h : Inv g K s) {p : PageId} {pos : Nat} {b : Page} (cf : Int)
    (hK : K (cf.tmod g.clusterNum)) (hp : s.table p = some pos) (hb : s.dev.page pos = some b)
    (hvac : s.VacatedTo g z pos) (hz : pos / g.zoneSize = z) :
    Yields (writePageGc g 1 cf (readId b) b s) (· = .noZone) fun s' =>
      Scanned g K s s' z (pos + PAGE_SIZE) := by
  obtain ⟨b', hcontent, hb', hid⟩ := h.content_eq_some hp
  -- the bytes at `pos` are what the page holds, and their id is the page's
  cases hb.symm.trans hb'
  have hbelow : pos < (s.zone z).wp := hz ▸ (h.live p pos hp).below
  rw [hid]
  refine (writePageGc_spec h 0 cf hK (by simp [hcontent]) hid).imp ?_
  rintro s' ⟨hwrote, hfresh⟩
  have hsame : s'.content = s.content := by
    rw [hwrote.content]
    exact Function.update_eq_self_iff.2 hcontent.symm
  refine ⟨hwrote.inv, hsame, ?_, hwrote.grew.gc, hwrote.grew.cd⟩
  intro q a hq ha
  refine add_page_le (h.book.aligned p pos hp) (hwrote.inv.book.aligned q a hq) ?_
  -- the new copy is past the write pointer of its zone, hence past `pos`
  have habove : s.Fresh g a → pos < a := fun hf => by
    have := hf.above
    rw [ha] at this
    omega
  rcases hwrote.grew.table q a hq with hold | hnew
  · refine lt_of_le_of_ne (hvac q a hold ha) ?_
    rintro rfl
    obtain rfl : q = p := h.book.inj q p _ hold hp
    exact absurd (habove (hfresh _ hq)) (lt_irrefl _)
  · exact habove hnew

/-- A position that is not valid is vacated already. -/
theorem vacated_of_not_valid (h : Inv g K s) {pos : Nat} (ha : PAGE_SIZE ∣ pos)
    (hvac : s.VacatedTo g z pos) (hv : s.getValid pos ≠ true) :
    s.VacatedTo g z (pos + PAGE_SIZE) := by
  intro q a hq haz
  refine add_page_le ha (h.book.aligned q a hq) (lt_of_le_of_ne (hvac q a hq haz) ?_)
  rintro rfl
  exact hv (h.valid_of_mapped hq)

/-- **A scan whose steps keep `Scanned` vacates its zone.** -/
theorem scan_spec {f : Controller → Nat → Except Fault Controller} (h : Inv g K s)
    (hstep : ∀ (s' : Controller) (pos : Nat), Scanned g K s s' z pos →
      pos / g.zoneSize = z → PAGE_SIZE ∣ pos →
      Yields (f s' pos) (· = .noZone) fun s'' => Scanned g K s s'' z (pos + PAGE_SIZE)) :
    Yields ((scanPositions g z).foldlM f s) (· = .noZone) fun s' =>
      Scanned g K s s' z (g.ofst z + g.cap) := by
  have h0 : s.VacatedTo g z (g.ofst z + 0 * PAGE_SIZE) := by
    intro p a _ ha
    have := (g.ofst_le_of_div ha).1
    omega
  refine (Yields.foldlM_upto (fun done s' =>
    Scanned g K s s' z (g.ofst z + done.length * PAGE_SIZE)) _ s ⟨h, rfl, h0, rfl, rfl⟩ ?_).imp ?_
  · intro done pos todo s' hsplit hs'
    obtain ⟨hpos, -⟩ := scanPositions_split hsplit
    have hmem : pos ∈ scanPositions g z := by rw [hsplit]; simp
    obtain ⟨hz, ha⟩ := mem_scanPositions hmem
    rw [← hpos] at hs'
    refine (hstep s' pos hs' hz ha).imp fun s'' hs'' => ?_
    rw [hpos, Nat.add_assoc, ← Nat.succ_mul] at hs''
    rwa [List.length_append]
  · rintro s' ⟨hinv, hcontent, hvac, hgc, hcd⟩
    refine ⟨hinv, hcontent, fun p a hp ha => le_trans ?_ (hvac p a hp ha), hgc, hcd⟩
    exact Nat.add_le_add_left (cap_le_scan g z) _

/-- The relocation of a valid position, under the cluster `cf`. -/
theorem Scanned.relocate {pos : Nat} (hs : Scanned g K s s' z pos) (hz : pos / g.zoneSize = z)
    (ha : PAGE_SIZE ∣ pos) (hv : s'.getValid pos = true) (cf : Int)
    (hK : K (cf.tmod g.clusterNum)) :
    Yields (s'.pread pos >>= fun buf => writePageGc g 1 cf (readId buf) buf s') (· = .noZone)
      fun s'' => Scanned g K s s'' z (pos + PAGE_SIZE) := by
  obtain ⟨hinv, hcontent, hvac, hgc, hcd⟩ := hs
  -- a valid bit belongs to a page, and the device holds what the table points to
  obtain ⟨p, hp⟩ := hinv.mapped_of_valid ha hv
  obtain ⟨b, hb, -⟩ := hinv.held p pos hp
  refine Yields.bind_ok (a := b) (by rw [pread]; simp only [hb]) ?_
  refine (move_spec hinv cf hK hp hb hvac hz).imp fun s'' hs'' => ?_
  exact ⟨hs''.inv, hs''.content.trans hcontent, hs''.vacated, hs''.gc.trans hgc,
    hs''.cd.trans hcd⟩

theorem Scanned.skip {pos : Nat} (hs : Scanned g K s s' z pos) (ha : PAGE_SIZE ∣ pos)
    (hv : s'.getValid pos ≠ true) : Scanned g K s s' z (pos + PAGE_SIZE) :=
  ⟨hs.inv, hs.content, vacated_of_not_valid hs.inv ha hs.vacated hv, hs.gc, hs.cd⟩

theorem gcPosition_spec {pos : Nat} (hs : Scanned g K s s' z pos) (hz : pos / g.zoneSize = z)
    (ha : PAGE_SIZE ∣ pos) :
    Yields (gcPosition g z s' pos) (· = .noZone) fun s'' =>
      Scanned g K s s'' z (pos + PAGE_SIZE) := by
  rw [gcPosition]
  split
  case isTrue hv =>
    obtain ⟨p, hp⟩ := hs.inv.mapped_of_valid ha hv
    have hused : (s'.zone z).cond ≠ .empty := hz ▸ (hs.inv.live p pos hp).used
    obtain ⟨hK, hmod⟩ := hs.inv.cluster z hused
    -- the two counters come first
    have hs₁ : Scanned g K s ({ s' with gcValidCount := s'.gcValidCount + 1 }.addWriteCount 1) z
        pos := ⟨hs.inv.counters rfl rfl rfl rfl rfl, hs.content, hs.vacated, hs.gc, hs.cd⟩
    exact hs₁.relocate hz ha hv (s'.zone z).cf (hmod.symm ▸ hK)
  case isFalse hv => exact hs.skip ha hv

theorem restructPosition_spec (hK : K 0) {pos : Nat} (hs : Scanned g K s s' z pos)
    (hz : pos / g.zoneSize = z) (ha : PAGE_SIZE ∣ pos) :
    Yields (restructPosition g s' pos) (· = .noZone) fun s'' =>
      Scanned g K s s'' z (pos + PAGE_SIZE) := by
  rw [restructPosition]
  split
  case isTrue hv =>
    have hzero : (0 : Int).tmod g.clusterNum = 0 := Int.zero_tmod _
    have hs₁ : Scanned g K s (s'.addWriteCount 1) z pos :=
      ⟨hs.inv.counters rfl rfl rfl rfl rfl, hs.content, hs.vacated, hs.gc, hs.cd⟩
    exact hs₁.relocate hz ha hv 0 (hzero.symm ▸ hK)
  case isFalse hv => exact hs.skip ha hv

/-! ## Recycling a zone -/

/-- The state `recycleZone` leaves when the bits of the zone are clear. -/
def recycled (g : Geometry) (z : Nat) (s : Controller) : Controller :=
  (((s.resetZone g z).modifyZone z fun d => { d with cond := .empty, cf := -1, wp := g.ofst z })
    ).modifyZone z fun d => { d with rates := { d.rates with idle := 0, gc := 0 } }

theorem recycleZone_eq (hclear : ∀ pos ∈ scanPositions g z, s.getValid pos = false) :
    recycleZone g z s = .ok (recycled g z s) := by
  set s₁ := (s.resetZone g z).modifyZone z
    fun d => { d with cond := .empty, cf := -1, wp := g.ofst z } with hs₁
  -- the loop that clears the bits finds none that is set
  have hloop : Yields ((scanPositions g z).foldlM
      (fun s pos => if s.getValid pos then s.setValid g pos false else .ok s) s₁)
      (fun _ => False) (· = s₁) := by
    refine Yields.foldlM (· = s₁) _ s₁ rfl ?_
    rintro pos hpos _ rfl
    rw [if_neg]
    · rfl
    · rw [Bool.not_eq_true]
      exact hclear pos hpos
  obtain ⟨_, hok, rfl⟩ := hloop.exists_ok
  rw [recycleZone, ← hs₁]
  simp only [hok, ok_bind]
  rfl

theorem recycled_zone (s : Controller) (z i : Nat) :
    (recycled g z s).zone i = if i = z then
      { s.zone z with
        cond := .empty
        cf := -1
        wp := g.ofst z
        rates := { (s.zone z).rates with idle := 0, gc := 0 } }
      else s.zone i := by
  rw [recycled, modifyZone_zone, modifyZone_zone, modifyZone_zone, if_pos rfl]
  split
  · rfl
  · rfl

theorem recycled_page (s : Controller) (z a : Nat) :
    (recycled g z s).dev.page a = if a / g.zoneSize = z then none else s.dev.page a := rfl

theorem recycled_dev (s : Controller) (z i : Nat) :
    (recycled g z s).dev.zone i = if i = z then ⟨.empty, g.ofst z⟩ else s.dev.zone i :=
  Function.update_apply ..

/-- No page is mapped into zone `z`. -/
def Vacant (g : Geometry) (s : Controller) (z : Nat) : Prop :=
  ∀ p a, s.table p = some a → a / g.zoneSize ≠ z

theorem Inv.vacant (h : Inv g K s) (hvac : s.VacatedTo g z (g.ofst z + g.cap)) : s.Vacant g z := by
  intro p a hp ha
  have h1 := (h.live p a hp).below
  have h2 := h.wp_le z
  have h3 := hvac p a hp ha
  rw [ha] at h1
  omega

theorem Inv.clear_of_vacant (h : Inv g K s) (hvac : s.Vacant g z) :
    ∀ pos ∈ scanPositions g z, s.getValid pos = false := by
  intro pos hpos
  obtain ⟨hz, ha⟩ := mem_scanPositions hpos
  rw [← Bool.not_eq_true]
  intro hv
  obtain ⟨p, hp⟩ := h.mapped_of_valid ha hv
  exact hvac p pos hp hz

/-- **Recycling a vacant zone keeps the invariant and every content.** -/
theorem Inv.recycled (h : Inv g K s) (hvac : s.Vacant g z) :
    Inv g K (recycled g z s) ∧ (Controller.recycled g z s).content = s.content := by
  have hz := recycled_zone (g := g) s z
  have hother : ∀ i, i ≠ z → (Controller.recycled g z s).zone i = s.zone i := by
    intro i hi
    rw [hz, if_neg hi]
  have hvalid : ∀ i, ((Controller.recycled g z s).zone i).validPage = (s.zone i).validPage := by
    intro i
    rw [hz]
    split <;> simp_all
  have hused : ∀ i, ((Controller.recycled g z s).zone i).cond ≠ .empty → i ≠ z := by
    rintro i hi rfl
    rw [hz, if_pos rfl] at hi
    exact hi rfl
  have hpage : ∀ p a, s.table p = some a →
      (Controller.recycled g z s).dev.page a = s.dev.page a := by
    intro p a hp
    rw [recycled_page, if_neg (hvac p a hp)]
  constructor
  · exact {
      book := ⟨h.book.inj, h.book.aligned, h.book.valid, fun i => by
        rw [hvalid]
        exact h.book.count i⟩
      live := fun p a hp => by
        have hlive := h.live p a hp
        have hne := hvac p a hp
        exact ⟨by rw [hother _ hne]; exact hlive.below, by rw [hother _ hne]; exact hlive.used⟩
      held := fun p a hp => by
        rw [hpage p a hp]
        exact h.held p a hp
      wp_dvd := fun i => by
        rw [hz]
        split
        · exact g.ofst_dvd z
        · exact h.wp_dvd i
      wp_ge := fun i => by
        rw [hz]
        split
        case isTrue hi => rw [hi]
        case isFalse => exact h.wp_ge i
      wp_le := fun i => by
        rw [hz]
        split
        case isTrue hi => rw [hi]; exact Nat.le_add_right _ _
        case isFalse => exact h.wp_le i
      empty := fun i hi => by
        by_cases hiz : i = z
        · rw [hiz, hz, if_pos rfl, recycled_dev, if_pos rfl]
          exact ⟨rfl, rfl, rfl⟩
        · rw [hother i hiz] at hi ⊢
          rw [recycled_dev, if_neg hiz]
          exact h.empty i hi
      lt := fun i hi => by
        have hiz := hused i hi
        rw [hother i hiz] at hi
        exact h.lt i hi
      cluster := fun i hi => by
        have hiz := hused i hi
        rw [hother i hiz] at hi ⊢
        exact h.cluster i hi
      one_open := fun i j hi hj hij => by
        have hiz := hused i (by simp [hi])
        have hjz := hused j (by simp [hj])
        rw [hother i hiz] at hi hij
        rw [hother j hjz] at hj hij
        exact h.one_open i j hi hj hij
      sync := fun i hi => by
        have hiz := hused i (by simp [hi])
        rw [hother i hiz] at hi ⊢
        rw [recycled_dev, if_neg hiz]
        exact h.sync i hi
      full := fun i hi => by
        have hiz := hused i (by simp [hi])
        rw [hother i hiz] at hi
        rw [recycled_dev, if_neg hiz]
        exact h.full i hi
      log := h.log }
  · funext p
    unfold content
    show (s.table p).bind _ = _
    cases hp : s.table p with
    | none => rfl
    | some a => exact hpage p a hp

/-- **A scan followed by the recycling of the zone.** -/
theorem recycle_spec {f : Controller → Nat → Except Fault Controller}
    (h : Yields ((scanPositions g z).foldlM f s) (· = .noZone) fun s' =>
      Scanned g K s s' z (g.ofst z + g.cap)) :
    Yields ((scanPositions g z).foldlM f s >>= recycleZone g z) (· = .noZone) fun s' =>
      Inv g K s' ∧ s'.content = s.content ∧ s'.gc = s.gc ∧ s'.cd = s.cd := by
  refine h.bind ?_
  rintro s' ⟨hinv, hcontent, hvac, hgc, hcd⟩
  have hvacant := hinv.vacant hvac
  rw [recycleZone_eq (hinv.clear_of_vacant hvacant)]
  obtain ⟨hinv', hcontent'⟩ := hinv.recycled hvacant
  exact ⟨hinv', hcontent'.trans hcontent, hgc, hcd⟩

/-! ## The calls -/

theorem getGcInfo_zone (s : Controller) (i : Nat) : (s.getGcInfo g).zone i
    = { s.zone i with rates := ((s.getGcInfo g).zone i).rates } := by
  simp only [getGcInfo]
  split
  · rfl
  · rfl

theorem getGcInfo_wp (s : Controller) (i : Nat) :
    ((s.getGcInfo g).zone i).wp = (s.zone i).wp ∧ ((s.getGcInfo g).zone i).cond = (s.zone i).cond ∧
      ((s.getGcInfo g).zone i).cf = (s.zone i).cf ∧
      ((s.getGcInfo g).zone i).validPage = (s.zone i).validPage := by
  rw [getGcInfo_zone]
  exact ⟨rfl, rfl, rfl, rfl⟩

theorem getGcInfo_inGc (s : Controller) (i : Nat) :
    ((s.getGcInfo g).zone i).inGc = (s.zone i).inGc := by rw [getGcInfo_zone]

theorem Inv.getGcInfo (h : Inv g K s) : Inv g K (s.getGcInfo g) :=
  h.congr (fun i => (getGcInfo_wp s i).1) (fun i => (getGcInfo_wp s i).2.1)
    (fun i => (getGcInfo_wp s i).2.2.1) (fun i => (getGcInfo_wp s i).2.2.2) rfl rfl rfl h.log

/-- Changing the flag or the rates of a zone. -/
theorem Inv.modifyZone (h : Inv g K s) (i : Nat) (f : ZoneDesc → ZoneDesc)
    (hf : ∀ d, (f d).wp = d.wp ∧ (f d).cond = d.cond ∧ (f d).cf = d.cf ∧
      (f d).validPage = d.validPage) : Inv g K (s.modifyZone i f) := by
  refine h.congr ?_ ?_ ?_ ?_ rfl rfl rfl h.log
  · exact modifyZone_field (·.wp) (fun d => (hf d).1) s i
  · exact modifyZone_field (·.cond) (fun d => (hf d).2.1) s i
  · exact modifyZone_field (·.cf) (fun d => (hf d).2.2.1) s i
  · exact modifyZone_field (·.validPage) (fun d => (hf d).2.2.2) s i

/-- **`garbage_collection`.** -/
theorem garbageCollection_spec (h : Inv g K s) (z : Nat) :
    Yields (garbageCollection g z s) (· = .noZone) fun s' =>
      Inv g K s' ∧ s'.content = s.content ∧ s'.gc = false ∧ s'.cd = s.cd := by
  set s₁ : Controller := { s with gc := true, gcCount := s.gcCount + 1 }
  have hinv₁ : Inv g K s₁ := h.counters rfl rfl rfl rfl rfl
  have hscan := scan_spec (z := z) (f := gcPosition g z) hinv₁.getGcInfo
    fun s' pos hs hz ha => gcPosition_spec hs hz ha
  have heq : garbageCollection g z s
      = ((scanPositions g z).foldlM (gcPosition g z) (s₁.getGcInfo g) >>= recycleZone g z) >>=
        fun s => .ok { s.modifyZone z (fun d => { d with inGc := false }) with gc := false } := by
    rw [garbageCollection]
    cases (scanPositions g z).foldlM (gcPosition g z) (s₁.getGcInfo g) with
    | error e => rfl
    | ok s' => rfl
  rw [heq]
  refine (recycle_spec hscan).bind ?_
  rintro s' ⟨hinv, hcontent, hgc, hcd⟩
  refine ⟨?_, hcontent, rfl, hcd⟩
  exact (hinv.modifyZone z (fun d => { d with inGc := false })
    fun _ => ⟨rfl, rfl, rfl, rfl⟩).counters rfl rfl rfl rfl rfl

theorem restructZone_spec (h : Inv g K s) (hK : K 0) (z : Nat) :
    Yields (restructZone g s z) (· = .noZone) fun s' =>
      Inv g K s' ∧ s'.content = s.content ∧ s'.gc = s.gc ∧ s'.cd = s.cd :=
  recycle_spec (scan_spec h fun _ _ hs hz ha => restructPosition_spec hK hs hz ha)

/-- **`cold_data_restruct`.** -/
theorem coldDataRestruct_spec (h : Inv g K s) (hK : K 0) (restruct : List Nat) :
    Yields (coldDataRestruct g restruct s) (· = .noZone) fun s' =>
      Inv g K s' ∧ s'.content = s.content ∧ s'.gc = s.gc ∧ s'.cd = false := by
  set s₁ : Controller := { s with cd := true, cdCount := s.cdCount + 1 }
  have hinv₁ : Inv g K s₁ := h.counters rfl rfl rfl rfl rfl
  have hloop : Yields (restruct.foldlM (restructZone g) s₁) (· = .noZone) fun s' =>
      Inv g K s' ∧ s'.content = s₁.content ∧ s'.gc = s₁.gc := by
    refine Yields.foldlM (fun s' => Inv g K s' ∧ s'.content = s₁.content ∧ s'.gc = s₁.gc)
      _ s₁ ⟨hinv₁, rfl, rfl⟩ ?_
    rintro z - s' ⟨hinv, hcontent, hgc⟩
    refine (restructZone_spec hinv hK z).imp ?_
    rintro s'' ⟨hinv', hcontent', hgc', -⟩
    exact ⟨hinv', hcontent'.trans hcontent, hgc'.trans hgc⟩
  rw [coldDataRestruct]
  refine hloop.bind ?_
  rintro s' ⟨hinv, hcontent, hgc⟩
  exact ⟨hinv.counters rfl rfl rfl rfl rfl, hcontent, hgc, rfl⟩

/-! ## The detectors -/

/-- No relocation is running. -/
structure Idle (s : Controller) : Prop where
  gc : s.gc = false
  cd : s.cd = false

/-- What a detector, with all it starts, keeps. -/
structure Tended (g : Geometry) (K : Int → Prop) (s s' : Controller) : Prop where
  inv : Inv g K s'
  content : s'.content = s.content
  idle : s'.Idle

theorem detectZone_spec (t : RateTests) (h : Tended g K s s') (i : Nat) :
    Yields (detectZone g t s' i) (· = .noZone) fun s'' => Tended g K s s'' := by
  rw [detectZone]
  split
  case isTrue hi =>
    have hinv := h.inv.modifyZone i (fun d => { d with inGc := true }) fun _ => ⟨rfl, rfl, rfl, rfl⟩
    refine (garbageCollection_spec hinv i).imp ?_
    rintro s'' ⟨hinv', hcontent, hgc, hcd⟩
    exact ⟨hinv', hcontent.trans h.content, hgc, hcd.trans h.idle.cd⟩
  case isFalse => exact h

/-- **`garbage_collection_detect`.** -/
theorem garbageCollectionDetect_spec (t : RateTests) (h : Inv g K s) (hidle : s.Idle) :
    Yields (garbageCollectionDetect g t s) (· = .noZone) fun s' => Tended g K s s' := by
  have h₁ : Tended g K s (s.getGcInfo g) := ⟨h.getGcInfo, rfl, hidle.gc, hidle.cd⟩
  rw [garbageCollectionDetect, if_neg (by simp [hidle.cd]), if_neg]
  · exact Yields.foldlM (Tended g K s) _ _ h₁ fun i _ s' hs' => detectZone_spec t hs' i
  · simp [h₁.idle.gc]

theorem keepRates_zone (s : Controller) (i : Nat) : (s.keepRates g).zone i
    = { s.zone i with rates := ((s.keepRates g).zone i).rates } := by
  simp only [keepRates]
  split
  · rfl
  · rfl

theorem keepRates_wp (s : Controller) (i : Nat) :
    ((s.keepRates g).zone i).wp = (s.zone i).wp ∧ ((s.keepRates g).zone i).cond = (s.zone i).cond ∧
      ((s.keepRates g).zone i).cf = (s.zone i).cf ∧
      ((s.keepRates g).zone i).validPage = (s.zone i).validPage := by
  rw [keepRates_zone]
  exact ⟨rfl, rfl, rfl, rfl⟩

theorem keepRates_inGc (s : Controller) (i : Nat) :
    ((s.keepRates g).zone i).inGc = (s.zone i).inGc := by rw [keepRates_zone]

theorem Inv.keepRates (h : Inv g K s) : Inv g K (s.keepRates g) :=
  h.congr (fun i => (keepRates_wp s i).1) (fun i => (keepRates_wp s i).2.1)
    (fun i => (keepRates_wp s i).2.2.1) (fun i => (keepRates_wp s i).2.2.2) rfl rfl rfl h.log

/-- **`cd_detect`.** -/
theorem cdDetect_spec (t : RateTests) (h : Inv g K s) (hK : K 0) (hidle : s.Idle) :
    Yields (cdDetect g t s) (· = .noZone) fun s' => Tended g K s s' := by
  have h₁ : Tended g K s (s.getGcInfo g) := ⟨h.getGcInfo, rfl, hidle.gc, hidle.cd⟩
  rw [cdDetect, if_neg (by simp [hidle.gc]), if_neg (by simp [hidle.cd])]
  have hend : ∀ s', Tended g K s s' → Tended g K s ((s'.getGcInfo g).keepRates g) :=
    fun s' h' => ⟨h'.inv.getGcInfo.keepRates, h'.content, h'.idle.gc, h'.idle.cd⟩
  dsimp only
  split
  case isTrue =>
    refine (coldDataRestruct_spec h₁.inv hK _).bind ?_
    rintro s' ⟨hinv, hcontent, hgc, hcd⟩
    exact hend s' ⟨hinv, hcontent, hgc.trans h₁.idle.gc, hcd⟩
  case isFalse => exact hend _ h₁

end Controller

end ZoneBuffer
