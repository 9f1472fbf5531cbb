import ZoneBuffer.Zone.Append

set_option autoImplicit false

/-! # The invariant of the controller

`Inv` is what holds of the controller between two calls: the bookkeeping agrees (`Book`), every
mapped address is a stored page below the write pointer of a zone in use and starts with its
page's id, and the zones are as the device has them, at most one of them open per cluster.

`Grew` is what any writer can do to a state: zones only fill up, stored pages stay as they are,
and a page that is mapped elsewhere than before is mapped at or above the old write pointer of
a zone that was not full (`Fresh`). -/

namespace ZoneBuffer

open Outcome

namespace Controller

/-- The content of each mapped page. -/
def content (s : Controller) : PartialMap PageId Page := fun p => (s.table p).bind s.dev.page

/-- An address below the write pointer of a zone in use. -/
structure Live (g : Geometry) (s : Controller) (a : Nat) : Prop where
  below : a < (s.zone (a / g.zoneSize)).wp
  used : (s.zone (a / g.zoneSize)).cond ≠ .empty

/-- The invariant; `K` are the cluster ids in use. -/
structure Inv (g : Geometry) (K : Int → Prop) (s : Controller) : Prop where
  book : s.Book g none
  live : ∀ p a, s.table p = some a → s.Live g a
  held : ∀ p a, s.table p = some a → ∃ b, s.dev.page a = some b ∧ readId b = p
  wp_dvd : ∀ i, PAGE_SIZE ∣ (s.zone i).wp
  wp_ge : ∀ i, g.ofst i ≤ (s.zone i).wp
  wp_le : ∀ i, (s.zone i).wp ≤ g.ofst i + g.cap
  empty : ∀ i, (s.zone i).cond = .empty →
    (s.zone i).cf = -1 ∧ (s.zone i).wp = g.ofst i ∧ s.dev.zone i = ⟨.empty, g.ofst i⟩
  lt : ∀ i, (s.zone i).cond ≠ .empty → i < g.maxZoneNum
  cluster : ∀ i, (s.zone i).cond ≠ .empty →
    K (s.zone i).cf ∧ (s.zone i).cf.tmod g.clusterNum = (s.zone i).cf
  one_open : ∀ i j, (s.zone i).cond = .expOpen → (s.zone j).cond = .expOpen →
    (s.zone i).cf = (s.zone j).cf → i = j
  sync : ∀ i, (s.zone i).cond = .expOpen → s.dev.zone i = ⟨.expOpen, (s.zone i).wp⟩
  full : ∀ i, (s.zone i).cond = .full → (s.dev.zone i).cond = .full
  log : ∀ w ∈ s.pwrites, w.Ok g

/-- An address at or above the write pointer of a zone that is not full. -/
structure Fresh (g : Geometry) (s : Controller) (a : Nat) : Prop where
  above : (s.zone (a / g.zoneSize)).wp ≤ a
  cond : (s.zone (a / g.zoneSize)).cond ≠ .full

/-- How a state changes while pages are written and none is reclaimed. -/
structure Grew (g : Geometry) (s s' : Controller) : Prop where
  wp : ∀ i, (s.zone i).wp ≤ (s'.zone i).wp
  used : ∀ i, (s.zone i).cond ≠ .empty →
    (s'.zone i).cond ≠ .empty ∧ (s'.zone i).cf = (s.zone i).cf
  full : ∀ i, (s.zone i).cond = .full →
    (s'.zone i).cond = .full ∧ (s'.zone i).wp = (s.zone i).wp
  page : ∀ a, a < (s.zone (a / g.zoneSize)).wp → s'.dev.page a = s.dev.page a
  table : ∀ p a, s'.table p = some a → s.table p = some a ∨ s.Fresh g a
  gc : s'.gc = s.gc
  cd : s'.cd = s.cd

variable {g : Geometry} {K : Int → Prop} {s s' s'' : Controller}

theorem Grew.refl (g : Geometry) (s : Controller) : Grew g s s :=
  ⟨fun _ => le_refl _, fun _ h => ⟨h, rfl⟩, fun _ h => ⟨h, rfl⟩, fun _ _ => rfl,
    fun _ _ h => Or.inl h, rfl, rfl⟩

theorem Grew.fresh (h : Grew g s s') {a : Nat} (ha : s'.Fresh g a) : s.Fresh g a :=
  ⟨le_trans (h.wp _) ha.above, fun hfull => ha.cond (h.full _ hfull).1⟩

theorem Grew.trans (h : Grew g s s') (h' : Grew g s' s'') : Grew g s s'' where
  wp i := le_trans (h.wp i) (h'.wp i)
  used i hi := by
    obtain ⟨h1, h2⟩ := h.used i hi
    obtain ⟨h3, h4⟩ := h'.used i h1
    exact ⟨h3, h4.trans h2⟩
  full i hi := by
    obtain ⟨h1, h2⟩ := h.full i hi
    obtain ⟨h3, h4⟩ := h'.full i h1
    exact ⟨h3, h4.trans h2⟩
  page a ha := (h'.page a (lt_of_lt_of_le ha (h.wp _))).trans (h.page a ha)
  table p a ha := by
    rcases h'.table p a ha with ha | ha
    · exact h.table p a ha
    · exact Or.inr (h.fresh ha)
  gc := h'.gc.trans h.gc
  cd := h'.cd.trans h.cd

/-! ## Parts of the invariant -/

theorem Inv.content_eq_none (h : Inv g K s) (p : PageId) :
    s.content p = none ↔ s.table p = none := by
  unfold content
  cases hp : s.table p with
  | none => simp
  | some a =>
      obtain ⟨b, hb, -⟩ := h.held p a hp
      simp [hb]

/-- The content of a mapped page, with its address. -/
theorem Inv.content_eq_some (h : Inv g K s) {p : PageId} {a : Nat} (hp : s.table p = some a) :
    ∃ b, s.content p = some b ∧ s.dev.page a = some b ∧ readId b = p := by
  obtain ⟨b, hb, hid⟩ := h.held p a hp
  exact ⟨b, by rw [content, hp, Option.bind_some, hb], hb, hid⟩

theorem Inv.readId_content (h : Inv g K s) {p : PageId} {b : Page} (hb : s.content p = some b) :
    readId b = p := by
  unfold content at hb
  obtain ⟨a, ha, hpage⟩ := Option.bind_eq_some_iff.1 hb
  obtain ⟨b', hb', hid⟩ := h.held p a ha
  rw [hpage, Option.some.injEq] at hb'
  rwa [hb']

/-- The invariant reads the descriptors only up to rates and flags, and no counters. -/
theorem Inv.congr (h : Inv g K s) (hwp : ∀ i, (s'.zone i).wp = (s.zone i).wp)
    (hcond : ∀ i, (s'.zone i).cond = (s.zone i).cond) (hcf : ∀ i, (s'.zone i).cf = (s.zone i).cf)
    (hvalid : ∀ i, (s'.zone i).validPage = (s.zone i).validPage) (ht : s'.table = s.table)
    (hm : s'.metaPage = s.metaPage) (hd : s'.dev = s.dev) (hl : ∀ w ∈ s'.pwrites, w.Ok g) :
    Inv g K s' where
  book := ⟨by rw [ht]; exact h.book.inj, by rw [ht]; exact h.book.aligned,
    by rw [ht, hm]; exact h.book.valid, fun z => by rw [hvalid, hm]; exact h.book.count z⟩
  live p a hp := by
    have hlive := h.live p a (ht ▸ hp)
    exact ⟨by rw [hwp]; exact hlive.below, by rw [hcond]; exact hlive.used⟩
  held := by rw [ht, hd]; exact h.held
  wp_dvd i := by rw [hwp]; exact h.wp_dvd i
  wp_ge i := by rw [hwp]; exact h.wp_ge i
  wp_le i := by rw [hwp]; exact h.wp_le i
  empty i hi := by rw [hcf, hwp, hd]; exact h.empty i (hcond i ▸ hi)
  lt i hi := h.lt i (hcond i ▸ hi)
  cluster i hi := by rw [hcf]; exact h.cluster i (hcond i ▸ hi)
  one_open i j hi hj hij := h.one_open i j (hcond i ▸ hi) (hcond j ▸ hj)
    (by rw [← hcf, ← hcf]; exact hij)
  sync i hi := by rw [hd, hwp]; exact h.sync i (hcond i ▸ hi)
  full i hi := by rw [hd]; exact h.full i (hcond i ▸ hi)
  log := hl

/-- Nor does it read the counters and the two flags of the controller. -/
theorem Inv.counters (h : Inv g K s) (hz : s'.zone = s.zone) (ht : s'.table = s.table)
    (hm : s'.metaPage = s.metaPage) (hd : s'.dev = s.dev) (hl : s'.pwrites = s.pwrites) :
    Inv g K s' :=
  h.congr (fun i => by rw [hz]) (fun i => by rw [hz]) (fun i => by rw [hz]) (fun i => by rw [hz])
    ht hm hd (hl ▸ h.log)

theorem Inv.of_forget (h : Inv g K s) (hf : s'.forget = s.forget) (hl : ∀ w ∈ s'.pwrites, w.Ok g) :
    Inv g K s' := by
  have hzone : s'.forget.zone = s.forget.zone := by rw [hf]
  have htable : s'.forget.table = s.forget.table := by rw [hf]
  have hmeta : s'.forget.metaPage = s.forget.metaPage := by rw [hf]
  have hdev : s'.forget.dev = s.forget.dev := by rw [hf]
  replace hzone : s'.zone = s.zone := hzone
  exact h.congr (by simp [hzone]) (by simp [hzone]) (by simp [hzone]) (by simp [hzone])
    htable hmeta hdev hl

theorem Inv.ready (h : Inv g K s) {z n : Nat} (hopen : (s.zone z).cond = .expOpen)
    (hroom : (s.zone z).wp + n * PAGE_SIZE ≤ g.ofst z + g.cap) : Ready g s z n :=
  ⟨h.sync z hopen, h.wp_ge z, hroom⟩

/-- The write pointer of a zone lies in the zone, for the capacity is less than the size. -/
theorem Inv.wp_div (h : Inv g K s) (i : Nat) : (s.zone i).wp / g.zoneSize = i := by
  have h1 := h.wp_ge i
  have h2 := h.wp_le i
  have h3 := g.cap_lt
  exact g.div_zoneSize h1 (by omega)

/-- No page is mapped to the write pointer of a zone. -/
theorem Inv.wp_free (h : Inv g K s) (z : Nat) (q : PageId) : s.table q ≠ some (s.zone z).wp := by
  intro hq
  have hlt := (h.live q _ hq).below
  rw [h.wp_div] at hlt
  exact absurd hlt (lt_irrefl _)

theorem Inv.init (g : Geometry) (K : Int → Prop) (rates : Nat → Rates) :
    Inv g K (Controller.init g rates) where
  book := {
    inj := by intro p q a h; cases h
    aligned := by intro p a h; cases h
    valid := by
      intro i
      simp [Controller.init]
    count := by
      intro z
      have hzero : TrueCount.trueCount (Controller.init g rates).metaPage (g.pagesOf z) = 0 :=
        TrueCount.trueCount_eq_zero.2 fun _ _ => rfl
      rw [hzero]
      rfl }
  live := by intro p a h; cases h
  held := by intro p a h; cases h
  wp_dvd i := g.ofst_dvd i
  wp_ge _ := le_refl _
  wp_le _ := Nat.le_add_right _ _
  empty _ _ := ⟨rfl, rfl, rfl⟩
  lt _ h := absurd rfl h
  cluster _ h := absurd rfl h
  one_open _ _ h := by cases h
  sync _ h := by cases h
  full _ h := by cases h
  log := by intro w h; cases h

end Controller

end ZoneBuffer
