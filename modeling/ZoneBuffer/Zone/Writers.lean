import ZoneBuffer.Zone.Invariant
import ZoneBuffer.Zone.Selection

set_option autoImplicit false

/-! # The writers

A writer chooses a zone and then maps and stores pages in it. `selectWriteZone_spec` covers the
choice, `appendOne_spec` and `appendNew_spec` the page stored; the specifications of
`write_page`, `write_page_gc`, `create_new_page` and `write_cluster` are assembled from these
three. Each says that the invariant holds again, what the pages contain afterwards, and how the
state grew. -/

namespace ZoneBuffer

open Outcome

namespace Controller

variable {g : Geometry} {K : Int → Prop} {s s' s'' : Controller}

/-! ## Choosing a zone -/

/-- How a state changes while a zone is chosen: zones are finished or opened, nothing is
stored. -/
structure Kept (s s' : Controller) : Prop where
  table : s'.table = s.table
  page : s'.dev.page = s.dev.page
  wp : ∀ i, (s'.zone i).wp = (s.zone i).wp
  used : ∀ i, (s.zone i).cond ≠ .empty →
    (s'.zone i).cond ≠ .empty ∧ (s'.zone i).cf = (s.zone i).cf
  full : ∀ i, (s.zone i).cond = .full → (s'.zone i).cond = .full
  gc : s'.gc = s.gc
  cd : s'.cd = s.cd

theorem Kept.grew (h : Kept s s') : Grew g s s' where
  wp i := le_of_eq (h.wp i).symm
  used := h.used
  full i hi := ⟨h.full i hi, h.wp i⟩
  page a _ := by rw [h.page]
  table p a hp := Or.inl (h.table ▸ hp)
  gc := h.gc
  cd := h.cd

theorem Kept.content (h : Kept s s') : s'.content = s.content := by
  unfold Controller.content
  rw [h.table, h.page]

theorem Selected.kept {c : Int} {n z : Nat} (h : Selected g c n s z s') : Kept s s' where
  table := by rw [h.only]
  page := by rw [h.only]
  wp := h.wp
  used i hi := by
    rcases h.zone_cases i with hsame | hfin | ⟨-, hopened⟩
    · rw [hsame.zone]
      exact ⟨hi, rfl⟩
    · rw [hfin.zone]
      simp
    · exact absurd hopened.cond hi
  full i hi := by
    rcases h.zone_cases i with hsame | hfin | ⟨-, hopened⟩
    · rw [hsame.zone]
      exact hi
    · rw [hfin.zone]
    · cases hopened.cond.symm.trans hi
  gc := by rw [h.only]
  cd := by rw [h.only]

/-- A zone that has been opened is the only open one of its cluster. -/
theorem Newly.eq_of_open {c : Int} {n z j : Nat} (h : Newly g c n s z s') (hlt : j < g.maxZoneNum)
    (hopen : (s'.zone j).cond = .expOpen) (hcf : (s'.zone j).cf = c) : j = z := by
  by_contra hne
  exact h.alone j hlt hne hopen hcf

/-- **Choosing a zone keeps the invariant.** -/
theorem Inv.selected (h : Inv g K s) {cf : Int} {n z : Nat} (hK : K (cf.tmod g.clusterNum))
    (hz : selectWriteZone g cf n s = .ok (z, s')) : Inv g K s' := by
  have hsel := selectWriteZone_selected hz
  have hkept := hsel.kept
  have hmeta : s'.metaPage = s.metaPage := by rw [hsel.only]
  have hlog : s'.pwrites = s.pwrites := by rw [hsel.only]
  have hlt : ∀ i, (s'.zone i).cond ≠ .empty → i < g.maxZoneNum := by
    intro i hi
    rcases hsel.zone_cases i with hsame | hfin | ⟨rfl, -⟩
    · exact h.lt i (hsame.zone ▸ hi)
    · exact h.lt i (by simp [hfin.cramped.cond])
    · exact hsel.lt
  exact {
    -- nothing is stored, so the book is the one before
    book := ⟨by rw [hkept.table]; exact h.book.inj, by rw [hkept.table]; exact h.book.aligned,
      by rw [hkept.table, hmeta]; exact h.book.valid, fun i => by
        rw [hsel.zone_eq, hmeta]
        exact h.book.count i⟩
    live := fun p a hp => by
      have hlive := h.live p a (hkept.table ▸ hp)
      exact ⟨by rw [hsel.wp]; exact hlive.below, (hkept.used _ hlive.used).1⟩
    held := by
      rw [hkept.table, hkept.page]
      exact h.held
    wp_dvd := fun i => by rw [hsel.wp]; exact h.wp_dvd i
    wp_ge := fun i => by rw [hsel.wp]; exact h.wp_ge i
    wp_le := fun i => by rw [hsel.wp]; exact h.wp_le i
    empty := fun i hi => by
      rcases hsel.zone_cases i with hsame | hfin | ⟨-, hopened⟩
      · rw [hsame.zone] at hi ⊢
        rw [hsame.dev]
        exact h.empty i hi
      · rw [hfin.zone] at hi
        cases hi
      · rw [hopened.zone] at hi
        cases hi
    lt := hlt
    cluster := fun i hi => by
      rcases hsel.zone_cases i with hsame | hfin | ⟨-, hopened⟩
      · rw [hsame.zone] at hi ⊢
        exact h.cluster i hi
      · rw [hfin.zone]
        exact h.cluster i (by simp [hfin.cramped.cond])
      · rw [hopened.zone]
        exact ⟨hK, Int.tmod_tmod cf g.clusterNum⟩
    -- a zone is opened only when no other of its cluster is left open
    one_open := fun i j hi hj hij => by
      have hi' := hlt i (by simp [hi])
      have hj' := hlt j (by simp [hj])
      rcases hsel.zone_cases i with hsame | hfin | ⟨rfl, hopened⟩
      · rcases hsel.zone_cases j with hsame' | hfin | ⟨rfl, hopened⟩
        · rw [hsame.zone] at hi hij
          rw [hsame'.zone] at hj hij
          exact h.one_open i j hi hj hij
        · exact absurd hj hfin.not_open
        · exact (selectWriteZone_opened hz hopened.cond).eq_of_open hi' hi (hij.trans hsel.cf)
      · exact absurd hi hfin.not_open
      · exact ((selectWriteZone_opened hz hopened.cond).eq_of_open hj' hj
          (hij.symm.trans hsel.cf)).symm
    sync := fun i hi => by
      rcases hsel.zone_cases i with hsame | hfin | ⟨-, hopened⟩
      · rw [hsame.zone] at hi ⊢
        rw [hsame.dev]
        exact h.sync i hi
      · exact absurd hi hfin.not_open
      · obtain ⟨-, hwp, hdev⟩ := h.empty i hopened.cond
        rw [hopened.dev, hsel.wp, hwp, hdev]
    full := fun i hi => by
      rcases hsel.zone_cases i with hsame | hfin | ⟨-, hopened⟩
      · rw [hsame.dev]
        exact h.full i (hsame.zone ▸ hi)
      · rw [hfin.dev]
      · rw [hopened.zone] at hi
        cases hi
    log := by
      rw [hlog]
      exact h.log }

/-- The zone chosen is as asked for. -/
theorem Selected.chosen (h : Inv g K s) {c : Int} {n z : Nat} (hsel : Selected g c n s z s')
    (hn : n * PAGE_SIZE ≤ g.cap) : Chosen g c n z s' := by
  refine ⟨hsel.cond, hsel.cf, ?_⟩
  rw [hsel.wp]
  rcases hsel.target with ⟨hchosen, -⟩ | hopened
  · exact hchosen.room
  · rw [(h.empty z hopened.cond).2.1]
    exact Nat.add_le_add_left hn _

/-- No zone is empty, and none that is open for cluster `c` has room for `n` pages. -/
def NoRoom (g : Geometry) (c : Int) (n : Nat) (s : Controller) : Prop :=
  ∀ i < g.maxZoneNum, (s.zone i).cond ≠ .empty ∧ ¬ Chosen g c n i s

/-- **What choosing a zone does.** It fails only where there is none to choose. -/
theorem selectWriteZone_spec (h : Inv g K s) {cf : Int} (hK : K (cf.tmod g.clusterNum)) {n : Nat}
    (hn : n * PAGE_SIZE ≤ g.cap) :
    Yields (selectWriteZone g cf n s)
      (fun e => e = .noZone ∧ NoRoom g (cf.tmod g.clusterNum) n s) fun r =>
      Inv g K r.2 ∧ Kept s r.2 ∧ Chosen g (cf.tmod g.clusterNum) n r.1 r.2 := by
  rcases selectWriteZone_any (g := g) cf n s with ⟨z, s₁, hok, hsel, -⟩ | ⟨herr, hfree, hunfit⟩
  · rw [hok]
    exact ⟨h.selected hK hok, hsel.kept, hsel.chosen h hn⟩
  · rw [herr]
    refine ⟨rfl, fun i hi => ⟨fun hempty => ?_, hunfit i hi⟩⟩
    -- an empty zone has no cluster, so the second loop would have found it
    exact firstFree_eq_none hfree i hi (h.empty i hempty).1 hempty

/-! ## Storing a page -/

theorem storeOne_spec {z : Nat} (h : Ready g s z 1) (hz : z < g.maxZoneNum) (b : Page)
    (hlog : ∀ w ∈ s.pwrites, w.Ok g) :
    (storeOne g z b s).forget = stored z [b] s ∧ ∀ w ∈ (storeOne g z b s).pwrites, w.Ok g :=
  @writeBatch_spec g z 1 [b] 0 s h rfl hz hlog

theorem storeOne_zone (z : Nat) (b : Page) (s : Controller) (i : Nat) :
    (storeOne g z b s).zone i
      = if i = z then { s.zone z with wp := (s.zone z).wp + PAGE_SIZE } else s.zone i :=
  Function.update_apply ..

/-- The outcome of a writer: the pages of `l` have been given their content, one after the
other. -/
structure Wrote (g : Geometry) (K : Int → Prop) (s s' : Controller) (l : List (PageId × Page)) :
    Prop where
  inv : Inv g K s'
  content : s'.content = s.content.assignAll l
  grew : Grew g s s'

/-- The outcome of the part of a writer that works in a zone: no zone has been opened or finished,
and none has grown by more than the pages stored. -/
structure Appended (g : Geometry) (K : Int → Prop) (s s' : Controller)
    (l : List (PageId × Page)) : Prop extends Wrote g K s s' l where
  cond : ∀ i, (s'.zone i).cond = (s.zone i).cond
  wp_le : ∀ i, (s'.zone i).wp ≤ (s.zone i).wp + l.length * PAGE_SIZE

/-- Page `p` has been mapped to the write pointer of zone `z` and stored there. -/
structure Put (z : Nat) (p : PageId) (b : Page) (s s' : Controller) : Prop where
  table : s'.table = s.table.insertOrAssign p (s.zone z).wp
  page : s'.dev.page = Function.update s.dev.page (s.zone z).wp (some b)
  dev : s'.dev.zone = Function.update s.dev.zone z ⟨.expOpen, (s.zone z).wp + PAGE_SIZE⟩
  wp : ∀ i, (s'.zone i).wp = if i = z then (s.zone z).wp + PAGE_SIZE else (s.zone i).wp
  cond : ∀ i, (s'.zone i).cond = (s.zone i).cond
  cf : ∀ i, (s'.zone i).cf = (s.zone i).cf
  gc : s'.gc = s.gc
  cd : s'.cd = s.cd

section

variable {z : Nat} {p q : PageId} {b : Page} {a : Nat}

theorem Put.le_wp (hput : Put z p b s s') (i : Nat) : (s.zone i).wp ≤ (s'.zone i).wp := by
  rw [hput.wp]
  split
  case isTrue hi => rw [hi]; exact Nat.le_add_right _ _
  case isFalse => exact le_refl _

theorem Put.table_eq_some (hput : Put z p b s s') : s'.table q = some a ↔
    (q = p ∧ (s.zone z).wp = a) ∨ (q ≠ p ∧ s.table q = some a) := by
  rw [hput.table]
  exact PartialMap.insertOrAssign_eq_some

/-- What was stored at another address still is, so of all that was mapped nothing is lost. -/
theorem Put.page_of_ne (hput : Put z p b s s') (ha : a ≠ (s.zone z).wp) :
    s'.dev.page a = s.dev.page a := by
  rw [hput.page, Function.update_of_ne ha]

theorem Put.page_of_mapped (hput : Put z p b s s') (h : Inv g K s) (hq : s.table q = some a) :
    s'.dev.page a = s.dev.page a := by
  refine hput.page_of_ne ?_
  rintro rfl
  exact h.wp_free z q hq

theorem Put.inv (hput : Put z p b s s') (h : Inv g K s) (hopen : (s.zone z).cond = .expOpen)
    (hroom : (s.zone z).wp + PAGE_SIZE ≤ g.ofst z + g.cap) (hid : readId b = p)
    (hbook : s'.Book g none) (hlog : ∀ w ∈ s'.pwrites, w.Ok g) : Inv g K s' where
  book := hbook
  live q a hq := by
    rcases hput.table_eq_some.1 hq with ⟨-, rfl⟩ | ⟨-, hq⟩
    · exact ⟨by rw [h.wp_div, hput.wp, if_pos rfl]; exact Nat.lt_add_of_pos_right (by decide),
        by rw [h.wp_div, hput.cond, hopen]; simp⟩
    · have hlive := h.live q a hq
      exact ⟨lt_of_lt_of_le hlive.below (hput.le_wp _), by rw [hput.cond]; exact hlive.used⟩
  held q a hq := by
    rcases hput.table_eq_some.1 hq with ⟨rfl, rfl⟩ | ⟨-, hq⟩
    · exact ⟨b, by rw [hput.page, Function.update_self], hid⟩
    · rw [hput.page_of_mapped h hq]
      exact h.held q a hq
  wp_dvd i := by
    rw [hput.wp]
    split
    · exact Nat.dvd_add (h.wp_dvd z) (dvd_refl _)
    · exact h.wp_dvd i
  wp_ge i := le_trans (h.wp_ge i) (hput.le_wp i)
  wp_le i := by
    rw [hput.wp]
    split
    case isTrue hi => rw [hi]; exact hroom
    case isFalse => exact h.wp_le i
  empty i hi := by
    rw [hput.cond] at hi
    -- an open zone is no empty one, so the page is not stored there
    have hiz : i ≠ z := by
      rintro rfl
      cases hopen.symm.trans hi
    rw [hput.cf, hput.wp, if_neg hiz, hput.dev, Function.update_of_ne hiz]
    exact h.empty i hi
  lt i hi := h.lt i (by rwa [hput.cond] at hi)
  cluster i hi := by
    rw [hput.cf]
    exact h.cluster i (by rwa [hput.cond] at hi)
  one_open i j hi hj hij := by
    rw [hput.cond] at hi hj
    rw [hput.cf, hput.cf] at hij
    exact h.one_open i j hi hj hij
  sync i hi := by
    rw [hput.cond] at hi
    rw [hput.dev, hput.wp]
    by_cases hiz : i = z
    · rw [hiz, Function.update_self, if_pos rfl]
    · rw [Function.update_of_ne hiz, if_neg hiz]
      exact h.sync i hi
  full i hi := by
    rw [hput.cond] at hi
    have hiz : i ≠ z := by
      rintro rfl
      cases hopen.symm.trans hi
    rw [hput.dev, Function.update_of_ne hiz]
    exact h.full i hi
  log := hlog

theorem Put.content (hput : Put z p b s s') (h : Inv g K s) :
    s'.content = s.content.insertOrAssign p b := by
  funext q
  rw [PartialMap.insertOrAssign_apply]
  unfold Controller.content
  by_cases hq : q = p
  · rw [if_pos hq, hput.table_eq_some.2 (Or.inl ⟨hq, rfl⟩), Option.bind_some, hput.page,
      Function.update_self]
  · have hsame : s'.table q = s.table q := by
      rw [hput.table, PartialMap.insertOrAssign_of_ne _ _ hq]
    rw [if_neg hq, hsame]
    cases ha : s.table q with
    | none => rfl
    | some a => exact hput.page_of_mapped h ha

theorem Put.grew (hput : Put z p b s s') (h : Inv g K s) (hopen : (s.zone z).cond = .expOpen) :
    Grew g s s' where
  wp := hput.le_wp
  used i hi := ⟨by rwa [hput.cond], hput.cf i⟩
  full i hi := by
    have hiz : i ≠ z := by
      rintro rfl
      cases hopen.symm.trans hi
    exact ⟨by rwa [hput.cond], by rw [hput.wp, if_neg hiz]⟩
  page a ha := by
    refine hput.page_of_ne ?_
    rintro rfl
    rw [h.wp_div] at ha
    exact absurd ha (lt_irrefl _)
  table q a hq := by
    rcases hput.table_eq_some.1 hq with ⟨-, rfl⟩ | ⟨-, hq⟩
    · exact Or.inr ⟨by rw [h.wp_div], by rw [h.wp_div, hopen]; simp⟩
    · exact Or.inl hq
  gc := hput.gc
  cd := hput.cd

end

/-- **What mapping page `p` to the write pointer of zone `z` and storing it there does**, once
the mapping has kept the book. -/
theorem Inv.storeOne (h : Inv g K s) {z : Nat} (hopen : (s.zone z).cond = .expOpen)
    (hroom : (s.zone z).wp + PAGE_SIZE ≤ g.ofst z + g.cap) {p : PageId} {b : Page}
    (hid : readId b = p) {m : Nat → Bool} {v : Nat → Int}
    (hbook : (s.withBook (s.table.insertOrAssign p (s.zone z).wp) m v).Book g none) :
    Appended g K s
      (Controller.storeOne g z b (s.withBook (s.table.insertOrAssign p (s.zone z).wp) m v))
      [(p, b)] := by
  set s₁ := s.withBook (s.table.insertOrAssign p (s.zone z).wp) m v with hs₁
  set s' := Controller.storeOne g z b s₁
  have hready : Ready g s₁ z 1 :=
    ⟨h.sync z hopen, h.wp_ge z, by rw [Nat.one_mul]; exact hroom⟩
  -- up to the log and the counters the state is the one `stored` describes
  obtain ⟨hforget, hlog⟩ := storeOne_spec hready (h.lt z (by simp [hopen])) b h.log
  have hdev : s'.forget.dev = (stored z [b] s₁).dev := congrArg Controller.dev hforget
  have hzone : ∀ i, s'.zone i = if i = z then { s₁.zone z with wp := (s.zone z).wp + PAGE_SIZE }
      else s₁.zone i := storeOne_zone z b s₁
  have hvalid : ∀ i, (s'.zone i).validPage = (s₁.zone i).validPage := by
    intro i
    rw [hzone]
    split <;> simp_all
  have hput : Put z p b s s' := {
    table := rfl
    page := rfl
    dev := congrArg Device.zone hdev
    wp := by
      intro i
      rw [hzone]
      split <;> rfl
    cond := by
      intro i
      rw [hzone]
      split <;> simp_all
    cf := by
      intro i
      rw [hzone]
      split <;> simp_all
    gc := rfl
    cd := rfl }
  have hbook' : s'.Book g none := ⟨hbook.inj, hbook.aligned, hbook.valid, fun i => by
    rw [hvalid]
    exact hbook.count i⟩
  refine ⟨⟨hput.inv h hopen hroom hid hbook' hlog, hput.content h, hput.grew h hopen⟩, hput.cond,
    fun i => ?_⟩
  rw [hput.wp, List.length_singleton, Nat.one_mul]
  split
  case isTrue hi => rw [hi]
  case isFalse => exact Nat.le_add_right _ _

theorem Kept.wrote (hk : Kept s s') {l : List (PageId × Page)} (h : Wrote g K s' s'' l) :
    Wrote g K s s'' l :=
  ⟨h.inv, by rw [h.content, hk.content], hk.grew.trans h.grew⟩

/-- The log and the counters make no difference to an outcome. -/
theorem Wrote.of_forget {l : List (PageId × Page)} (h : Wrote g K s s' l)
    (hf : s''.forget = s'.forget) (hl : ∀ w ∈ s''.pwrites, w.Ok g) : Wrote g K s s'' l := by
  have hzone : s''.forget.zone = s'.forget.zone := by rw [hf]
  have htable : s''.forget.table = s'.forget.table := by rw [hf]
  have hdev : s''.forget.dev = s'.forget.dev := by rw [hf]
  have hgc : s''.forget.gc = s'.forget.gc := by rw [hf]
  have hcd : s''.forget.cd = s'.forget.cd := by rw [hf]
  replace hzone : s''.zone = s'.zone := hzone
  replace htable : s''.table = s'.table := htable
  replace hdev : s''.dev = s'.dev := hdev
  refine ⟨h.inv.of_forget hf hl, ?_, ?_⟩
  · rw [← h.content]
    unfold Controller.content
    rw [htable, hdev]
  · exact ⟨by rw [hzone]; exact h.grew.wp, by rw [hzone]; exact h.grew.used,
      by rw [hzone]; exact h.grew.full, by rw [hdev]; exact h.grew.page,
      by rw [htable]; exact h.grew.table, hgc.trans h.grew.gc, hcd.trans h.grew.cd⟩

theorem Appended.of_forget {l : List (PageId × Page)} (h : Appended g K s s' l)
    (hf : s''.forget = s'.forget) (hl : ∀ w ∈ s''.pwrites, w.Ok g) : Appended g K s s'' l := by
  have hzone : s''.forget.zone = s'.forget.zone := by rw [hf]
  replace hzone : s''.zone = s'.zone := hzone
  refine ⟨h.toWrote.of_forget hf hl, ?_, ?_⟩
  · rw [hzone]
    exact h.cond
  · rw [hzone]
    exact h.wp_le

theorem Inv.table_of_content (h : Inv g K s) {p : PageId} (hp : s.content p ≠ none) :
    ∃ a, s.table p = some a :=
  Option.ne_none_iff_exists'.1 (mt (h.content_eq_none p).2 hp)

/-- **What appending a page that is mapped already does.** -/
theorem appendOne_spec (h : Inv g K s) {c : Int} {n z : Nat} (hz : Chosen g c (n + 1) z s)
    {p : PageId} {b : Page} (hp : s.content p ≠ none) (hid : readId b = p) :
    Yields (appendOne g z s (p, b)) (fun _ => False) fun s' =>
      Appended g K s s' [(p, b)] ∧ s'.table p = some (s.zone z).wp ∧ Chosen g c n z s' := by
  obtain ⟨old, hold⟩ := h.table_of_content hp
  obtain ⟨m, v, hok, hbook⟩ :=
    remap_spec h.book hold (h.wp_dvd z) fun q _ => h.wp_free z q
  have hroom := hz.room
  rw [Nat.add_mul, Nat.one_mul] at hroom
  rw [appendOne, hok]
  refine ⟨h.storeOne hz.cond (by omega) hid hbook, PartialMap.insertOrAssign_self .., ?_⟩
  refine ⟨?_, ?_, ?_⟩
  · rw [storeOne_zone, if_pos rfl]
    exact hz.cond
  · rw [storeOne_zone, if_pos rfl]
    exact hz.cf
  · rw [storeOne_zone, if_pos rfl]
    simp only [withBook_zone]
    omega

/-- **What appending a fresh page does.** -/
theorem appendNew_spec (h : Inv g K s) {c : Int} {z : Nat} (hz : Chosen g c 1 z s)
    {p : PageId} {b : Page} (hp : s.content p = none) (hid : readId b = p) :
    Yields (s.mapNew g p (s.zone z).wp >>= fun s => .ok (storeOne g z b s)) (fun _ => False)
      fun s' => Appended g K s s' [(p, b)] := by
  obtain ⟨m, v, hok, hbook⟩ :=
    mapNew_spec (h.book.hole_of_none ((h.content_eq_none p).1 hp)) (h.wp_dvd z)
      fun q _ => h.wp_free z q
  rw [hok]
  exact h.storeOne hz.cond (by simpa only [Nat.one_mul] using hz.room) hid hbook

/-- Appending a cluster page by page. -/
theorem appendAll_spec (h : Inv g K s) {c : Int} {z : Nat} {l : List (PageId × Page)}
    (hz : Chosen g c l.length z s) (hl : ∀ pb ∈ l, s.content pb.1 ≠ none ∧ readId pb.2 = pb.1) :
    Yields (l.foldlM (appendOne g z) s) (fun _ => False) fun s' => Appended g K s s' l := by
  -- after the pages `done` there is room left for the others
  refine (Yields.foldlM_upto (fun done s' => Appended g K s s' done ∧
    Chosen g c (l.length - done.length) z s') l s ?_ ?_).imp fun s' hs' => hs'.1
  · exact ⟨⟨⟨h, rfl, Grew.refl g s⟩, fun _ => rfl, fun _ => Nat.le_add_right _ _⟩, hz⟩
  · rintro done ⟨p, b⟩ todo s' hsplit ⟨happ, hchosen⟩
    obtain ⟨hp, hid⟩ := hl (p, b) (by rw [hsplit]; simp)
    have hlen : l.length - done.length = l.length - (done ++ [(p, b)]).length + 1 := by
      rw [hsplit]
      simp only [List.length_append, List.length_cons, List.length_nil]
      omega
    rw [hlen] at hchosen
    have hp' : s'.content p ≠ none := by
      rw [happ.content]
      exact PartialMap.assignAll_ne_none hp done
    refine (appendOne_spec happ.inv hchosen hp' hid).imp ?_
    rintro s'' ⟨hone, -, hnext⟩
    refine ⟨⟨⟨hone.inv, ?_, happ.grew.trans hone.grew⟩, fun i => ?_, fun i => ?_⟩, hnext⟩
    · rw [hone.content, happ.content, PartialMap.assignAll_concat]
      rfl
    · rw [hone.cond, happ.cond]
    · have h1 := happ.wp_le i
      have h2 := hone.wp_le i
      rw [List.length_singleton] at h2
      rw [List.length_append, List.length_singleton, Nat.add_mul]
      omega

/-! ## The bodies of the writers -/

theorem writePageLocked_spec (h : Inv g K s) {c : Int} {z : Nat} (hz : Chosen g c 1 z s)
    {p : PageId} {b : Page} (hp : s.content p ≠ none) (hid : readId b = p) :
    Yields (writePageLocked g z p b s) (fun _ => False) fun s' => Appended g K s s' [(p, b)] := by
  rw [writePageLocked_eq]
  refine (appendOne_spec h hz hp hid).bind ?_
  rintro s₂ ⟨happ, -, -⟩
  exact happ.of_forget rfl happ.inv.log

theorem createNewPageLocked_spec (h : Inv g K s) {c : Int} {z : Nat} (hz : Chosen g c 1 z s)
    {p : PageId} {b : Page} (hp : s.content p = none) (hid : readId b = p) :
    Yields (createNewPageLocked g z p b s) (fun _ => False) fun s' =>
      Appended g K s s' [(p, b)] := by
  rw [createNewPageLocked_eq]
  obtain ⟨s₂, hok, happ⟩ := (appendNew_spec h hz hp hid).exists_ok
  obtain ⟨s₃, hmap, hstore⟩ := bind_eq_ok.1 hok
  cases hstore
  rw [hmap]
  exact happ.of_forget rfl happ.inv.log

theorem writeClusterLocked_spec (h : Inv g K s) {c : Int} {z : Nat} {buf : List Page}
    {pl : List PageId} (hz : Chosen g c pl.length z s) (hlen : buf.length = pl.length)
    (hl : ∀ pb ∈ pl.zip buf, s.content pb.1 ≠ none ∧ readId pb.2 = pb.1) :
    Yields (writeClusterLocked g z buf pl s) (fun _ => False) fun s' =>
      Appended g K s s' (pl.zip buf) := by
  have hzip : (pl.zip buf).length = pl.length := by
    rw [List.length_zip]
    omega
  have hz' : Chosen g c (pl.zip buf).length z s := hzip.symm ▸ hz
  obtain ⟨s₂, hok, happ⟩ := (appendAll_spec h hz' hl).exists_ok
  obtain ⟨s₃, hok₃, hforget, hlog⟩ := writeClusterLocked_agrees (h.ready hz.cond hz.room) hlen
    (h.lt z (by simp [hz.cond])) h.log hok
  rw [hok₃]
  -- the batches leave what appending page by page leaves
  exact happ.of_forget hforget hlog

/-! ## The calls -/

/-- The frame of every writer: choose a zone and work in it. A zone just chosen is open, so run
alone the writer does not retry. -/
theorem choose_room (h : Inv g K s) {cf : Int} (hK : K (cf.tmod g.clusterNum)) {n : Nat}
    (hn : n * PAGE_SIZE ≤ g.cap) (retry : Controller → Except Fault Controller)
    (body : Nat → Controller → Except Fault Controller) {Q : Controller → Prop}
    (hbody : ∀ z s₁, selectWriteZone g cf n s = .ok (z, s₁) → Inv g K s₁ → Kept s s₁ →
      Chosen g (cf.tmod g.clusterNum) n z s₁ → Yields (body z s₁) (fun _ => False) Q) :
    Yields (selectWriteZone g cf n s >>= fun r =>
      if (r.2.zone r.1).cond ≠ .expOpen then retry r.2 else body r.1 r.2)
      (fun e => e = .noZone ∧ NoRoom g (cf.tmod g.clusterNum) n s) Q := by
  refine (selectWriteZone_spec h hK hn).bind_of_ok ?_
  rintro ⟨z, s₁⟩ hsel ⟨hinv, hkept, hchosen⟩
  rw [if_neg (not_not.2 hchosen.cond)]
  exact (hbody z s₁ hsel hinv hkept hchosen).mono (fun _ => False.elim) fun _ hs => hs

/-- The same, where it does not matter what keeps the call from choosing. -/
theorem choose_spec (h : Inv g K s) {cf : Int} (hK : K (cf.tmod g.clusterNum)) {n : Nat}
    (hn : n * PAGE_SIZE ≤ g.cap) (retry : Controller → Except Fault Controller)
    (body : Nat → Controller → Except Fault Controller) {Q : Controller → Prop}
    (hbody : ∀ z s₁, Inv g K s₁ → Kept s s₁ → Chosen g (cf.tmod g.clusterNum) n z s₁ →
      Yields (body z s₁) (fun _ => False) Q) :
    Yields (selectWriteZone g cf n s >>= fun r =>
      if (r.2.zone r.1).cond ≠ .expOpen then retry r.2 else body r.1 r.2) (· = .noZone) Q :=
  (choose_room h hK hn retry body fun z s₁ _ => hbody z s₁).mono (fun _ he => he.1) fun _ hs => hs

theorem one_page_le_cap (g : Geometry) : 1 * PAGE_SIZE ≤ g.cap := by
  rw [Nat.one_mul]
  exact g.page_le_cap

/-- **`write_page`.** -/
theorem writePage_spec (h : Inv g K s) (attempts : Nat) (cf : Int)
    (hK : K (cf.tmod g.clusterNum)) {p : PageId} {b : Page} (hp : s.content p ≠ none)
    (hid : readId b = p) :
    Yields (writePage g (attempts + 1) cf p b s) (· = .noZone) fun s' =>
      Wrote g K s s' [(p, b)] := by
  refine choose_spec h hK (one_page_le_cap g) (writePage g attempts cf p b)
    (fun z => writePageLocked g z p b) fun z s₁ hinv hkept hchosen => ?_
  exact (writePageLocked_spec hinv hchosen (hkept.content ▸ hp) hid).imp fun _ happ =>
    hkept.wrote happ.toWrote

/-- **`write_page_gc`.** Besides, the page is at a fresh address afterwards. -/
theorem writePageGc_spec (h : Inv g K s) (attempts : Nat) (cf : Int)
    (hK : K (cf.tmod g.clusterNum)) {p : PageId} {b : Page} (hp : s.content p ≠ none)
    (hid : readId b = p) :
    Yields (writePageGc g (attempts + 1) cf p b s) (· = .noZone) fun s' =>
      Wrote g K s s' [(p, b)] ∧ ∀ a, s'.table p = some a → s.Fresh g a := by
  refine choose_spec h hK (one_page_le_cap g) (writePageGc g attempts cf p b)
    (fun z => writePageGcLocked g z p b) fun z s₁ hinv hkept hchosen => ?_
  rw [writePageGcLocked_eq]
  refine (appendOne_spec hinv hchosen (hkept.content ▸ hp) hid).bind ?_
  rintro s₂ ⟨happ, htable, -⟩
  refine ⟨(hkept.wrote happ.toWrote).of_forget rfl happ.inv.log, fun a ha => ?_⟩
  cases htable.symm.trans ha
  have hdiv := (hinv.ready hchosen.cond hchosen.room).div_zoneSize
  refine hkept.grew.fresh ⟨?_, ?_⟩
  · rw [hdiv]
  · rw [hdiv, hchosen.cond]
    simp

/-- **`create_new_page`.** -/
theorem createNewPage_spec (h : Inv g K s) (attempts : Nat) (hK : K 0) {p : PageId} {b : Page}
    (hp : s.content p = none) (hid : readId b = p) :
    Yields (createNewPage g attempts p b s) (· = .noZone) fun s' =>
      Wrote g K s s' [(p, b)] := by
  have hK' : K ((0 : Int).tmod g.clusterNum) := by
    rw [Int.zero_tmod]
    exact hK
  refine choose_spec h hK' (one_page_le_cap g) (writePage g attempts 0 p b)
    (fun z => createNewPageLocked g z p b) fun z s₁ hinv hkept hchosen => ?_
  exact (createNewPageLocked_spec hinv hchosen (hkept.content ▸ hp) hid).imp fun _ happ =>
    hkept.wrote happ.toWrote

/-- **`write_cluster`.** -/
theorem writeCluster_room (h : Inv g K s) (attempts : Nat) (cf : Int)
    (hK : K (cf.tmod g.clusterNum)) {buf : List Page} {pl : List PageId}
    (hlen : buf.length = pl.length) (hcap : pl.length * PAGE_SIZE ≤ g.cap)
    (hl : ∀ pb ∈ pl.zip buf, s.content pb.1 ≠ none ∧ readId pb.2 = pb.1) :
    Yields (writeCluster g (attempts + 1) cf buf pl s)
      (fun e => e = .noZone ∧ NoRoom g (cf.tmod g.clusterNum) pl.length s) fun s' =>
      Wrote g K s s' (pl.zip buf) := by
  refine choose_room h hK hcap (writeCluster g attempts cf buf pl)
    (fun z => writeClusterLocked g z buf pl) fun z s₁ _ hinv hkept hchosen => ?_
  refine (writeClusterLocked_spec hinv hchosen hlen ?_).imp fun _ happ => hkept.wrote happ.toWrote
  rw [hkept.content]
  exact hl

theorem writeCluster_spec (h : Inv g K s) (attempts : Nat) (cf : Int)
    (hK : K (cf.tmod g.clusterNum)) {buf : List Page} {pl : List PageId}
    (hlen : buf.length = pl.length) (hcap : pl.length * PAGE_SIZE ≤ g.cap)
    (hl : ∀ pb ∈ pl.zip buf, s.content pb.1 ≠ none ∧ readId pb.2 = pb.1) :
    Yields (writeCluster g (attempts + 1) cf buf pl s) (· = .noZone) fun s' =>
      Wrote g K s s' (pl.zip buf) :=
  (writeCluster_room h attempts cf hK hlen hcap hl).mono (fun _ he => he.1) fun _ hs => hs

end Controller

end ZoneBuffer
