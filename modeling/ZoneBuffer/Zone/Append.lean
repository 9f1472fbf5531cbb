import ZoneBuffer.Zone.Bookkeeping
import Mathlib.Tactic.Ring

set_option autoImplicit false

/-! # Appending pages to a zone

Every writer ends in the same effect: a page is mapped to the write pointer of an open zone and
stored there. `appendOne` is that effect for one page. `write_page`, `write_page_gc` and
`create_new_page` do it in different orders, which commute. `write_cluster` maps all its pages
first and stores them afterwards in batches; `writeClusterLocked_agrees` says that the outcome
is that of appending the pages one by one. -/

namespace ZoneBuffer

open Outcome

/-- A write that targets an open zone at its write pointer and stays inside the part of it the
controller uses. -/
structure Pwrite.Ok (g : Geometry) (w : Pwrite) : Prop where
  zone : w.zone = w.ofst / g.zoneSize ∧ w.zone < g.maxZoneNum
  isOpen : w.before.cond = .expOpen
  atWp : w.before.wp = w.ofst
  inside : g.ofst w.zone ≤ w.ofst ∧
    w.ofst + PAGE_SIZE * w.pages.length ≤ g.ofst w.zone + g.cap

theorem storePages_append (as bs : List Page) (a : Nat) (f : Nat → Option Page) :
    storePages (as ++ bs) a f = storePages bs (a + PAGE_SIZE * as.length) (storePages as a f) := by
  induction as generalizing a f with
  | nil => rfl
  | cons b as ih =>
      rw [List.cons_append, storePages, ih, storePages, List.length_cons]
      congr 1
      ring

namespace Controller

variable (g : Geometry)

/-- Store one page at the write pointer of zone `z`. -/
def storePage (z : Nat) (b : Page) (s : Controller) : Controller :=
  let (s, ret) := s.pwrite64 g [b] (s.zone z).wp
  s.modifyZone z fun d => { d with wp := d.wp + ret }

/-- `storePage`, counted. -/
def storeOne (z : Nat) (b : Page) (s : Controller) : Controller :=
  (storePage g z b s).addWriteCount 1

def storeAll (z : Nat) (bs : List Page) (s : Controller) : Controller :=
  bs.foldl (fun s b => storeOne g z b s) s

/-- Move a mapped page to the write pointer of zone `z` and store it there. -/
def appendOne (z : Nat) (s : Controller) (pb : PageId × Page) : Except Fault Controller := do
  let s ← s.remap g pb.1 (s.zone z).wp
  .ok (storeOne g z pb.2 s)

/-! ## Storing is neutral to the bookkeeping -/

theorem neutral_pwrite64 (bs : List Page) (a : Nat) : Neutral fun s => (s.pwrite64 g bs a).1 where
  withBook _ _ _ _ := rfl
  table _ := rfl
  metaPage _ := rfl
  validPage _ _ := rfl

theorem neutral_advance (z n : Nat) :
    Neutral fun s => s.modifyZone z fun d => { d with wp := d.wp + n } where
  withBook s t m v := by
    -- the two updates touch different fields of the descriptor
    have hzone : Function.update (fun i => { s.zone i with validPage := v i }) z
        { s.zone z with validPage := v z, wp := (s.zone z).wp + n }
          = fun i => { Function.update s.zone z { s.zone z with wp := (s.zone z).wp + n } i with
              validPage := v i } := by
      funext i
      by_cases hi : i = z
      · rw [hi, Function.update_self, Function.update_self]
      · rw [Function.update_of_ne hi, Function.update_of_ne hi]
    simp only [modifyZone, withBook, hzone]
  table _ := rfl
  metaPage _ := rfl
  validPage s i := by
    show (Function.update s.zone z _ i).validPage = _
    by_cases hi : i = z
    · rw [hi, Function.update_self]
    · rw [Function.update_of_ne hi]

theorem neutral_storePage (z : Nat) (b : Page) : Neutral (storePage g z b) where
  withBook s t m v :=
    (neutral_advance z (PAGE_SIZE * [b].length)).withBook (s.pwrite64 g [b] (s.zone z).wp).1 t m v
  table _ := rfl
  metaPage _ := rfl
  validPage s i :=
    (neutral_advance z (PAGE_SIZE * [b].length)).validPage (s.pwrite64 g [b] (s.zone z).wp).1 i

theorem neutral_addWriteCount (n : Nat) : Neutral fun s => s.addWriteCount n where
  withBook _ _ _ _ := rfl
  table _ := rfl
  metaPage _ := rfl
  validPage _ _ := rfl

theorem neutral_storeOne (z : Nat) (b : Page) : Neutral (storeOne g z b) :=
  (neutral_addWriteCount 1).comp (neutral_storePage g z b)

variable {g}

theorem setValid_wp {s s' : Controller} {a : Nat} {v : Bool} (h : s.setValid g a v = .ok s')
    (z : Nat) : (s'.zone z).wp = (s.zone z).wp := by
  obtain ⟨m, w, rfl⟩ := setValid_frame g h
  rfl

theorem remap_frame {s s' : Controller} {p : PageId} {a : Nat} (h : s.remap g p a = .ok s') :
    ∃ t m v, s' = s.withBook t m v := by
  rw [remap] at h
  obtain ⟨old, -, h⟩ := bind_eq_ok.1 h
  obtain ⟨s₁, h₁, h⟩ := bind_eq_ok.1 h
  obtain ⟨m, v, rfl⟩ := setValid_frame g h₁
  rw [setPageAddr_eq] at h
  obtain ⟨m', v', rfl⟩ := setValid_frame g h
  exact ⟨_, m', v', rfl⟩

theorem remap_wp {s s' : Controller} {p : PageId} {a : Nat} (h : s.remap g p a = .ok s')
    (z : Nat) : (s'.zone z).wp = (s.zone z).wp := by
  obtain ⟨t, m, v, rfl⟩ := remap_frame h
  rfl

variable (g)

/-! ## The bodies of the single-page writers -/

theorem writePageLocked_eq (z : Nat) (p : PageId) (b : Page) (s : Controller) :
    writePageLocked g z p b s = appendOne g z s (p, b) >>= fun s => .ok s.incIoCount := by
  rw [writePageLocked, appendOne, remap]
  cases s.getPageAddr p with
  | error e => rfl
  | ok old =>
      simp only [ok_bind]
      cases hs : s.setValid g old false with
      | error e => rfl
      | ok s₁ =>
          have hwp : (s₁.zone z).wp = (s.zone z).wp := setValid_wp hs z
          set s₂ := s₁.setPageAddr p (s₁.zone z).wp with hs₂
          -- storing the page does not disturb the table, so it may be done last
          have hget : (storePage g z b s₂).getPageAddr p = .ok (s₁.zone z).wp :=
            getPageAddr_setPageAddr s₁ p _
          show ((storePage g z b s₂).getPageAddr p >>= fun addr =>
            (storePage g z b s₂).setValid g addr true >>= fun s =>
              .ok ((s.addWriteCount 1).incIoCount)) = _
          rw [hget, ok_bind, (neutral_storePage g z b).setValid, ok_bind, ← hwp, ← hs₂]
          cases s₂.setValid g (s₁.zone z).wp true with
          | error e => rfl
          | ok s₃ => rfl

theorem writePageGcLocked_eq (z : Nat) (p : PageId) (b : Page) (s : Controller) :
    writePageGcLocked g z p b s = appendOne g z s (p, b) >>= fun s => .ok s.incIoCount := by
  rw [writePageGcLocked, appendOne, remap]
  cases s.getPageAddr p with
  | error e => rfl
  | ok old =>
      simp only [ok_bind, setValidGc]
      cases hs : s.setValid g old false with
      | error e => rfl
      | ok s₁ =>
          have hwp : (s₁.zone z).wp = (s.zone z).wp := setValid_wp hs z
          set s₂ := s₁.setPageAddr p (s₁.zone z).wp with hs₂
          -- here the page is stored before it is mapped, which makes no difference either
          have hset : (s₁.pwrite64 g [b] (s₁.zone z).wp).1.setPageAddr p (s₁.zone z).wp
              = (s₂.pwrite64 g [b] (s₁.zone z).wp).1 :=
            (neutral_pwrite64 g [b] (s₁.zone z).wp).setPageAddr s₁ p _
          show (getPageAddr (setPageAddr (s₁.pwrite64 g [b] (s₁.zone z).wp).1 p (s₁.zone z).wp) p
            >>= fun addr =>
              (setPageAddr (s₁.pwrite64 g [b] (s₁.zone z).wp).1 p (s₁.zone z).wp).setValid g addr
                true >>= _) = _
          rw [getPageAddr_setPageAddr, ok_bind, hset, (neutral_pwrite64 g [b] _).setValid, ← hwp,
            ok_bind, ← hs₂]
          cases hs₃ : s₂.setValid g (s₁.zone z).wp true with
          | error e => rfl
          | ok s₃ =>
              have hwp₃ : (s₃.zone z).wp = (s₁.zone z).wp := by
                rw [setValid_wp hs₃ z, hs₂, setPageAddr_eq]
              simp only [ok_bind, storeOne, storePage, hwp₃]
              rfl

theorem createNewPageLocked_eq (z : Nat) (p : PageId) (b : Page) (s : Controller) :
    createNewPageLocked g z p b s
      = s.mapNew g p (s.zone z).wp >>= fun s => .ok (storeOne g z b s).incIoCount := by
  rw [createNewPageLocked, mapNew]
  simp only [getPageAddr_setPageAddr, ok_bind]
  cases (s.setPageAddr p (s.zone z).wp).setValid g (s.zone z).wp true with
  | error e => rfl
  | ok s₁ => rfl

/-! ## `write_cluster`: mapping first is mapping page by page -/

variable {g}

/-- The mapping of page `pi.1` to the `pi.2`-th page after `base`. -/
def remapFrom (g : Geometry) (base : Nat) (s : Controller) (pi : PageId × Nat) :
    Except Fault Controller :=
  s.remap g pi.1 (base + pi.2 * PAGE_SIZE)

theorem mapClusterPage_eq (z : Nat) (s : Controller) (pi : PageId × Nat) :
    mapClusterPage g z s pi = remapFrom g (s.zone z).wp s pi := by
  rw [mapClusterPage, remapFrom, remap]
  cases s.getPageAddr pi.1 with
  | error e => rfl
  | ok old =>
      simp only [ok_bind]
      cases hs : s.setValid g old false with
      | error e => rfl
      | ok s₁ =>
          simp only [ok_bind, getPageAddr_setPageAddr]
          rw [setValid_wp hs z]

/-- The write pointer stays where it was while the pages of a cluster are mapped. -/
theorem mapCluster_eq (z : Nat) (l : List (PageId × Nat)) (s : Controller) :
    l.foldlM (mapClusterPage g z) s = l.foldlM (remapFrom g (s.zone z).wp) s := by
  suffices h : ∀ s' : Controller, (s'.zone z).wp = (s.zone z).wp →
      l.foldlM (mapClusterPage g z) s' = l.foldlM (remapFrom g (s.zone z).wp) s' from h s rfl
  induction l with
  | nil => intro s' _; rfl
  | cons pi l ih =>
      intro s' hs'
      rw [List.foldlM_cons, List.foldlM_cons, mapClusterPage_eq, hs']
      cases hr : remapFrom g (s.zone z).wp s' pi with
      | error e => rfl
      | ok s₁ =>
          rw [ok_bind, ok_bind]
          exact ih s₁ ((remap_wp hr z).trans hs')

theorem Neutral.foldlM_remapFrom {f : Controller → Controller} (hf : Neutral f) (base : Nat)
    (l : List (PageId × Nat)) (s : Controller) :
    l.foldlM (remapFrom g base) (f s) = l.foldlM (remapFrom g base) s >>= fun s => .ok (f s) := by
  induction l generalizing s with
  | nil => rfl
  | cons pi l ih =>
      rw [List.foldlM_cons, List.foldlM_cons, remapFrom, hf.remap]
      show _ = (s.remap g pi.1 (base + pi.2 * PAGE_SIZE) >>= _) >>= _
      cases s.remap g pi.1 (base + pi.2 * PAGE_SIZE) with
      | error e => rfl
      | ok s₁ =>
          rw [ok_bind, ok_bind, ok_bind]
          exact ih s₁

theorem foldlM_remapFrom_frame {base : Nat} {l : List (PageId × Nat)} {s s' : Controller}
    (h : l.foldlM (remapFrom g base) s = .ok s') : ∃ t m v, s' = s.withBook t m v := by
  induction l generalizing s with
  | nil =>
      cases h
      exact ⟨_, _, fun i => (s'.zone i).validPage, rfl⟩
  | cons pi l ih =>
      rw [List.foldlM_cons] at h
      obtain ⟨s₁, h₁, h⟩ := bind_eq_ok.1 h
      obtain ⟨t, m, v, rfl⟩ := remap_frame h₁
      obtain ⟨t', m', v', rfl⟩ := ih h
      exact ⟨t', m', v', rfl⟩

theorem storeOne_wp (z : Nat) (b : Page) (s : Controller) :
    ((storeOne g z b s).zone z).wp = (s.zone z).wp + PAGE_SIZE := by
  show (Function.update s.zone z _ z).wp = _
  rw [Function.update_self]
  rfl

/-- **Mapping all pages and then storing them is appending them one by one.** -/
theorem appendAll_eq (z base : Nat) (pl : List PageId) (bs : List Page)
    (hlen : bs.length = pl.length) (k : Nat) (s : Controller)
    (hbase : (s.zone z).wp = base + k * PAGE_SIZE) :
    (pl.zip bs).foldlM (appendOne g z) s
      = (pl.zipIdx k).foldlM (remapFrom g base) s >>= fun s => .ok (storeAll g z bs s) := by
  induction pl generalizing bs k s with
  | nil =>
      rw [List.length_nil, List.length_eq_zero_iff] at hlen
      subst hlen
      rfl
  | cons p pl ih =>
      cases bs with
      | nil => cases hlen
      | cons b bs =>
          rw [List.zip_cons_cons, List.foldlM_cons, List.zipIdx_cons, List.foldlM_cons, appendOne,
            remapFrom, hbase]
          cases hr : s.remap g p (base + k * PAGE_SIZE) with
          | error e => rfl
          | ok s₁ =>
              -- the next page goes one page further, in both orders
              have hnext : ((storeOne g z b s₁).zone z).wp = base + (k + 1) * PAGE_SIZE := by
                rw [storeOne_wp, remap_wp hr z, hbase]
                ring
              simp only [ok_bind]
              rw [ih bs (Nat.succ.inj hlen) (k + 1) _ hnext,
                (neutral_storeOne g z b).foldlM_remapFrom]
              cases (pl.zipIdx (k + 1)).foldlM (remapFrom g base) s₁ with
              | error e => rfl
              | ok s₂ => rfl

/-! ## `write_cluster`: storing in batches is storing page by page -/

/-- The state without the log of writes and the count of calls, the two things batching
changes. -/
def forget (s : Controller) : Controller := { s with pwrites := [], ioCount := 0 }

/-- Zone `z` is open, in step with the device, and has room for `n` more pages. -/
structure Ready (g : Geometry) (s : Controller) (z n : Nat) : Prop where
  sync : s.dev.zone z = ⟨.expOpen, (s.zone z).wp⟩
  ge : g.ofst z ≤ (s.zone z).wp
  room : (s.zone z).wp + n * PAGE_SIZE ≤ g.ofst z + g.cap

/-- The state after the pages `bs` are stored at the write pointer of zone `z`, up to
`forget`. -/
def stored (z : Nat) (bs : List Page) (s : Controller) : Controller :=
  { s with
    zone := Function.update s.zone z
      { s.zone z with wp := (s.zone z).wp + PAGE_SIZE * bs.length }
    dev := {
      page := storePages bs (s.zone z).wp s.dev.page
      zone := Function.update s.dev.zone z
        ⟨.expOpen, (s.zone z).wp + PAGE_SIZE * bs.length⟩ }
    writeCount := s.writeCount + UInt32.ofNat bs.length
    pwrites := []
    ioCount := 0 }

theorem stored_forget (z : Nat) (bs : List Page) (s : Controller) :
    stored z bs s.forget = stored z bs s := rfl

theorem stored_append (z : Nat) (as bs : List Page) (s : Controller) :
    stored z (as ++ bs) s = stored z bs (stored z as s) := by
  simp only [stored, Function.update_self, Function.update_idem, storePages_append,
    List.length_append, Nat.mul_add, Nat.add_assoc, UInt32.ofNat_add, UInt32.add_assoc]

theorem Ready.div_zoneSize {s : Controller} {z n : Nat} (h : Ready g s z n) :
    (s.zone z).wp / g.zoneSize = z := by
  have h1 := h.room
  have h2 := g.cap_lt
  exact g.div_zoneSize h.ge (by omega)

/-- **What one `pwrite64` of `write_cluster` does.** -/
theorem writeBatch_spec {z n : Nat} {buf : List Page} {first : Nat} {s : Controller}
    (h : Ready g s z n) (hn : ((buf.drop first).take n).length = n) (hz : z < g.maxZoneNum)
    (hlog : ∀ w ∈ s.pwrites, w.Ok g) :
    (writeBatch g z buf first n s).forget = stored z ((buf.drop first).take n) s ∧
      ∀ w ∈ (writeBatch g z buf first n s).pwrites, w.Ok g := by
  set bs := (buf.drop first).take n with hbs
  have hdiv := h.div_zoneSize
  -- the device is at the write pointer, so the write advances it
  have hdev : s.dev.pwrite g bs (s.zone z).wp
      = { page := storePages bs (s.zone z).wp s.dev.page
          zone := Function.update s.dev.zone z
            ⟨.expOpen, (s.zone z).wp + PAGE_SIZE * bs.length⟩ } := by
    simp only [Device.pwrite, hdiv, h.sync, if_true]
  constructor
  · simp only [writeBatch, pwrite64, modifyZone, addWriteCount, forget, stored, ← hbs, hdev, hn]
  · intro w hw
    have hw' : w ∈ s.pwrites ++ [⟨(s.zone z).wp / g.zoneSize,
        s.dev.zone ((s.zone z).wp / g.zoneSize), (s.zone z).wp, bs⟩] := hw
    rcases List.mem_append.1 hw' with hw | hw
    · exact hlog w hw
    · rw [List.mem_singleton.1 hw, hdiv, h.sync]
      refine ⟨⟨hdiv.symm, hz⟩, rfl, rfl, h.ge, ?_⟩
      have := h.room
      rw [hn, Nat.mul_comm]
      exact this

theorem Ready.of_forget {s s' : Controller} {z n : Nat} (h : Ready g s z n)
    (hf : s'.forget = s.forget) : Ready g s' z n := by
  have hzone : s'.forget.zone = s.forget.zone := by rw [hf]
  have hdev : s'.forget.dev = s.forget.dev := by rw [hf]
  replace hzone : s'.zone = s.zone := hzone
  replace hdev : s'.dev = s.dev := hdev
  exact ⟨by rw [hdev, hzone]; exact h.sync, by rw [hzone]; exact h.ge, by rw [hzone]; exact h.room⟩

/-- What is left of the room after some pages are stored. -/
theorem Ready.stored {s : Controller} {z n : Nat} {bs : List Page}
    (h : Ready g s z (bs.length + n)) : Ready g (stored z bs s) z n := by
  have hroom := h.room
  have hge := h.ge
  refine ⟨?_, ?_, ?_⟩
  · simp only [Controller.stored, Function.update_self]
  · simp only [Controller.stored, Function.update_self]
    omega
  · simp only [Controller.stored, Function.update_self]
    rw [Nat.add_mul, Nat.mul_comm bs.length] at hroom
    omega

theorem Ready.stored_nil {s : Controller} {z : Nat} (h : Ready g s z 0) :
    Controller.stored z [] s = s.forget := by
  have hzone : Function.update s.zone z (s.zone z) = s.zone := Function.update_eq_self ..
  have hdev : Function.update s.dev.zone z ⟨.expOpen, (s.zone z).wp⟩ = s.dev.zone := by
    rw [← h.sync]
    exact Function.update_eq_self ..
  have hcount : s.writeCount + UInt32.ofNat 0 = s.writeCount := UInt32.add_zero _
  simp only [Controller.stored, List.length_nil, Nat.mul_zero, Nat.add_zero, hzone, hdev, hcount,
    storePages, forget]

theorem storeAll_forget {z : Nat} {bs : List Page} {s : Controller}
    (h : Ready g s z bs.length) (hz : z < g.maxZoneNum) :
    (storeAll g z bs s).forget = stored z bs s := by
  suffices hgen : ∀ s' done, s'.forget = stored z done s → Ready g s' z bs.length →
      (storeAll g z bs s').forget = stored z (done ++ bs) s by
    have h0 : Ready g s z 0 := ⟨h.sync, h.ge, le_trans (by omega) h.room⟩
    exact hgen s [] h0.stored_nil.symm h
  clear h
  induction bs with
  | nil =>
      intro s' done hs' _
      rw [List.append_nil]
      exact hs'
  | cons b bs ih =>
      intro s' done hs' hready
      have hone : Ready g s' z 1 := by
        refine ⟨hready.sync, hready.ge, le_trans ?_ hready.room⟩
        rw [List.length_cons, Nat.add_mul]
        omega
      -- storing one page is a batch of one
      have hstep : (storeOne g z b s').forget = stored z [b] s' := by
        have hnone : ∀ w ∈ ({ s' with pwrites := [] } : Controller).pwrites, w.Ok g := by
          intro w hw
          cases hw
        have hone' : Ready g { s' with pwrites := [] } z 1 := ⟨hone.sync, hone.ge, hone.room⟩
        have hlen : (([b].drop 0).take 1).length = 1 := rfl
        exact (writeBatch_spec hone' hlen hz hnone).1
      have hforget : (storeOne g z b s').forget = stored z (done ++ [b]) s := by
        rw [hstep, ← stored_forget, hs', stored_append]
      have hnext : Ready g (storeOne g z b s') z bs.length :=
        Ready.of_forget (Ready.stored (by rwa [Nat.add_comm])) hstep
      show (storeAll g z bs (storeOne g z b s')).forget = _
      rw [ih _ _ hforget hnext, List.append_assoc, List.singleton_append]

/-- **The batches take up the buffer one after the other**, the remainder last: what holds at the
start, and is carried past each batch, holds of the whole buffer at the end. -/
theorem storeBatches_induct {P : Nat → Controller → Prop} (z : Nat) (buf : List Page)
    (s : Controller) (hstart : P 0 s)
    (hbatch : ∀ first m s', first + m ≤ buf.length → P first s' →
      P (first + m) (writeBatch g z buf first m s')) :
    P buf.length ((List.range (buf.length / WRITE_BATCH + 1)).foldl
      (storeBatch g z buf buf.length) s) := by
  have hpre : ∀ k, k ≤ buf.length / WRITE_BATCH →
      P (k * WRITE_BATCH) ((List.range k).foldl (storeBatch g z buf buf.length) s) := by
    intro k
    induction k with
    | zero =>
        intro _
        rw [Nat.zero_mul]
        exact hstart
    | succ k ih =>
        intro hk
        have hle := le_trans (Nat.mul_le_mul_right WRITE_BATCH hk) (Nat.div_mul_le_self _ _)
        rw [Nat.add_mul, Nat.one_mul] at hle ⊢
        rw [List.range_succ, List.foldl_append, List.foldl_cons, List.foldl_nil, storeBatch,
          if_pos (by omega)]
        exact hbatch _ _ _ hle (ih (by omega))
  -- the last iteration takes the remainder
  have hsum := Nat.div_add_mod' buf.length WRITE_BATCH
  have hlast := hbatch _ (buf.length % WRITE_BATCH) _ (le_of_eq hsum) (hpre _ (le_refl _))
  rw [hsum] at hlast
  rwa [List.range_succ, List.foldl_append, List.foldl_cons, List.foldl_nil, storeBatch,
    if_neg (by simp)]

/-- A batch that lies in the buffer has as many pages as it is said to have. -/
theorem length_batch {first m : Nat} {buf : List Page} (h : first + m ≤ buf.length) :
    ((buf.drop first).take m).length = m := by
  rw [List.length_take, List.length_drop]
  omega

/-- One batch takes the pages stored so far from `first` to `first + m`. -/
theorem batch_step {z m first : Nat} {buf : List Page} {s s' : Controller}
    (h : Ready g s z buf.length) (hz : z < g.maxZoneNum)
    (hforget : s'.forget = stored z (buf.take first) s) (hlog : ∀ w ∈ s'.pwrites, w.Ok g)
    (hle : first + m ≤ buf.length) :
    (writeBatch g z buf first m s').forget = stored z (buf.take (first + m)) s ∧
      ∀ w ∈ (writeBatch g z buf first m s').pwrites, w.Ok g := by
  have htake : (buf.take first).length = first := by
    rw [List.length_take]
    omega
  have hroom : Ready g s z ((buf.take first).length + m) := by
    refine ⟨h.sync, h.ge, le_trans ?_ h.room⟩
    rw [htake]
    exact Nat.add_le_add_left (Nat.mul_le_mul_right _ hle) _
  obtain ⟨hf, hl⟩ := writeBatch_spec (hroom.stored.of_forget hforget) (length_batch hle) hz hlog
  refine ⟨?_, hl⟩
  rw [hf, ← stored_forget, hforget, List.take_add, stored_append]

/-- **Storing in batches, the remainder last, is storing all pages.** -/
theorem storeBatches_spec {z : Nat} {buf : List Page} {s : Controller}
    (h : Ready g s z buf.length) (hz : z < g.maxZoneNum) (hlog : ∀ w ∈ s.pwrites, w.Ok g) :
    ((List.range (buf.length / WRITE_BATCH + 1)).foldl (storeBatch g z buf buf.length) s).forget
        = stored z buf s ∧
      ∀ w ∈ ((List.range (buf.length / WRITE_BATCH + 1)).foldl
        (storeBatch g z buf buf.length) s).pwrites, w.Ok g := by
  have h0 : Ready g s z 0 := ⟨h.sync, h.ge, le_trans (by omega) h.room⟩
  have hall := storeBatches_induct (g := g) (P := fun k s' =>
    s'.forget = stored z (buf.take k) s ∧ ∀ w ∈ s'.pwrites, w.Ok g) z buf s
    (by rw [List.take_zero]; exact ⟨h0.stored_nil.symm, hlog⟩)
    fun first m s' hle hs' => batch_step h hz hs'.1 hs'.2 hle
  rwa [List.take_length] at hall

/-- **`write_cluster` agrees with appending its pages one by one**: where the latter succeeds,
so does the former, with the same state up to the log of writes and the count of calls. -/
theorem writeClusterLocked_agrees {z : Nat} {buf : List Page} {pl : List PageId}
    {s s₁ : Controller} (h : Ready g s z pl.length) (hlen : buf.length = pl.length)
    (hz : z < g.maxZoneNum) (hlog : ∀ w ∈ s.pwrites, w.Ok g)
    (hok : (pl.zip buf).foldlM (appendOne g z) s = .ok s₁) :
    ∃ s₂, writeClusterLocked g z buf pl s = .ok s₂ ∧ s₂.forget = s₁.forget ∧
      ∀ w ∈ s₂.pwrites, w.Ok g := by
  rw [appendAll_eq z (s.zone z).wp pl buf hlen 0 s (by rw [Nat.zero_mul, Nat.add_zero])] at hok
  obtain ⟨sm, hmap, hstore⟩ := bind_eq_ok.1 hok
  cases hstore
  obtain ⟨t, m, v, hframe⟩ := foldlM_remapFrom_frame hmap
  have hready : Ready g sm z pl.length := by
    rw [hframe]
    exact ⟨h.sync, h.ge, h.room⟩
  have hlogm : ∀ w ∈ sm.pwrites, w.Ok g := by
    rw [hframe]
    exact hlog
  rw [← hlen] at hready
  obtain ⟨hf, hl⟩ := storeBatches_spec hready hz hlogm
  refine ⟨incIoCount ((List.range (buf.length / WRITE_BATCH + 1)).foldl
    (storeBatch g z buf buf.length) sm), ?_, ?_, hl⟩
  · rw [writeClusterLocked, hlen]
    simp only [mapCluster_eq, hmap, ok_bind]
  · rw [storeAll_forget hready hz, ← hf]
    rfl

end Controller

end ZoneBuffer
