import ZoneBuffer.Zone.Log
import ZoneBuffer.Zone.Writers

set_option autoImplicit false

/-! # The writers in any state

The specifications of the writers start from the invariant. Beside a second writer the invariant
need not hold between the two halves of a call, and what is counted, flagged or advanced does not
depend on it. Here, as for the choice of a zone (`Selected`), nothing is assumed of the state:
`Worked` is what the body of a writer does once it returns. -/

namespace ZoneBuffer

open Outcome

namespace Controller

variable {g : Geometry} {c : Int} {n m z : Nat} {s s' s'' : Controller} {e : Fault}

/-! ## Working in a zone -/

/-- **What the body of a writer does when it stores `n` pages in zone `z`**: the write pointer of
the zone moves on by `n` pages, which have been sent to the device and counted. Of the other
fields of the zones only the valid-page counts have changed. -/
structure Worked (z n : Nat) (s s' : Controller) : Prop where
  zone : ∀ i, s'.zone i = { s.zone i with
    validPage := (s'.zone i).validPage
    wp := if i = z then (s.zone z).wp + n * PAGE_SIZE else (s.zone i).wp }
  gc : s'.gc = s.gc
  cd : s'.cd = s.cd
  sent : ∃ pages, Logged s s' pages ∧ pages.length = n
  count : s'.writeCount = s.writeCount + UInt32.ofNat n

theorem Worked.wp (h : Worked z n s s') (i : Nat) :
    (s'.zone i).wp = if i = z then (s.zone z).wp + n * PAGE_SIZE else (s.zone i).wp := by
  rw [h.zone]

theorem Worked.cond (h : Worked z n s s') (i : Nat) : (s'.zone i).cond = (s.zone i).cond := by
  rw [h.zone]

theorem Worked.trans (h : Worked z n s s') (h' : Worked z m s' s'') :
    Worked z (n + m) s s'' where
  zone i := by
    rw [h'.zone i, h.zone i, h.wp, if_pos rfl, Nat.add_mul, Nat.add_assoc]
    split
    · rfl
    · rfl
  gc := h'.gc.trans h.gc
  cd := h'.cd.trans h.cd
  sent := by
    obtain ⟨pages, hlog, hlen⟩ := h.sent
    obtain ⟨pages', hlog', hlen'⟩ := h'.sent
    exact ⟨pages ++ pages', hlog.trans hlog', by rw [List.length_append, hlen, hlen']⟩
  count := by rw [h'.count, h.count, UInt32.add_assoc, ← UInt32.ofNat_add]

/-- A change of the table, the bitmap and the counters of calls stores nothing. -/
theorem Worked.of_withBook {t : PartialMap PageId Nat} {b : Nat → Bool} {v : Nat → Int}
    (h : Worked z n (s.withBook t b v) s') : Worked z n s s' :=
  ⟨h.zone, h.gc, h.cd, h.sent, h.count⟩

theorem Worked.incIoCount (h : Worked z n s s') : Worked z n s s'.incIoCount :=
  ⟨h.zone, h.gc, h.cd, h.sent, h.count⟩

theorem worked_nil (z : Nat) (s : Controller) : Worked z 0 s s where
  zone i := by
    split
    case isTrue hi => rw [hi, Nat.zero_mul, Nat.add_zero]
    case isFalse => rfl
  gc := rfl
  cd := rfl
  sent := ⟨[], Logged.of_eq rfl, rfl⟩
  count := (UInt32.add_zero _).symm

/-- One `pwrite64` of `write_cluster`. -/
theorem worked_writeBatch (z : Nat) {buf : List Page} {first : Nat} (s : Controller)
    (hn : ((buf.drop first).take n).length = n) :
    Worked z n s (writeBatch g z buf first n s) where
  zone i := by
    -- `write_cluster` advances the pointer by the bytes written
    have hz : (writeBatch g z buf first n s).zone i = if i = z then { s.zone z with
        wp := (s.zone z).wp + PAGE_SIZE * ((buf.drop first).take n).length } else s.zone i :=
      Function.update_apply ..
    rw [hz, hn, Nat.mul_comm]
    split
    case isTrue hi => rw [hi]
    case isFalse => rfl
  gc := rfl
  cd := rfl
  sent := ⟨_, writeBatch_logged z buf first n s, hn⟩
  count := rfl

/-- A page stored is a batch of one. -/
theorem worked_storeOne (z : Nat) (b : Page) (s : Controller) :
    Worked z 1 s (storeOne g z b s) :=
  @worked_writeBatch g 1 z [b] 0 s rfl

/-- The batches of `write_cluster`. -/
theorem worked_storeBatches (z : Nat) (buf : List Page) (s : Controller) :
    Worked z buf.length s ((List.range (buf.length / WRITE_BATCH + 1)).foldl
      (storeBatch g z buf buf.length) s) :=
  storeBatches_induct (P := fun k s' => Worked z k s s') z buf s (worked_nil z s)
    fun _ _ s' hle hs' => hs'.trans (worked_writeBatch z s' (length_batch hle))

/-! ## The bodies of the writers -/

theorem appendOne_worked {p : PageId} {b : Page} (h : appendOne g z s (p, b) = .ok s') :
    Worked z 1 s s' := by
  rw [appendOne] at h
  obtain ⟨s₁, hmap, h⟩ := bind_eq_ok.1 h
  cases h
  obtain ⟨t, v, w, rfl⟩ := remap_frame hmap
  exact (worked_storeOne z b _).of_withBook

theorem writePageLocked_worked {p : PageId} {b : Page}
    (h : writePageLocked g z p b s = .ok s') : Worked z 1 s s' := by
  rw [writePageLocked_eq] at h
  obtain ⟨s₁, happ, h⟩ := bind_eq_ok.1 h
  cases h
  exact (appendOne_worked happ).incIoCount

theorem writePageGcLocked_worked {p : PageId} {b : Page}
    (h : writePageGcLocked g z p b s = .ok s') : Worked z 1 s s' := by
  rw [writePageGcLocked_eq] at h
  obtain ⟨s₁, happ, h⟩ := bind_eq_ok.1 h
  cases h
  exact (appendOne_worked happ).incIoCount

theorem createNewPageLocked_worked {p : PageId} {b : Page}
    (h : createNewPageLocked g z p b s = .ok s') : Worked z 1 s s' := by
  rw [createNewPageLocked_eq] at h
  obtain ⟨s₁, hmap, h⟩ := bind_eq_ok.1 h
  cases h
  rw [mapNew, setPageAddr_eq] at hmap
  obtain ⟨v, w, rfl⟩ := setValid_frame g hmap
  exact (worked_storeOne z b (s.withBook _ v w)).of_withBook.incIoCount

theorem writeClusterLocked_worked {buf : List Page} {pl : List PageId}
    (hlen : buf.length = pl.length) (h : writeClusterLocked g z buf pl s = .ok s') :
    Worked z pl.length s s' := by
  rw [writeClusterLocked] at h
  obtain ⟨s₁, hmap, h⟩ := bind_eq_ok.1 h
  cases h
  rw [mapCluster_eq] at hmap
  obtain ⟨t, v, w, rfl⟩ := foldlM_remapFrom_frame hmap
  rw [← hlen]
  exact (worked_storeBatches z buf _).of_withBook.incIoCount

/-! ## The calls -/

/-- What a writer of `n` pages to cluster `cf` does, run alone: it works in the zone it
chooses. -/
def Ran (g : Geometry) (cf : Int) (n : Nat) (s s' : Controller) : Prop :=
  ∃ z s₁, Selected g (cf.tmod g.clusterNum) n s z s₁ ∧ Worked z n s₁ s'

/-- A zone just chosen is open, so the writer does not retry. -/
theorem choose_any {cf : Int} (retry : Controller → Except Fault Controller)
    (body : Nat → Controller → Except Fault Controller)
    (h : (selectWriteZone g cf n s >>= fun r =>
      if (r.2.zone r.1).cond ≠ .expOpen then retry r.2 else body r.1 r.2) = .ok s') :
    ∃ z s₁, Selected g (cf.tmod g.clusterNum) n s z s₁ ∧ body z s₁ = .ok s' := by
  obtain ⟨⟨z, s₁⟩, hsel, h⟩ := bind_eq_ok.1 h
  have hselected := selectWriteZone_selected hsel
  rw [if_neg (not_not.2 hselected.cond)] at h
  exact ⟨z, s₁, hselected, h⟩

theorem writePage_ran {attempts : Nat} {cf : Int} {p : PageId} {b : Page}
    (h : writePage g attempts cf p b s = .ok s') : Ran g cf 1 s s' := by
  cases attempts with
  | zero => cases h
  | succ attempts =>
      obtain ⟨z, s₁, hsel, hbody⟩ := choose_any (writePage g attempts cf p b)
        (fun z => writePageLocked g z p b) h
      exact ⟨z, s₁, hsel, writePageLocked_worked hbody⟩

theorem writePageGc_ran {attempts : Nat} {cf : Int} {p : PageId} {b : Page}
    (h : writePageGc g attempts cf p b s = .ok s') : Ran g cf 1 s s' := by
  cases attempts with
  | zero => cases h
  | succ attempts =>
      obtain ⟨z, s₁, hsel, hbody⟩ := choose_any (writePageGc g attempts cf p b)
        (fun z => writePageGcLocked g z p b) h
      exact ⟨z, s₁, hsel, writePageGcLocked_worked hbody⟩

theorem writeCluster_ran {attempts : Nat} {cf : Int} {buf : List Page} {pl : List PageId}
    (hlen : buf.length = pl.length) (h : writeCluster g attempts cf buf pl s = .ok s') :
    Ran g cf pl.length s s' := by
  cases attempts with
  | zero => cases h
  | succ attempts =>
      obtain ⟨z, s₁, hsel, hbody⟩ := choose_any (writeCluster g attempts cf buf pl)
        (fun z => writeClusterLocked g z buf pl) h
      exact ⟨z, s₁, hsel, writeClusterLocked_worked hlen hbody⟩

theorem createNewPage_ran {attempts : Nat} {p : PageId} {b : Page}
    (h : createNewPage g attempts p b s = .ok s') : Ran g 0 1 s s' := by
  obtain ⟨z, s₁, hsel, hbody⟩ := choose_any (writePage g attempts 0 p b)
    (fun z => createNewPageLocked g z p b) h
  exact ⟨z, s₁, hsel, createNewPageLocked_worked hbody⟩

end Controller

end ZoneBuffer
