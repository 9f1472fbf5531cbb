import ZoneBuffer.Zone.Steady
import ZoneBuffer.Zone.Runs

set_option autoImplicit false

/-! # A cluster written at once, and page by page

`write_cluster` assigns all addresses from the write pointer it starts with and moves the pointer
batch by batch afterwards. `pagewise` applies the body of `write_page` to one page after the
other. In every state the two stop with the same fault or leave the same table, bitmap, zones,
pages and count (`writeClusterLocked_pagewise`); only the log of writes and the count of calls
tell them apart. From a state a run reaches, both succeed where the cluster fits in a zone. -/

namespace ZoneBuffer

open Outcome Machine

namespace Controller

variable {g : Geometry} {K : Int → Prop} {base k z : Nat} {s s' s'' : Controller}
  {bs bs' buf : List Page} {pl : List PageId} {p : PageId}

/-- The body of `write_page`, applied to the pages of `l` in order. -/
def pagewise (g : Geometry) (z : Nat) (l : List (PageId × Page)) (s : Controller) :
    Except Fault Controller :=
  l.foldlM (fun s pb => writePageLocked g z pb.1 pb.2 s) s

/-- The same table, bitmap, zones, pages and count. -/
structure SameStore (s s' : Controller) : Prop where
  table : s'.table = s.table
  metaPage : s'.metaPage = s.metaPage
  zone : s'.zone = s.zone
  page : s'.dev.page = s.dev.page
  writeCount : s'.writeCount = s.writeCount

/-! ## Storing -/

/-- The pages `bs` have been stored at the write pointer of zone `z`, in whatever batches. -/
structure Laid (z : Nat) (bs : List Page) (s s' : Controller) : Prop where
  table : s'.table = s.table
  metaPage : s'.metaPage = s.metaPage
  zone : s'.zone = Function.update s.zone z
    { s.zone z with wp := (s.zone z).wp + PAGE_SIZE * bs.length }
  page : s'.dev.page = storePages bs (s.zone z).wp s.dev.page
  writeCount : s'.writeCount = s.writeCount + UInt32.ofNat bs.length

theorem Laid.trans (h : Laid z bs s s') (h' : Laid z bs' s' s'') : Laid z (bs ++ bs') s s'' where
  table := h'.table.trans h.table
  metaPage := h'.metaPage.trans h.metaPage
  zone := by
    rw [h'.zone, h.zone, Function.update_self, Function.update_idem, List.length_append,
      Nat.mul_add, Nat.add_assoc]
  page := by
    rw [h'.page, h.page, h.zone, Function.update_self, storePages_append]
  writeCount := by
    rw [h'.writeCount, h.writeCount, List.length_append, UInt32.ofNat_add, UInt32.add_assoc]

theorem laid_nil (z : Nat) (s : Controller) : Laid z [] s s :=
  ⟨rfl, rfl, (Function.update_eq_self z s.zone).symm, rfl, (UInt32.add_zero _).symm⟩

theorem laid_writeBatch (z : Nat) {first n : Nat} (s : Controller)
    (hn : ((buf.drop first).take n).length = n) :
    Laid z ((buf.drop first).take n) s (writeBatch g z buf first n s) :=
  ⟨rfl, rfl, rfl, rfl, by rw [hn]; rfl⟩

theorem laid_storeAll (z : Nat) (bs : List Page) (s : Controller) :
    Laid z bs s (storeAll g z bs s) := by
  induction bs generalizing s with
  | nil => exact laid_nil z s
  | cons b bs ih =>
      have hone : Laid z [b] s (storeOne g z b s) := @laid_writeBatch g [b] z 0 1 s rfl
      exact hone.trans (ih _)

theorem laid_storeBatches (z : Nat) (buf : List Page) (s : Controller) :
    Laid z buf s ((List.range (buf.length / WRITE_BATCH + 1)).foldl
      (storeBatch g z buf buf.length) s) := by
  have hall := storeBatches_induct (g := g) (P := fun k s' => Laid z (buf.take k) s s') z buf s
    (by rw [List.take_zero]; exact laid_nil z s) fun first m s' hle hs' => by
      rw [List.take_add]
      exact hs'.trans (laid_writeBatch z s' (length_batch hle))
  rwa [List.take_length] at hall

/-- Page `i` of the buffer is `i` pages after the first. -/
theorem storePages_apply (bs : List Page) (a : Nat) (f : Nat → Option Page) (i : Nat)
    (hi : i < bs.length) : storePages bs a f (a + i * PAGE_SIZE) = some bs[i] := by
  -- the pages are stored upwards, so what lies below stays
  have hbelow : ∀ (bs : List Page) (a x : Nat) (f : Nat → Option Page), x < a →
      storePages bs a f x = f x := by
    intro bs
    induction bs with
    | nil => intro a x f _; rfl
    | cons b bs ih =>
        intro a x f hx
        have hne : x ≠ a := by omega
        rw [storePages, ih _ _ _ (by omega), Function.update_of_ne hne]
  induction bs generalizing a f i with
  | nil => cases hi
  | cons b bs ih =>
      rw [storePages]
      cases i with
      | zero =>
          rw [Nat.zero_mul, Nat.add_zero, hbelow _ _ _ _ (Nat.lt_add_of_pos_right (by decide)),
            Function.update_self]
          rfl
      | succ i =>
          have haddr : a + (i + 1) * PAGE_SIZE = a + PAGE_SIZE + i * PAGE_SIZE := by ring
          rw [haddr]
          exact ih _ _ i (Nat.lt_of_succ_lt_succ hi)

/-! ## Mapping -/

theorem remap_table {a : Nat} (h : s.remap g p a = .ok s') :
    s'.table = s.table.insertOrAssign p a := by
  rw [remap] at h
  obtain ⟨old, -, h⟩ := bind_eq_ok.1 h
  obtain ⟨s₁, h₁, h⟩ := bind_eq_ok.1 h
  obtain ⟨m, v, rfl⟩ := setValid_frame g h₁
  rw [setPageAddr_eq] at h
  obtain ⟨m', v', rfl⟩ := setValid_frame g h
  rfl

theorem remapFrom_table_of_notMem (hp : p ∉ pl)
    (h : (pl.zipIdx k).foldlM (remapFrom g base) s = .ok s') : s'.table p = s.table p := by
  induction pl generalizing s k with
  | nil =>
      cases h
      rfl
  | cons q pl ih =>
      obtain ⟨s₁, h₁, h⟩ := bind_eq_ok.1 h
      rw [ih (fun hmem => hp (List.mem_cons_of_mem q hmem)) h, remap_table h₁]
      exact PartialMap.insertOrAssign_of_ne _ _ fun heq => hp (heq ▸ List.mem_cons_self)

/-- The last copy of a page in the list is the one it is mapped to. -/
theorem remapFrom_table (h : (pl.zipIdx k).foldlM (remapFrom g base) s = .ok s') (i : Nat)
    (hi : i < pl.length) (hlast : pl[i] ∉ pl.drop (i + 1)) :
    s'.table pl[i] = some (base + (k + i) * PAGE_SIZE) := by
  induction pl generalizing s k i with
  | nil => cases hi
  | cons q pl ih =>
      obtain ⟨s₁, h₁, h⟩ := bind_eq_ok.1 h
      cases i with
      | zero =>
          rw [List.drop_succ_cons, List.drop_zero] at hlast
          -- no later copy: the rest of the list leaves the entry
          rw [remapFrom_table_of_notMem hlast h, remap_table h₁]
          exact PartialMap.insertOrAssign_self ..
      | succ i =>
          have hnext := ih h i (Nat.lt_of_succ_lt_succ hi) hlast
          rw [Nat.add_right_comm k 1 i] at hnext
          exact hnext

/-- A page mapped by the fold is mapped to one of the positions of the cluster. -/
theorem remapFrom_table_of_some {a : Nat}
    (h : (pl.zipIdx k).foldlM (remapFrom g base) s = .ok s') (hp : s'.table p = some a) :
    s.table p = some a ∨ ∃ i < pl.length, a = base + (k + i) * PAGE_SIZE := by
  induction pl generalizing s k with
  | nil =>
      cases h
      exact Or.inl hp
  | cons q pl ih =>
      obtain ⟨s₁, h₁, h⟩ := bind_eq_ok.1 h
      rcases ih h with hp₁ | ⟨i, hi, rfl⟩
      · rw [remap_table h₁, PartialMap.insertOrAssign_eq_some] at hp₁
        rcases hp₁ with ⟨-, rfl⟩ | ⟨-, hp₁⟩
        · exact Or.inr ⟨0, by simp, rfl⟩
        · exact Or.inl hp₁
      · exact Or.inr ⟨i + 1, by simpa using hi, by ring⟩

theorem writePageLocked_table {b : Page} (h : writePageLocked g z p b s = .ok s') :
    s'.table = s.table.insertOrAssign p (s.zone z).wp := by
  rw [writePageLocked_eq] at h
  obtain ⟨s₁, happ, h⟩ := bind_eq_ok.1 h
  rw [appendOne] at happ
  obtain ⟨s₂, hmap, happ⟩ := bind_eq_ok.1 happ
  cases happ
  cases h
  exact (remap_table hmap : s₂.table = _)

theorem writePageGcLocked_table {b : Page} (h : writePageGcLocked g z p b s = .ok s') :
    s'.table = s.table.insertOrAssign p (s.zone z).wp := by
  rw [writePageGcLocked_eq, ← writePageLocked_eq] at h
  exact writePageLocked_table h

theorem createNewPageLocked_table {b : Page} (h : createNewPageLocked g z p b s = .ok s') :
    s'.table = s.table.insertOrAssign p (s.zone z).wp := by
  rw [createNewPageLocked_eq] at h
  obtain ⟨s₁, hmap, h⟩ := bind_eq_ok.1 h
  cases h
  rw [mapNew, setPageAddr_eq] at hmap
  obtain ⟨m, v, rfl⟩ := setValid_frame g hmap
  rfl

theorem writeClusterLocked_table {a : Nat} (hlen : buf.length = pl.length)
    (h : writeClusterLocked g z buf pl s = .ok s') (hp : s'.table p = some a) :
    s.table p = some a ∨ ∃ i < pl.length, a = (s.zone z).wp + i * PAGE_SIZE := by
  rw [writeClusterLocked] at h
  obtain ⟨s₁, hmap, h⟩ := bind_eq_ok.1 h
  cases h
  rw [← hlen] at hp
  have ht := (laid_storeBatches (g := g) z buf s₁).table
  rw [mapCluster_eq] at hmap
  have hall := remapFrom_table_of_some hmap ((congrFun ht p).symm.trans hp)
  simpa only [Nat.zero_add] using hall

/-! ## Page by page -/

theorem appendOne_incIoCount (z : Nat) (s : Controller) (pb : PageId × Page) :
    appendOne g z s.incIoCount pb = appendOne g z s pb >>= fun s => .ok s.incIoCount := by
  have hneutral : Neutral incIoCount :=
    ⟨fun _ _ _ _ => rfl, fun _ => rfl, fun _ => rfl, fun _ _ => rfl⟩
  rw [appendOne, appendOne, show (s.incIoCount.zone z).wp = (s.zone z).wp from rfl,
    hneutral.remap]
  cases s.remap g pb.1 (s.zone z).wp with
  | error e => rfl
  | ok s₁ => rfl

theorem foldlM_appendOne_incIoCount (z : Nat) (l : List (PageId × Page)) (s : Controller) :
    l.foldlM (appendOne g z) s.incIoCount
      = l.foldlM (appendOne g z) s >>= fun s => .ok s.incIoCount := by
  induction l generalizing s with
  | nil => rfl
  | cons pb l ih =>
      rw [List.foldlM_cons, List.foldlM_cons, appendOne_incIoCount]
      cases appendOne g z s pb with
      | error e => rfl
      | ok s₁ => exact ih s₁

/-- Page by page the calls are counted one by one, which changes nothing else. -/
theorem pagewise_eq (z : Nat) (l : List (PageId × Page)) (s : Controller) :
    pagewise g z l s
      = l.foldlM (appendOne g z) s >>= fun s => .ok (incIoCount^[l.length] s) := by
  induction l generalizing s with
  | nil => rfl
  | cons pb l ih =>
      rw [pagewise, List.foldlM_cons, List.foldlM_cons, writePageLocked_eq]
      cases appendOne g z s pb with
      | error e => rfl
      | ok s₁ =>
          show pagewise g z l s₁.incIoCount = _
          rw [ih, foldlM_appendOne_incIoCount, ok_bind]
          cases l.foldlM (appendOne g z) s₁ with
          | error e => rfl
          | ok s₂ => rfl

/-- All pages are mapped first, whatever they contain. -/
theorem foldlM_appendOne_eq (z : Nat) (l : List (PageId × Page)) (s : Controller) :
    l.foldlM (appendOne g z) s
      = (l.map Prod.fst).zipIdx.foldlM (remapFrom g (s.zone z).wp) s >>= fun s =>
        .ok (storeAll g z (l.map Prod.snd) s) := by
  have hlen : (l.map Prod.snd).length = (l.map Prod.fst).length := by
    rw [List.length_map, List.length_map]
  have hzip : (l.map Prod.fst).zip (l.map Prod.snd) = l := by
    rw [List.zip_map', List.map_id'']
    intro x
    rfl
  have h := appendAll_eq (g := g) z (s.zone z).wp (l.map Prod.fst) (l.map Prod.snd) hlen 0 s
    (by rw [Nat.zero_mul, Nat.add_zero])
  rwa [hzip] at h

theorem sameStore_iterate (n : Nat) (s : Controller) : SameStore s (incIoCount^[n] s) := by
  induction n generalizing s with
  | zero => exact ⟨rfl, rfl, rfl, rfl, rfl⟩
  | succ n ih =>
      have h := ih s.incIoCount
      exact ⟨h.table, h.metaPage, h.zone, h.page, h.writeCount⟩

/-- Where the page-`i` copy of the cluster has been stored and, unless a later copy of the page
follows, mapped. -/
structure Recorded (base : Nat) (l : List (PageId × Page)) (s : Controller) : Prop where
  page : ∀ i (hi : i < l.length), s.dev.page (base + i * PAGE_SIZE) = some l[i].2
  table : ∀ i (hi : i < l.length), l[i].1 ∉ (l.drop (i + 1)).map Prod.fst →
    s.table l[i].1 = some (base + i * PAGE_SIZE)

/-- **In any state, `write_cluster` and page-by-page writing stop with the same fault or leave
the same store**, and every page is where its address says. -/
theorem writeClusterLocked_pagewise (z : Nat) (l : List (PageId × Page)) (s : Controller) :
    Yields (pagewise g z l s)
      (fun e => writeClusterLocked g z (l.map Prod.snd) (l.map Prod.fst) s = .error e)
      fun s₂ => ∃ s₁, writeClusterLocked g z (l.map Prod.snd) (l.map Prod.fst) s = .ok s₁ ∧
        SameStore s₁ s₂ ∧ Recorded (s.zone z).wp l s₁ := by
  have hlen : (l.map Prod.snd).length = (l.map Prod.fst).length := by
    rw [List.length_map, List.length_map]
  rw [pagewise_eq, foldlM_appendOne_eq, writeClusterLocked, mapCluster_eq]
  -- both map first, and fail there or not at all
  cases hmap : ((l.map Prod.fst).zipIdx).foldlM (remapFrom g (s.zone z).wp) s with
  | error e => rfl
  | ok sm =>
      obtain ⟨t, m, v, hframe⟩ := foldlM_remapFrom_frame hmap
      have hbatches := laid_storeBatches (g := g) z (l.map Prod.snd) sm
      have hall := laid_storeAll (g := g) z (l.map Prod.snd) sm
      have hcount := sameStore_iterate l.length (storeAll g z (l.map Prod.snd) sm)
      rw [hlen] at hbatches
      refine ⟨_, rfl, ⟨?_, ?_, ?_, ?_, ?_⟩, fun i hi => ?_, fun i hi hlast => ?_⟩
      · exact hcount.table.trans (hall.table.trans hbatches.table.symm)
      · exact hcount.metaPage.trans (hall.metaPage.trans hbatches.metaPage.symm)
      · exact hcount.zone.trans (hall.zone.trans hbatches.zone.symm)
      · exact hcount.page.trans (hall.page.trans hbatches.page.symm)
      · exact hcount.writeCount.trans (hall.writeCount.trans hbatches.writeCount.symm)
      · have hwp : (sm.zone z).wp = (s.zone z).wp := by rw [hframe, withBook_zone]
        have hi' : i < (l.map Prod.snd).length := by rwa [List.length_map]
        refine (congrFun hbatches.page _).trans ?_
        rw [hwp, storePages_apply _ _ _ i hi', List.getElem_map]
      · have hi' : i < (l.map Prod.fst).length := by rwa [List.length_map]
        have hrec := remapFrom_table hmap i hi' (by rwa [List.getElem_map, ← List.map_drop])
        rw [List.getElem_map, Nat.zero_add] at hrec
        exact (congrFun hbatches.table _).trans hrec

/-- Page by page writing succeeds in a zone with room. -/
theorem pagewise_isOk (h : Inv g K s) {c : Int} {l : List (PageId × Page)}
    (hz : Chosen g c l.length z s) (hl : ∀ pb ∈ l, s.content pb.1 ≠ none) :
    (pagewise g z l s).isOk = true := by
  -- the addresses do not depend on the contents, which may as well start with the pages' ids
  set l' := l.map fun pb => (pb.1, frameOf pb.1 0) with hl'
  have hfst : l'.map Prod.fst = l.map Prod.fst := by
    rw [hl', List.map_map]
    rfl
  have hlen : l'.length = l.length := List.length_map ..
  have happ := appendAll_spec h (l := l') (hlen.symm ▸ hz) fun pb hpb => by
    obtain ⟨qb, hqb, rfl⟩ := List.mem_map.1 hpb
    exact ⟨hl qb hqb, readId_frameOf ..⟩
  rw [foldlM_appendOne_eq, hfst] at happ
  rw [pagewise_eq, foldlM_appendOne_eq]
  cases hmap : (l.map Prod.fst).zipIdx.foldlM (remapFrom g (s.zone z).wp) s with
  | error e =>
      rw [hmap] at happ
      exact happ.elim
  | ok sm => rfl

/-! ## Runs -/

/-- Writing the cluster `l` at once agrees with writing it page by page to the zone chosen, and
both succeed if it fits in a zone. -/
def PagewiseAgrees (g : Geometry) (cf : Int) (l : List (PageId × Page)) (s : Controller) : Prop :=
  Yields (selectWriteZone g cf l.length s) (· = .noZone) fun r =>
    Yields (pagewise g r.1 l r.2)
      (fun e => writeCluster g 1 cf (l.map Prod.snd) (l.map Prod.fst) s = .error e)
      (fun s₂ => ∃ s₁, writeCluster g 1 cf (l.map Prod.snd) (l.map Prod.fst) s = .ok s₁ ∧
        SameStore s₁ s₂ ∧ Recorded (r.2.zone r.1).wp l s₁) ∧
    (l.length * PAGE_SIZE ≤ g.cap → (pagewise g r.1 l r.2).isOk = true)

theorem Inv.pagewiseAgrees (h : Inv g (fun _ => True) s) (cf : Int) {l : List (PageId × Page)}
    (hl : ∀ pb ∈ l, s.content pb.1 ≠ none) : PagewiseAgrees g cf l s := by
  rcases selectWriteZone_any (g := g) cf l.length s with ⟨z, s₁, hok, hsel, -⟩ | ⟨herr, -⟩
  · have hcluster : writeCluster g 1 cf (l.map Prod.snd) (l.map Prod.fst) s
        = writeClusterLocked g z (l.map Prod.snd) (l.map Prod.fst) s₁ := by
      rw [writeCluster, List.length_map, hok, ok_bind]
      exact if_neg (not_not.2 hsel.cond)
    rw [PagewiseAgrees, hok]
    refine ⟨?_, fun hfits => ?_⟩
    · rw [hcluster]
      exact writeClusterLocked_pagewise z l s₁
    · obtain ⟨hinv, hkept, hchosen⟩ := (selectWriteZone_spec h trivial hfits).of_ok hok
      exact pagewise_isOk hinv hchosen fun pb hpb => hkept.content ▸ hl pb hpb
  · rw [PagewiseAgrees, herr]
    rfl

/-- **A cluster write is the writing of its pages one after the other**, in every state a run
reaches, for every cluster and every list of pages that exist. -/
theorem writeCluster_agrees (g : Geometry) (rates : Nat → Rates) (ops : List Op)
    (hl : Legal (Op.Pre g) Op.spec ops .empty) :
    Yields (run (step g) ops (Controller.init g rates)) (· = .noZone) fun s =>
      ∀ (cf : Int) (l : List (PageId × Page)),
        (∀ pb ∈ l, specRun Op.spec ops .empty pb.1 ≠ none) → PagewiseAgrees g cf l s := by
  refine (run_spec_any rates ops hl).imp fun s h cf l hexist => ?_
  exact h.inv.pagewiseAgrees cf fun pb hpb => by
    rw [h.content]
    exact hexist pb hpb

theorem writeCluster_agrees_relocated :
    ∃ s, run (step .small) relocatingOps smallStart = .ok s ∧
      ∀ (cf : Int) (l : List (PageId × Page)),
        (∀ pb ∈ l, specRun Op.spec relocatingOps .empty pb.1 ≠ none) →
        PagewiseAgrees .small cf l s :=
  (writeCluster_agrees .small (fun _ => ⟨0, 0, 0⟩) relocatingOps relocatingOps_legal).of_isOk
    relocatingOps_isOk

end Controller

end ZoneBuffer
