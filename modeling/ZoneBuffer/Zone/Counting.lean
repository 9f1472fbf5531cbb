import ZoneBuffer.Zone.Steady
import ZoneBuffer.Zone.Runs

set_option autoImplicit false

/-! # What `write_count` counts

The number the program divides by to print its write amplification. The writers count every page
they hand to `pwrite64`, however a cluster is cut into batches. The two relocation loops count a
page once more before they call `write_page_gc`, which counts it itself. So the counter is exact in
a run as long as no relocation finds a valid page to move (`counted_run`). -/

namespace ZoneBuffer

open Outcome Machine

namespace Controller

variable {g : Geometry} {cf : Int} {n z : Nat} {s s' : Controller}

/-- The pages handed to `pwrite64` since the start. -/
def pagesSent (s : Controller) : Nat := (s.pwrites.flatMap Pwrite.pages).length

/-- The counter is right. -/
def Counted (s : Controller) : Prop := s.writeCount = UInt32.ofNat s.pagesSent

theorem Logged.pagesSent {pages : List Page} (h : Logged s s' pages) :
    s'.pagesSent = s.pagesSent + pages.length := by
  obtain ⟨new, hnew, rfl⟩ := h
  rw [Controller.pagesSent, hnew, List.flatMap_append, List.length_append, Controller.pagesSent]

/-! ## The writers -/

theorem Counted.congr (h : s.Counted) (hcount : s'.writeCount = s.writeCount)
    (hlog : s'.pwrites = s.pwrites) : s'.Counted := by
  rw [Counted, hcount, Controller.pagesSent, hlog]
  exact h

/-- A writer counts what it sends. -/
theorem Ran.counted (h : Ran g cf n s s') (hs : s.Counted) : s'.Counted := by
  obtain ⟨z, s₁, hsel, hwork⟩ := h
  obtain ⟨pages, hlog, hlen⟩ := hwork.sent
  have hs₁ : s₁.Counted := hs.congr (by rw [hsel.only]) (by rw [hsel.only])
  rw [Counted, hwork.count, hs₁, hlog.pagesSent, hlen, UInt32.ofNat_add]

/-! ## Relocation -/

/-- A relocation of zone `z` finds no valid page. -/
def NoneValid (g : Geometry) (s : Controller) (z : Nat) : Prop :=
  ∀ pos ∈ scanPositions g z, s.getValid pos = false

/-- The zones a relocation is asked for hold no valid page. -/
def NothingToMove (g : Geometry) (s : Controller) : Op → Prop
  | .garbageCollection z => NoneValid g s z
  | .coldDataRestruct restruct => ∀ z ∈ restruct, NoneValid g s z
  | _ => True

theorem garbageCollection_counted (h : garbageCollection g z s = .ok s')
    (hnone : NoneValid g s z) (hs : s.Counted) : s'.Counted := by
  rw [garbageCollection] at h
  set s₁ := ({ s with gc := true, gcCount := s.gcCount + 1 } : Controller).getGcInfo g with hs₁
  -- the scan passes over every position
  have hscan : (scanPositions g z).foldlM (gcPosition g z) s₁ = .ok s₁ := by
    refine foldlM_eq_self fun pos hpos => ?_
    rw [gcPosition, if_neg]
    rw [Bool.not_eq_true]
    exact hnone pos hpos
  have hrec : recycleZone g z s₁ = .ok (recycled g z s₁) := recycleZone_eq hnone
  simp only [hscan, hrec, ok_bind] at h
  cases h
  exact hs

theorem restructZone_same (hnone : NoneValid g s z) :
    restructZone g s z = .ok (recycled g z s) := by
  have hscan : (scanPositions g z).foldlM (restructPosition g) s = .ok s := by
    refine foldlM_eq_self fun pos hpos => ?_
    rw [restructPosition, if_neg]
    rw [Bool.not_eq_true]
    exact hnone pos hpos
  rw [restructZone, hscan, ok_bind, recycleZone_eq hnone]

theorem coldDataRestruct_counted {restruct : List Nat} (h : coldDataRestruct g restruct s = .ok s')
    (hnone : ∀ z ∈ restruct, NoneValid g s z) (hs : s.Counted) : s'.Counted := by
  set s₀ : Controller := { s with cd := true, cdCount := s.cdCount + 1 } with hs₀
  -- recycling a zone that holds nothing changes no bit, so the zones to come hold nothing either
  have hloop : Yields (restruct.foldlM (restructZone g) s₀) (fun _ => False) fun s₁ =>
      s₁.metaPage = s.metaPage ∧ s₁.Counted := by
    refine Yields.foldlM (fun s₁ : Controller => s₁.metaPage = s.metaPage ∧ s₁.Counted) _ s₀
      ⟨rfl, hs⟩ ?_
    rintro z hz s₁ ⟨hmeta, hs₁⟩
    have hnone₁ : NoneValid g s₁ z := by
      intro pos hpos
      rw [getValid, hmeta]
      exact hnone z hz pos hpos
    rw [restructZone_same hnone₁]
    exact ⟨hmeta, hs₁⟩
  rw [coldDataRestruct] at h
  obtain ⟨s₁, hok, h⟩ := bind_eq_ok.1 h
  cases h
  exact (hloop.of_ok hok).2

/-! ## Runs -/

/-- The calls that store pages, a cluster coming with a page of the buffer for each id. -/
def StoreCall : Op → Prop
  | .writeCluster _ buf pageList => buf.length = pageList.length
  | .garbageCollectionDetect _ => False
  | .cdDetect _ => False
  | _ => True

/-- One call. -/
theorem step_counted {op : Op} (hop : StoreCall op) (hmove : NothingToMove g s op)
    (h : step g op s = .ok s') (hs : s.Counted) : s'.Counted := by
  cases op with
  | createNewPage p b => exact (createNewPage_ran h).counted hs
  | writePage cf p b => exact (writePage_ran h).counted hs
  | writePageGc cf p b => exact (writePageGc_ran h).counted hs
  | writeCluster cf buf pageList => exact (writeCluster_ran hop h).counted hs
  | garbageCollection z => exact garbageCollection_counted h hmove hs
  | coldDataRestruct restruct => exact coldDataRestruct_counted h hmove hs
  | garbageCollectionDetect t => exact hop.elim
  | cdDetect t => exact hop.elim
  | readPage p =>
      obtain ⟨r, hread, h⟩ := bind_eq_ok.1 h
      cases h
      rw [readPage] at hread
      obtain ⟨a, -, hread⟩ := bind_eq_ok.1 hread
      obtain ⟨b, -, hread⟩ := bind_eq_ok.1 hread
      cases hread
      exact hs

/-- **As long as no relocation moves a page, the counter is right** in every state of a run. -/
theorem counted_run (g : Geometry) (rates : Nat → Rates) (ops : List Op)
    (hops : ∀ op ∈ ops, StoreCall op)
    (hmove : Along (step g) (NothingToMove g) ops (Controller.init g rates)) :
    ∀ s, Visits (step g) ops (Controller.init g rates) s → s.Counted := by
  intro s hv
  have hl : Legal (fun (_ : Unit) op => StoreCall op) (fun _ t => t) ops () :=
    (legal_true (fun _ t => t) ops ()).imp fun op hop _ _ => hops op hop
  refine hv.elim hl hmove fun js hjs hmovejs s' hrun => ?_
  have hyields : Yields (run (step g) js (Controller.init g rates)) (fun _ => True) Counted := by
    refine run_yields_along (fun s (_ : Unit) => s.Counted) ?_ js _ () rfl hjs hmovejs
    intro s _ op hs hop hcond
    exact yields_partial_iff.2 fun s' hs' => step_counted hop hcond hs' hs
  exact hyields.of_ok hrun

instance (s : Controller) (z : Nat) : Decidable (NoneValid g s z) :=
  inferInstanceAs (Decidable (∀ pos ∈ scanPositions g z, s.getValid pos = false))

instance (s : Controller) (op : Op) : Decidable (NothingToMove g s op) :=
  match op with
  | .garbageCollection z => inferInstanceAs (Decidable (NoneValid g s z))
  | .coldDataRestruct restruct =>
      inferInstanceAs (Decidable (∀ z ∈ restruct, NoneValid g s z))
  | .createNewPage _ _ => isTrue trivial
  | .readPage _ => isTrue trivial
  | .writePage _ _ _ => isTrue trivial
  | .writePageGc _ _ _ => isTrue trivial
  | .writeCluster _ _ _ => isTrue trivial
  | .garbageCollectionDetect _ => isTrue trivial
  | .cdDetect _ => isTrue trivial

/-- Zone 0 is filled, and finished when page 9 opens zone 1. Both of its pages are rewritten before
it is collected. -/
@[irreducible] def emptyingOps : List Op :=
  [.createNewPage 7 (frameOf 7 1), .createNewPage 8 (frameOf 8 2), .createNewPage 9 (frameOf 9 3),
    .writePage 0 7 (frameOf 7 4), .writeCluster 0 [frameOf 8 5] [8], .garbageCollection 0]

theorem counted_run_emptied : ∃ s, run (step .small) emptyingOps smallStart = .ok s ∧
    s.Counted := by
  have hops : ∀ op ∈ emptyingOps, StoreCall op := by
    unfold emptyingOps
    simp [StoreCall]
  obtain ⟨s, hs, -⟩ : ∃ s, run (step .small) emptyingOps smallStart = .ok s ∧ True :=
    exists_ok_of_decide (by decide +kernel)
  exact ⟨s, hs, counted_run .small (fun _ => ⟨0, 0, 0⟩) emptyingOps hops (by decide +kernel) s
    ⟨emptyingOps, [], (List.append_nil _).symm, hs⟩⟩

/-- Zone 0 is collected while page 8 is still in it. -/
@[irreducible] def thinningOps : List Op :=
  [.createNewPage 7 (frameOf 7 1), .createNewPage 8 (frameOf 8 2), .createNewPage 9 (frameOf 9 3),
    .writePage 0 7 (frameOf 7 4), .garbageCollection 0]

/-- **A relocated page is counted twice**: five pages have been sent, six are counted. -/
theorem relocated_page_counted_twice : ∃ s, run (step .small) thinningOps smallStart = .ok s ∧
    s.pagesSent = 5 ∧ s.writeCount = 6 ∧ ¬ s.Counted := by
  obtain ⟨s, hs, hsent, hcount⟩ : ∃ s, run (step .small) thinningOps smallStart = .ok s ∧
      s.pagesSent = 5 ∧ s.writeCount = 6 := exists_ok_of_decide (by decide +kernel)
  refine ⟨s, hs, hsent, hcount, fun h => ?_⟩
  rw [Counted, hsent, hcount] at h
  exact absurd h (by decide)

end Controller

end ZoneBuffer
