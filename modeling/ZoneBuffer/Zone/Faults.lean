import ZoneBuffer.Zone.Relocation
import ZoneBuffer.Zone.Steady

set_option autoImplicit false

/-! # What the store can stop with

In the states of a legal run a call of the store stops for want of a zone only. In any other state
a lookup or an assertion may fail as well, but every fault is one of the store's: it touches no
list of the manager. -/

namespace ZoneBuffer

open Outcome

/-- The faults of the store. -/
def Fault.OfStore (e : Fault) : Prop :=
  e ∈ [Fault.noZone, .setValid, .outOfRange, .lostPage, .retry, .spin]

/-- `x` stops with a fault of the store, if it stops. -/
def Contained {α : Type} (x : Except Fault α) : Prop := Yields x Fault.OfStore fun _ => True

instance (e : Fault) : Decidable e.OfStore := inferInstanceAs (Decidable (e ∈ _))

theorem contained_ok {α : Type} (a : α) : Contained (.ok a) := trivial

theorem contained_error {α : Type} {e : Fault} (h : e.OfStore) :
    Contained (.error e : Except Fault α) := h

theorem Contained.bind {α β : Type} {x : Except Fault α} {f : α → Except Fault β}
    (hx : Contained x) (hf : ∀ a, Contained (f a)) : Contained (x >>= f) :=
  Yields.bind hx fun a _ => hf a

theorem Contained.foldlM {ι σ : Type} {f : σ → ι → Except Fault σ} (hf : ∀ s i, Contained (f s i))
    (l : List ι) (s : σ) : Contained (l.foldlM f s) :=
  Yields.foldlM (fun _ => True) l s trivial fun i _ s _ => hf s i

namespace Controller

variable {g : Geometry} (s : Controller)

/-! ## The parts of the writers -/

theorem contained_getPageAddr (p : PageId) : Contained (s.getPageAddr p) := by
  rw [getPageAddr]
  cases s.table p with
  | some a => exact contained_ok a
  | none => exact contained_error (by decide)

theorem contained_pread (a : Nat) : Contained (s.pread a) := by
  rw [pread]
  cases s.dev.page a with
  | some b => exact contained_ok b
  | none => exact contained_error (by decide)

theorem contained_setValid (a : Nat) (v : Bool) : Contained (s.setValid g a v) := by
  rw [setValid_eq]
  split
  · exact contained_error (by decide)
  · exact contained_ok _

theorem contained_selectWriteZone (cf : Int) (n : Nat) :
    Contained (selectWriteZone g cf n s) := by
  rcases selectWriteZone_any (g := g) cf n s with ⟨z, s', hok, -⟩ | ⟨herr, -⟩
  · rw [hok]
    exact contained_ok _
  · rw [herr]
    exact contained_error (by decide)

theorem contained_appendOne (z : Nat) (pb : PageId × Page) : Contained (appendOne g z s pb) :=
  ((s.contained_getPageAddr pb.1).bind fun a => (s.contained_setValid a false).bind fun _ =>
    contained_setValid _ _ true).bind fun _ => contained_ok _

/-! ## The writers -/

theorem contained_writePageLocked (z : Nat) (p : PageId) (b : Page) :
    Contained (writePageLocked g z p b s) := by
  rw [writePageLocked_eq]
  exact (s.contained_appendOne z (p, b)).bind fun _ => contained_ok _

theorem contained_writePageGcLocked (z : Nat) (p : PageId) (b : Page) :
    Contained (writePageGcLocked g z p b s) := by
  rw [writePageGcLocked_eq]
  exact (s.contained_appendOne z (p, b)).bind fun _ => contained_ok _

theorem contained_createNewPageLocked (z : Nat) (p : PageId) (b : Page) :
    Contained (createNewPageLocked g z p b s) := by
  rw [createNewPageLocked_eq]
  exact (contained_setValid _ _ true).bind fun _ => contained_ok _

theorem contained_writePage (attempts : Nat) (cf : Int) (p : PageId) (b : Page) :
    Contained (writePage g attempts cf p b s) := by
  induction attempts generalizing s with
  | zero => exact contained_error (by decide)
  | succ attempts ih =>
      rw [writePage]
      refine (s.contained_selectWriteZone cf 1).bind ?_
      rintro ⟨z, s₁⟩
      dsimp only
      split
      · exact ih _
      · exact contained_writePageLocked _ _ p b

theorem contained_writePageGc (attempts : Nat) (cf : Int) (p : PageId) (b : Page) :
    Contained (writePageGc g attempts cf p b s) := by
  induction attempts generalizing s with
  | zero => exact contained_error (by decide)
  | succ attempts ih =>
      rw [writePageGc]
      refine (s.contained_selectWriteZone cf 1).bind ?_
      rintro ⟨z, s₁⟩
      dsimp only
      split
      · exact ih _
      · exact contained_writePageGcLocked _ _ p b

theorem contained_createNewPage (attempts : Nat) (p : PageId) (b : Page) :
    Contained (createNewPage g attempts p b s) := by
  rw [createNewPage]
  refine (s.contained_selectWriteZone 0 1).bind ?_
  rintro ⟨z, s₁⟩
  dsimp only
  split
  · exact contained_writePage _ attempts 0 p b
  · exact contained_createNewPageLocked _ _ p b

theorem contained_mapClusterPage (z : Nat) (pi : PageId × Nat) :
    Contained (mapClusterPage g z s pi) :=
  (s.contained_getPageAddr pi.1).bind fun a => (s.contained_setValid a false).bind fun _ =>
    (contained_getPageAddr _ pi.1).bind fun _ => contained_setValid _ _ true

theorem contained_writeCluster (attempts : Nat) (cf : Int) (buf : List Page) (pl : List PageId) :
    Contained (writeCluster g attempts cf buf pl s) := by
  induction attempts generalizing s with
  | zero => exact contained_error (by decide)
  | succ attempts ih =>
      rw [writeCluster]
      refine (s.contained_selectWriteZone cf pl.length).bind ?_
      rintro ⟨z, s₁⟩
      dsimp only
      split
      · exact ih _
      · exact (Contained.foldlM (fun s pi => s.contained_mapClusterPage z pi) _ _).bind
          fun _ => contained_ok _

theorem contained_readPage (p : PageId) : Contained (s.readPage g p) :=
  (s.contained_getPageAddr p).bind fun a => (s.contained_pread a).bind fun _ => contained_ok _

/-! ## Collection -/

theorem contained_gcPosition (z pos : Nat) : Contained (gcPosition g z s pos) := by
  rw [gcPosition]
  split
  · exact (contained_pread _ pos).bind fun b => contained_writePageGc _ 1 _ _ b
  · exact contained_ok _

theorem contained_recycleZone (z : Nat) : Contained (recycleZone g z s) := by
  refine (Contained.foldlM (fun s pos => ?_) _ _).bind fun _ => contained_ok _
  split
  · exact s.contained_setValid pos false
  · exact contained_ok _

theorem contained_garbageCollection (z : Nat) : Contained (garbageCollection g z s) :=
  (Contained.foldlM (fun s pos => s.contained_gcPosition z pos) _ _).bind fun s =>
    (s.contained_recycleZone z).bind fun _ => contained_ok _

theorem contained_garbageCollectionDetect (t : RateTests) :
    Contained (garbageCollectionDetect g t s) := by
  rw [garbageCollectionDetect]
  split
  · exact contained_error (by decide)
  · dsimp only
    split
    · exact contained_ok _
    · refine Contained.foldlM (fun s i => ?_) _ _
      rw [detectZone]
      split
      · exact contained_garbageCollection _ i
      · exact contained_ok _

/-! ## Restructuring -/

theorem contained_restructPosition (pos : Nat) : Contained (restructPosition g s pos) := by
  unfold restructPosition
  split
  · exact (s.contained_pread pos).bind fun b => contained_writePageGc _ 1 0 _ b
  · exact contained_ok _

theorem contained_restructZone (z : Nat) : Contained (restructZone g s z) :=
  (Contained.foldlM (fun s pos => s.contained_restructPosition pos) _ _).bind fun s =>
    s.contained_recycleZone z

theorem contained_cdDetect (t : RateTests) : Contained (cdDetect g t s) := by
  unfold cdDetect
  split
  · exact contained_error (by decide)
  · split
    · exact contained_ok _
    · dsimp only
      split
      · exact (Contained.bind (Contained.foldlM (fun s z => s.contained_restructZone z) _ _)
          fun _ => contained_ok _).bind fun _ => contained_ok _
      · exact contained_ok _

end Controller

end ZoneBuffer
