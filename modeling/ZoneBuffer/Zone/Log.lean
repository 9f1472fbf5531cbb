import ZoneBuffer.Zone.Append
import ZoneBuffer.Zone.Selection

set_option autoImplicit false

/-! # What a write sends to the device

`write_cluster` hands its buffer to `pwrite64` in batches. Whatever the state it is called in,
when it returns it has sent each page of the buffer once, in order (`writeCluster_logged`), and
`write_page` has sent its one page (`writePage_logged`). -/

namespace ZoneBuffer

open Outcome

namespace Controller

/-- From `s` to `s'` the device was sent `pages`, in one or several writes. -/
def Logged (s s' : Controller) (pages : List Page) : Prop :=
  ∃ new, s'.pwrites = s.pwrites ++ new ∧ new.flatMap Pwrite.pages = pages

variable {g : Geometry} {s s' s'' : Controller} {pages pages' buf : List Page}

theorem Logged.of_eq (h : s'.pwrites = s.pwrites) : Logged s s' [] :=
  ⟨[], by rw [h, List.append_nil], rfl⟩

theorem Logged.trans (h : Logged s s' pages) (h' : Logged s' s'' pages') :
    Logged s s'' (pages ++ pages') := by
  obtain ⟨new, hnew, rfl⟩ := h
  obtain ⟨new', hnew', rfl⟩ := h'
  refine ⟨new ++ new', ?_, ?_⟩
  · rw [hnew', hnew, List.append_assoc]
  · rw [List.flatMap_append]

/-! ## The batches -/

theorem writeBatch_logged (z : Nat) (buf : List Page) (first n : Nat) (s : Controller) :
    Logged s (writeBatch g z buf first n s) ((buf.drop first).take n) :=
  ⟨[⟨(s.zone z).wp / g.zoneSize, s.dev.zone ((s.zone z).wp / g.zoneSize), (s.zone z).wp,
    (buf.drop first).take n⟩], rfl, by simp⟩

/-- The batches, the remainder last, make up the buffer. -/
theorem storeBatches_logged (z : Nat) (buf : List Page) (s : Controller) :
    Logged s ((List.range (buf.length / WRITE_BATCH + 1)).foldl
      (storeBatch g z buf buf.length) s) buf := by
  have hall := storeBatches_induct (g := g) (P := fun k s' => Logged s s' (buf.take k)) z buf s
    (by rw [List.take_zero]; exact Logged.of_eq rfl) fun first m s' _ hs' => by
      rw [List.take_add]
      exact hs'.trans (writeBatch_logged z buf first m s')
  rwa [List.take_length] at hall

/-- **`write_cluster` sends each page of its buffer to the device once.** -/
theorem writeCluster_logged {attempts : Nat} {cf : Int} {pl : List PageId}
    (hlen : buf.length = pl.length) (h : writeCluster g attempts cf buf pl s = .ok s') :
    Logged s s' buf := by
  induction attempts generalizing s with
  | zero => cases h
  | succ attempts ih =>
      rw [writeCluster] at h
      obtain ⟨⟨z, s₁⟩, hsel, h⟩ := bind_eq_ok.1 h
      have hpw : s₁.pwrites = s.pwrites := by
        rw [(selectWriteZone_selected hsel).only]
      dsimp only at h
      split at h
      case isTrue => exact (Logged.of_eq hpw).trans (ih h)
      case isFalse =>
        rw [writeClusterLocked] at h
        obtain ⟨s₂, hmap, h⟩ := bind_eq_ok.1 h
        cases h
        rw [mapCluster_eq] at hmap
        obtain ⟨t, m, v, rfl⟩ := foldlM_remapFrom_frame hmap
        rw [← hlen]
        exact (Logged.of_eq (by rw [withBook_pwrites, hpw])).trans (storeBatches_logged z buf _)

/-- `write_page` sends its page to the device once. -/
theorem writePage_logged {attempts : Nat} {cf : Int} {p : PageId} {b : Page}
    (h : writePage g attempts cf p b s = .ok s') : Logged s s' [b] := by
  induction attempts generalizing s with
  | zero => cases h
  | succ attempts ih =>
      rw [writePage] at h
      obtain ⟨⟨z, s₁⟩, hsel, h⟩ := bind_eq_ok.1 h
      have hpw : s₁.pwrites = s.pwrites := by
        rw [(selectWriteZone_selected hsel).only]
      dsimp only at h
      split at h
      case isTrue => exact (Logged.of_eq hpw).trans (ih h)
      case isFalse =>
        rw [writePageLocked_eq] at h
        obtain ⟨s₂, happend, h⟩ := bind_eq_ok.1 h
        cases h
        obtain ⟨s₃, hmap, happend⟩ := bind_eq_ok.1 happend
        cases happend
        obtain ⟨t, m, v, rfl⟩ := remap_frame hmap
        exact (Logged.of_eq (by rw [withBook_pwrites, hpw])).trans
          ⟨[⟨_, _, _, [b]⟩], rfl, by simp⟩

end Controller

end ZoneBuffer
