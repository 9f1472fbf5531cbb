import ZoneBuffer.Buffer.Zalp
import ZoneBuffer.Lib.Outcome
import Mathlib.Data.List.Dedup
import Mathlib.Data.List.Perm.Lattice

set_option autoImplicit false

/-! # The lists of ZALP as sequences

Each operation of `ZALP` works on lists and on maps of iterators into them. While the maps track
the lists (`Tracked`), no operation meets a stale iterator, and what it does to the four
sequences of frames is the textbook operation. This file says so once for every operation;
nothing after it mentions iterators. -/

namespace ZoneBuffer

open Outcome IterList

theorem findIter_of_some {m : PartialMap FrameId Nat} {id it : Nat} (h : m id = some it) :
    findIter m id = .ok it := by
  rw [findIter, h]

theorem eraseIter_of_some {l l' : IterList FrameId} {it : Nat} (h : l.erase it = some l') :
    eraseIter l it = .ok l' := by
  rw [eraseIter, h]

theorem backOf_of_some {l : IterList FrameId} {id : FrameId} (h : l.back? = some id) :
    backOf l = .ok id := by
  rw [backOf, h]

namespace Zalp

def lruOrder (z : Zalp) : List FrameId := z.lList.toList

def freeFrames (z : Zalp) : List FrameId := z.fList.toList

def cleanFrames (z : Zalp) : List FrameId := z.cList.toList

def dirtyFrames (z : Zalp) : List FrameId := z.dList.toList

/-- The maps hold the iterators of their lists. -/
structure Tracked (z : Zalp) : Prop where
  l : Tracks z.lMap z.lList
  c : Tracks z.cMap z.cList
  d : Tracks z.dMap z.dList

/-- The four sequences of `z`. -/
structure Shows (z : Zalp) (l f c d : List FrameId) : Prop where
  tracked : z.Tracked
  lru : z.lruOrder = l
  free : z.freeFrames = f
  clean : z.cleanFrames = c
  dirty : z.dirtyFrames = d

variable {z : Zalp} {l f c d : List FrameId} {id : FrameId}

theorem shows_init (n : Nat) : (init n).Shows [] (List.range n) [] [] :=
  ⟨⟨tracks_empty, tracks_empty, tracks_empty⟩, rfl, toList_ofList _, rfl, rfl⟩

theorem Shows.mem_l (h : z.Shows l f c d) : id ∈ l ↔ ∃ it, z.lMap id = some it := by
  rw [← h.lru]
  exact h.tracked.l.mem_iff id

theorem Shows.mem_c (h : z.Shows l f c d) : id ∈ c ↔ ∃ it, z.cMap id = some it := by
  rw [← h.clean]
  exact h.tracked.c.mem_iff id

theorem Shows.mem_d (h : z.Shows l f c d) : id ∈ d ↔ ∃ it, z.dMap id = some it := by
  rw [← h.dirty]
  exact h.tracked.d.mem_iff id

/-! ## The operations -/

theorem getFrame_free (h : z.Shows l (f ++ [id]) c d) :
    ∃ z', z.getFrame = .ok (id, true, z') ∧ z'.Shows l f c d := by
  have hback : z.fList.back? = some id := by
    have := h.free
    rw [freeFrames] at this
    rw [back?, this, List.getLast?_concat]
  have hsize : z.fList.size ≠ 0 := by
    have := congrArg List.length h.free
    rw [freeFrames, List.length_append, List.length_singleton] at this
    rw [size_eq]
    omega
  have hpop : z.fList.popBack.toList = f := by
    rw [toList_popBack, show z.fList.toList = f ++ [id] from h.free, List.dropLast_concat]
  refine ⟨{ z with fList := z.fList.popBack }, ?_, ?_⟩
  · rw [getFrame, if_pos hsize, backOf_of_some hback]
    rfl
  · exact ⟨⟨h.tracked.l, h.tracked.c, h.tracked.d⟩, h.lru, hpop, h.clean, h.dirty⟩

theorem getFrame_clean (h : z.Shows l [] (c ++ [id]) d) (hl : id ∈ l) :
    ∃ z', z.getFrame = .ok (id, false, z') ∧ z'.Shows (l.erase id) [] c d := by
  have hsize : z.fList.size = 0 := by
    rw [size_eq]
    exact List.length_eq_zero_iff.2 h.free
  have hcsize : z.cList.size ≠ 0 := by
    have := congrArg List.length h.clean
    rw [cleanFrames, List.length_append, List.length_singleton] at this
    rw [size_eq]
    omega
  obtain ⟨hback, hpop, htc⟩ := h.tracked.c.popBack h.clean
  obtain ⟨it, hit⟩ := h.mem_l.1 hl
  obtain ⟨l', herase, htl, hl'⟩ := h.tracked.l.erase hit
  refine ⟨{ z with
    cList := z.cList.popBack, cMap := z.cMap.erase id, lList := l', lMap := z.lMap.erase id },
    ?_, ?_⟩
  · rw [getFrame, if_neg (not_not.2 hsize), if_neg hcsize, backOf_of_some hback, ok_bind]
    simp only [findIter_of_some hit, eraseIter_of_some herase, ok_bind]
  · exact ⟨⟨htl, htc, h.tracked.d⟩, by rw [← h.lru]; exact hl', h.free, hpop, h.dirty⟩

theorem push_clean (h : z.Shows l f c d) (hl : id ∉ l) (hc : id ∉ c) :
    (z.push id false).Shows (id :: l) f (id :: c) d := by
  have hl' : id ∉ z.lList.toList := fun hmem => hl (h.lru ▸ hmem)
  have hc' : id ∉ z.cList.toList := fun hmem => hc (h.clean ▸ hmem)
  exact ⟨⟨h.tracked.l.pushFront hl', h.tracked.c.pushFront hc', h.tracked.d⟩,
    congrArg _ h.lru, h.free, congrArg _ h.clean, h.dirty⟩

theorem push_dirty (h : z.Shows l f c d) (hl : id ∉ l) (hd : id ∉ d) :
    (z.push id true).Shows (id :: l) f c (id :: d) := by
  have hl' : id ∉ z.lList.toList := fun hmem => hl (h.lru ▸ hmem)
  have hd' : id ∉ z.dList.toList := fun hmem => hd (h.dirty ▸ hmem)
  exact ⟨⟨h.tracked.l.pushFront hl', h.tracked.c, h.tracked.d.pushFront hd'⟩,
    congrArg _ h.lru, h.free, h.clean, congrArg _ h.dirty⟩

theorem Shows.nodup_l (h : z.Shows l f c d) : l.Nodup := h.lru ▸ h.tracked.l.toList_nodup

theorem Shows.nodup_c (h : z.Shows l f c d) : c.Nodup := h.clean ▸ h.tracked.c.toList_nodup

theorem Shows.nodup_d (h : z.Shows l f c d) : d.Nodup := h.dirty ▸ h.tracked.d.toList_nodup

/-- `update` of a clean frame. -/
theorem update_clean (h : z.Shows l f c d) (hl : id ∈ l) (hc : id ∈ c) :
    ∃ z', z.update id false = .ok z' ∧ z'.Shows (id :: l.erase id) f (id :: c.erase id) d := by
  obtain ⟨it, hit⟩ := h.mem_l.1 hl
  obtain ⟨l', herase, htl, hl'⟩ := h.tracked.l.erase hit
  obtain ⟨itc, hitc⟩ := h.mem_c.1 hc
  obtain ⟨c', herasec, htc, hc'⟩ := h.tracked.c.erase hitc
  have hmid : ({ z with
      lList := l', lMap := z.lMap.erase id, cList := c', cMap := z.cMap.erase id } : Zalp).Shows
      (l.erase id) f (c.erase id) d :=
    ⟨⟨htl, htc, h.tracked.d⟩, by rw [← h.lru]; exact hl', h.free, by rw [← h.clean]; exact hc',
      h.dirty⟩
  refine ⟨_, ?_, push_clean hmid h.nodup_l.not_mem_erase h.nodup_c.not_mem_erase⟩
  rw [update, findIter_of_some hit, ok_bind, eraseIter_of_some herase, ok_bind]
  simp only [hitc, eraseIter_of_some herasec, ok_bind]

/-- `update` of a dirty frame. -/
theorem update_dirty (h : z.Shows l f c d) (hl : id ∈ l) (hd : id ∈ d) (hc : id ∉ c) :
    ∃ z', z.update id true = .ok z' ∧ z'.Shows (id :: l.erase id) f c (id :: d.erase id) := by
  obtain ⟨it, hit⟩ := h.mem_l.1 hl
  obtain ⟨l', herase, htl, hl'⟩ := h.tracked.l.erase hit
  obtain ⟨itd, hitd⟩ := h.mem_d.1 hd
  obtain ⟨d', herased, htd, hd'⟩ := h.tracked.d.erase hitd
  have hcnone : z.cMap id = none := by
    rw [Option.eq_none_iff_forall_ne_some]
    intro it' hit'
    exact hc (h.mem_c.2 ⟨it', hit'⟩)
  have hmid : ({ z with
      lList := l', lMap := z.lMap.erase id, dList := d', dMap := z.dMap.erase id } : Zalp).Shows
      (l.erase id) f c (d.erase id) :=
    ⟨⟨htl, h.tracked.c, htd⟩, by rw [← h.lru]; exact hl', h.free, h.clean,
      by rw [← h.dirty]; exact hd'⟩
  refine ⟨_, ?_, push_dirty hmid h.nodup_l.not_mem_erase h.nodup_d.not_mem_erase⟩
  rw [update, findIter_of_some hit, ok_bind, eraseIter_of_some herase, ok_bind]
  simp only [hcnone, hitd, eraseIter_of_some herased, ok_bind]

/-- `set_dirty` of a clean frame. -/
theorem setDirty_clean (h : z.Shows l f c d) (hc : id ∈ c) (hd : id ∉ d) :
    ∃ z', z.setDirty id = .ok z' ∧ z'.Shows l f (c.erase id) (id :: d) := by
  obtain ⟨itc, hitc⟩ := h.mem_c.1 hc
  obtain ⟨c', herasec, htc, hc'⟩ := h.tracked.c.erase hitc
  have hdnone : z.dMap id = none := by
    rw [Option.eq_none_iff_forall_ne_some]
    intro it' hit'
    exact hd (h.mem_d.2 ⟨it', hit'⟩)
  have hd' : id ∉ z.dList.toList := fun hmem => hd (h.dirty ▸ hmem)
  refine ⟨{ z with
    dList := z.dList.pushFront id, dMap := z.dMap.insert id z.dList.fresh
    cList := c', cMap := z.cMap.erase id }, ?_, ?_⟩
  · rw [setDirty]
    simp only [hdnone, hitc, eraseIter_of_some herasec, ok_bind]
  · exact ⟨⟨h.tracked.l, htc, h.tracked.d.pushFront hd'⟩, h.lru, h.free,
      by rw [← h.clean]; exact hc', congrArg _ h.dirty⟩

/-- `set_dirty` of a dirty frame. -/
theorem setDirty_dirty (h : z.Shows l f c d) (hc : id ∉ c) (hd : id ∈ d) :
    z.setDirty id = .ok z := by
  obtain ⟨itd, hitd⟩ := h.mem_d.1 hd
  have hcnone : z.cMap id = none := by
    rw [Option.eq_none_iff_forall_ne_some]
    intro it' hit'
    exact hc (h.mem_c.2 ⟨it', hit'⟩)
  rw [setDirty]
  simp only [hitd, hcnone]

theorem releaseFrame_spec (h : z.Shows l f c d) (hl : id ∈ l) (hd : id ∈ d) :
    ∃ z', z.releaseFrame id = .ok z' ∧ z'.Shows (l.erase id) (f ++ [id]) c (d.erase id) := by
  obtain ⟨it, hit⟩ := h.mem_l.1 hl
  obtain ⟨l', herase, htl, hl'⟩ := h.tracked.l.erase hit
  obtain ⟨itd, hitd⟩ := h.mem_d.1 hd
  obtain ⟨d', herased, htd, hd'⟩ := h.tracked.d.erase hitd
  refine ⟨{ z with
    dList := d', dMap := z.dMap.erase id, lList := l', lMap := z.lMap.erase id
    fList := z.fList.pushBack id }, ?_, ?_⟩
  · rw [releaseFrame, findIter_of_some hitd, ok_bind, eraseIter_of_some herased, ok_bind,
      findIter_of_some hit, ok_bind, eraseIter_of_some herase, ok_bind]
  · exact ⟨⟨htl, h.tracked.c, htd⟩, by rw [← h.lru]; exact hl',
      by rw [← h.free]; exact toList_pushBack z.fList id, h.clean, by rw [← h.dirty]; exact hd'⟩

theorem cleanFrame_spec (h : z.Shows l f c d) (hc : id ∉ c) (hd : id ∈ d) :
    ∃ z', z.cleanFrame id = .ok z' ∧ z'.Shows l f (c ++ [id]) (d.erase id) := by
  obtain ⟨itd, hitd⟩ := h.mem_d.1 hd
  obtain ⟨d', herased, htd, hd'⟩ := h.tracked.d.erase hitd
  have hcnone : z.cMap id = none := by
    rw [Option.eq_none_iff_forall_ne_some]
    intro it' hit'
    exact hc (h.mem_c.2 ⟨it', hit'⟩)
  have hc' : id ∉ z.cList.toList := fun hmem => hc (h.clean ▸ hmem)
  refine ⟨{ z with
    dList := d', dMap := z.dMap.erase id
    cList := z.cList.pushBack id, cMap := z.cMap.insert id z.cList.fresh }, ?_, ?_⟩
  · rw [cleanFrame, findIter_of_some hitd, ok_bind, eraseIter_of_some herased, ok_bind]
    simp only [hcnone]
  · exact ⟨⟨h.tracked.l, h.tracked.c.pushBack hc', htd⟩, h.lru, h.free,
      by rw [← h.clean]; exact toList_pushBack z.cList id, by rw [← h.dirty]; exact hd'⟩

/-- `update_dirty`. -/
theorem updateDirty_spec (vs : List FrameId) (h : z.Shows l f c d) (hvs : vs.Nodup)
    (hl : ∀ v ∈ vs, v ∈ l) (hd : ∀ v ∈ vs, v ∈ d) :
    ∃ z', z.updateDirty vs = .ok z' ∧ z'.Shows (l.diff vs) (f ++ vs) c (d.diff vs) := by
  induction vs generalizing z l f d with
  | nil => exact ⟨z, rfl, by simpa using h⟩
  | cons v vs ih =>
      obtain ⟨hv, hvs⟩ := List.nodup_cons.1 hvs
      obtain ⟨z₁, hok, hz₁⟩ := releaseFrame_spec h (hl v (by simp)) (hd v (by simp))
      have hne : ∀ w ∈ vs, w ≠ v := by
        rintro w hw rfl
        exact hv hw
      obtain ⟨z', hok', hz'⟩ := ih hz₁ hvs
        (fun w hw => (List.mem_erase_of_ne (hne w hw)).2 (hl w (List.mem_cons_of_mem v hw)))
        (fun w hw => (List.mem_erase_of_ne (hne w hw)).2 (hd w (List.mem_cons_of_mem v hw)))
      refine ⟨z', ?_, ?_⟩
      · rw [updateDirty, List.foldlM_cons, hok, ok_bind]
        exact hok'
      · rwa [List.append_assoc, List.singleton_append, ← List.diff_cons, ← List.diff_cons] at hz'

/-- `dirty_to_clean`. -/
theorem dirtyToClean_spec (vs : List FrameId) (h : z.Shows l f c d) (hvs : vs.Nodup)
    (hc : ∀ v ∈ vs, v ∉ c) (hd : ∀ v ∈ vs, v ∈ d) :
    ∃ z', z.dirtyToClean vs = .ok z' ∧ z'.Shows l f (c ++ vs) (d.diff vs) := by
  induction vs generalizing z c d with
  | nil => exact ⟨z, rfl, by simpa using h⟩
  | cons v vs ih =>
      obtain ⟨hv, hvs⟩ := List.nodup_cons.1 hvs
      obtain ⟨z₁, hok, hz₁⟩ := cleanFrame_spec h (hc v (by simp)) (hd v (by simp))
      have hne : ∀ w ∈ vs, w ≠ v := by
        rintro w hw rfl
        exact hv hw
      have hc' : ∀ w ∈ vs, w ∉ c ++ [v] := by
        intro w hw hmem
        rcases List.mem_append.1 hmem with hmem | hmem
        · exact hc w (List.mem_cons_of_mem v hw) hmem
        · exact hne w hw (List.mem_singleton.1 hmem)
      obtain ⟨z', hok', hz'⟩ := ih hz₁ hvs hc'
        (fun w hw => (List.mem_erase_of_ne (hne w hw)).2 (hd w (List.mem_cons_of_mem v hw)))
      refine ⟨z', ?_, ?_⟩
      · rw [dirtyToClean, List.foldlM_cons, hok, ok_bind]
        exact hok'
      · rwa [List.append_assoc, List.singleton_append, ← List.diff_cons] at hz'

/-! ## The queries -/

theorem walkBack_eq (n : Nat) (back candidates : List FrameId) (h : n ≤ back.length) :
    walkBack n back candidates = .ok ((back.take n).reverse ++ candidates) := by
  induction n generalizing back candidates with
  | zero => rfl
  | succ n ih =>
      cases back with
      | nil => cases h
      | cons id before =>
          rw [walkBack, ih before _ (Nat.le_of_succ_le_succ h)]
          simp

/-- `get_candidate` returns the end of `dList`. -/
theorem getCandidate_eq (h : z.Shows l f c d) {n w : Nat} (hlen : n - w ≤ d.length) :
    z.getCandidate n w = .ok (d.drop (d.length - (n - w))) := by
  have hd : z.dList.toList = d := h.dirty
  rw [getCandidate, hd, walkBack_eq _ _ _ (by rwa [List.length_reverse]), List.append_nil,
    List.reverse_take, List.reverse_reverse]
  simp

theorem getCandidateCflru_eq (h : z.Shows l f c (d ++ [id])) :
    z.getCandidateCflru = .ok [id] := by
  have hd : z.dList.toList = d ++ [id] := h.dirty
  rw [getCandidateCflru, backOf_of_some (by rw [back?, hd, List.getLast?_concat])]
  rfl

/-- `is_evict` on the sequences. With an empty clean list it is true, whatever is read. -/
def evictDue (w : Nat) (l f c : List FrameId) : Prop :=
  f = [] ∧ w < l.length ∧ c.length ≤ w ∧ ∀ x, c.getLast? = some x → l.idxOf x < w

instance (w : Nat) (l f c : List FrameId) : Decidable (evictDue w l f c) :=
  match hc : c.getLast? with
  | none => decidable_of_iff (f = [] ∧ w < l.length ∧ c.length ≤ w) (by simp [evictDue, hc])
  | some x => decidable_of_iff (f = [] ∧ w < l.length ∧ c.length ≤ w ∧ l.idxOf x < w)
      (by simp [evictDue, hc])

theorem isEvict_eq (h : z.Shows l f c d) (hcl : ∀ x ∈ c, x ∈ l) (w : Nat) (junk : FrameId) :
    z.isEvict w junk = .ok (decide (evictDue w l f c)) := by
  have hfs : z.fList.size = f.length := by rw [size_eq, ← h.free]; rfl
  have hls : z.lList.size = l.length := by rw [size_eq, ← h.lru]; rfl
  have hcs : z.cList.size = c.length := by rw [size_eq, ← h.clean]; rfl
  rw [isEvict, hfs, hls, hcs]
  split
  case isTrue hno =>
    rw [decide_eq_false]
    rintro ⟨rfl, h1, h2, -⟩
    rcases hno with hno | hno | hno
    · exact hno rfl
    · omega
    · omega
  case isFalse hyes =>
    simp only [not_or, not_not, not_le, not_lt] at hyes
    obtain ⟨hf, hl, hc⟩ := hyes
    rw [List.length_eq_zero_iff] at hf
    have hback : z.cList.back? = c.getLast? := by rw [back?, ← h.clean]; rfl
    rw [hback]
    cases hlast : c.getLast? with
    | none =>
        obtain rfl : c = [] := List.getLast?_eq_none_iff.1 hlast
        have hnone : z.cMap junk = none := (h.tracked.c.eq_none_iff junk).2 (by
          rw [show z.cList.toList = [] from h.clean]
          simp)
        simp only [Option.getD_none, hnone]
        rw [decide_eq_true ⟨hf, hl, hc, by simp⟩]
    | some x =>
        have hx : x ∈ c := List.mem_of_getLast? hlast
        obtain ⟨itc, hitc⟩ := h.mem_c.1 hx
        obtain ⟨it, hit⟩ := h.mem_l.1 (hcl x hx)
        have hidx : z.lList.index? it = some (l.idxOf x) := by
          rw [h.tracked.l.index? hit, ← h.lru]
          rfl
        simp only [Option.getD_some, hitc, findIter_of_some hit, ok_bind, hidx]
        congr 1
        rw [decide_eq_decide]
        simp [evictDue, hf, hl, hc, hlast]

end Zalp

end ZoneBuffer
