import ZoneBuffer.Buffer.Lists
import ZoneBuffer.Lib.Region

set_option autoImplicit false

/-! # The order of the lists

`Ordered` is the invariant of the lists between two operations of the manager: the clean and the
dirty list are the clean and the dirty frames of `lList`, in the order of `lList`, and with the
free list all frames are accounted for. A frame that has been taken from the lists and not been
pushed again is `held`.

What keeps the order when frames are cleaned at the end of the clean list is that an eviction
is due only when all frames behind the working region are dirty (`isEvict_iff`): the frames
cleaned then come after every clean one. -/

namespace ZoneBuffer

open Outcome Region

/-- The flags `dirty` with those of `vs` cleared. -/
def cleared (dirty : FrameId → Bool) (vs : List FrameId) : FrameId → Bool :=
  fun x => dirty x && decide (x ∉ vs)

/-- The lists of `z` for `n` frames with the flags `dirty`. -/
structure Ordered (n : Nat) (dirty : FrameId → Bool) (held : List FrameId) (z : Zalp) : Prop where
  shows : z.Shows z.lruOrder z.freeFrames (z.lruOrder.filter fun x => !dirty x)
    (z.lruOrder.filter dirty)
  perm : (held ++ (z.freeFrames ++ z.lruOrder)).Perm (List.range n)
  dirty_mem : ∀ x, dirty x = true → x ∈ z.lruOrder

namespace Ordered

variable {n w : Nat} {dirty : FrameId → Bool} {held : List FrameId} {z : Zalp} {id : FrameId}

theorem init (n : Nat) : Ordered n (fun _ => false) [] (Zalp.init n) := by
  have h := Zalp.shows_init n
  refine ⟨?_, ?_, by simp⟩
  · rw [h.lru, h.free]
    exact h
  · rw [h.lru, h.free, List.nil_append, List.append_nil]

/-! ## What the invariant says -/

theorem nodup (h : Ordered n dirty held z) : (held ++ (z.freeFrames ++ z.lruOrder)).Nodup :=
  h.perm.nodup_iff.2 List.nodup_range

theorem nodup_lru (h : Ordered n dirty held z) : z.lruOrder.Nodup := h.shows.nodup_l

theorem length_lru (h : Ordered n dirty held z) :
    held.length + z.freeFrames.length + z.lruOrder.length = n := by
  have := h.perm.length_eq
  rw [List.length_append, List.length_append, List.length_range] at this
  omega

theorem lt_of_mem (h : Ordered n dirty held z) (hx : id ∈ z.lruOrder) : id < n := by
  rw [← List.mem_range, ← h.perm.mem_iff]
  simp [hx]

theorem held_notMem (h : Ordered n dirty [id] z) : id ∉ z.lruOrder := by
  have := h.nodup
  simp only [List.singleton_append, List.nodup_cons, List.mem_append, not_or] at this
  exact this.1.2

/-- The frames held or free are not dirty. -/
theorem dirty_eq_false (h : Ordered n dirty held z) (hx : id ∉ z.lruOrder) : dirty id = false := by
  rw [← Bool.not_eq_true]
  exact fun hd => hx (h.dirty_mem id hd)

/-- **`is_evict` is true exactly when no frame is free and none behind the working region is
clean**, if there are more frames than the working region holds. -/
theorem isEvict_iff (h : Ordered n dirty [] z) (hw : w < n) (junk : FrameId) :
    z.isEvict w junk
      = .ok (decide (z.freeFrames = [] ∧ ∀ x ∈ z.lruOrder.drop w, dirty x = true)) := by
  rw [Zalp.isEvict_eq h.shows fun x hx => (List.mem_filter.1 hx).1]
  congr 1
  rw [decide_eq_decide, Zalp.evictDue]
  refine and_congr_right fun hf => ?_
  have hlen : w < z.lruOrder.length := by
    have := h.length_lru
    rw [hf] at this
    simp only [List.length_nil] at this
    omega
  rw [and_iff_right hlen, tail_clear_iff h.nodup_lru]
  refine forall_congr' fun x => imp_congr_right fun _ => ?_
  simp

/-- **The candidates are the frames behind the working region**, when an eviction is due. -/
theorem getCandidate_eq (h : Ordered n dirty [] z) (hf : z.freeFrames = [])
    (hd : ∀ x ∈ z.lruOrder.drop w, dirty x = true) :
    z.getCandidate n w = .ok (z.lruOrder.drop w) := by
  have hn : z.lruOrder.length = n := by
    have := h.length_lru
    rw [hf] at this
    simpa using this
  have hle : n - w ≤ (z.lruOrder.filter dirty).length := by
    have hsub : (z.lruOrder.drop w).filter dirty = z.lruOrder.drop w := List.filter_eq_self.2 hd
    have hl := (List.drop_sublist w z.lruOrder).filter dirty
    have := hl.length_le
    rw [hsub, List.length_drop, hn] at this
    exact this
  rw [Zalp.getCandidate_eq h.shows hle, ← hn, drop_filter_eq hd]

/-- The candidate of `cflru` is the last frame of `lList`. -/
theorem getCandidateCflru_eq (h : Ordered n dirty [] z) {xs : List FrameId}
    (hl : z.lruOrder = xs ++ [id]) (hd : dirty id = true) :
    z.getCandidateCflru = .ok [id] := by
  have hlast : z.lruOrder.filter dirty = xs.filter dirty ++ [id] := by
    rw [hl, List.filter_append]
    simp [hd]
  have hs := h.shows
  rw [hlast] at hs
  exact Zalp.getCandidateCflru_eq hs

/-! ## What the operations do -/

theorem of_shows (l f : List FrameId)
    (hs : z.Shows l f (l.filter fun x => !dirty x) (l.filter dirty))
    (hp : (held ++ (f ++ l)).Perm (List.range n)) (hd : ∀ x, dirty x = true → x ∈ l) :
    Ordered n dirty held z := by
  obtain rfl := hs.lru
  obtain rfl := hs.free
  exact ⟨hs, hp, hd⟩

/-- `get_frame` takes the last free frame. -/
theorem takeFree (h : Ordered n dirty [] z) {fs : List FrameId}
    (hf : z.freeFrames = fs ++ [id]) :
    ∃ z', z.getFrame = .ok (id, true, z') ∧ Ordered n dirty [id] z' ∧ z'.freeFrames = fs ∧
      z'.lruOrder = z.lruOrder := by
  have hs := h.shows
  rw [hf] at hs
  obtain ⟨z', hok, hs'⟩ := Zalp.getFrame_free hs
  refine ⟨z', hok, of_shows z.lruOrder fs hs' ?_ h.dirty_mem, hs'.free, hs'.lru⟩
  have hp := h.perm
  rw [hf, List.nil_append, List.append_assoc] at hp
  exact (List.perm_append_comm_assoc [id] fs z.lruOrder).trans hp

/-- Without a free frame `get_frame` takes the last clean one. -/
theorem takeClean (h : Ordered n dirty [] z) (hf : z.freeFrames = []) {cs : List FrameId}
    (hc : z.lruOrder.filter (fun x => !dirty x) = cs ++ [id]) :
    ∃ z', z.getFrame = .ok (id, false, z') ∧ Ordered n dirty [id] z' ∧ z'.freeFrames = [] ∧
      z'.lruOrder = z.lruOrder.erase id := by
  have hnd := h.nodup_lru
  have hmem : id ∈ z.lruOrder.filter (fun x => !dirty x) := by
    rw [hc]
    simp
  obtain ⟨hmem, hclean⟩ := List.mem_filter.1 hmem
  rw [Bool.not_eq_true'] at hclean
  have hs := h.shows
  rw [hf, hc] at hs
  obtain ⟨z', hok, hs'⟩ := Zalp.getFrame_clean hs hmem
  -- the clean list is the list of clean frames without `id`
  have hcs : (z.lruOrder.erase id).filter (fun x => !dirty x) = cs := by
    have hnd' := hnd.filter fun x => !dirty x
    rw [hc] at hnd'
    rw [← List.erase_filter, hc, List.erase_append_right _ (by
      intro hid
      exact List.disjoint_of_nodup_append hnd' hid (by simp))]
    simp
  have hds : (z.lruOrder.erase id).filter dirty = z.lruOrder.filter dirty := by
    rw [← List.erase_filter, List.erase_of_not_mem]
    simp [hclean]
  refine ⟨z', hok, of_shows (z.lruOrder.erase id) [] (by rw [hcs, hds]; exact hs')
    ?_ ?_, hs'.free, hs'.lru⟩
  · have hp := h.perm
    rw [hf] at hp
    exact (List.perm_cons_erase hmem).symm.trans hp
  · intro x hx
    have hne : x ≠ id := by
      rintro rfl
      rw [hclean] at hx
      cases hx
    exact (List.mem_erase_of_ne hne).2 (h.dirty_mem x hx)

/-- `push` of a frame held, as a clean one. -/
theorem put (h : Ordered n dirty [id] z) :
    Ordered n dirty [] (z.push id false) ∧ (z.push id false).freeFrames = z.freeFrames ∧
      (z.push id false).lruOrder = id :: z.lruOrder := by
  have hl := h.held_notMem
  have hclean := h.dirty_eq_false hl
  have hs := Zalp.push_clean h.shows hl (fun hmem => hl (List.mem_filter.1 hmem).1)
  refine ⟨of_shows (id :: z.lruOrder) z.freeFrames ?_ ?_ ?_, hs.free, hs.lru⟩
  · simpa [hclean] using hs
  · rw [List.nil_append]
    exact List.perm_middle.trans h.perm
  · intro x hx
    exact List.mem_cons_of_mem id (h.dirty_mem x hx)

/-- `update` of a resident frame. -/
theorem touch (h : Ordered n dirty [] z) (hl : id ∈ z.lruOrder) :
    ∃ z', z.update id (dirty id) = .ok z' ∧ Ordered n dirty [] z' ∧
      z'.freeFrames = z.freeFrames ∧ z'.lruOrder = id :: z.lruOrder.erase id := by
  have hperm : ([] ++ (z.freeFrames ++ (id :: z.lruOrder.erase id))).Perm (List.range n) :=
    (List.Perm.append_left _ (List.perm_cons_erase hl).symm).trans h.perm
  have hmem : ∀ x, dirty x = true → x ∈ id :: z.lruOrder.erase id := by
    intro x hx
    exact (List.perm_cons_erase hl).subset (h.dirty_mem x hx)
  cases hd : dirty id with
  | false =>
      have hc : id ∈ z.lruOrder.filter fun x => !dirty x := List.mem_filter.2 ⟨hl, by simp [hd]⟩
      obtain ⟨z', hok, hs⟩ := Zalp.update_clean h.shows hl hc
      have hds : (z.lruOrder.filter dirty).erase id = z.lruOrder.filter dirty :=
        List.erase_of_not_mem (by simp [hd])
      refine ⟨z', hok, of_shows _ z.freeFrames ?_ hperm hmem, hs.free, hs.lru⟩
      simp only [List.filter_cons, hd, Bool.not_false, if_true, Bool.false_eq_true, if_false,
        ← List.erase_filter, hds]
      exact hs
  | true =>
      have hdm : id ∈ z.lruOrder.filter dirty := List.mem_filter.2 ⟨hl, hd⟩
      have hc : id ∉ z.lruOrder.filter fun x => !dirty x := by simp [hd]
      obtain ⟨z', hok, hs⟩ := Zalp.update_dirty h.shows hl hdm hc
      refine ⟨z', hok, of_shows _ z.freeFrames ?_ hperm hmem, hs.free, hs.lru⟩
      simp only [List.filter_cons, hd, Bool.not_true, if_true, Bool.false_eq_true, if_false,
        ← List.erase_filter, List.erase_of_not_mem hc]
      exact hs

/-- `set_dirty` of the frame used last. -/
theorem soil (h : Ordered n dirty [] z) {rest : List FrameId} (hl : z.lruOrder = id :: rest) :
    ∃ z', z.setDirty id = .ok z' ∧ Ordered n (Function.update dirty id true) [] z' ∧
      z'.freeFrames = z.freeFrames ∧ z'.lruOrder = z.lruOrder := by
  have hnot : id ∉ rest := by
    have := h.nodup_lru
    rw [hl] at this
    exact (List.nodup_cons.1 this).1
  have hmem : ∀ x, Function.update dirty id true x = true → x ∈ z.lruOrder := by
    intro x hx
    by_cases hxid : x = id
    · rw [hl, hxid]
      exact List.mem_cons_self
    · rw [Function.update_of_ne hxid] at hx
      exact h.dirty_mem x hx
  have hrest : ∀ x ∈ rest, Function.update dirty id true x = dirty x := by
    intro x hx
    have hne : x ≠ id := by
      rintro rfl
      exact hnot hx
    exact Function.update_of_ne hne _ _
  have hcs : (id :: rest).filter (fun x => !Function.update dirty id true x)
      = rest.filter fun x => !dirty x := by
    rw [List.filter_cons, Function.update_self, if_neg (by simp)]
    exact List.filter_congr fun x hx => by rw [hrest x hx]
  have hds : (id :: rest).filter (Function.update dirty id true) = id :: rest.filter dirty := by
    rw [List.filter_cons, Function.update_self, if_pos rfl]
    exact congrArg _ (List.filter_congr fun x hx => hrest x hx)
  have hs := h.shows
  rw [hl] at hs
  cases hd : dirty id with
  | true =>
      refine ⟨z, Zalp.setDirty_dirty hs (by simp [hd]) (by simp [hd]),
        of_shows z.lruOrder z.freeFrames ?_ h.perm hmem, rfl, rfl⟩
      rw [hl, hcs, hds]
      simpa [List.filter_cons, hd] using hs
  | false =>
      obtain ⟨z', hok, hs'⟩ := @Zalp.setDirty_clean _ _ _ _ _ id hs (by simp [hd]) (by simp [hd])
      have hlru : z'.lruOrder = z.lruOrder := hs'.lru.trans hl.symm
      refine ⟨z', hok, of_shows z.lruOrder z.freeFrames ?_ h.perm hmem, hs'.free,
        hlru⟩
      rw [hl, hcs, hds]
      simpa [List.filter_cons, hd] using hs'

theorem cleared_of_notMem {vs : List FrameId} {x : FrameId} (hx : x ∉ vs) :
    cleared dirty vs x = dirty x := by
  simp [cleared, hx]

theorem cleared_of_mem {vs : List FrameId} {x : FrameId} (hx : x ∈ vs) :
    cleared dirty vs x = false := by
  simp [cleared, hx]

/-- `update_dirty` gives dirty frames up. -/
theorem release (h : Ordered n dirty [] z) {vs : List FrameId} (hnd : vs.Nodup)
    (hvs : ∀ v ∈ vs, v ∈ z.lruOrder ∧ dirty v = true) :
    ∃ z', z.updateDirty vs = .ok z' ∧ Ordered n (cleared dirty vs) [] z' ∧
      z'.freeFrames = z.freeFrames ++ vs ∧ z'.lruOrder = z.lruOrder.filter (· ∉ vs) := by
  obtain ⟨z', hok, hs⟩ := Zalp.updateDirty_spec vs h.shows hnd (fun v hv => (hvs v hv).1)
    fun v hv => List.mem_filter.2 (hvs v hv)
  rw [h.nodup_lru.sdiff_eq_filter, (h.nodup_lru.filter _).sdiff_eq_filter] at hs
  refine ⟨z', hok, of_shows (z.lruOrder.filter (· ∉ vs)) (z.freeFrames ++ vs) ?_ ?_ ?_,
    hs.free, hs.lru⟩
  · have hcs : (z.lruOrder.filter (· ∉ vs)).filter (fun x => !cleared dirty vs x)
        = z.lruOrder.filter fun x => !dirty x := by
      rw [List.filter_filter]
      refine List.filter_congr fun x _ => ?_
      by_cases hx : x ∈ vs
      · simp [hx, (hvs x hx).2]
      · simp [hx, cleared_of_notMem hx]
    have hds : (z.lruOrder.filter (· ∉ vs)).filter (cleared dirty vs)
        = (z.lruOrder.filter dirty).filter (· ∉ vs) := by
      rw [List.filter_filter, List.filter_filter]
      refine List.filter_congr fun x _ => ?_
      by_cases hx : x ∈ vs
      · simp [hx]
      · simp [hx, cleared_of_notMem hx]
    rw [hcs, hds]
    exact hs
  · have hsplit : (vs ++ z.lruOrder.filter (· ∉ vs)).Perm z.lruOrder := by
      have hin : (z.lruOrder.filter (· ∈ vs)).Perm vs := by
        rw [List.perm_ext_iff_of_nodup (h.nodup_lru.filter _) hnd]
        intro x
        simp only [List.mem_filter, decide_eq_true_eq, and_iff_right_iff_imp]
        exact fun hx => (hvs x hx).1
      have := List.filter_append_perm (fun x => decide (x ∈ vs)) z.lruOrder
      simp only [decide_not]
      exact (hin.symm.append_right _).trans this
    rw [List.nil_append, List.append_assoc]
    exact (hsplit.append_left _).trans h.perm
  · intro x hx
    rw [cleared, Bool.and_eq_true, decide_eq_true_eq] at hx
    exact List.mem_filter.2 ⟨h.dirty_mem x hx.1, by simpa using hx.2⟩

/-- **`dirty_to_clean` keeps the order**, since the frames cleaned lie behind every clean one. -/
theorem clean (h : Ordered n dirty [] z) (hd : ∀ x ∈ z.lruOrder.drop w, dirty x = true)
    {q : FrameId → Bool} :
    ∃ z', z.dirtyToClean ((z.lruOrder.drop w).filter q) = .ok z' ∧
      Ordered n (cleared dirty ((z.lruOrder.drop w).filter q)) [] z' ∧
      z'.freeFrames = z.freeFrames ∧ z'.lruOrder = z.lruOrder := by
  set vs := (z.lruOrder.drop w).filter q with hvs
  have hmem : ∀ v ∈ vs, v ∈ z.lruOrder.drop w := fun v hv => (List.mem_filter.1 hv).1
  have hdrop : (z.lruOrder.drop w).Nodup := h.nodup_lru.sublist (List.drop_sublist w _)
  obtain ⟨z', hok, hs⟩ := Zalp.dirtyToClean_spec vs h.shows (hdrop.filter q)
    (fun v hv => by simp [hd v (hmem v hv)])
    fun v hv => List.mem_filter.2 ⟨List.mem_of_mem_drop (hmem v hv), hd v (hmem v hv)⟩
  rw [(h.nodup_lru.filter _).sdiff_eq_filter] at hs
  refine ⟨z', hok, of_shows z.lruOrder z.freeFrames ?_ h.perm ?_, hs.free, hs.lru⟩
  · have htake : ∀ x ∈ z.lruOrder.take w, x ∉ vs := by
      intro x hx hxv
      have hnd := h.nodup_lru
      rw [← List.take_append_drop w z.lruOrder] at hnd
      exact List.disjoint_of_nodup_append hnd hx (hmem x hxv)
    have hcs : z.lruOrder.filter (fun x => !cleared dirty vs x)
        = z.lruOrder.filter (fun x => !dirty x) ++ vs := by
      have hnone : ∀ x ∈ z.lruOrder.drop w, (!dirty x) = false := fun x hx => by simp [hd x hx]
      rw [filter_eq_filter_take hnone]
      conv_lhs => rw [← List.take_append_drop w z.lruOrder]
      rw [List.filter_append]
      congr 1
      · exact List.filter_congr fun x hx => by rw [cleared_of_notMem (htake x hx)]
      · refine List.filter_congr fun x hx => ?_
        by_cases hq : q x = true
        · have hxv : x ∈ vs := List.mem_filter.2 ⟨hx, hq⟩
          rw [cleared_of_mem hxv, hq]
          rfl
        · have hxv : x ∉ vs := fun hxv => hq (List.mem_filter.1 hxv).2
          rw [cleared_of_notMem hxv, hd x hx, Bool.eq_false_of_not_eq_true hq]
          rfl
    have hds : z.lruOrder.filter (cleared dirty vs)
        = (z.lruOrder.filter dirty).filter (· ∉ vs) := by
      rw [List.filter_filter]
      exact List.filter_congr fun x _ => Bool.and_comm _ _
    rw [hcs, hds]
    exact hs
  · intro x hx
    rw [cleared, Bool.and_eq_true] at hx
    exact h.dirty_mem x hx.1

end Ordered

end ZoneBuffer
