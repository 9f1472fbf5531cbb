import ZoneBuffer.Buffer.Manager
import ZoneBuffer.Lib.Outcome

set_option autoImplicit false

/-! # The list of mode `lru`

`LruLists` is what holds of the list, the free frames and the page table in mode `lru`, whatever
the store does. A victim leaves its iterator behind in the map; `Points` allows for that. The three
things that happen to the list are that a frame not yet used is taken (`TookUnused`), that the last
frame is dropped (`Dropped`), and that a frame is put in front. -/

namespace ZoneBuffer

open Outcome

namespace Buffer

variable {cfg : Config} {s s' : Buffer} {f : FrameId} {p : PageId} {held : List FrameId}

/-- The resident frames in mode `lru`, most recently used first. -/
def lruFrames (s : Buffer) : List FrameId := s.lrus.lList.toList

/-- The list, the free frames and the page table. The frames `held` are out of the list. -/
structure LruLists (cfg : Config) (held : List FrameId) (s : Buffer) : Prop where
  points : IterList.Points s.lrus.lMap s.lrus.lList
  free : s.freeFramesNum ≤ cfg.defBufSize
  used : ∀ f, f < cfg.defBufSize - s.freeFramesNum ↔ f ∈ s.lruFrames ∨ f ∈ held
  held : ∀ f ∈ held, f ∉ s.lruFrames
  mapped : ∀ p f, s.page2frame p = some f → f ∈ s.lruFrames ∧ s.frameToPage f = p
  linked : ∀ f ∈ s.lruFrames, s.page2frame (s.frameToPage f) = some f

theorem LruLists.init (cfg : Config) (mem : Memory) :
    LruLists cfg [] (Buffer.init cfg mem) where
  points := IterList.points_empty _
  free := le_refl _
  used f := by
    show f < cfg.defBufSize - cfg.defBufSize ↔ f ∈ [] ∨ f ∈ []
    simp
  held := by
    intro f hf
    cases hf
  mapped := by
    intro p f h
    cases h
  linked := by
    intro f hf
    cases hf

/-- `LruLists` speaks of the list, the free frames and the page table only. -/
theorem LruLists.congr (h : LruLists cfg held s) (hlrus : s'.lrus = s.lrus)
    (hfree : s'.freeFramesNum = s.freeFramesNum) (htable : s'.page2frame = s.page2frame)
    (hpages : s'.frameToPage = s.frameToPage) : LruLists cfg held s' := by
  have hframes : s'.lruFrames = s.lruFrames := by rw [lruFrames, hlrus, lruFrames]
  refine ⟨?_, ?_, ?_, ?_, ?_, ?_⟩
  · rw [hlrus]
    exact h.points
  · rw [hfree]
    exact h.free
  · rw [hfree, hframes]
    exact h.used
  · rw [hframes]
    exact h.held
  · rw [hframes, htable, hpages]
    exact h.mapped
  · rw [hframes, htable, hpages]
    exact h.linked

/-- A page that is not mapped is in no frame of the list. -/
theorem LruLists.mapped_iff (h : LruLists cfg held s) :
    (∃ f, s.page2frame p = some f) ↔ p ∈ s.lruFrames.map s.frameToPage := by
  rw [List.mem_map]
  constructor
  · rintro ⟨f, hf⟩
    exact ⟨f, h.mapped p f hf⟩
  · rintro ⟨f, hf, rfl⟩
    exact ⟨f, h.linked f hf⟩

/-- The list is as long as frames have been used. -/
theorem LruLists.length (h : LruLists cfg [] s) :
    s.lruFrames.length = cfg.defBufSize - s.freeFramesNum := by
  have hperm : s.lruFrames.Perm (List.range (cfg.defBufSize - s.freeFramesNum)) := by
    refine (List.perm_ext_iff_of_nodup h.points.toList_nodup List.nodup_range).2 fun f => ?_
    rw [List.mem_range, h.used f, List.mem_nil_iff, or_false]
    rfl
  rw [hperm.length_eq, List.length_range]

/-! ## Taking a frame -/

/-- The first frame not yet used has been taken. -/
structure TookUnused (cfg : Config) (s s' : Buffer) (f : FrameId) : Prop where
  free : s.freeFramesNum ≠ 0
  frame : f = cfg.defBufSize - s.freeFramesNum
  same : s' = { s with freeFramesNum := s.freeFramesNum - 1 }

/-- The last frame of the list has been dropped, and its page unmapped. -/
structure Dropped (s s' : Buffer) (f : FrameId) : Prop where
  full : s.freeFramesNum = 0
  list : s.lruFrames = s'.lruFrames ++ [f]
  lrus : s'.lrus = { s.lrus with lList := s.lrus.lList.popBack }
  freeFramesNum : s'.freeFramesNum = 0
  page2frame : s'.page2frame = s.page2frame.erase (s.frameToPage f)
  frameToPage : s'.frameToPage = s.frameToPage

theorem TookUnused.lists (h : TookUnused cfg s s' f) (hl : LruLists cfg [] s) :
    LruLists cfg [f] s' := by
  obtain ⟨hne, rfl, rfl⟩ := h
  have hfree := hl.free
  have hused : ∀ g, g < cfg.defBufSize - s.freeFramesNum ↔ g ∈ s.lruFrames := fun g => by
    rw [hl.used g, List.mem_nil_iff, or_false]
  refine ⟨hl.points, le_trans (Nat.sub_le ..) hfree, fun g => ?_, fun g hg hmem => ?_,
    hl.mapped, hl.linked⟩
  -- the frames used become one more, and that one is held
  · show g < cfg.defBufSize - (s.freeFramesNum - 1) ↔ g ∈ s.lruFrames ∨ _
    rw [← hused, List.mem_singleton]
    omega
  · have hlt := (hused g).2 hmem
    rw [List.mem_singleton.1 hg] at hlt
    omega

theorem Dropped.notMem (h : Dropped s s' f) (hl : LruLists cfg [] s) : f ∉ s'.lruFrames := by
  have hnd : (s'.lruFrames ++ [f]).Nodup := h.list ▸ hl.points.toList_nodup
  exact fun hf => (List.nodup_append.1 hnd).2.2 f hf f (by simp) rfl

/-- The page of another frame is not that of the victim. -/
theorem Dropped.ne_page (h : Dropped s s' f) (hl : LruLists cfg [] s) {g : FrameId}
    (hg : s.page2frame (s.frameToPage g) = some g) (hgf : g ≠ f) :
    s.frameToPage g ≠ s.frameToPage f := by
  intro hpage
  have hf := hl.linked f (by rw [h.list]; simp)
  rw [← hpage, hg] at hf
  exact hgf (Option.some.inj hf)

theorem Dropped.lists (h : Dropped s s' f) (hl : LruLists cfg [] s) : LruLists cfg [f] s' where
  points := by
    rw [h.lrus]
    exact hl.points.popBack
  free := by
    rw [h.freeFramesNum]
    exact Nat.zero_le _
  used g := by
    have hused := hl.used g
    rw [h.list, h.full, List.mem_append, List.mem_nil_iff, or_false] at hused
    rw [h.freeFramesNum]
    exact hused
  held g hg := by
    rw [List.mem_singleton.1 hg]
    exact h.notMem hl
  mapped q g hq := by
    rw [h.page2frame, PartialMap.erase_eq_some] at hq
    obtain ⟨hg, hgq⟩ := hl.mapped q g hq.2
    -- a page still mapped is not the victim's, so its frame is still in the list
    rw [h.frameToPage]
    refine ⟨?_, hgq⟩
    rw [h.list, List.mem_append, List.mem_singleton] at hg
    refine hg.resolve_right ?_
    rintro rfl
    exact hq.1 hgq.symm
  linked g hg := by
    have hlink := hl.linked g (by rw [h.list]; exact List.mem_append_left _ hg)
    have hgf : g ≠ f := by
      rintro rfl
      exact h.notMem hl hg
    rw [h.page2frame, h.frameToPage, PartialMap.erase_of_ne _ (h.ne_page hl hlink hgf)]
    exact hlink

/-- Once all frames are used the list has a last one. -/
theorem LruLists.getVictim (h : LruLists cfg [] s) (hfull : s.freeFramesNum = 0) :
    ∃ f, s.lruFrames = s.lrus.lList.popBack.toList ++ [f] ∧
      s.lrus.getVictim = .ok (f, { s.lrus with lList := s.lrus.lList.popBack }) := by
  -- the frames are all used, and there is one at least
  have hne : s.lruFrames ≠ [] := by
    have hlen := h.length
    have hwork := cfg.work_lt
    intro hnil
    rw [hnil, hfull, List.length_nil] at hlen
    omega
  have hback : s.lrus.lList.back? = some (s.lruFrames.getLast hne) :=
    List.getLast?_eq_some_getLast hne
  refine ⟨s.lruFrames.getLast hne, ?_, ?_⟩
  · rw [IterList.toList_popBack]
    exact (List.dropLast_append_getLast hne).symm
  · rw [Lru.getVictim, backOf, hback]
    rfl

/-! ## Placing and moving a frame -/

/-- Map `p` to the frame held and push the frame. -/
def placeLru (p : PageId) (f : FrameId) (s : Buffer) : Buffer :=
  ({ s with page2frame := s.page2frame.insert p f, lrus := s.lrus.push f } : Buffer).setPageId f p

theorem LruLists.place (h : LruLists cfg [f] s) (hp : s.page2frame p = none) :
    LruLists cfg [] (s.placeLru p f) := by
  have hnot : f ∉ s.lruFrames := h.held f (by simp)
  have hframes : (s.placeLru p f).lruFrames = f :: s.lruFrames := rfl
  have htable : (s.placeLru p f).page2frame = s.page2frame.insertOrAssign p f :=
    PartialMap.insert_of_none hp f
  have hpage : ∀ g, g ≠ f → (s.placeLru p f).frameToPage g = s.frameToPage g := fun g hg =>
    Function.update_of_ne hg ..
  have hself : (s.placeLru p f).frameToPage f = p := Function.update_self ..
  refine ⟨h.points.pushFront hnot, h.free, fun g => ?_, fun g hg => absurd hg List.not_mem_nil,
    fun q g hq => ?_, fun g hg => ?_⟩
  · rw [hframes, List.mem_cons, List.mem_nil_iff, or_false]
    have hused := h.used g
    rw [List.mem_singleton] at hused
    exact hused.trans or_comm
  · rw [htable, PartialMap.insertOrAssign_eq_some] at hq
    rw [hframes]
    rcases hq with ⟨rfl, rfl⟩ | ⟨-, hq⟩
    · exact ⟨List.mem_cons_self, hself⟩
    · obtain ⟨hg, hgq⟩ := h.mapped q g hq
      have hgf : g ≠ f := by
        rintro rfl
        exact hnot hg
      exact ⟨List.mem_cons_of_mem f hg, (hpage g hgf).trans hgq⟩
  · rw [htable, PartialMap.insertOrAssign_eq_some]
    by_cases hgf : g = f
    · subst hgf
      exact Or.inl ⟨hself, rfl⟩
    -- another frame keeps its page, and that is not `p`, which was not mapped
    · rw [hframes] at hg
      have hlink := h.linked g ((List.mem_cons.1 hg).resolve_left hgf)
      rw [hpage g hgf]
      refine Or.inr ⟨fun hgp => ?_, hlink⟩
      rw [hgp, hp] at hlink
      cases hlink

/-- **A hit** finds the iterator of the frame and moves the frame to the front. -/
theorem LruLists.update (h : LruLists cfg [] s) (hp : s.page2frame p = some f) :
    ∃ r, s.lrus.update f = .ok r ∧ r.lList.toList = f :: s.lruFrames.erase f ∧
      LruLists cfg [] ({ s with lrus := r } : Buffer) := by
  obtain ⟨hf, -⟩ := h.mapped p f hp
  obtain ⟨it, l', hit, herase, hpoints, hl'⟩ := h.points.erase hf
  have hnot : f ∉ l'.toList := by
    rw [hl', h.points.toList_nodup.mem_erase_iff]
    exact fun hmem => hmem.1 rfl
  have hframes : (({ s.lrus with lList := l' } : Lru).push f).lList.toList
      = f :: s.lruFrames.erase f := congrArg (List.cons f) hl'
  have hmem : ∀ g, g ∈ f :: s.lruFrames.erase f ↔ g ∈ s.lruFrames := fun g =>
    (List.perm_cons_erase hf).symm.mem_iff
  refine ⟨({ s.lrus with lList := l' } : Lru).push f, ?_, hframes, hpoints.pushFront hnot, h.free,
    fun g => ?_, fun g hg => absurd hg List.not_mem_nil, fun q g hq => ?_, fun g hg => ?_⟩
  · simp only [Lru.update, hit, eraseIter, herase, ok_bind]
  · rw [lruFrames, hframes, hmem]
    exact h.used g
  · rw [lruFrames, hframes, hmem]
    exact h.mapped q g hq
  · rw [lruFrames, hframes, hmem] at hg
    exact h.linked g hg

end Buffer

end ZoneBuffer
