import ZoneBuffer.Buffer.Steps

set_option autoImplicit false

/-! # The elements the lists are asked for

A miss asks `is_evict` whether to evict, `get_candidate` or `get_candidate_cflru` for the frames
to evict, and `get_frame` for a frame. Each of these reads elements at the end of a list. They are
all there but one: `is_evict` looks at `cList->back()` before it knows that `cList` is not empty,
and when every frame is dirty it is (`readsPresent_iff`). -/

namespace ZoneBuffer

open Outcome Machine

namespace Buffer

variable {cfg : Config} {s : Buffer}

/-- Each element that a miss in `s` reads is in the list it is read from. -/
structure ReadsPresent (cfg : Config) (s : Buffer) : Prop where
  /-- `cList->back()` in `is_evict`. -/
  back : s.strategy.fList.size = 0 → cfg.workRegSize < s.strategy.lList.size →
    s.strategy.cList.size ≤ cfg.workRegSize → s.strategy.cList.toList ≠ []
  /-- The iterators `is_evict` finds and measures. -/
  isEvict : ∃ due, s.isEvict cfg = .ok due
  /-- The positions of `dList` that `get_candidate` goes through. -/
  getCandidate : cfg.mode ≠ .cflru → s.isEvict cfg = .ok true →
    ∃ cs, s.strategy.getCandidate cfg.defBufSize cfg.workRegSize = .ok cs
  /-- `dList->back()` in `get_candidate_cflru`. -/
  getCandidateCflru : cfg.mode = .cflru → s.isEvict cfg = .ok true →
    ∃ cs, s.strategy.getCandidateCflru = .ok cs
  /-- `fList->back()` or `cList->back()` in `get_frame`, after the eviction. -/
  getFrame : ∀ s₁, s.makeRoom cfg = .ok s₁ → ∃ r, s₁.strategy.getFrame = .ok r

/-- Some frame is clean. -/
def SomeClean (cfg : Config) (s : Buffer) : Prop :=
  ∃ f < cfg.defBufSize, s.frameDirty f = false

instance (cfg : Config) (s : Buffer) : Decidable (SomeClean cfg s) :=
  inferInstanceAs (Decidable (∃ f < cfg.defBufSize, s.frameDirty f = false))

theorem size_eq_zero_iff (l : IterList FrameId) : l.size = 0 ↔ l.toList = [] := by
  rw [IterList.size_eq, List.length_eq_zero_iff]

/-- The frames of the free and of the clean list are the clean frames. -/
theorem ZalpLists.someClean_iff (h : ZalpLists cfg [] s) :
    SomeClean cfg s ↔ s.strategy.freeFrames ≠ [] ∨ s.strategy.cleanFrames ≠ [] := by
  have hmem : ∀ f, f ∈ s.strategy.freeFrames ∨ f ∈ s.strategy.lruOrder ↔ f < cfg.defBufSize := by
    intro f
    rw [← List.mem_range, ← h.lists.perm.mem_iff, List.nil_append, List.mem_append]
  have hclean : ∀ f, f ∈ s.strategy.cleanFrames ↔
      f ∈ s.strategy.lruOrder ∧ s.frameDirty f = false := by
    intro f
    rw [h.lists.shows.clean, List.mem_filter, Bool.not_eq_true']
  constructor
  · rintro ⟨f, hf, hd⟩
    rcases (hmem f).2 hf with hfree | hlru
    · exact Or.inl (List.ne_nil_of_mem hfree)
    · exact Or.inr (List.ne_nil_of_mem ((hclean f).2 ⟨hlru, hd⟩))
  · rintro (hne | hne)
    · obtain ⟨f, hf⟩ := List.exists_mem_of_ne_nil _ hne
      refine ⟨f, (hmem f).1 (Or.inl hf), h.lists.dirty_eq_false fun hlru => ?_⟩
      have hnd := h.lists.nodup
      rw [List.nil_append] at hnd
      exact List.disjoint_of_nodup_append hnd hf hlru
    · obtain ⟨f, hf⟩ := List.exists_mem_of_ne_nil _ hne
      obtain ⟨hlru, hd⟩ := (hclean f).1 hf
      exact ⟨f, (hmem f).1 (Or.inr hlru), hd⟩

/-- The elements read after the first are present, whatever the flags are. -/
theorem ZalpLists.readsPresent (h : ZalpLists cfg [] s) (hlru : cfg.mode ≠ .lru)
    (hback : s.strategy.fList.size = 0 → cfg.workRegSize < s.strategy.lList.size →
      s.strategy.cList.size ≤ cfg.workRegSize → s.strategy.cList.toList ≠ []) :
    ReadsPresent cfg s where
  back := hback
  isEvict := ⟨_, isEvict_eq h.lists⟩
  getCandidate _ hev := by
    rw [isEvict_eq h.lists] at hev
    have hdue : Due cfg s.frameDirty s.strategy := of_decide_eq_true (Except.ok.inj hev)
    exact ⟨_, h.lists.getCandidate_eq hdue.free hdue.dirty⟩
  getCandidateCflru _ hev := by
    rw [isEvict_eq h.lists] at hev
    have hdue : Due cfg s.frameDirty s.strategy := of_decide_eq_true (Except.ok.inj hev)
    obtain ⟨xs, id, hl, hid⟩ := exists_last h.lists hdue
    exact ⟨_, h.lists.getCandidateCflru_eq hl (hdue.dirty id hid)⟩
  getFrame s₁ hroom := by
    obtain ⟨hlists, hroomed⟩ := makeRoom_ok h hlru hroom
    obtain ⟨f, isFree, z, hget, -⟩ := getFrame_spec hlists.lists hroomed.hasRoom
    exact ⟨_, hget⟩

/-- In one state: the elements are present if and only if some frame is clean. -/
theorem ZalpLists.reads_iff (h : ZalpLists cfg [] s) (hlru : cfg.mode ≠ .lru) :
    ReadsPresent cfg s ↔ SomeClean cfg s := by
  rw [h.someClean_iff]
  have hfree : s.strategy.fList.toList = s.strategy.freeFrames := rfl
  have hclean : s.strategy.cList.toList = s.strategy.cleanFrames := rfl
  constructor
  · intro hp
    by_contra hnone
    simp only [not_or, not_not] at hnone
    obtain ⟨hf, hc⟩ := hnone
    -- all frames are in the list, and none of them is clean
    have hlen : s.strategy.lList.size = cfg.defBufSize := by
      have hall := h.lists.length_lru
      rw [hf] at hall
      simp only [List.length_nil] at hall
      calc s.strategy.lList.size
          = s.strategy.lruOrder.length := IterList.size_eq _
        _ = cfg.defBufSize := by omega
    refine hp.back ?_ ?_ ?_ (hclean.trans hc)
    · rw [size_eq_zero_iff, hfree]
      exact hf
    · rw [hlen]
      exact cfg.work_lt
    · rw [(size_eq_zero_iff _).2 (hclean.trans hc)]
      exact Nat.zero_le _
  · intro hsome
    refine h.readsPresent hlru fun hsize _ _ => ?_
    rw [size_eq_zero_iff, hfree] at hsize
    rw [hclean]
    exact hsome.resolve_left (not_not.2 hsize)

/-- **No list is asked for an element it does not have, in a run of any calls, if and only if no
miss finds every frame dirty.** -/
theorem readsPresent_iff (cfg : Config) (hlru : cfg.mode ≠ .lru) (mem : Memory)
    (calls : List Call) :
    Along (step cfg) (fun s c => c.Misses s → ReadsPresent cfg s) calls (Buffer.init cfg mem) ↔
      Along (step cfg) (fun s c => c.Misses s → SomeClean cfg s) calls (Buffer.init cfg mem) := by
  have hnext : ∀ s c, ZalpLists cfg [] s → ∀ s', step cfg c s = .ok s' → ZalpLists cfg [] s' :=
    fun s c h s' hs' => (step_ran h hlru hs').2
  constructor
  · refine Along.of_inv (ZalpLists cfg []) (fun s c h hc => ⟨fun hm => ?_, hnext s c h⟩)
      (ZalpLists.init cfg mem)
    exact (h.reads_iff hlru).1 (hc hm)
  · refine Along.of_inv (ZalpLists cfg []) (fun s c h hc => ⟨fun hm => ?_, hnext s c h⟩)
      (ZalpLists.init cfg mem)
    exact (h.reads_iff hlru).2 (hc hm)

theorem readsPresent_iff_reuse :
    Along (step (.small .cflru)) (fun s c => c.Misses s → ReadsPresent (.small .cflru) s)
      reuseCalls (smallBuffer .cflru) :=
  (readsPresent_iff (.small .cflru) (by decide) .zero reuseCalls).2 (by decide +kernel)

/-- Every frame is dirty, and page 5 is inserted. -/
@[irreducible] def soilCalls : List Call :=
  fillCalls ++ [.writePage 4 (frameOf 4 2), .fixNewPage 5 (frameOf 5 1)]

/-- **The clean list is empty when `is_evict` looks at its last element.** -/
theorem back_of_empty : Legal Call.Pre Call.spec soilCalls .empty ∧
    ¬ Along (step (.small .zalpWc)) (fun s c => c.Misses s → ReadsPresent (.small .zalpWc) s)
      soilCalls (smallBuffer .zalpWc) := by
  refine ⟨by decide +kernel, fun halong => ?_⟩
  obtain ⟨s, hs, hfree, hl, hc, hempty⟩ : ∃ s : Buffer,
      run (step (.small .zalpWc)) (fillCalls ++ [.writePage 4 (frameOf 4 2)])
        (smallBuffer .zalpWc) = .ok s ∧ s.strategy.fList.size = 0 ∧ 1 < s.strategy.lList.size ∧
      s.strategy.cList.size ≤ 1 ∧ s.strategy.cList.toList = [] :=
    exists_ok_of_decide (by decide +kernel)
  have hsplit : soilCalls = (fillCalls ++ [.writePage 4 (frameOf 4 2)]) ++
      [.fixNewPage 5 (frameOf 5 1)] := by
    unfold soilCalls
    rw [List.append_assoc]
    rfl
  rw [hsplit, along_append] at halong
  exact ((halong.2 s hs).1 trivial).back hfree hl hc hempty

end Buffer

end ZoneBuffer
