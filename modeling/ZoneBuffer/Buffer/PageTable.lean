import ZoneBuffer.Buffer.Working

set_option autoImplicit false

/-! # The page table and the resident frames

`Inverse` says that `page2frame` and `frame_to_page` are inverse to each other on `lList`. A mapped
page always is in the frame recorded for it; what can fail is that a resident frame is mapped.

The modes that release their victims keep the two maps inverse. The others leave the victims
resident with their pages unmapped, and then take the last of them for the page that missed: with
one victim nothing is left over, with two or more the maps are not inverse any more
(`inverse_run_iff`). -/

namespace ZoneBuffer

open Outcome Machine

namespace Buffer

variable {cfg : Config} {headed : Prop} {s s' s₁ s₂ : Buffer} {f : FrameId} {p : PageId}
  {l : List (PageId × Page)} {m : Contents} {c : Call}

/-- The page table and the resident frames are inverse, and no page is in two frames. -/
structure Inverse (s : Buffer) : Prop where
  mapped : ∀ p f, s.page2frame p = some f → f ∈ s.strategy.lruOrder ∧ s.frameToPage f = p
  resident : ∀ f ∈ s.strategy.lruOrder, s.page2frame (s.frameToPage f) = some f
  single : ∀ f ∈ s.strategy.lruOrder, ∀ g ∈ s.strategy.lruOrder,
    s.frameToPage f = s.frameToPage g → f = g

/-- Every resident frame is mapped. -/
def Linked (s : Buffer) : Prop :=
  ∀ f ∈ s.strategy.lruOrder, s.page2frame (s.frameToPage f) = some f

theorem Linked.single (h : Linked s) {g : FrameId} (hf : f ∈ s.strategy.lruOrder)
    (hg : g ∈ s.strategy.lruOrder) (hfg : s.frameToPage f = s.frameToPage g) : f = g := by
  have hf' := h f hf
  rw [hfg, h g hg] at hf'
  exact (Option.some.inj hf').symm

theorem Inv.inverse_iff {held ex : List FrameId} (h : Inv cfg headed held ex s) :
    Inverse s ↔ Linked s :=
  ⟨fun hi => hi.resident, fun hl => ⟨h.mapped, hl, fun _ hf _ hg => hl.single hf hg⟩⟩

/-! ## The steps of a miss -/

/-- Taking a frame unlinks no other. -/
theorem Took.linked (h : Took cfg s s' f) (hinv : Inv cfg headed [] [] s) (hl : Linked s) :
    Linked s' := by
  intro g hg
  obtain ⟨hg, hne⟩ := (h.mem_lru hinv.zalpLists).1 hg
  rw [h.frameToPage]
  rcases h.how with hfree | hclean
  · rw [hfree.page2frame]
    exact hl g hg
  · have hpage : s.frameToPage g ≠ s.frameToPage f := fun hgf =>
      hne (hl.single hg (List.mem_of_mem_drop hclean.mem) hgf)
    rw [hclean.page2frame, PartialMap.erase_of_ne _ hpage]
    exact hl g hg

/-- Victims that are released take their mappings with them. -/
theorem Evicted.linked (h : Evicted cfg headed s s' (s.victims cfg) l)
    (hrel : cfg.mode.releases = true) (hl : Linked s) : Linked s' := by
  intro g hg
  obtain ⟨hg, hnot⟩ := h.mem_lru.1 hg
  rw [h.frameToPage, h.page2frame]
  refine ⟨hl g hg, fun v hv hvg => ?_⟩
  have hgv := hl.single (List.mem_of_mem_drop (h.picked.mem v hv).1) hg hvg
  exact hnot hrel (hgv ▸ hv)

/-- A single victim that stays resident is the frame taken. -/
theorem Took.linked_of_victim {v : FrameId} (h : Took cfg s₁ s' f)
    (hev : Evicted cfg headed s s₁ [v] l) (hinv₁ : Inv cfg headed [] [] s₁)
    (hrel : cfg.mode.releases = false) (hdue : Due cfg s.frameDirty s.strategy)
    (hl : Linked s) : Linked s' := by
  have hlru : s₁.strategy.lruOrder = s.strategy.lruOrder := by
    rw [hev.picked.lru, hrel, if_neg Bool.false_ne_true]
  have hfree : s₁.strategy.freeFrames = [] := by
    rw [hev.picked.free, hrel, if_neg Bool.false_ne_true, hdue.free]
  have hclean : TookClean cfg s₁ s' f := h.how.resolve_left fun hf => by
    have := hf.free
    rw [hfree] at this
    simp at this
  -- all frames behind the working region but `v` are dirty, and `f` is clean
  have hfv : f = v := by
    by_contra hne
    have hfd := hclean.clean
    rw [hev.frameDirty, Ordered.cleared_of_notMem (by simpa using hne)] at hfd
    rw [hdue.dirty f (hlru ▸ hclean.mem)] at hfd
    cases hfd
  subst hfv
  intro g hg
  obtain ⟨hg, hne⟩ := (h.mem_lru hinv₁.zalpLists).1 hg
  rw [hlru] at hg
  have hv : f ∈ s.strategy.lruOrder := List.mem_of_mem_drop (hev.picked.mem f (by simp)).1
  have hpage : s.frameToPage g ≠ s.frameToPage f := fun hgf => hne (hl.single hg hv hgf)
  rw [h.frameToPage, hclean.page2frame, hev.frameToPage, PartialMap.erase_of_ne _ hpage,
    hev.page2frame]
  refine ⟨hl g hg, fun w hw => ?_⟩
  rw [List.mem_singleton.1 hw]
  exact hpage.symm

/-- Of two victims that stay resident one stays without being mapped. -/
theorem Took.not_linked (h : Took cfg s₁ s' f) (hev : Evicted cfg headed s s₁ (s.victims cfg) l)
    (hinv₁ : Inv cfg headed [] [] s₁) (hrel : cfg.mode.releases = false)
    (htwo : 2 ≤ (s.victims cfg).length) : ¬ Linked s' := by
  obtain ⟨v, hv, hne⟩ : ∃ v ∈ s.victims cfg, v ≠ f := by
    by_contra hall
    push Not at hall
    have hsub : s.victims cfg ⊆ [f] := fun v hv => List.mem_singleton.2 (hall v hv)
    have := (hev.picked.nodup.subperm hsub).length_le
    simp only [List.length_singleton] at this
    omega
  intro hl
  have hmem : v ∈ s'.strategy.lruOrder := by
    rw [h.mem_lru hinv₁.zalpLists, hev.mem_lru]
    refine ⟨⟨List.mem_of_mem_drop (hev.picked.mem v hv).1, fun hr => ?_⟩, hne⟩
    rw [hrel] at hr
    cases hr
  have hmapped := (h.page2frame_eq_some hinv₁.zalpLists (hl v hmem)).1
  rw [hev.page2frame, h.frameToPage, hev.frameToPage] at hmapped
  exact hmapped.2 v hv rfl

/-- Placing a page links its frame and changes nothing for the others. -/
theorem Placed.linked_iff (h : Placed s s' p f) (hinv : Inv cfg headed [f] [] s)
    (hp : s.page2frame p = none) : Linked s' ↔ Linked s := by
  have hother : ∀ g ∈ s.strategy.lruOrder,
      (s'.page2frame (s'.frameToPage g) = some g ↔ s.page2frame (s.frameToPage g) = some g) := by
    intro g hg
    have hne : g ≠ f := by
      rintro rfl
      exact hinv.lists.held_notMem hg
    rw [h.page2frame, h.frameToPage, Function.update_of_ne hne,
      PartialMap.insertOrAssign_eq_some]
    constructor
    · rintro (⟨-, hfg⟩ | ⟨-, hg'⟩)
      · exact absurd hfg.symm hne
      · exact hg'
    · intro hg'
      refine Or.inr ⟨fun hgp => ?_, hg'⟩
      rw [hgp, hp] at hg'
      cases hg'
  constructor
  · intro hl g hg
    exact (hother g hg).1 (hl g (by rw [h.lru]; exact List.mem_cons_of_mem f hg))
  · intro hl g hg
    rw [h.lru] at hg
    rcases List.mem_cons.1 hg with rfl | hg
    · rw [h.page2frame, h.frameToPage, Function.update_self, PartialMap.insertOrAssign_self]
    · exact (hother g hg).2 (hl g hg)

/-! ## Calls and runs -/

/-- The call evicts at most one frame that stays resident. -/
def Thrifty (cfg : Config) (s : Buffer) (c : Call) : Prop :=
  cfg.mode.releases = false → s.page2frame c.page = none → s.isEvict cfg = .ok true →
    (s.victims cfg).length ≤ 1

theorem Missed.linked_iff (h : Missed cfg headed s s' f) (hinv : Inv cfg headed [] [] s)
    (hl : Linked s) (hp : s.page2frame c.page = none) : Linked s' ↔ Thrifty cfg s c := by
  obtain ⟨s₁, hinv₁, ⟨hdue, rfl⟩ | ⟨hdue, l, hev⟩, htook⟩ := h
  · refine ⟨fun _ _ _ hevict => ?_, fun _ => htook.linked hinv hl⟩
    rw [isEvict_eq hinv.lists, decide_eq_false hdue] at hevict
    cases hevict
  · cases hrel : cfg.mode.releases with
    | true =>
        refine ⟨fun _ hr => ?_, fun _ => htook.linked hinv₁ (hev.linked hrel hl)⟩
        rw [hrel] at hr
        cases hr
    | false =>
        have hevict : s.isEvict cfg = .ok true := by
          rw [isEvict_eq hinv.lists, decide_eq_true hdue]
        constructor
        · intro hl' _ _ _
          by_contra htwo
          exact htook.not_linked hev hinv₁ hrel (by omega) hl'
        · intro hthrifty
          have hone := hthrifty hrel hp hevict
          obtain ⟨v, hv⟩ : ∃ v, s.victims cfg = [v] := by
            rw [← List.length_eq_one_iff]
            have := List.length_pos_iff.2 hev.picked.ne_nil
            omega
          rw [hv] at hev
          exact htook.linked_of_victim hev hinv₁ hrel hdue hl

/-- **A call keeps the two maps inverse exactly when it is thrifty.** -/
theorem Called.inverse_iff (h : Called cfg headed s c s') (hinv : Inv cfg headed [] [] s)
    (hinv' : Inv cfg headed [] [] s') (hi : Inverse s) : Inverse s' ↔ Thrifty cfg s c := by
  rw [hinv'.inverse_iff]
  cases h.turn with
  | hit f hp hlru hfree htable hpages =>
      have hf := (hinv.mapped _ f hp).1
      refine ⟨fun _ _ hnone => ?_, fun _ g hg => ?_⟩
      · rw [hp] at hnone
        cases hnone
      · rw [htable, hpages]
        rw [hlru] at hg
        exact hi.resident g ((List.perm_cons_erase hf).symm.subset hg)
  | miss f s₂ hp hinv₂ hmiss hplaced =>
      rw [hplaced.linked_iff hinv₂ (hmiss.page2frame_eq_none hp)]
      exact hmiss.linked_iff hinv hi.resident hp

theorem Inverse.init (cfg : Config) (mem : Memory) : Inverse (Buffer.init cfg mem) :=
  ((Inv.init cfg False mem).inverse_iff).2 fun f hf => by cases hf

/-- **In a complete run the two maps are inverse in every state visited exactly when no call
evicts two frames or more that stay resident.** -/
theorem inverse_run_iff (cfg : Config) (hlru : cfg.mode ≠ .lru) (mem : Memory)
    (calls : List Call) (hl : Legal Call.Pre Call.spec calls .empty) (last : Buffer)
    (hrun : run (step cfg) calls (Buffer.init cfg mem) = .ok last) :
    (∀ s, Visits (step cfg) calls (Buffer.init cfg mem) s → Inverse s) ↔
      Along (step cfg) (Thrifty cfg) calls (Buffer.init cfg mem) := by
  refine visits_iff_along (Sim cfg False) ?_ (Sim.init cfg False mem) (Inverse.init cfg mem) hl hrun
  intro s m c s' hsim hpre hs' hi
  obtain ⟨hinv', hcalled⟩ := (call_spec hsim hlru hpre False.elim).of_ok hs'
  exact ⟨hcalled.sim hinv' hsim hpre, hcalled.inverse_iff hsim.inv hinv' hi⟩

instance (cfg : Config) (s : Buffer) (c : Call) : Decidable (Thrifty cfg s c) :=
  inferInstanceAs (Decidable (_ → _ → _ → _))

/-- Where the victims are released, every call meets the condition. Where they are not, one of the
calls evicts four frames. -/
theorem inverse_run_iff_released :
    (∃ last, run (step (.small .cflru)) reuseCalls (smallBuffer .cflru) = .ok last ∧
      Along (step (.small .cflru)) (Thrifty (.small .cflru)) reuseCalls (smallBuffer .cflru) ∧
      ∀ s, Visits (step (.small .cflru)) reuseCalls (smallBuffer .cflru) s → Inverse s) ∧
    ∃ last, run (step (.small .achOnly)) reuseCalls (smallBuffer .achOnly) = .ok last ∧
      ¬ ∀ s, Visits (step (.small .achOnly)) reuseCalls (smallBuffer .achOnly) s →
        Inverse s := by
  constructor
  · obtain ⟨last, hrun⟩ : ∃ last, run (step (.small .cflru)) reuseCalls (smallBuffer .cflru)
        = .ok last := exists_ok_of_isOk (by decide +kernel)
    have halong : Along (step (.small .cflru)) (Thrifty (.small .cflru)) reuseCalls
        (smallBuffer .cflru) := by decide +kernel
    exact ⟨last, hrun, halong, (inverse_run_iff (.small .cflru) (by decide) .zero reuseCalls
      reuseCalls_legal last hrun).2 halong⟩
  · obtain ⟨last, hrun⟩ : ∃ last, run (step (.small .achOnly)) reuseCalls (smallBuffer .achOnly)
        = .ok last := exists_ok_of_isOk (by decide +kernel)
    have hnot : ¬ Along (step (.small .achOnly)) (Thrifty (.small .achOnly)) reuseCalls
        (smallBuffer .achOnly) := by decide +kernel
    exact ⟨last, hrun, fun hall => hnot ((inverse_run_iff (.small .achOnly) (by decide) .zero
      reuseCalls reuseCalls_legal last hrun).1 hall)⟩

/-- **Victims stay resident without being mapped.** -/
theorem evicted_frame_unmapped : Legal Call.Pre Call.spec reuseCalls .empty ∧
    ∃ s, run (step (.small .achOnly)) reuseCalls (smallBuffer .achOnly) = .ok s ∧
      ¬ Inverse s := by
  refine ⟨reuseCalls_legal, ?_⟩
  obtain ⟨s, hrun, f, hf, hne⟩ : ∃ s, run (step (.small .achOnly)) reuseCalls
      (smallBuffer .achOnly) = .ok s ∧
      ∃ f ∈ s.strategy.lruOrder, s.page2frame (s.frameToPage f) ≠ some f :=
    exists_ok_of_decide (by decide +kernel)
  exact ⟨s, hrun, fun hi => hne (hi.resident f hf)⟩

end Buffer

end ZoneBuffer
