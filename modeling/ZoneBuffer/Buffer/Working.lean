import ZoneBuffer.Buffer.Runs

set_option autoImplicit false

/-! # The lists in every reachable state

`ListLaw` is the law `is_correct` samples, and `Protected` says what the working region is for:
the candidates of an eviction and the frames taken for pages lie behind it. Both hold in every
state a run reaches, in all modes with `ZALP` and for all frames, whether or not they start with
their pages' ids. -/

namespace ZoneBuffer

open Outcome Machine

/-- The map `m` sends exactly the members of `l` to iterators, each to its own position. -/
def Positions (m : PartialMap FrameId Nat) (l : IterList FrameId) : Prop :=
  ∀ f, (f ∈ l.toList ↔ ∃ it, m f = some it) ∧
    ∀ it, m f = some it → l.index? it = some (l.toList.idxOf f)

theorem positions_of_tracks {m : PartialMap FrameId Nat} {l : IterList FrameId}
    (h : IterList.Tracks m l) : Positions m l :=
  fun f => ⟨h.mem_iff f, fun _ hit => h.index? hit⟩

/-! ## What `is_correct` accepts -/

namespace Zalp

variable {dirty : FrameId → Bool} {l : List FrameId}

/-- A frame that is next in the clean list. -/
theorem matchLists_clean (pastC pastD x : FrameId) (p q : List FrameId) :
    matchLists pastC pastD (x :: l) (x :: p) q = matchLists pastC pastD l p q := by
  rw [matchLists, show deref pastC (x :: p) = x from rfl, if_pos rfl]
  rfl

/-- A frame that is next in the dirty list. -/
theorem matchLists_dirty {pastC x : FrameId} {p : List FrameId} (h : x ≠ deref pastC p)
    (pastD : FrameId) (q : List FrameId) :
    matchLists pastC pastD (x :: l) p (x :: q) = matchLists pastC pastD l p q := by
  rw [matchLists, if_neg h, show deref pastD (x :: q) = x from rfl, if_pos rfl]
  rfl

/-- A dirty frame is not the next clean one. -/
theorem ne_deref_clean {x past : FrameId} (hx : dirty x = true)
    (hl : l.filter (fun y => !dirty y) ≠ []) :
    x ≠ deref past (l.filter fun y => !dirty y) := by
  obtain ⟨y, rest, hy⟩ := List.exists_cons_of_ne_nil hl
  have hmem : y ∈ l.filter fun y => !dirty y := hy ▸ List.mem_cons_self
  rw [hy]
  rintro rfl
  simp [hx] at hmem

/-- If the last frame is clean, no iterator is read at the end of its list. -/
theorem matchLists_filter (pastC pastD : FrameId) (hlast : ∀ x ∈ l.getLast?, dirty x = false) :
    matchLists pastC pastD l (l.filter fun x => !dirty x) (l.filter dirty) = .ok () := by
  induction l with
  | nil => rfl
  | cons x l ih =>
      have hlast' : ∀ y ∈ l.getLast?, dirty y = false := by
        intro y hy
        apply hlast y
        rw [List.getLast?_cons, hy]
        rfl
      cases hx : dirty x with
      | false =>
          rw [List.filter_cons_of_pos (by simp [hx]), List.filter_cons_of_neg (by simp [hx]),
            matchLists_clean]
          exact ih hlast'
      | true =>
          -- a clean frame is still to come
          have hclean : l.filter (fun y => !dirty y) ≠ [] := by
            cases hl : l.getLast? with
            | none =>
                have hdirty := hlast x (by rw [List.getLast?_cons, hl]; rfl)
                rw [hx] at hdirty
                cases hdirty
            | some y =>
                have hy : y ∈ l.filter fun y => !dirty y :=
                  List.mem_filter.2 ⟨List.mem_of_getLast? hl, by simp [hlast' y hl]⟩
                exact List.ne_nil_of_mem hy
          rw [List.filter_cons_of_neg (by simp [hx]), List.filter_cons_of_pos hx,
            matchLists_dirty (ne_deref_clean hx hclean)]
          exact ih hlast'

/-- If the last frame is dirty, `*cList->end()` is read, and may happen to be that frame. -/
theorem matchLists_last {f : FrameId} (pastD : FrameId) (hlast : l.getLast? = some f)
    (hf : dirty f = true) :
    matchLists f pastD l (l.filter fun x => !dirty x) (l.filter dirty) ≠ .ok () := by
  induction l with
  | nil => cases hlast
  | cons x l ih =>
      rw [List.getLast?_cons] at hlast
      cases hx : dirty x with
      | false =>
          have hl : l.getLast? = some f := by
            cases hl : l.getLast? with
            | none =>
                rw [hl] at hlast
                obtain rfl := Option.some.inj hlast
                rw [Option.getD_none, hx] at hf
                cases hf
            | some y =>
                rw [hl] at hlast
                exact hlast
          rw [List.filter_cons_of_pos (by simp [hx]), List.filter_cons_of_neg (by simp [hx]),
            matchLists_clean]
          exact ih hl
      | true =>
          rw [List.filter_cons_of_neg (by simp [hx]), List.filter_cons_of_pos hx]
          by_cases hmatch : x = deref f (l.filter fun y => !dirty y)
          -- the clean list is used up, and its iterator is moved past its end
          · have hnil : l.filter (fun y => !dirty y) = [] := by
              by_contra hne
              exact ne_deref_clean hx hne hmatch
            rw [matchLists, if_pos hmatch, hnil]
            intro h
            cases h
          · rw [matchLists_dirty hmatch]
            apply ih
            cases hl : l.getLast? with
            | some y =>
                rw [hl] at hlast
                exact hlast
            | none =>
                rw [hl] at hlast
                obtain rfl := Option.some.inj hlast
                rw [List.getLast?_eq_none_iff.1 hl] at hmatch
                exact absurd rfl hmatch

end Zalp

/-- **The lists pass `is_correct`**, whatever it reads at their ends, if and only if there are no
dirty frames behind the last clean one. -/
theorem Ordered.isCorrect_iff {n : Nat} {dirty : FrameId → Bool} {held : List FrameId} {z : Zalp}
    (h : Ordered n dirty held z) :
    (∀ pastC pastD, z.isCorrect pastC pastD = .ok ()) ↔
      ∀ f ∈ z.lruOrder.getLast?, dirty f = false := by
  have hclean : z.cList.toList = z.lruOrder.filter fun x => !dirty x := h.shows.clean
  have hdirty : z.dList.toList = z.lruOrder.filter dirty := h.shows.dirty
  have hsize : z.lList.size = z.dList.size + z.cList.size := by
    rw [IterList.size_eq, IterList.size_eq, IterList.size_eq, hclean, hdirty]
    exact List.length_eq_length_filter_add dirty
  have hloop : ∀ pastC pastD, z.isCorrect pastC pastD = Zalp.matchLists pastC pastD z.lruOrder
      (z.lruOrder.filter fun x => !dirty x) (z.lruOrder.filter dirty) := by
    intro pastC pastD
    rw [Zalp.isCorrect, if_pos hsize, hclean, hdirty]
    rfl
  constructor
  · intro hok f hf
    rw [← Bool.not_eq_true]
    intro hd
    apply Zalp.matchLists_last 0 hf hd
    rw [← hloop]
    exact hok f 0
  · intro hlast pastC pastD
    rw [hloop]
    exact Zalp.matchLists_filter pastC pastD hlast

namespace Buffer

variable {cfg : Config} {headed : Prop} {s s' : Buffer} {m : Contents} {c : Call}

/-! ## The law of the lists -/

structure ListLaw (cfg : Config) (s : Buffer) : Prop where
  nodup_free : s.strategy.freeFrames.Nodup
  nodup_lru : s.strategy.lruOrder.Nodup
  disjoint : s.strategy.freeFrames.Disjoint s.strategy.lruOrder
  frames : ∀ f, f < cfg.defBufSize ↔ f ∈ s.strategy.freeFrames ∨ f ∈ s.strategy.lruOrder
  nodup_clean : s.strategy.cleanFrames.Nodup
  nodup_dirty : s.strategy.dirtyFrames.Nodup
  clean_disjoint : s.strategy.cleanFrames.Disjoint s.strategy.dirtyFrames
  union : ∀ f, f ∈ s.strategy.lruOrder ↔ f ∈ s.strategy.cleanFrames ∨ f ∈ s.strategy.dirtyFrames
  lMap : Positions s.strategy.lMap s.strategy.lList
  cMap : Positions s.strategy.cMap s.strategy.cList
  dMap : Positions s.strategy.dMap s.strategy.dList
  dirty : ∀ f, f ∈ s.strategy.dirtyFrames ↔ s.frameDirty f = true
  clean_order : s.strategy.cleanFrames.Sublist s.strategy.lruOrder
  dirty_order : s.strategy.dirtyFrames.Sublist s.strategy.lruOrder

/-- `is_correct` does not fail, whatever it reads at the ends of the lists. -/
def Checked (s : Buffer) : Prop := ∀ pastC pastD, s.strategy.isCorrect pastC pastD = .ok ()

theorem Inv.listLaw (h : Inv cfg headed [] [] s) : ListLaw cfg s := by
  have hclean := h.lists.shows.clean
  have hdirty := h.lists.shows.dirty
  have hnd := h.lists.nodup
  rw [List.nil_append, List.nodup_append'] at hnd
  refine ⟨hnd.1, hnd.2.1, hnd.2.2, fun f => ?_, ?_, ?_, ?_, fun f => ?_,
    positions_of_tracks h.lists.shows.tracked.l, positions_of_tracks h.lists.shows.tracked.c,
    positions_of_tracks h.lists.shows.tracked.d, fun f => ?_, ?_, ?_⟩
  · rw [← List.mem_range, ← h.lists.perm.mem_iff, List.nil_append, List.mem_append]
  · rw [hclean]
    exact h.lists.shows.nodup_c
  · rw [hdirty]
    exact h.lists.shows.nodup_d
  · rw [hclean, hdirty]
    intro x hx hx'
    simp only [List.mem_filter, Bool.not_eq_true'] at hx hx'
    rw [hx.2] at hx'
    cases hx'.2
  · rw [hclean, hdirty, List.mem_filter, List.mem_filter]
    cases s.frameDirty f <;> simp
  · rw [hdirty, List.mem_filter]
    exact ⟨fun hf => hf.2, fun hf => ⟨h.lists.dirty_mem f hf, hf⟩⟩
  · rw [hclean]
    exact List.filter_sublist
  · rw [hdirty]
    exact List.filter_sublist

/-- **The law of the lists holds in every state reached**, and a run whose frames start with
their pages' ids stops only for want of an empty zone. `is_correct` does not fail in a state if and
only if no dirty frame is behind the last clean one: it compares the frames there with the end of
the clean list. -/
theorem listLaw_run (cfg : Config) (hlru : cfg.mode ≠ .lru) (mem : Memory) (calls : List Call)
    (hl : Legal Call.Pre Call.spec calls .empty) :
    Yields (run (step cfg) calls (Buffer.init cfg mem)) (Stops (AllHeaded calls)) fun s =>
      ListLaw cfg s ∧
        (s.Checked ↔ ∀ f ∈ s.strategy.lruOrder.getLast?, s.frameDirty f = false) :=
  (run_sim hlru mem calls hl id).imp fun _ h => ⟨h.inv.listLaw, h.inv.lists.isCorrect_iff⟩

/-- After the last of these calls the frame accessed least recently is clean. -/
theorem listLaw_run_reuse : ∃ s, run (step (.small .achOnly)) reuseCalls (smallBuffer .achOnly)
      = .ok s ∧ ListLaw (.small .achOnly) s ∧
        (s.Checked ↔ ∀ f ∈ s.strategy.lruOrder.getLast?, s.frameDirty f = false) :=
  (listLaw_run (.small .achOnly) (by decide) .zero reuseCalls reuseCalls_legal).of_isOk
    (by decide +kernel)

/-- Five pages are inserted, four of them written, and the fifth is read. -/
@[irreducible] def readLastCalls : List Call :=
  [.fixNewPage 0 (frameOf 0 1), .fixNewPage 1 (frameOf 1 1), .fixNewPage 2 (frameOf 2 1),
    .fixNewPage 3 (frameOf 3 1), .fixNewPage 4 (frameOf 4 1), .writePage 0 (frameOf 0 2),
    .writePage 1 (frameOf 1 2), .writePage 2 (frameOf 2 2), .writePage 3 (frameOf 3 2), .readPage 4]

/-- **A state in which `is_correct` fails**: the only clean frame is in front of four dirty ones.
The values read at the ends are the sizes of the lists. -/
theorem unchecked_run : Legal Call.Pre Call.spec readLastCalls .empty ∧
    ∃ s, run (step (.small .achOnly)) readLastCalls (smallBuffer .achOnly) = .ok s ∧
      s.strategy.lruOrder = [0, 1, 2, 3, 4] ∧ s.strategy.cleanFrames = [0] ∧
      s.strategy.dirtyFrames = [1, 2, 3, 4] ∧
      s.strategy.isCorrect s.strategy.cList.size s.strategy.dList.size = .error .badIter ∧
      ¬ s.Checked := by
  refine ⟨by decide +kernel, ?_⟩
  obtain ⟨s, hok, hlru, hclean, hdirty, hfail⟩ : ∃ s : Buffer,
      run (step (.small .achOnly)) readLastCalls (smallBuffer .achOnly) = .ok s ∧
        s.strategy.lruOrder = [0, 1, 2, 3, 4] ∧ s.strategy.cleanFrames = [0] ∧
        s.strategy.dirtyFrames = [1, 2, 3, 4] ∧
        s.strategy.isCorrect s.strategy.cList.size s.strategy.dList.size = .error .badIter :=
    exists_ok_of_decide (by decide +kernel)
  refine ⟨s, hok, hlru, hclean, hdirty, hfail, fun h => ?_⟩
  rw [h] at hfail
  cases hfail

/-! ## The working region -/

/-- What holds of a state whose client believes in `m`. The last field is about any call the
client may make next. -/
structure Protected (cfg : Config) (s : Buffer) (m : Contents) : Prop where
  due : ∃ due, s.isEvict cfg = .ok due ∧ (due = true ↔ s.strategy.freeFrames = [] ∧
    ∀ f ∈ s.strategy.cleanFrames, s.strategy.lruOrder.idxOf f < cfg.workRegSize)
  candidates : s.isEvict cfg = .ok true → s.strategy.lruOrder.length = cfg.defBufSize ∧
    (∀ f ∈ s.strategy.lruOrder.drop cfg.workRegSize, f ∈ s.strategy.dirtyFrames) ∧
    s.strategy.getCandidate cfg.defBufSize cfg.workRegSize
      = .ok (s.strategy.lruOrder.drop cfg.workRegSize) ∧
    ∃ last, s.strategy.lruOrder.getLast? = some last ∧
      s.strategy.getCandidateCflru = .ok [last]
  getFrame : ∀ s₁, s.makeRoom cfg = .ok s₁ → ∃ r, s₁.strategy.getFrame = .ok r
  taken : ∀ c s', c.Pre m → s.strategy.freeFrames = [] → step cfg c s = .ok s' →
    (s.page2frame c.page = none →
      ∃ f ∈ s.strategy.lruOrder.drop cfg.workRegSize, s'.page2frame c.page = some f) ∧
    ∀ f ∈ s.strategy.lruOrder.take cfg.workRegSize, s'.frameToPage f = s.frameToPage f

/-- All frames behind the working region are dirty if no clean one is there. -/
theorem Inv.due_iff (h : Inv cfg headed [] [] s) :
    Due cfg s.frameDirty s.strategy ↔ s.strategy.freeFrames = [] ∧
      ∀ f ∈ s.strategy.cleanFrames, s.strategy.lruOrder.idxOf f < cfg.workRegSize := by
  have hclean : ∀ f, f ∈ s.strategy.cleanFrames ↔
      f ∈ s.strategy.lruOrder ∧ s.frameDirty f = false := by
    intro f
    rw [h.lists.shows.clean, List.mem_filter, Bool.not_eq_true']
  constructor
  · rintro ⟨hfree, hdirty⟩
    refine ⟨hfree, fun f hf => ?_⟩
    obtain ⟨hf, hfd⟩ := (hclean f).1 hf
    rw [← List.take_append_drop cfg.workRegSize s.strategy.lruOrder, List.mem_append] at hf
    rcases hf with hf | hf
    · exact Region.idxOf_lt_of_mem_take hf
    · rw [hdirty f hf] at hfd
      cases hfd
  · rintro ⟨hfree, hpos⟩
    refine ⟨hfree, fun f hf => ?_⟩
    by_contra hfd
    rw [Bool.not_eq_true] at hfd
    have hlt := hpos f ((hclean f).2 ⟨List.mem_of_mem_drop hf, hfd⟩)
    have hge := Region.le_idxOf_of_mem_drop h.lists.nodup_lru hf
    omega

theorem Missed.frameToPage {s₂ : Buffer} {f : FrameId} (h : Missed cfg headed s s₂ f) :
    s₂.frameToPage = s.frameToPage := by
  obtain ⟨s₁, -, hroomed, htook⟩ := h
  rw [htook.frameToPage]
  rcases hroomed with ⟨-, rfl⟩ | ⟨-, l, hev⟩
  · rfl
  · exact hev.frameToPage

/-- What a call takes over lies behind the working region. -/
theorem Turn.taken {p : PageId} (h : Turn cfg headed s p s') (hinv : Inv cfg headed [] [] s)
    (hfree : s.strategy.freeFrames = []) :
    (s.page2frame p = none →
      ∃ f ∈ s.strategy.lruOrder.drop cfg.workRegSize, s'.page2frame p = some f) ∧
    ∀ f ∈ s.strategy.lruOrder.take cfg.workRegSize, s'.frameToPage f = s.frameToPage f := by
  cases h with
  | hit f hp hlru hf htable hpages =>
      refine ⟨fun hnone => ?_, fun f _ => by rw [hpages]⟩
      rw [hp] at hnone
      cases hnone
  | miss f s₂ hp hinv₂ hmiss hplaced =>
      have hf := hmiss.mem_drop hfree
      refine ⟨fun _ => ⟨f, hf, ?_⟩, fun g hg => ?_⟩
      · rw [hplaced.page2frame, PartialMap.insertOrAssign_self]
      · have hne : g ≠ f := by
          rintro rfl
          have hnd := hinv.lists.nodup_lru
          rw [← List.take_append_drop cfg.workRegSize s.strategy.lruOrder] at hnd
          exact List.disjoint_of_nodup_append hnd hg hf
        rw [hplaced.frameToPage, Function.update_of_ne hne, hmiss.frameToPage]

/-- The lists do not need what is known of the store. -/
theorem Sim.unheaded (h : Sim cfg headed s m) : Sim cfg False s m :=
  ⟨⟨h.inv.lists, h.inv.mapped, h.inv.flags, False.elim⟩, h.known, False.elim⟩

theorem Sim.protected (h : Sim cfg False s m) (hlru : cfg.mode ≠ .lru) : Protected cfg s m where
  due := by
    refine ⟨_, isEvict_eq h.inv.lists, ?_⟩
    rw [decide_eq_true_eq]
    exact h.inv.due_iff
  candidates hdue := by
    rw [isEvict_eq h.inv.lists, Except.ok.injEq, decide_eq_true_eq] at hdue
    obtain ⟨xs, last, hl, hmem⟩ := exists_last h.inv.lists hdue
    have hlen := h.inv.lists.length_lru
    rw [hdue.free] at hlen
    refine ⟨by simpa using hlen, fun f hf => ?_, h.inv.lists.getCandidate_eq hdue.free hdue.dirty,
      last, by rw [hl, List.getLast?_concat],
      h.inv.lists.getCandidateCflru_eq hl (hdue.dirty last hmem)⟩
    rw [h.inv.lists.shows.dirty]
    exact List.mem_filter.2 ⟨List.mem_of_mem_drop hf, hdue.dirty f hf⟩
  getFrame s₁ hs₁ := by
    obtain ⟨hinv₁, hroomed⟩ := (makeRoom_spec h.inv hlru).of_ok hs₁
    obtain ⟨f, isFree, z, hget, -⟩ := getFrame_spec hinv₁.lists hroomed.hasRoom
    exact ⟨_, hget⟩
  taken c s' hpre hfree hs' :=
    ((call_spec h hlru hpre False.elim).of_ok hs').2.turn.taken h.inv hfree

/-- **The working region is protected in every state reached**, and a run whose frames start
with their pages' ids stops only for want of an empty zone. -/
theorem protected_run (cfg : Config) (hlru : cfg.mode ≠ .lru) (mem : Memory) (calls : List Call)
    (hl : Legal Call.Pre Call.spec calls .empty) :
    Yields (run (step cfg) calls (Buffer.init cfg mem)) (Stops (AllHeaded calls)) fun s =>
      Protected cfg s (specRun Call.spec calls .empty) :=
  (run_sim hlru mem calls hl id).imp fun _ h => h.unheaded.protected hlru

theorem protected_run_reuse : ∃ s, run (step (.small .achOnly)) reuseCalls (smallBuffer .achOnly)
      = .ok s ∧ Protected (.small .achOnly) s (specRun Call.spec reuseCalls .empty) :=
  (protected_run (.small .achOnly) (by decide) .zero reuseCalls reuseCalls_legal).of_isOk
    (by decide +kernel)

end Buffer

end ZoneBuffer
