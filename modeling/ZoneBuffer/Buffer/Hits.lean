import ZoneBuffer.Buffer.PageTable
import ZoneBuffer.Buffer.Recency
import ZoneBuffer.Lib.Paging

set_option autoImplicit false

/-! # Hits and misses

What `hit_count` says about a call. In every mode the manager serves the pages its client accesses
as a cache of `DEF_BUF_SIZE` pages does that fetches the page of a call unless the call counts as
a hit (`Paged`). Nothing else the manager does shows in the counter. -/

namespace ZoneBuffer

open Outcome Machine Recency

namespace Buffer

variable {cfg : Config} {s s' s₁ : Buffer} {f : FrameId} {p : PageId} {b : Page}
  {c : Call} {isWrite : Bool}

/-! ## What does not count as a hit -/

theorem detectCold_hits (hok : s.detectCold cfg = .ok s') : s'.hitCount = s.hitCount := by
  rw [detectCold] at hok
  split at hok
  · obtain ⟨z, -, hok⟩ := bind_eq_ok.1 hok
    cases hok
    rfl
  · cases hok
    rfl

theorem detectGarbage_hits (hok : s.detectGarbage cfg = .ok s') : s'.hitCount = s.hitCount := by
  obtain ⟨z, -, hok⟩ := bind_eq_ok.1 hok
  cases hok
  rfl

theorem writeVictims_hits {cf : Int} {vs : List FrameId}
    (hok : s.writeVictims cfg cf vs = .ok s') : s'.hitCount = s.hitCount := by
  obtain ⟨z, -, hok⟩ := bind_eq_ok.1 hok
  cases hok
  rfl

theorem flushVictims_hits {cf : Int} {vs : List FrameId}
    (hok : s.flushVictims cfg cf vs = .ok s') : s'.hitCount = s.hitCount := by
  rw [flushVictims.eq_def] at hok
  split at hok
  · obtain ⟨z, -, hok⟩ := bind_eq_ok.1 hok
    cases hok
    rfl
  · exact writeVictims_hits hok

theorem unmapVictims_hits (vs : List FrameId) (s : Buffer) :
    (s.unmapVictims vs).hitCount = s.hitCount := by
  rw [unmapVictims]
  induction vs generalizing s with
  | nil => rfl
  | cons v vs ih => exact ih _

theorem evictVictim_hits (hok : s.evictVictim cfg = .ok s') : s'.hitCount = s.hitCount := by
  obtain ⟨⟨cf, vs, z⟩, -, hok⟩ := bind_eq_ok.1 hok
  obtain ⟨s₁, hflush, hok⟩ := bind_eq_ok.1 hok
  obtain ⟨s₂, hcold, hok⟩ := bind_eq_ok.1 hok
  rw [detectGarbage_hits hok, detectCold_hits hcold, unmapVictims_hits, flushVictims_hits hflush]
  rfl

theorem flushAch_hits {candidates : List FrameId} (hok : s.flushAch cfg candidates = .ok s') :
    s'.hitCount = s.hitCount := by
  obtain ⟨s₁, hlevels, hok⟩ := bind_eq_ok.1 hok
  cases hok
  have hloop : Yields ([0, 1, 2].foldlM (flushLevel cfg candidates) (s.recordAccesses candidates))
      (fun _ => True) fun s' => s'.hitCount = s.hitCount := by
    refine Yields.foldlM (fun s' : Buffer => s'.hitCount = s.hitCount) _ _ rfl ?_
    intro lv _ s₂ h
    refine yields_partial_iff.2 fun s₃ hs₃ => ?_
    obtain ⟨vs, -, hs₃⟩ := bind_eq_ok.1 hs₃
    exact (writeVictims_hits hs₃).trans h
  show s₁.hitCount = s.hitCount
  exact hloop.of_ok hlevels

theorem evictVictimAch_hits (hok : s.evictVictimAch cfg = .ok s') : s'.hitCount = s.hitCount := by
  obtain ⟨candidates, -, hok⟩ := bind_eq_ok.1 hok
  obtain ⟨s₁, hflush, hok⟩ := bind_eq_ok.1 hok
  obtain ⟨s₂, hcold, hok⟩ := bind_eq_ok.1 hok
  obtain ⟨z, -, hok⟩ := bind_eq_ok.1 hok
  rw [detectGarbage_hits hok]
  show s₂.hitCount = _
  rw [detectCold_hits hcold, unmapVictims_hits, flushAch_hits hflush]

theorem makeRoom_hits (hok : s.makeRoom cfg = .ok s') : s'.hitCount = s.hitCount := by
  obtain ⟨due, -, hok⟩ := bind_eq_ok.1 hok
  split at hok
  · rw [evict] at hok
    split at hok
    · exact evictVictimAch_hits hok
    · exact evictVictim_hits hok
  · cases hok
    rfl

theorem takeFrame_hits (hok : s.takeFrame cfg = .ok (f, s')) : s'.hitCount = s.hitCount := by
  obtain ⟨s₁, hroom, hok⟩ := bind_eq_ok.1 hok
  obtain ⟨⟨g, isFree, z⟩, -, hok⟩ := bind_eq_ok.1 hok
  have hhits := makeRoom_hits hroom
  cases isFree with
  | true =>
      cases hok
      exact hhits
  | false =>
      cases hok
      exact hhits

theorem loadFixed_hits (hok : s.loadFixed cfg p f = .ok s') : s'.hitCount = s.hitCount := by
  rw [loadFixed, loadPage, bind_assoc] at hok
  obtain ⟨⟨zone, a, z⟩, -, hok⟩ := bind_eq_ok.1 hok
  rw [ok_bind] at hok
  cases hm : cfg.mode with
  | zalpWc | whOnly | zalp | achOnly | cflru | lru =>
      simp only [hm] at hok
      cases hok
      rfl

/-- A page fixed counts as a hit exactly if it was mapped. -/
theorem fixPage_hits (hlru : cfg.mode ≠ .lru) (hok : s.fixPage cfg isWrite p = .ok (f, s')) :
    s'.hitCount = s.hitCount + if s.page2frame p = none then 0 else 1 := by
  rw [fixPage, if_neg hlru] at hok
  cases hp : s.page2frame p with
  | none =>
      simp only [hp] at hok
      obtain ⟨⟨g, s₁⟩, htake, hok⟩ := bind_eq_ok.1 hok
      rw [if_pos rfl, Int32.add_zero, ← takeFrame_hits htake]
      cases isWrite with
      | true =>
          cases hok
          rfl
      | false =>
          obtain ⟨s₂, hload, hok⟩ := bind_eq_ok.1 hok
          have hhits := loadFixed_hits hload
          cases hok
          exact hhits
  | some g =>
      simp only [hp] at hok
      obtain ⟨z, -, hok⟩ := bind_eq_ok.1 hok
      cases hok
      rw [if_neg (Option.some_ne_none f)]
      show (if cfg.mode.isZalpWc = true then _ else s).hitCount + 1 = _
      split <;> rfl

theorem setDirty_hits (hok : s.setDirty cfg f = .ok s') : s'.hitCount = s.hitCount := by
  rw [setDirty] at hok
  split at hok
  · cases hok
    rfl
  · obtain ⟨z, -, hok⟩ := bind_eq_ok.1 hok
    cases hok
    rfl

/-- **One call.** -/
theorem step_hits (hlru : cfg.mode ≠ .lru) (hnew : ∀ q a, c = .fixNewPage q a → s.page2frame q = none)
    (hok : step cfg c s = .ok s') :
    s'.hitCount = s.hitCount + if s.page2frame c.page = none then 0 else 1 := by
  cases c with
  | fixNewPage p b =>
      rw [step, fixNewPage, if_neg hlru] at hok
      obtain ⟨⟨g, s₁⟩, htake, hok⟩ := bind_eq_ok.1 hok
      obtain ⟨z, -, hok⟩ := bind_eq_ok.1 hok
      rw [Call.page, if_pos (hnew p b rfl), Int32.add_zero, ← takeFrame_hits htake]
      cases hok
      rw [markNew]
      cases cfg.mode <;> rfl
  | writePage p b =>
      obtain ⟨⟨g, s₁⟩, hfix, hok⟩ := bind_eq_ok.1 hok
      have hdirty := setDirty_hits hok
      rw [show s'.hitCount = s₁.hitCount from hdirty]
      exact fixPage_hits hlru hfix
  | readPage p =>
      obtain ⟨⟨a, s₁⟩, hread, hok⟩ := bind_eq_ok.1 hok
      cases hok
      obtain ⟨⟨g, s₂⟩, hfix, hread⟩ := bind_eq_ok.1 hread
      have hhits := fixPage_hits hlru hfix
      simp only at hread
      split at hread
      · cases hread
        exact hhits
      · cases hread

/-! ## The manager as a cache -/

/-- The pages that are mapped. -/
def cachedPages (cfg : Config) (s : Buffer) : Finset PageId :=
  ((List.range cfg.defBufSize).map s.frameToPage).toFinset.filter fun p => s.page2frame p ≠ none

theorem card_cachedPages (cfg : Config) (s : Buffer) :
    (s.cachedPages cfg).card ≤ cfg.defBufSize := by
  calc (s.cachedPages cfg).card
      ≤ ((List.range cfg.defBufSize).map s.frameToPage).toFinset.card := Finset.card_filter_le ..
    _ ≤ ((List.range cfg.defBufSize).map s.frameToPage).length := List.toFinset_card_le _
    _ = cfg.defBufSize := by rw [List.length_map, List.length_range]

/-- A mapped page is in a frame, which is recorded for it. -/
def Homed (cfg : Config) (s : Buffer) : Prop :=
  ∀ p f, s.page2frame p = some f → f < cfg.defBufSize ∧ s.frameToPage f = p

theorem Homed.mem_iff (h : Homed cfg s) : p ∈ s.cachedPages cfg ↔ s.page2frame p ≠ none := by
  rw [cachedPages, Finset.mem_filter, and_iff_right_iff_imp]
  intro hp
  obtain ⟨f, hf⟩ := Option.ne_none_iff_exists'.1 hp
  obtain ⟨hlt, hpage⟩ := h p f hf
  rw [List.mem_toFinset, List.mem_map]
  exact ⟨f, List.mem_range.2 hlt, hpage⟩

theorem Inv.homed (h : Inv cfg False [] [] s) : Homed cfg s := fun p f hp =>
  ⟨h.lists.lt_of_mem (h.mapped p f hp).1, (h.mapped p f hp).2⟩

theorem LruLists.homed (h : LruLists cfg [] s) : Homed cfg s := by
  intro p f hp
  obtain ⟨hf, hpage⟩ := h.mapped p f hp
  exact ⟨lt_of_lt_of_le ((h.used f).2 (Or.inl hf)) (Nat.sub_le ..), hpage⟩

/-- A call for page `p` has been served as by a cache: the page is held afterwards, no other page is
fetched, and the call counts as a hit if the page was held before. -/
structure Paged (cfg : Config) (p : PageId) (s s' : Buffer) : Prop where
  mem : p ∈ s'.cachedPages cfg
  sub : s'.cachedPages cfg ⊆ insert p (s.cachedPages cfg)
  hits : s'.hitCount = s.hitCount + if p ∈ s.cachedPages cfg then 1 else 0

/-- A page is fetched if it was not held. -/
theorem Paged.card (h : Paged cfg p s s') :
    (s'.cachedPages cfg \ s.cachedPages cfg).card = if p ∈ s.cachedPages cfg then 0 else 1 := by
  by_cases hp : p ∈ s.cachedPages cfg
  · have hsub : s'.cachedPages cfg ⊆ s.cachedPages cfg := by
      rw [← Finset.insert_eq_of_mem hp]
      exact h.sub
    rw [if_pos hp, Finset.sdiff_eq_empty_iff_subset.2 hsub, Finset.card_empty]
  · have hsdiff : s'.cachedPages cfg \ s.cachedPages cfg = {p} := by
      ext q
      rw [Finset.mem_sdiff, Finset.mem_singleton]
      constructor
      · rintro ⟨hq, hnot⟩
        exact (Finset.mem_insert.1 (h.sub hq)).resolve_right hnot
      · rintro rfl
        exact ⟨h.mem, hp⟩
    rw [if_neg hp, hsdiff, Finset.card_singleton]

theorem Exact.mem_cachedPages {r : Accesses} (h : Exact cfg s r) :
    p ∈ s.cachedPages cfg ↔ p ∈ recent cfg.defBufSize r.pages := by
  rw [h.lists.homed.mem_iff, Ne, h.eq_none_iff, not_not]

/-- Mode `lru`. -/
theorem Exact.paged {r : Accesses} (h : Exact cfg s r)
    (h' : Exact cfg s' (r.access cfg.defBufSize p)) : Paged cfg p s s' where
  mem := h'.mem_cachedPages.2 (mem_recent_touch (defBufSize_pos cfg))
  sub q hq := by
    rw [Finset.mem_insert, h.mem_cachedPages]
    exact of_mem_recent_touch (defBufSize_pos cfg) (h'.mem_cachedPages.1 hq)
  hits := by
    rw [h'.hits, h.hits]
    by_cases hp : p ∈ recent cfg.defBufSize r.pages
    · rw [Accesses.access, if_pos hp, if_pos (h.mem_cachedPages.2 hp)]
      exact Int32.ofInt_add r.hits 1
    · rw [Accesses.access, if_neg hp, if_neg fun hc => hp (h.mem_cachedPages.1 hc),
        Int32.add_zero]

/-- The modes with `ZALP`. -/
theorem Turn.paged (h : Turn cfg False s p s') (hhomed : Homed cfg s) (hhomed' : Homed cfg s')
    (hhits : s'.hitCount = s.hitCount + if s.page2frame p = none then 0 else 1) :
    Paged cfg p s s' where
  mem := by
    rw [hhomed'.mem_iff]
    cases h with
    | hit f hp _ _ htable _ =>
        rw [htable, hp]
        exact Option.some_ne_none f
    | miss f s₂ hp _ _ hplaced =>
        rw [hplaced.page2frame, PartialMap.insertOrAssign_self]
        exact Option.some_ne_none f
  sub q hq := by
    rw [Finset.mem_insert, hhomed.mem_iff]
    obtain ⟨g, hg⟩ := Option.ne_none_iff_exists'.1 (hhomed'.mem_iff.1 hq)
    exact (h.mapped hg).imp_right fun hs => by rw [hs]; exact Option.some_ne_none g
  hits := by
    rw [hhits]
    by_cases hp : s.page2frame p = none
    · rw [if_pos hp, if_neg fun hc => hhomed.mem_iff.1 hc hp]
    · rw [if_neg hp, if_pos (hhomed.mem_iff.2 hp)]

end Buffer

end ZoneBuffer
