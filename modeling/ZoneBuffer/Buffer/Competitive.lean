import ZoneBuffer.Buffer.Hits

set_option autoImplicit false

/-! # The manager among caches

A run of the manager is a schedule for the pages its client accesses, and the calls it misses are
what the schedule fetches (`run_paged`). Mode `lru` keeps the pages accessed last in all its frames,
and the modes that release their victims keep them in the working region at least (`Regional`),
whatever is evicted behind it. So these modes miss no more often than an LRU cache of that size,
and not much more often than any cache could (`run_competitive`), be it the manager in another mode
(`run_competes`). -/

namespace ZoneBuffer

open Outcome Machine Recency

namespace Buffer

variable {cfg : Config} {s s' : Buffer} {f : FrameId} {p : PageId} {m : Contents} {c : Call}

/-! ## The working region -/

/-- The pages of the resident frames, in the order of the list. -/
def residentPages (s : Buffer) : List PageId := s.strategy.lruOrder.map s.frameToPage

/-- The working region holds the pages accessed last, `l` being all that have been accessed. -/
structure Regional (cfg : Config) (s : Buffer) (l : List PageId) : Prop where
  linked : Linked s
  pages : recent cfg.workRegSize s.residentPages = recent cfg.workRegSize l

theorem Linked.mem_residentPages (h : Linked s) (hp : p ∈ s.residentPages) :
    s.page2frame p ≠ none := by
  obtain ⟨f, hf, rfl⟩ := List.mem_map.1 hp
  rw [h f hf]
  exact Option.some_ne_none f

/-- The pages accessed last are mapped. -/
theorem Regional.mapped {l : List PageId} (h : Regional cfg s l)
    (hp : p ∈ recent cfg.workRegSize l) : s.page2frame p ≠ none :=
  h.linked.mem_residentPages (List.mem_of_mem_take (h.pages ▸ hp))

/-- The list `l` without some elements behind the first `w`. -/
def Kept (w : Nat) (l l' : List FrameId) : Prop :=
  ∃ rest, l' = l.take w ++ rest ∧ (l.length < w → rest = [])

theorem Kept.refl (w : Nat) (l : List FrameId) : Kept w l l := by
  refine ⟨l.drop w, (List.take_append_drop w l).symm, fun hlt => ?_⟩
  exact List.drop_eq_nil_of_le (Nat.le_of_lt hlt)

theorem kept_erase {w : Nat} {l : List FrameId} (hl : l.Nodup) (hf : f ∈ l.drop w) :
    Kept w l (l.erase f) := by
  have hnot : f ∉ l.take w := by
    rw [← List.take_append_drop w l] at hl
    exact fun hmem => List.disjoint_of_nodup_append hl hmem hf
  refine ⟨(l.drop w).erase f, ?_, fun hlt => ?_⟩
  · rw [← List.erase_append_right _ hnot, List.take_append_drop]
  · rw [List.drop_eq_nil_of_le (Nat.le_of_lt hlt)] at hf
    cases hf

theorem kept_filter {w : Nat} {l vs : List FrameId} (hl : l.Nodup) (hvs : ∀ v ∈ vs, v ∈ l.drop w) :
    Kept w l (l.filter (· ∉ vs)) := by
  refine ⟨(l.drop w).filter (· ∉ vs), ?_, fun hlt => ?_⟩
  · have hfirst : (l.take w).filter (· ∉ vs) = l.take w := by
      rw [List.filter_eq_self]
      intro g hg
      rw [decide_eq_true_eq]
      rw [← List.take_append_drop w l] at hl
      exact fun hmem => List.disjoint_of_nodup_append hl hg (hvs g hmem)
    conv_lhs => rw [← List.take_append_drop w l, List.filter_append, hfirst]
  · rw [List.drop_eq_nil_of_le (Nat.le_of_lt hlt)]
    rfl

/-- With a new element in front the first ones are the same. -/
theorem Kept.recent_cons {w : Nat} {l l' : List FrameId} (h : Kept w l l') (hw : 0 < w)
    (pages : FrameId → PageId) (p : PageId) :
    recent w (p :: l'.map pages) = recent w (p :: l.map pages) := by
  obtain ⟨rest, rfl, hrest⟩ := h
  obtain ⟨k, rfl⟩ := Nat.exists_eq_add_one_of_ne_zero (Nat.ne_of_gt hw)
  rw [recent, recent, List.take_succ_cons, List.take_succ_cons, ← List.map_take, ← List.map_take]
  congr 2
  rcases Nat.lt_or_ge l.length (k + 1) with hlt | hge
  · rw [hrest hlt, List.append_nil, List.take_take, Nat.min_eq_left (Nat.le_succ k)]
  · rw [List.take_append_of_le_length (by rw [List.length_take]; omega), List.take_take,
      Nat.min_eq_left (Nat.le_succ k)]

/-- **A miss in a mode that releases its victims leaves the working region as it is.** -/
theorem Missed.kept {s₂ : Buffer} (h : Missed cfg False s s₂ f) (hinv : Inv cfg False [] [] s)
    (hrel : cfg.mode.releases = true) :
    Kept cfg.workRegSize s.strategy.lruOrder s₂.strategy.lruOrder := by
  obtain ⟨s₁, hinv₁, hroomed, htook⟩ := h
  have hnd := hinv.lists.nodup_lru
  rcases hroomed with ⟨-, rfl⟩ | ⟨-, l, hev⟩
  · rcases htook.how with hfree | hclean
    · rw [hfree.lru]
      exact .refl _ _
    · rw [hclean.lru]
      exact kept_erase hnd hclean.mem
  · -- the victims are free now, so one of them is taken
    have hfree₁ := hev.picked.free
    rw [hrel, if_pos rfl] at hfree₁
    have hfree : TookFree s₁ s₂ f := htook.how.resolve_right fun hclean => by
      rw [hclean.free] at hfree₁
      exact hev.picked.ne_nil (List.append_eq_nil_iff.1 hfree₁.symm).2
    rw [hfree.lru, hev.picked.lru, hrel, if_pos rfl]
    exact kept_filter hnd fun v hv => (hev.picked.mem v hv).1

/-- **A call moves its page to the front of the working region.** -/
theorem Turn.regional {l : List PageId} (h : Turn cfg False s p s') (hinv : Inv cfg False [] [] s)
    (hrel : cfg.mode.releases = true) (hr : Regional cfg s l) (hl' : Linked s') :
    Regional cfg s' (touch p l) where
  linked := hl'
  pages := by
    rw [← recent_touch_congr cfg.work_pos hr.pages]
    cases h with
    | hit f hp hlru hfree htable hpages =>
        obtain ⟨hf, hfp⟩ := hinv.mapped p f hp
        have herase : (s.strategy.lruOrder.erase f).map s.frameToPage = s.residentPages.erase p := by
          rw [map_erase hf fun g hg hgf => hr.linked.single hg hf hgf, hfp]
          rfl
        rw [residentPages, hlru, hpages, List.map_cons, herase, hfp]
        rfl
    | miss f s₂ hp hinv₂ hmiss hplaced =>
        have hnot : p ∉ s.residentPages := fun hmem => hr.linked.mem_residentPages hmem hp
        have hothers : s₂.strategy.lruOrder.map s'.frameToPage
            = s₂.strategy.lruOrder.map s.frameToPage := by
          refine List.map_congr_left fun g hg => ?_
          have hne : g ≠ f := by
            rintro rfl
            exact hinv₂.lists.held_notMem hg
          rw [hplaced.frameToPage, Function.update_of_ne hne, hmiss.frameToPage]
        have hfront : s'.frameToPage f = p := by
          rw [hplaced.frameToPage, Function.update_self]
        rw [residentPages, hplaced.lru, List.map_cons, hfront, hothers, touch,
          List.erase_of_not_mem hnot]
        exact (hmiss.kept hinv hrel).recent_cons cfg.work_pos s.frameToPage p

/-! ## Runs -/

/-- The modes that keep the pages accessed last. -/
def KeepsRecent (cfg : Config) : Prop := cfg.mode = .lru ∨ cfg.mode.releases = true

theorem keepsRecent_of_mode (h : cfg.mode = .lru ∨ cfg.mode = .cflru ∨ cfg.mode = .zalpWc) :
    KeepsRecent cfg := by
  rcases h with hm | hm | hm
  · exact Or.inl hm
  · exact Or.inr (by rw [hm]; rfl)
  · exact Or.inr (by rw [hm]; rfl)

/-- How many of the pages accessed last they keep. -/
def keeps (cfg : Config) : Nat := if cfg.mode = .lru then cfg.defBufSize else cfg.workRegSize

/-- What is known of a state, when the client believes in `m` and has accessed the pages `l`. -/
structure Watched (cfg : Config) (s : Buffer) (m : Contents) (l : List PageId) : Prop where
  known : ∀ p ∈ l, m p ≠ none
  zalp : cfg.mode ≠ .lru → Sim cfg False s m
  lru : cfg.mode = .lru → ∃ n, Exact cfg s ⟨l, n⟩
  region : cfg.mode.releases = true → Regional cfg s l

theorem Watched.init (cfg : Config) (mem : Memory) :
    Watched cfg (Buffer.init cfg mem) .empty [] where
  known p hp := by cases hp
  zalp _ := Sim.init cfg False mem
  lru _ := ⟨0, Exact.init cfg mem⟩
  region _ := ⟨(Inverse.init cfg mem).resident, rfl⟩

theorem Watched.homed {l : List PageId} (h : Watched cfg s m l) : Homed cfg s := by
  by_cases hlru : cfg.mode = .lru
  · obtain ⟨n, hexact⟩ := h.lru hlru
    exact hexact.lists.homed
  · exact (h.zalp hlru).inv.homed

theorem cachedPages_init (cfg : Config) (mem : Memory) :
    (Buffer.init cfg mem).cachedPages cfg = ∅ := by
  ext p
  rw [(Watched.init cfg mem).homed.mem_iff]
  exact ⟨fun h => absurd rfl h, fun h => by cases h⟩

/-- The pages accessed last are held. -/
theorem Watched.held {l : List PageId} (h : Watched cfg s m l) (hmode : KeepsRecent cfg)
    (hp : p ∈ recent (keeps cfg) l) : p ∈ s.cachedPages cfg := by
  by_cases hlru : cfg.mode = .lru
  · obtain ⟨n, hexact⟩ := h.lru hlru
    rw [keeps, if_pos hlru] at hp
    exact hexact.mem_cachedPages.2 hp
  · rw [keeps, if_neg hlru] at hp
    exact h.homed.mem_iff.2 ((h.region (hmode.resolve_left hlru)).mapped hp)

/-- **One call.** -/
theorem Watched.called {l : List PageId} (h : Watched cfg s m l) (hpre : c.Pre m)
    (hok : step cfg c s = .ok s') :
    Watched cfg s' (c.spec m) (touch c.page l) ∧ Paged cfg c.page s s' := by
  have hknown : ∀ p ∈ touch c.page l, c.spec m p ≠ none := by
    intro p hp
    refine Call.spec_ne_none hpre ((List.mem_cons.1 hp).imp_right fun hmem => ?_)
    exact h.known p (List.mem_of_mem_erase hmem)
  by_cases hlru : cfg.mode = .lru
  · obtain ⟨n, hexact⟩ := h.lru hlru
    have hfresh : Accesses.Fresh ⟨l, n⟩ c := by
      cases c with
      | fixNewPage p b => exact fun hmem => h.known p hmem hpre.1
      | writePage p b => trivial
      | readPage p => trivial
    have hexact' := (step_exact hexact hlru hfresh).of_ok hok
    refine ⟨⟨hknown, fun hne => absurd hlru hne, fun _ => ⟨_, hexact'⟩, fun hrel => ?_⟩,
      hexact.paged hexact'⟩
    rw [hlru] at hrel
    cases hrel
  · have hsim := h.zalp hlru
    obtain ⟨hinv', hcalled⟩ := (call_spec hsim hlru hpre False.elim).of_ok hok
    have hnew : ∀ q a, c = .fixNewPage q a → s.page2frame q = none := by
      rintro q a rfl
      exact hsim.unmapped hpre.1
    refine ⟨⟨hknown, fun _ => hcalled.sim hinv' hsim hpre, fun heq => absurd heq hlru,
      fun hrel => ?_⟩, hcalled.turn.paged hsim.inv.homed hinv'.homed (step_hits hlru hnew hok)⟩
    have hr := h.region hrel
    refine hcalled.turn.regional hsim.inv hrel hr ?_
    refine ((hcalled.inverse_iff hsim.inv hinv' (hsim.inv.inverse_iff.2 hr.linked)).2 ?_).resident
    intro hno
    rw [hrel] at hno
    cases hno

/-! ### Misses -/

/-- The page a call has to fetch, as no frame holds it. -/
def fetched (c : Call) (s _ : Buffer) : List PageId :=
  if s.page2frame c.page = none then [c.page] else []

/-- The calls of a run that miss. -/
def missCount (cfg : Config) (calls : List Call) (s : Buffer) : Nat :=
  (gather (step cfg) fetched calls s).length

theorem missCount_cons (hhomed : Homed cfg s) (hok : step cfg c s = .ok s') (calls : List Call) :
    missCount cfg (c :: calls) s
      = (if c.page ∈ s.cachedPages cfg then 0 else 1) + missCount cfg calls s' := by
  rw [missCount, gather_cons hok, List.length_append, fetched, missCount]
  congr 1
  by_cases hp : s.page2frame c.page = none
  · rw [if_pos hp, if_neg fun hc => hhomed.mem_iff.1 hc hp]
    rfl
  · rw [if_neg hp, if_pos (hhomed.mem_iff.2 hp)]
    rfl

/-- A call is a hit or a miss. -/
theorem Paged.hit_or_miss (h : Paged cfg p s s') :
    s'.hitCount + Int32.ofNat (if p ∈ s.cachedPages cfg then 0 else 1) = s.hitCount + 1 := by
  rw [h.hits]
  split
  case isTrue => exact Int32.add_zero _
  case isFalse =>
    rw [Int32.add_zero]
    rfl

/-- **A run serves its calls as a cache does**: it is a schedule, what it fetches are the calls
that miss, and the others are counted as hits. -/
theorem run_paged {calls : List Call} {l : List PageId} (h : Watched cfg s m l)
    (hl : Legal Call.Pre Call.spec calls m) (hok : run (step cfg) calls s = .ok s') :
    Watched cfg s' (specRun Call.spec calls m) (Paging.touchAll (calls.map Call.page) l) ∧
      Paging.Schedule cfg.defBufSize (s.cachedPages cfg) (calls.map Call.page)
          (s'.cachedPages cfg) (missCount cfg calls s) ∧
        s'.hitCount + Int32.ofNat (missCount cfg calls s)
          = s.hitCount + Int32.ofNat calls.length ∧
        (cfg.mode = .lru →
          missCount cfg calls s = Paging.misses cfg.defBufSize l (calls.map Call.page)) ∧
        (KeepsRecent cfg →
          missCount cfg calls s ≤ Paging.misses (keeps cfg) l (calls.map Call.page)) := by
  induction calls generalizing s m l with
  | nil =>
      cases hok
      exact ⟨h, .nil _, rfl, fun _ => rfl, fun _ => Nat.zero_le _⟩
  | cons c calls ih =>
      obtain ⟨hpre, hl⟩ := hl
      rw [run_cons] at hok
      obtain ⟨s₁, hcall, hok⟩ := bind_eq_ok.1 hok
      obtain ⟨hwatched, hpaged⟩ := h.called hpre hcall
      obtain ⟨hlast, hschedule, hsum, hexact, hkeeps⟩ := ih hwatched hl hok
      have hcount := missCount_cons h.homed hcall calls
      rw [hcount]
      refine ⟨hlast, ?_, ?_, fun hlru => ?_, fun hmode => ?_⟩
      · rw [← hpaged.card]
        exact .cons hpaged.mem (card_cachedPages cfg s₁) hschedule
      · have hone := hpaged.hit_or_miss
        generalize (if c.page ∈ s.cachedPages cfg then 0 else 1) = k at hone ⊢
        calc s'.hitCount + Int32.ofNat (k + missCount cfg calls s₁)
            = s'.hitCount + Int32.ofNat (missCount cfg calls s₁) + Int32.ofNat k := by
              rw [Nat.add_comm, Int32.ofNat_add, Int32.add_assoc]
          _ = s₁.hitCount + Int32.ofNat k + Int32.ofNat calls.length := by
              rw [hsum, Int32.add_assoc, Int32.add_comm (Int32.ofNat calls.length),
                Int32.add_assoc]
          _ = s.hitCount + (Int32.ofNat 1 + Int32.ofNat calls.length) := by
              rw [hone, Int32.add_assoc]
              rfl
          _ = s.hitCount + Int32.ofNat (c :: calls).length := by
              rw [← Int32.ofNat_add, Nat.add_comm, List.length_cons]
      · obtain ⟨n, hr⟩ := h.lru hlru
        rw [List.map_cons, Paging.misses, hexact hlru]
        simp only [hr.mem_cachedPages]
      · have hle := hkeeps hmode
        have hone : (if c.page ∈ s.cachedPages cfg then 0 else 1)
            ≤ if c.page ∈ recent (keeps cfg) l then 0 else 1 := by
          by_cases hp : c.page ∈ recent (keeps cfg) l
          · rw [if_pos (h.held hmode hp), if_pos hp]
          · rw [if_neg hp]
            split <;> omega
        rw [List.map_cons, Paging.misses]
        omega

/-- The calls of a run from the start that miss. -/
def missesOf (cfg : Config) (mem : Memory) (calls : List Call) : Nat :=
  missCount cfg calls (Buffer.init cfg mem)

/-- `hit_count` has the other calls, as far as 32 bits allow. -/
def HitsCounted (cfg : Config) (mem : Memory) (calls : List Call) (s : Buffer) : Prop :=
  s.hitCount + Int32.ofNat (missesOf cfg mem calls) = Int32.ofNat calls.length

/-- A run from the start. -/
theorem run_paged_init {calls : List Call} {mem : Memory} (hl : Legal Call.Pre Call.spec calls .empty)
    (hok : run (step cfg) calls (Buffer.init cfg mem) = .ok s) :
    Watched cfg s (specRun Call.spec calls .empty) (Paging.touchAll (calls.map Call.page) []) ∧
      Paging.Schedule cfg.defBufSize ∅ (calls.map Call.page) (s.cachedPages cfg)
          (missesOf cfg mem calls) ∧
        HitsCounted cfg mem calls s ∧
        (cfg.mode = .lru →
          missesOf cfg mem calls = Paging.misses cfg.defBufSize [] (calls.map Call.page)) ∧
        (KeepsRecent cfg →
          missesOf cfg mem calls ≤ Paging.misses (keeps cfg) [] (calls.map Call.page)) := by
  obtain ⟨hwatched, hschedule, hsum, hrest⟩ := run_paged (Watched.init cfg mem) hl hok
  rw [cachedPages_init] at hschedule
  refine ⟨hwatched, hschedule, ?_, hrest⟩
  exact hsum.trans (Int32.zero_add _)

/-- The modes that keep the pages accessed last are competitive with every schedule. -/
theorem misses_le {calls : List Call} {mem : Memory} (hmode : KeepsRecent cfg)
    (hl : Legal Call.Pre Call.spec calls .empty)
    (hok : run (step cfg) calls (Buffer.init cfg mem) = .ok s) {h k : Nat} {C : Finset PageId}
    (hpos : 0 < h) (hle : h ≤ keeps cfg)
    (hs : Paging.Schedule h ∅ (calls.map Call.page) C k) :
    (keeps cfg + 1 - h) * missesOf cfg mem calls ≤ keeps cfg * k := by
  obtain ⟨-, -, -, -, hkeeps⟩ := run_paged_init hl hok
  calc (keeps cfg + 1 - h) * missesOf cfg mem calls
      ≤ (keeps cfg + 1 - h) * Paging.misses (keeps cfg) [] (calls.map Call.page) :=
        Nat.mul_le_mul_left _ (hkeeps hmode)
    _ ≤ keeps cfg * k := hs.competitive hpos hle

/-- **Against any cache.** In mode `lru`, and in the modes that release their victims, the manager
misses at most `n / (n + 1 - h)` times as often as any cache of `h` pages fetches one, even a cache
that knows all calls in advance, where `n` is `DEF_BUF_SIZE` or, with `ZALP`, `WORK_REG_SIZE`. -/
theorem run_competitive (cfg : Config)
    (hmode : cfg.mode = .lru ∨ cfg.mode = .cflru ∨ cfg.mode = .zalpWc) (mem : Memory)
    (calls : List Call) (hl : Legal Call.Pre Call.spec calls .empty)
    (hok : run (step cfg) calls (Buffer.init cfg mem) = .ok s) (h k : Nat) (C : Finset PageId)
    (hpos : 0 < h) (hle : h ≤ keeps cfg) (hs : Paging.Schedule h ∅ (calls.map Call.page) C k) :
    (keeps cfg + 1 - h) * missesOf cfg mem calls ≤ keeps cfg * k ∧ HitsCounted cfg mem calls s :=
  ⟨misses_le (keepsRecent_of_mode hmode) hl hok hpos hle hs, (run_paged_init hl hok).2.2.1⟩

/-- The run of the same calls in mode `ach_only` shows how they can be served. -/
theorem run_competitive_reuse :
    ∃ s k C, run (step (.small .lru)) reuseCalls (smallBuffer .lru) = .ok s ∧
      Paging.Schedule 5 ∅ (reuseCalls.map Call.page) C k ∧
      (5 + 1 - 5) * missesOf (.small .lru) .zero reuseCalls ≤ 5 * k ∧
      HitsCounted (.small .lru) .zero reuseCalls s := by
  obtain ⟨s, hok⟩ : ∃ s, run (step (.small .lru)) reuseCalls (smallBuffer .lru) = .ok s :=
    exists_ok_of_isOk (by decide +kernel)
  obtain ⟨t, hok'⟩ : ∃ t, run (step (.small .achOnly)) reuseCalls (smallBuffer .achOnly) = .ok t :=
    exists_ok_of_isOk (by decide +kernel)
  obtain ⟨-, hs, -⟩ := run_paged_init reuseCalls_legal hok'
  exact ⟨s, _, _, hok, hs, run_competitive (.small .lru) (Or.inl rfl) .zero reuseCalls
    reuseCalls_legal hok 5 _ _ (by decide) (by decide) hs⟩

/-- **Against the other modes.** With no fewer frames to keep pages in than another build has
frames, in any mode, the manager misses at most `n / (n + 1 - h)` times as often on the same
calls. -/
theorem run_competes (cfg cfg' : Config)
    (hmode : cfg.mode = .lru ∨ cfg.mode = .cflru ∨ cfg.mode = .zalpWc)
    (hle : cfg'.defBufSize ≤ keeps cfg) (mem mem' : Memory) (calls : List Call)
    (hl : Legal Call.Pre Call.spec calls .empty)
    (hok : run (step cfg) calls (Buffer.init cfg mem) = .ok s)
    (hok' : run (step cfg') calls (Buffer.init cfg' mem') = .ok s') :
    (keeps cfg + 1 - cfg'.defBufSize) * missesOf cfg mem calls
        ≤ keeps cfg * missesOf cfg' mem' calls ∧
      HitsCounted cfg mem calls s ∧ HitsCounted cfg' mem' calls s' := by
  obtain ⟨-, -, hcounted, -⟩ := run_paged_init hl hok
  obtain ⟨-, hschedule, hcounted', -⟩ := run_paged_init hl hok'
  refine ⟨?_, hcounted, hcounted'⟩
  exact misses_le (keepsRecent_of_mode hmode) hl hok (defBufSize_pos cfg') hle hschedule

theorem run_competes_reuse :
    ∃ s s', run (step (.small .lru)) reuseCalls (smallBuffer .lru) = .ok s ∧
      run (step (.small .achOnly)) reuseCalls (smallBuffer .achOnly) = .ok s' ∧
      (5 + 1 - 5) * missesOf (.small .lru) .zero reuseCalls
        ≤ 5 * missesOf (.small .achOnly) .zero reuseCalls ∧
      HitsCounted (.small .lru) .zero reuseCalls s ∧
      HitsCounted (.small .achOnly) .zero reuseCalls s' := by
  obtain ⟨s, hok⟩ : ∃ s, run (step (.small .lru)) reuseCalls (smallBuffer .lru) = .ok s :=
    exists_ok_of_isOk (by decide +kernel)
  obtain ⟨s', hok'⟩ : ∃ s', run (step (.small .achOnly)) reuseCalls (smallBuffer .achOnly)
      = .ok s' := exists_ok_of_isOk (by decide +kernel)
  exact ⟨s, s', hok, hok', run_competes (.small .lru) (.small .achOnly) (Or.inl rfl) (by decide)
    .zero .zero reuseCalls reuseCalls_legal hok hok'⟩

/-- **More frames never hurt.** A build that keeps as many pages accessed last as another one, in
mode `lru`, has frames holds all pages the other holds, after the same calls, and has missed no
more often. -/
theorem run_includes (cfg cfg' : Config) (hlru : cfg.mode = .lru)
    (hmode : cfg'.mode = .lru ∨ cfg'.mode = .cflru ∨ cfg'.mode = .zalpWc)
    (hle : cfg.defBufSize ≤ keeps cfg') (mem mem' : Memory) (calls : List Call)
    (hl : Legal Call.Pre Call.spec calls .empty)
    (hok : run (step cfg) calls (Buffer.init cfg mem) = .ok s)
    (hok' : run (step cfg') calls (Buffer.init cfg' mem') = .ok s') :
    (∀ p, s.page2frame p ≠ none → s'.page2frame p ≠ none) ∧
      missesOf cfg' mem' calls ≤ missesOf cfg mem calls ∧
      HitsCounted cfg mem calls s ∧ HitsCounted cfg' mem' calls s' := by
  have hkeeps' := keepsRecent_of_mode hmode
  obtain ⟨hwatched, -, hcounted, hexact, -⟩ := run_paged_init hl hok
  obtain ⟨hwatched', -, hcounted', -, hatmost⟩ := run_paged_init hl hok'
  refine ⟨fun p hp => ?_, ?_, hcounted, hcounted'⟩
  · obtain ⟨n, hr⟩ := hwatched.lru hlru
    have hrecent := hr.mem_cachedPages.1 (hwatched.homed.mem_iff.2 hp)
    exact hwatched'.homed.mem_iff.1
      (hwatched'.held hkeeps' (List.take_subset_take_left _ hle hrecent))
  · calc missesOf cfg' mem' calls
        ≤ Paging.misses (keeps cfg') [] (calls.map Call.page) := hatmost hkeeps'
      _ ≤ Paging.misses cfg.defBufSize [] (calls.map Call.page) := Paging.misses_anti hle [] _
      _ = missesOf cfg mem calls := (hexact hlru).symm

/-- Two frames in mode `lru`. -/
def pairConfig : Config :=
  { Config.small .lru with
    defBufSize := 2
    work_lt := by decide
    wh_le := fun h => absurd h (by decide)
    flush_fits := (by decide : (2 - 1) * PAGE_SIZE ≤ deviceCap 62448768) }

/-- Five frames, two of them in the working region. -/
def regionConfig : Config :=
  { Config.small .zalpWc with
    workRegSize := 2
    work_pos := by decide
    work_lt := by decide
    wh_le := fun h => absurd h (by decide)
    flush_fits := (by decide : (5 - 2) * PAGE_SIZE ≤ deviceCap 62448768) }

theorem run_includes_reuse :
    ∃ s s', run (step pairConfig) reuseCalls (Buffer.init pairConfig .zero) = .ok s ∧
      run (step regionConfig) reuseCalls (Buffer.init regionConfig .zero) = .ok s' ∧
      (∀ p, s.page2frame p ≠ none → s'.page2frame p ≠ none) ∧
      missesOf regionConfig .zero reuseCalls ≤ missesOf pairConfig .zero reuseCalls ∧
      HitsCounted pairConfig .zero reuseCalls s ∧
      HitsCounted regionConfig .zero reuseCalls s' := by
  obtain ⟨s, hok⟩ : ∃ s, run (step pairConfig) reuseCalls (Buffer.init pairConfig .zero) = .ok s :=
    exists_ok_of_isOk (by decide +kernel)
  obtain ⟨s', hok'⟩ : ∃ s', run (step regionConfig) reuseCalls (Buffer.init regionConfig .zero)
      = .ok s' := exists_ok_of_isOk (by decide +kernel)
  exact ⟨s, s', hok, hok', run_includes pairConfig regionConfig rfl (Or.inr (Or.inr rfl)) (by decide)
    .zero .zero reuseCalls reuseCalls_legal hok hok'⟩

end Buffer

end ZoneBuffer
