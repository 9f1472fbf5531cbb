import ZoneBuffer.Buffer.Clock
import ZoneBuffer.Buffer.Tags

set_option autoImplicit false

/-! # The reuse distance

Level 0 of `ach_clutser` is for pages evicted for the first time, level 1 for pages evicted again
before `16 * (DEF_BUF_SIZE - WORK_REG_SIZE)` others have been evicted or inserted, and level 2 for
the rest. The manager tells them apart by times of 32 bits, read as signed, and by the time `-1`.
So what it does with a page depends on the true times modulo `2^32`. `classified_iff` says which
times it gets right. -/

namespace ZoneBuffer

open Outcome Machine

namespace Buffer

variable {cfg : Config} {s s' : Buffer} {cs : List FrameId} {c : Call} {k : Clock}
  {p : PageId} {f : FrameId}

/-! ## One candidate -/

/-- The distance from which a page is on level 2. -/
def reuseBound (cfg : Config) : Nat := 16 * (cfg.defBufSize - cfg.workRegSize)

/-- The level for a page that was evicted `d` pages ago. -/
def levelAfter (cfg : Config) (d : Nat) : Nat := if d < reuseBound cfg then 1 else 2

/-- If the page of the candidate `f` was evicted before, then `f` is on the level for the time that
has passed since then, and on no other. -/
def Classified (cfg : Config) (s : Buffer) (k : Clock) (cs : List FrameId) (f : FrameId) : Prop :=
  ∀ t ∈ k.last (s.getPageId f), ∃ acht,
    (s.recordAccesses cs).accessH (s.getPageId f) = some acht ∧
      ∀ lv < 3, achClutser cfg lv acht = true ↔ lv = levelAfter cfg (k.time - t)

/-- The times the manager gets right. The time of the last eviction must not read as `-1`, and the
time that has passed must be short, or long and not look short modulo `2^32`. A page that is
recorded twice in one eviction looks as if it had been evicted just now. -/
def InReach (cfg : Config) (k : Clock) (ps : List PageId) (p : PageId) : Prop :=
  ∀ t ∈ k.last p,
    if ps.count p = 1 then
      t % 4294967296 ≠ 4294967295 ∧ (k.time - t < reuseBound cfg ∨
        (reuseBound cfg ≤ (k.time - t) % 4294967296 ∧ (k.time - t) % 4294967296 < 2147483648))
    else k.time % 4294967296 ≠ 4294967295 ∧ k.time - t < reuseBound cfg

instance (cfg : Config) (k : Clock) (ps : List PageId) (p : PageId) :
    Decidable (InReach cfg k ps p) :=
  inferInstanceAs (Decidable (∀ t ∈ k.last p, _))

theorem accTime_eq_neg_one {t : Nat} : accTime t = -1 ↔ t % 4294967296 = 4294967295 := by
  rw [← Int32.toBitVec_inj]
  exact Stamp.stamp_eq_neg_one (w := 32)

/-- The comparison of two times with the bound. -/
theorem accTime_sub_lt {t u b : Nat} (hut : u ≤ t) (hb : b < 2147483648) :
    accTime t - accTime u < Int32.ofNat b ↔
      (t - u) % 4294967296 < b ∨ 2147483648 ≤ (t - u) % 4294967296 := by
  have hsub : (accTime t - accTime u).toBitVec = Stamp.stamp 32 (t - u) := Stamp.stamp_sub hut
  have hslt := Stamp.stamp_slt (w := 32) (t := t - u) (b := b) (by omega)
  rw [Int32.lt_iff_toBitVec_slt, hsub]
  refine hslt.trans ?_
  omega

/-- When a candidate is on level `levelAfter cfg d` alone, if its history has the times `u` and
`t`. -/
theorem levels_iff {t u : Nat} (d : Nat) (hut : u ≤ t) (hb : reuseBound cfg < 2147483648) :
    (∀ lv < 3, achClutser cfg lv (accTime u, accTime t) = true ↔ lv = levelAfter cfg d) ↔
      u % 4294967296 ≠ 4294967295 ∧ (d < reuseBound cfg ↔
        (t - u) % 4294967296 < reuseBound cfg ∨ 2147483648 ≤ (t - u) % 4294967296) := by
  have h0 : achClutser cfg 0 (accTime u, accTime t) = true ↔ u % 4294967296 = 4294967295 :=
    decide_eq_true_iff.trans accTime_eq_neg_one
  have h1 : achClutser cfg 1 (accTime u, accTime t) = true ↔
      (t - u) % 4294967296 < reuseBound cfg ∨ 2147483648 ≤ (t - u) % 4294967296 :=
    decide_eq_true_iff.trans (accTime_sub_lt hut hb)
  have h2 : achClutser cfg 2 (accTime u, accTime t) = true ↔
      ¬ achClutser cfg 1 (accTime u, accTime t) = true := by
    rw [achClutser_two, Bool.not_eq_true', Bool.not_eq_true]
  rw [Ne.eq_def, ← h0, ← h1]
  by_cases hd : d < reuseBound cfg
  · have hlevel : levelAfter cfg d = 1 := if_pos hd
    rw [hlevel, iff_true_left hd]
    constructor
    · intro hall
      exact ⟨fun hzero => absurd ((hall 0 (by omega)).1 hzero) (by omega),
        (hall 1 (by omega)).2 rfl⟩
    · rintro ⟨hzero, hone⟩ lv hlv
      obtain rfl | rfl | rfl : lv = 0 ∨ lv = 1 ∨ lv = 2 := by omega
      · exact iff_of_false hzero (by omega)
      · exact iff_of_true hone rfl
      · exact iff_of_false (fun htwo => h2.1 htwo hone) (by omega)
  · have hlevel : levelAfter cfg d = 2 := if_neg hd
    rw [hlevel, iff_false_left hd]
    constructor
    · intro hall
      exact ⟨fun hzero => absurd ((hall 0 (by omega)).1 hzero) (by omega),
        h2.1 ((hall 2 (by omega)).2 rfl)⟩
    · rintro ⟨hzero, hone⟩ lv hlv
      obtain rfl | rfl | rfl : lv = 0 ∨ lv = 1 ∨ lv = 2 := by omega
      · exact iff_of_false hzero (by omega)
      · exact iff_of_false hone (by omega)
      · exact iff_of_true (h2.2 hone) rfl

theorem reuseBound_pos (cfg : Config) : 0 < reuseBound cfg := by
  have h := cfg.work_lt
  unfold reuseBound
  omega

/-- **One candidate** is classified right exactly if its times are in reach. -/
theorem classified_candidate_iff (hk : Keeps s k) (hb : reuseBound cfg < 2147483648)
    (hf : f ∈ cs) :
    Classified cfg s k cs f ↔ InReach cfg k (cs.map s.getPageId) (s.getPageId f) := by
  have hpos := reuseBound_pos cfg
  refine forall₂_congr fun t ht => ?_
  have hpast : t ≤ k.time := k.past _ _ ht
  -- the history has the times the last two accesses recorded had
  have hhistory : s.historyOf cs f =
      (accTime (if (cs.map s.getPageId).count (s.getPageId f) = 1 then t else k.time),
        accTime k.time) := by
    unfold historyOf
    rw [hk.accessTime, hk.lastAccess ht]
    split
    · rfl
    · rfl
  rw [recordAccesses_candidate s hf, hhistory]
  simp only [Option.some.injEq, exists_eq_left']
  split
  case isTrue hone =>
    rw [levels_iff _ hpast hb]
    refine and_congr_right fun _ => ?_
    omega
  case isFalse htwice =>
    rw [levels_iff _ (le_refl _) hb, Nat.sub_self]
    refine and_congr_right fun _ => ?_
    omega

/-! ## Runs -/

/-- The eviction a call makes, if it makes one, classifies all candidates right. -/
def Sorts (cfg : Config) (r : Buffer × Clock) (c : Call) : Prop :=
  ∀ f ∈ evictees cfg c r.1, Classified cfg r.1 r.2 (evictees cfg c r.1) f

/-- The times of all candidates are in reach. -/
def TimesInReach (cfg : Config) (r : Buffer × Clock) (c : Call) : Prop :=
  ∀ f ∈ evictees cfg c r.1,
    InReach cfg r.2 ((evictees cfg c r.1).map r.1.getPageId) (r.1.getPageId f)

instance (cfg : Config) (r : Buffer × Clock) (c : Call) : Decidable (TimesInReach cfg r c) :=
  inferInstanceAs (Decidable (∀ f ∈ evictees cfg c r.1, _))

/-- **The evictions of a run of any length classify every page that was evicted before by its reuse
distance if and only if the times of the candidates are in reach**, at each eviction. The bound is
a constant of type `int`. -/
theorem classified_iff (cfg : Config) (hach : cfg.mode = .achOnly)
    (hb : reuseBound cfg < 2147483648) (mem : Memory) (calls : List Call) :
    Along (stepClock cfg) (Sorts cfg) calls (Buffer.init cfg mem, .start) ↔
      Along (stepClock cfg) (TimesInReach cfg) calls (Buffer.init cfg mem, .start) := by
  have hiff : ∀ r c, InStep cfg r → (Sorts cfg r c ↔ TimesInReach cfg r c) := fun r c h =>
    forall₂_congr fun f hf => classified_candidate_iff h.2 hb hf
  constructor
  · intro h
    refine Along.of_inv (InStep cfg) (fun r c hr hsorts => ?_) (InStep.init cfg mem) h
    exact ⟨(hiff r c hr).1 hsorts, fun r' hr' => stepClock_inStep hach hr hr'⟩
  · intro h
    refine Along.of_inv (InStep cfg) (fun r c hr htimes => ?_) (InStep.init cfg mem) h
    exact ⟨(hiff r c hr).2 htimes, fun r' hr' => stepClock_inStep hach hr hr'⟩

end Buffer

open Buffer

/-! ## A run that comes to the time `2^32 - 1` -/

/-- Two frames, one of them in the working region. -/
def Config.pair : Config :=
  { Config.small .achOnly with
    defBufSize := 2
    workRegSize := 1
    work_pos := Nat.one_pos
    work_lt := Nat.one_lt_two
    wh_le := nofun
    flush_fits := le_trans (by decide : (2 - 1) * PAGE_SIZE ≤ 2 * PAGE_SIZE)
      (Config.small .achOnly).interval_pos }

/-- Three pages are inserted in the two frames, and two of them are written. -/
@[irreducible] def startCalls : List Call :=
  [.fixNewPage 0 (frameOf 0 1), .fixNewPage 1 (frameOf 1 1), .fixNewPage 2 (frameOf 2 1),
    .writePage 0 (frameOf 0 1), .writePage 1 (frameOf 1 1)]

/-- The page whose turn is at the time `t`, of the three pages. -/
def cyclePage (t : Nat) : PageId := Int64.ofNat (t % 3)

theorem cyclePage_inj {t u : Nat} (h : cyclePage t = cyclePage u) : t % 3 = u % 3 := by
  have hall : ∀ a < 3, ∀ b < 3, Int64.ofNat a = Int64.ofNat b → a = b := by decide
  exact hall _ (Nat.mod_lt t (by decide)) _ (Nat.mod_lt u (by decide)) h

/-- The pages are written in turns. This is the call made at the time `t`: page `t` is then behind
the working region, and page `t + 2` the one that is not resident. -/
def cycleCall (t : Nat) : Call := .writePage (cyclePage (t + 2)) (frameOf (cyclePage (t + 2)) 1)

/-- The first `n` turns, which begin at the time 3. -/
def cycleCalls (n : Nat) : List Call :=
  startCalls ++ (List.range n).map fun i => cycleCall (i + 3)

/-- Every page is evicted three times, and the last two times it is on level 1. -/
theorem classified_iff_cycle : Along (stepClock .pair) (Sorts .pair) (cycleCalls 9)
    (Buffer.init .pair .zero, .start) :=
  (classified_iff .pair rfl (by decide) .zero (cycleCalls 9)).2 (by decide +kernel)

theorem startCalls_legal : Legal Call.Pre Call.spec startCalls .empty := by decide +kernel

/-- Page `t` is behind the working region and page `t + 1` in front, both have been written, and
each page was evicted at its last turn. -/
structure Cycling (t : Nat) (r : Buffer × Clock) : Prop where
  inStep : InStep .pair r
  free : r.1.strategy.freeFrames = []
  frames : ∃ x y, r.1.strategy.lruOrder = [x, y] ∧ r.1.frameDirty x = true ∧
    r.1.frameDirty y = true ∧ r.1.frameToPage x = cyclePage (t + 1) ∧
    r.1.frameToPage y = cyclePage t
  time : r.2.time = t
  last : ∀ u, 3 ≤ u → u < t → t ≤ u + 3 → r.2.last (cyclePage u) = some u

variable {t : Nat} {r r' : Buffer × Clock}

theorem Cycling.due (h : Cycling t r) : Due .pair r.1.frameDirty r.1.strategy := by
  obtain ⟨x, y, hl, -, hy, -, -⟩ := h.frames
  refine ⟨h.free, ?_⟩
  rw [hl]
  intro z hz
  rw [List.mem_singleton.1 hz]
  exact hy

/-- The next page in turn is in neither frame. -/
theorem Cycling.misses (h : Cycling t r) : (cycleCall t).Misses r.1 := by
  obtain ⟨x, y, hl, -, -, hx, hy⟩ := h.frames
  show r.1.page2frame (cyclePage (t + 2)) = none
  by_contra hne
  obtain ⟨f, hf⟩ := Option.ne_none_iff_exists'.1 hne
  obtain ⟨hmem, hpage⟩ := h.inStep.1.mapped _ f hf
  rw [hl, List.mem_cons, List.mem_singleton] at hmem
  rcases hmem with rfl | rfl
  · have := cyclePage_inj (hx.symm.trans hpage)
    omega
  · have := cyclePage_inj (hy.symm.trans hpage)
    omega

theorem Cycling.evictees (h : Cycling t r) {x y : FrameId}
    (hl : r.1.strategy.lruOrder = [x, y]) : evictees .pair (cycleCall t) r.1 = [y] := by
  rw [evictees_of_miss h.inStep.1 h.misses, if_pos h.due, hl]
  rfl

/-- **One turn.** -/
theorem Cycling.step (h : Cycling t r) (hok : stepClock .pair (cycleCall t) r = .ok r') :
    Cycling (t + 1) r' := by
  have hin := stepClock_inStep rfl h.inStep hok
  obtain ⟨hl, hk⟩ := h.inStep
  obtain ⟨x, y, hlru, hx, hy, hpx, hpy⟩ := h.frames
  have hevictees := h.evictees hlru
  have hxy : x ≠ y := by
    rintro rfl
    have := cyclePage_inj (hpx.symm.trans hpy)
    omega
  obtain ⟨hstep, hnote⟩ := ghost_eq_ok.1 hok
  obtain ⟨hran, -⟩ := step_ran hl (by decide) hstep
  cases hran with
  | hit f hc hp hfront htag => exact absurd h.misses hc
  | miss f s₁ s₂ hc hroom hlists hroomed htake htook hfront hload htag =>
      have hvictims : r.1.victims .pair = [y] := by
        show r.1.strategy.lruOrder.drop 1 = [y]
        rw [hlru]
        rfl
      -- the frame taken is the one just cleaned
      have hf : f = y := by
        have hnext := nextFrame_eq hlists hroomed htook
        unfold nextFrame at hnext
        rw [if_neg (not_not.2 h.free), if_pos h.due, hvictims] at hnext
        exact (Option.some.inj hnext).symm
      subst hf
      rcases hroomed with ⟨hnot, -⟩ | ⟨-, l, hev⟩
      · exact absurd h.due hnot
      have hlru₁ : s₁.strategy.lruOrder = [x, f] := hev.picked.lru.trans hlru
      have hfree₁ : s₁.strategy.freeFrames = [] := hev.picked.free.trans h.free
      rcases htook.how with hfree | hclean
      · have := hfree₁.symm.trans hfree.free
        simp at this
      constructor
      case inStep => exact hin
      case free => exact hfront.free.trans hclean.free'
      case frames =>
        refine ⟨f, x, ?_, ?_, ?_, ?_, ?_⟩
        · rw [hfront.lru, hclean.lru, hlru₁]
          simp [hxy]
        · rw [hfront.frameDirty]
          exact Function.update_self ..
        · rw [hfront.frameDirty, htook.frameDirty, hev.frameDirty, hvictims]
          show Function.update (cleared r.1.frameDirty [f]) f true x = true
          rw [Function.update_of_ne hxy, Ordered.cleared_of_notMem (by simpa using hxy)]
          exact hx
        · rw [hfront.frameToPage, Function.update_self]
          rfl
        · rw [hfront.frameToPage, Function.update_of_ne hxy, htook.frameToPage, hev.frameToPage]
          exact hpx
      case time =>
        have htime : r.2.evicted + r.2.inserted = t := h.time
        rw [hnote, noteClock, hevictees]
        show r.2.evicted + 1 + (r.2.inserted + 0) = t + 1
        omega
      case last =>
        intro u hu hut htu
        rw [hnote, noteClock, hevictees]
        show (r.2.evict [r.1.frameToPage f]).last (cyclePage u) = some u
        rw [hpy]
        by_cases hlast : u = t
        · rw [hlast, Clock.evict_last_of_mem (List.mem_singleton_self _), h.time]
        · have hne : cyclePage u ∉ [cyclePage t] := fun hmem => by
            have := cyclePage_inj (List.mem_singleton.1 hmem)
            omega
          rw [Clock.evict_last_of_notMem hne]
          exact h.last u hu (by omega) (by omega)

theorem cycleCalls_succ (n : Nat) : cycleCalls (n + 1) = cycleCalls n ++ [cycleCall (n + 3)] := by
  unfold cycleCalls
  rw [List.range_succ, List.map_append, ← List.append_assoc]
  rfl

/-- **The pages are evicted in turns**, as long as the run lasts. -/
theorem cycling_run (n : Nat) (hrun : run (stepClock .pair) (cycleCalls n)
    (Buffer.init .pair .zero, .start) = .ok r) : Cycling (n + 3) r := by
  induction n generalizing r with
  | zero =>
      have hstart : ∃ r : Buffer × Clock, run (stepClock .pair) startCalls
          (Buffer.init .pair .zero, .start) = .ok r ∧ r.1.strategy.freeFrames = [] ∧
            r.1.strategy.lruOrder = [1, 0] ∧ r.1.frameDirty 1 = true ∧ r.1.frameDirty 0 = true ∧
              r.1.frameToPage 1 = 1 ∧ r.1.frameToPage 0 = 0 ∧ r.2.time = 3 :=
        exists_ok_of_decide (by decide +kernel)
      obtain ⟨r₀, hr₀, hfree, hlru, hone, hzero, hpone, hpzero, htime⟩ := hstart
      have hnil : cycleCalls 0 = startCalls := List.append_nil _
      rw [hnil] at hrun
      obtain rfl := Except.ok.inj (hr₀.symm.trans hrun)
      refine ⟨run_inStep rfl hr₀, hfree, ⟨1, 0, hlru, hone, hzero, hpone, hpzero⟩, htime, ?_⟩
      intro u hu hut
      omega
  | succ n ih =>
      rw [cycleCalls_succ, run_append] at hrun
      obtain ⟨r₁, hr₁, hrun⟩ := bind_eq_ok.1 hrun
      obtain ⟨r₂, hr₂, hrun⟩ := bind_eq_ok.1 hrun
      cases hrun
      have hstep := (ih hr₁).step hr₂
      rwa [Nat.add_right_comm] at hstep

/-- A client may make these calls. -/
theorem cycleCalls_legal (n : Nat) : Legal Call.Pre Call.spec (cycleCalls n) .empty ∧
    ∀ u, specRun Call.spec (cycleCalls n) .empty (cyclePage u) ≠ none := by
  induction n with
  | zero =>
      have hnil : cycleCalls 0 = startCalls := List.append_nil _
      have hall : ∀ a < 3, specRun Call.spec startCalls .empty (Int64.ofNat a) ≠ none := by
        decide +kernel
      rw [hnil]
      exact ⟨startCalls_legal, fun u => hall _ (Nat.mod_lt u (by decide))⟩
  | succ n ih =>
      obtain ⟨hlegal, hknown⟩ := ih
      rw [cycleCalls_succ]
      constructor
      · rw [legal_append]
        exact ⟨hlegal, hknown _, trivial⟩
      · intro u
        unfold specRun
        rw [List.foldl_append]
        exact insertOrAssign_ne_none.2 (Or.inr (hknown u))

theorem cycleCalls_headed (n : Nat) : AllHeaded (cycleCalls n) := by
  have hstart : AllHeaded startCalls := by
    unfold AllHeaded
    decide +kernel
  intro c hc
  rcases List.mem_append.1 hc with hc | hc
  · exact hstart c hc
  · obtain ⟨i, -, rfl⟩ := List.mem_map.1 hc
    exact readId_frameOf _ _

theorem insertedPages_cycleCalls (n : Nat) :
    insertedPages (cycleCalls n) = insertedPages startCalls := by
  unfold insertedPages cycleCalls
  rw [List.filterMap_append, List.filterMap_map]
  have hnone : (List.range n).filterMap (Call.inserted ∘ fun i => cycleCall (i + 3)) = [] :=
    List.filterMap_eq_nil_iff.2 fun _ _ => rfl
  rw [hnone, List.append_nil]

/-- The run succeeds, however long it is. -/
theorem run_cycleCalls (n : Nat) : ∃ r, run (stepClock .pair) (cycleCalls n)
    (Buffer.init .pair .zero, .start) = .ok r := by
  have hfew : Controller.Few Config.pair.g (insertedPages startCalls) := by
    unfold Controller.Few
    decide +kernel
  rw [← insertedPages_cycleCalls n] at hfew
  obtain ⟨s, hs, -⟩ : ∃ s, run (step .pair) (cycleCalls n) (Buffer.init .pair .zero) = .ok s ∧ _ :=
    (run_rested rfl rfl .zero (cycleCalls n) (cycleCalls_legal n).1 (cycleCalls_headed n)
      hfew).exists_ok
  have hghost : ∃ k, run (stepClock .pair) (cycleCalls n) (Buffer.init .pair .zero, .start)
      = .ok (s, k) := run_ghost.1 hs
  obtain ⟨k, hk⟩ := hghost
  exact ⟨(s, k), hk⟩

/-- **The page evicted at a time that reads as `-1`** is on level 0 three pages later. -/
theorem cycling_sentinel (n : Nat) (hn : 3 ≤ n) (hwrap : n % 4294967296 = 4294967295) :
    (∃ r f acht, run (stepClock .pair) (cycleCalls n) (Buffer.init .pair .zero, .start) = .ok r ∧
      evictees .pair (cycleCall (n + 3)) r.1 = [f] ∧ r.2.time = n + 3 ∧
      r.2.last (r.1.getPageId f) = some n ∧
      (r.1.recordAccesses [f]).accessH (r.1.getPageId f) = some acht ∧
      achClutser .pair 0 acht = true) ∧
    ¬ Along (stepClock .pair) (Sorts .pair) (cycleCalls (n + 1))
      (Buffer.init .pair .zero, .start) := by
  obtain ⟨r, hr⟩ := run_cycleCalls n
  have hcycling := cycling_run n hr
  obtain ⟨x, y, hlru, -, -, -, hpage⟩ := hcycling.frames
  have hevictees := hcycling.evictees hlru
  -- the page behind the working region is the one of three turns ago
  have hsame : cyclePage (n + 3) = cyclePage n := by
    unfold cyclePage
    rw [Nat.add_mod_right]
  have hlast : r.2.last (r.1.getPageId y) = some n := by
    rw [getPageId, hpage, hsame]
    exact hcycling.last n hn (by omega) (le_refl _)
  have hrecord : (r.1.recordAccesses [y]).accessH (r.1.getPageId y)
      = some (accTime n, accTime (n + 3)) := by
    have hk := hcycling.inStep.2
    rw [recordAccesses_candidate r.1 (List.mem_singleton_self y), historyOf, hk.accessTime,
      hk.lastAccess hlast, hcycling.time]
    simp
  have hzero : achClutser .pair 0 (accTime n, accTime (n + 3)) = true :=
    decide_eq_true (accTime_eq_neg_one.2 hwrap)
  refine ⟨⟨r, y, _, hr, hevictees, hcycling.time, hlast, hrecord, hzero⟩, fun halong => ?_⟩
  rw [cycleCalls_succ, along_append] at halong
  have hsorts : Sorts .pair r (cycleCall (n + 3)) := (halong.2 r hr).1
  obtain ⟨acht, hacht, hlevels⟩ := by
    have hy := hsorts y (by rw [hevictees]; exact List.mem_singleton_self y)
    rw [hevictees] at hy
    exact hy n hlast
  obtain rfl := Option.some.inj (hrecord.symm.trans hacht)
  have hlevel := (hlevels 0 (by decide)).1 hzero
  unfold levelAfter at hlevel
  split at hlevel <;> omega

/-- **A page evicted before is taken for a new one**: page 0 is evicted at the time `2^32 - 1`, and
when it is evicted again it is on level 0. -/
theorem sentinel_reached :
    Legal Call.Pre Call.spec (cycleCalls 4294967296) .empty ∧ AllHeaded (cycleCalls 4294967296) ∧
    (∃ r f acht, run (stepClock .pair) (cycleCalls 4294967295) (Buffer.init .pair .zero, .start)
        = .ok r ∧
      evictees .pair (cycleCall 4294967298) r.1 = [f] ∧ r.2.time = 4294967298 ∧
      r.2.last (r.1.getPageId f) = some 4294967295 ∧
      (r.1.recordAccesses [f]).accessH (r.1.getPageId f) = some acht ∧
      achClutser .pair 0 acht = true) ∧
    ¬ Along (stepClock .pair) (Sorts .pair) (cycleCalls 4294967296)
      (Buffer.init .pair .zero, .start) := by
  refine ⟨(cycleCalls_legal 4294967296).1, cycleCalls_headed 4294967296, ?_⟩
  exact cycling_sentinel 4294967295 (by omega) (by omega)

end ZoneBuffer
