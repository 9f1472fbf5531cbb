import ZoneBuffer.Buffer.Manager
import ZoneBuffer.Buffer.Order
import Mathlib.Data.List.Count

set_option autoImplicit false

/-! # The choice of victims

`evict_victim` counts the candidates per level, looks for the level with the largest count and
evicts the candidates of that level. `chooseVictims_spec` says what every caller needs of it:
there is at least one victim, all victims are dirty and lie behind the working region, and the
lists are in order with the victims cleaned or released. -/

namespace ZoneBuffer

open Outcome

namespace Buffer

/-! ## Counting -/

theorem tally_eq (levels : List Nat) (i : Nat) : tally levels i = levels.count i := by
  suffices h : ∀ d : Nat → Nat, levels.foldl (fun d i => Function.update d i (d i + 1)) d i
      = d i + levels.count i by
    rw [tally, h, Nat.zero_add]
  induction levels with
  | nil => intro d; rfl
  | cons j levels ih =>
      intro d
      rw [List.foldl_cons, ih, List.count_cons]
      by_cases hij : i = j
      · rw [hij, Function.update_self, beq_self_eq_true, if_pos rfl]
        omega
      · rw [Function.update_of_ne hij, if_neg (by simpa using fun h => hij h.symm)]
        omega

/-- `i` is the last of the first `n` levels with the largest count. -/
def Leads (n : Nat) (d : Nat → Nat) (i : Nat) : Prop :=
  ∀ j, j < n → d j ≤ d i ∧ (i < j → d j < d i)

/-- `largest` returns the last level with the largest count. -/
theorem largest_spec (n : Nat) (d : Nat → Nat) (cf : Int) (hn : 0 < n) :
    ∃ i : Nat, i < n ∧ largest n d cf = i ∧ Leads n d i := by
  suffices h : ∀ m : Nat, ∃ i : Nat, i < m + 1 ∧
      (List.range (m + 1)).foldl
          (fun (c : Int × Int) (i : Nat) => if c.2 > d i then c else (i, d i)) (cf, -1)
        = ((i : Int), (d i : Int)) ∧ Leads (m + 1) d i by
    obtain ⟨m, rfl⟩ : ∃ m, n = m + 1 := ⟨n - 1, by omega⟩
    obtain ⟨i, hi, hfold, hmax⟩ := h m
    exact ⟨i, hi, by rw [largest, hfold], hmax⟩
  intro m
  induction m with
  | zero =>
      refine ⟨0, Nat.zero_lt_one, ?_, fun j hj => ?_⟩
      · have : ¬ ((-1 : Int) > (d 0 : Int)) := by omega
        simp [this]
      · obtain rfl : j = 0 := by omega
        exact ⟨le_refl _, fun h => absurd h (Nat.lt_irrefl 0)⟩
  | succ m ih =>
      obtain ⟨i, hi, hfold, hmax⟩ := ih
      rw [List.range_succ, List.foldl_append, hfold]
      by_cases hlt : d i > d (m + 1)
      · refine ⟨i, by omega, by simp [hlt], fun j hj => ?_⟩
        by_cases hj' : j < m + 1
        · exact hmax j hj'
        · obtain rfl : j = m + 1 := by omega
          exact ⟨Nat.le_of_lt hlt, fun _ => hlt⟩
      · refine ⟨m + 1, by omega, by simp [hlt], fun j hj => ?_⟩
        by_cases hj' : j < m + 1
        · have := (hmax j hj').1
          exact ⟨by omega, fun h => by omega⟩
        · obtain rfl : j = m + 1 := by omega
          exact ⟨le_refl _, fun h => absurd h (Nat.lt_irrefl _)⟩

variable {cfg : Config} {s : Buffer}

theorem levelOf_lt (cs : List FrameId) (f : FrameId)
    (hflag : cfg.mode.isZalpWc = false →
      0 ≤ (s.clusterFlag f).toInt ∧ (s.clusterFlag f).toInt < cfg.g.clusterNum) :
    s.levelOf cfg cs f < cfg.g.clusterNum := by
  rw [levelOf]
  cases hwc : cfg.mode.isZalpWc with
  | false =>
      have := hflag hwc
      rw [if_neg (by simp)]
      omega
  | true =>
      have hnum : cfg.g.clusterNum = 3 := by
        rw [cfg.cluster_eq]
        cases hm : cfg.mode <;> simp_all [Mode.isZalpWc, Mode.clusterNum, HC_LV]
      rw [if_pos rfl, hnum, hcLv]
      split
      · omega
      · split <;> omega

/-- The cluster to flush when level `i` has `d i` candidates: the last of the largest ones, but
with `wh_only` the hot one unless that is small. -/
def Chosen (cfg : Config) (d : Nat → Nat) (i : Nat) : Prop :=
  if cfg.mode = .whOnly ∧ (cfg.defBufSize - cfg.workRegSize) / 4 ≤ d 2 then i = 2
  else Leads cfg.g.clusterNum d i

/-- The cluster flushed is a level, and some candidate has it. -/
theorem clusterOf_spec {cs : List FrameId} (hlen : cs.length = cfg.defBufSize - cfg.workRegSize)
    (hlevel : ∀ f ∈ cs, s.levelOf cfg cs f < cfg.g.clusterNum) :
    ∃ i : Nat, i < cfg.g.clusterNum ∧ s.clusterOf cfg cs = i ∧
      (∃ f ∈ cs, s.levelOf cfg cs f = i) ∧
      Chosen cfg (fun j => (cs.map (s.levelOf cfg cs)).count j) i := by
  set d := tally (cs.map (s.levelOf cfg cs)) with hd
  have hpos : 0 < cs.length := by
    have := cfg.work_lt
    omega
  obtain ⟨f₀, hf₀⟩ := List.exists_mem_of_length_pos hpos
  -- a level with a positive count is the level of a candidate
  have hmem : ∀ i, 0 < d i → ∃ f ∈ cs, s.levelOf cfg cs f = i := by
    intro i hi
    rw [hd, tally_eq, List.count_pos_iff, List.mem_map] at hi
    exact hi
  have hf₀d : 0 < d (s.levelOf cfg cs f₀) := by
    rw [hd, tally_eq, List.count_pos_iff]
    exact List.mem_map_of_mem hf₀
  have hlargest : ∀ cf, ∃ i : Nat, i < cfg.g.clusterNum ∧ largest cfg.g.clusterNum d cf = i ∧
      (∃ f ∈ cs, s.levelOf cfg cs f = i) ∧ Leads cfg.g.clusterNum d i := by
    intro cf
    obtain ⟨i, hi, heq, hmax⟩ := largest_spec cfg.g.clusterNum d cf cfg.g.cluster_pos
    exact ⟨i, hi, heq, hmem i (lt_of_lt_of_le hf₀d (hmax _ (hlevel f₀ hf₀)).1), hmax⟩
  have hcount : (fun j => (cs.map (s.levelOf cfg cs)).count j) = d :=
    funext fun j => (tally_eq _ j).symm
  have hleads : ∀ i, ¬ (cfg.mode = .whOnly ∧ (cfg.defBufSize - cfg.workRegSize) / 4 ≤ d 2) →
      Leads cfg.g.clusterNum d i → Chosen cfg d i := by
    intro i hnot hi
    rw [Chosen, if_neg hnot]
    exact hi
  rw [clusterOf, ← hd, hcount]
  cases hm : cfg.mode with
  | whOnly =>
      have hnum : cfg.g.clusterNum = HC_LV := by rw [cfg.cluster_eq, hm, Mode.clusterNum]
      simp only
      split
      case isTrue hsmall =>
        obtain ⟨i, hi, heq, hf, hl⟩ := hlargest 2
        rw [hnum] at heq
        exact ⟨i, hi, heq, hf, hleads i (fun h => absurd h.2 (Nat.not_le.2 hsmall)) hl⟩
      case isFalse hbig =>
        have hwh := cfg.wh_le hm
        refine ⟨2, by rw [hnum]; decide, rfl, hmem 2 (by omega), ?_⟩
        rw [Chosen, if_pos ⟨hm, Nat.not_lt.1 hbig⟩]
  | zalpWc =>
      have hnum : cfg.g.clusterNum = HC_LV := by rw [cfg.cluster_eq, hm, Mode.clusterNum]
      obtain ⟨i, hi, heq, hf, hl⟩ := hlargest (-1)
      rw [hnum] at heq
      refine ⟨i, hi, heq, hf, hleads i (fun h => ?_) hl⟩
      rw [hm] at h
      exact nomatch h.1
  | achOnly | zalp | cflru | lru =>
      obtain ⟨i, hi, heq, hf, hl⟩ := hlargest (-1)
      refine ⟨i, hi, heq, hf, hleads i (fun h => ?_) hl⟩
      rw [hm] at h
      exact nomatch h.1

/-! ## The victims -/

/-- What `is_evict` asks for: no frame is free, and all frames behind the working region are
dirty. -/
structure Due (cfg : Config) (dirty : FrameId → Bool) (z : Zalp) : Prop where
  free : z.freeFrames = []
  dirty : ∀ x ∈ z.lruOrder.drop cfg.workRegSize, dirty x = true

instance (cfg : Config) (dirty : FrameId → Bool) (z : Zalp) : Decidable (Due cfg dirty z) :=
  decidable_of_iff (z.freeFrames = [] ∧
    ∀ x ∈ z.lruOrder.drop cfg.workRegSize, dirty x = true)
    ⟨fun h => ⟨h.1, h.2⟩, fun h => ⟨h.free, h.dirty⟩⟩

/-- The victims `vs`, and the lists `z'` with them cleaned or released. -/
structure Picked (cfg : Config) (dirty : FrameId → Bool) (z : Zalp) (vs : List FrameId)
    (z' : Zalp) : Prop where
  ne_nil : vs ≠ []
  nodup : vs.Nodup
  mem : ∀ v ∈ vs, v ∈ z.lruOrder.drop cfg.workRegSize ∧ dirty v = true
  ordered : Ordered cfg.defBufSize (cleared dirty vs) [] z'
  free : z'.freeFrames = if cfg.mode.releases then z.freeFrames ++ vs else z.freeFrames
  lru : z'.lruOrder = if cfg.mode.releases then z.lruOrder.filter (· ∉ vs) else z.lruOrder

variable {dirty : FrameId → Bool} {z z' : Zalp} {vs : List FrameId}

theorem Picked.length_le (h : Picked cfg dirty z vs z')
    (hz : Ordered cfg.defBufSize dirty [] z) :
    vs.length ≤ cfg.defBufSize - cfg.workRegSize := by
  have hsub : vs ⊆ z.lruOrder.drop cfg.workRegSize := fun v hv => (h.mem v hv).1
  have hle := (h.nodup.subperm hsub).length_le
  have hlen := hz.length_lru
  rw [List.length_drop] at hle
  omega

/-- Victims taken from the candidates by a test. -/
theorem picked_filter (h : Ordered cfg.defBufSize dirty [] z) (hdue : Due cfg dirty z)
    (q : FrameId → Bool) (hq : ∃ v ∈ z.lruOrder.drop cfg.workRegSize, q v = true) :
    ∃ z', (if cfg.mode.releases then z.updateDirty ((z.lruOrder.drop cfg.workRegSize).filter q)
        else z.dirtyToClean ((z.lruOrder.drop cfg.workRegSize).filter q)) = .ok z' ∧
      Picked cfg dirty z ((z.lruOrder.drop cfg.workRegSize).filter q) z' := by
  set vs := (z.lruOrder.drop cfg.workRegSize).filter q with hvs
  have hne : vs ≠ [] := by
    obtain ⟨v, hv, hqv⟩ := hq
    exact List.ne_nil_of_mem (List.mem_filter.2 ⟨hv, hqv⟩)
  have hnd : vs.Nodup := (h.nodup_lru.sublist (List.drop_sublist _ _)).filter q
  have hmem : ∀ v ∈ vs, v ∈ z.lruOrder.drop cfg.workRegSize ∧ dirty v = true := by
    intro v hv
    have hv := (List.mem_filter.1 hv).1
    exact ⟨hv, hdue.dirty v hv⟩
  cases hrel : cfg.mode.releases with
  | true =>
      obtain ⟨z', hok, ho, hf, hl⟩ := h.release hnd fun v hv =>
        ⟨List.mem_of_mem_drop (hmem v hv).1, (hmem v hv).2⟩
      exact ⟨z', by simpa using hok, hne, hnd, hmem, ho, by simpa [hrel] using hf,
        by simpa [hrel] using hl⟩
  | false =>
      obtain ⟨z', hok, ho, hf, hl⟩ := h.clean (q := q) hdue.dirty
      exact ⟨z', by simpa using hok, hne, hnd, hmem, ho, by simpa [hrel] using hf,
        by simpa [hrel] using hl⟩

/-- The last frame of `lList`, when there are more frames than the working region holds. -/
theorem exists_last (h : Ordered cfg.defBufSize dirty [] z) (hdue : Due cfg dirty z) :
    ∃ xs id, z.lruOrder = xs ++ [id] ∧ id ∈ z.lruOrder.drop cfg.workRegSize := by
  have hlen := h.length_lru
  rw [hdue.free] at hlen
  simp only [List.length_nil] at hlen
  have hw := cfg.work_lt
  have hne : z.lruOrder ≠ [] := List.ne_nil_of_length_pos (by omega)
  refine ⟨z.lruOrder.dropLast, z.lruOrder.getLast hne,
    (List.dropLast_append_getLast hne).symm, ?_⟩
  have hdne : z.lruOrder.drop cfg.workRegSize ≠ [] := by
    rw [ne_eq, List.drop_eq_nil_iff]
    omega
  rw [← List.getLast_drop hdne]
  exact List.getLast_mem hdne

/-- The frames an eviction takes out of `s`. -/
def victims (cfg : Config) (s : Buffer) : List FrameId :=
  match cfg.mode with
  | .achOnly => s.strategy.lruOrder.drop cfg.workRegSize
  | .cflru => s.strategy.lruOrder.getLast?.toList
  | _ => s.victimsOf cfg (s.strategy.lruOrder.drop cfg.workRegSize)

/-- The choice of mode `cflru`. -/
theorem chooseLast_spec (h : Ordered cfg.defBufSize s.frameDirty [] s.strategy)
    (hdue : Due cfg s.frameDirty s.strategy) (hm : cfg.mode = .cflru) :
    ∃ z', s.chooseLast = .ok (0, s.victims cfg, z') ∧
      Picked cfg s.frameDirty s.strategy (s.victims cfg) z' := by
  obtain ⟨xs, id, hl, hid⟩ := exists_last h hdue
  have hvictims : s.victims cfg = [id] := by
    rw [victims, hm, hl]
    simp
  have hcand := h.getCandidateCflru_eq hl (hdue.dirty id hid)
  have hmem : ∀ v ∈ [id], v ∈ s.strategy.lruOrder.drop cfg.workRegSize ∧
      s.frameDirty v = true := by
    intro v hv
    rw [List.mem_singleton.1 hv]
    exact ⟨hid, hdue.dirty id hid⟩
  obtain ⟨z', hok, ho, hf, hl'⟩ := h.release (List.nodup_singleton id) fun v hv =>
    ⟨List.mem_of_mem_drop (hmem v hv).1, (hmem v hv).2⟩
  have hrel : cfg.mode.releases = true := by rw [hm, Mode.releases]
  rw [hvictims]
  refine ⟨z', ?_, by simp, List.nodup_singleton id, hmem, ho, by simpa [hrel] using hf,
    by simpa [hrel] using hl'⟩
  rw [chooseLast, hcand, ok_bind, hok]
  rfl

/-- In mode `zalp` the flags of the candidates index the counts. -/
def FlagsInRange (cfg : Config) (s : Buffer) : Prop :=
  cfg.mode = .zalp → ∀ f ∈ s.strategy.lruOrder.drop cfg.workRegSize,
    0 ≤ (s.clusterFlag f).toInt ∧ (s.clusterFlag f).toInt < cfg.g.clusterNum

/-- The choice of a cluster. -/
theorem chooseCluster_spec (h : Ordered cfg.defBufSize s.frameDirty [] s.strategy)
    (hdue : Due cfg s.frameDirty s.strategy) (hm : cfg.mode ≠ .cflru)
    (hach : cfg.mode ≠ .achOnly) (hlru : cfg.mode ≠ .lru)
    (hflag : s.FlagsInRange cfg) :
    ∃ (cf : Int) (z' : Zalp), s.chooseCluster cfg = .ok (cf, s.victims cfg, z') ∧
      Picked cfg s.frameDirty s.strategy (s.victims cfg) z' := by
  have hcand := h.getCandidate_eq hdue.free hdue.dirty
  have hvictims : s.victims cfg
      = s.victimsOf cfg (s.strategy.lruOrder.drop cfg.workRegSize) := by
    rw [victims]
    cases hmode : cfg.mode <;> simp_all
  set cs := s.strategy.lruOrder.drop cfg.workRegSize with hcs
  have hlen : cs.length = cfg.defBufSize - cfg.workRegSize := by
    have := h.length_lru
    rw [hdue.free] at this
    simp only [List.length_nil] at this
    rw [hcs, List.length_drop]
    omega
  have hflag' : cfg.mode.isZalpWc = false →
      ∀ f ∈ cs, 0 ≤ (s.clusterFlag f).toInt ∧ (s.clusterFlag f).toInt < cfg.g.clusterNum := by
    intro hwc
    refine hflag ?_
    cases hm : cfg.mode <;> simp_all [Mode.isZalpWc]
  obtain ⟨i, -, hcf, ⟨v, hv, hlv⟩, -⟩ := clusterOf_spec (s := s) hlen
    fun f hf => levelOf_lt cs f fun hwc => hflag' hwc f hf
  obtain ⟨z', hok, hpicked⟩ := picked_filter h hdue
    (fun f => decide ((s.levelOf cfg cs f : Int) = s.clusterOf cfg cs))
    ⟨v, hv, by simp [hlv, hcf]⟩
  have hvs : s.victims cfg
      = cs.filter fun f => decide ((s.levelOf cfg cs f : Int) = s.clusterOf cfg cs) := hvictims
  rw [← hcs, ← hvs] at hok hpicked
  refine ⟨s.clusterOf cfg cs, z', ?_, hpicked⟩
  have hin : ¬ (cfg.mode.isZalpWc = false ∧ ∃ f ∈ cs,
      (s.clusterFlag f).toInt < 0 ∨ cfg.g.clusterNum ≤ (s.clusterFlag f).toInt) := by
    rintro ⟨hwc, f, hmem, hf⟩
    have := hflag' hwc f hmem
    omega
  have hne : s.clusterOf cfg cs ≠ -1 := by
    rw [hcf]
    omega
  have hretire : s.retireVictims cfg (s.victims cfg) = .ok z' := by
    rw [retireVictims, ← hok]
    cases hmode : cfg.mode <;> simp_all [Mode.releases]
  rw [chooseCluster, hcand, ok_bind, if_neg hin, if_neg hne, ← hvictims, hretire]
  rfl

/-- **The choice of victims.** -/
theorem chooseVictims_spec (h : Ordered cfg.defBufSize s.frameDirty [] s.strategy)
    (hdue : Due cfg s.frameDirty s.strategy) (hach : cfg.mode ≠ .achOnly) (hlru : cfg.mode ≠ .lru)
    (hflag : s.FlagsInRange cfg) :
    ∃ (cf : Int) (z' : Zalp), s.chooseVictims cfg = .ok (cf, s.victims cfg, z') ∧
      Picked cfg s.frameDirty s.strategy (s.victims cfg) z' := by
  rw [chooseVictims]
  split
  case isTrue hm => exact ⟨0, chooseLast_spec h hdue hm⟩
  case isFalse hm => exact chooseCluster_spec h hdue hm hach hlru hflag

end Buffer

end ZoneBuffer
