import ZoneBuffer.Buffer.Manager
import ZoneBuffer.Zone.Log
import Mathlib.Data.List.Count

set_option autoImplicit false

/-! # The access history

`evict_victim_ach` records for every candidate when its page was last evicted and when before
that, and sorts the candidates into three levels by these two times. The first level asks whether
there was an earlier eviction, the other two how long ago it was. The last two exclude each other
and leave nothing out; the first is independent of them, so a page without an earlier eviction
is on two levels (`level_iff`). -/

namespace ZoneBuffer

open Outcome

namespace Buffer

/-- The time of the last eviction recorded for `p`. -/
def lastAccess (h : PartialMap PageId (AccTime × AccTime)) (p : PageId) : AccTime :=
  match h p with
  | none => -1
  | some (_, second) => second

theorem recordAccess_eq (now : AccTime) (p : PageId) (h : PartialMap PageId (AccTime × AccTime)) :
    recordAccess now p h = h.insertOrAssign p (lastAccess h p, now) := by
  rw [recordAccess, lastAccess]
  cases hp : h p with
  | none => exact PartialMap.insert_of_none hp _
  | some e => rfl

/-- A page recorded once gets its last eviction as the earlier one; recorded again, `now`. -/
theorem foldl_recordAccess (now : AccTime) (ps : List PageId)
    (h : PartialMap PageId (AccTime × AccTime)) (p : PageId) :
    ps.foldl (fun h p => recordAccess now p h) h p =
      if ps.count p = 0 then h p
      else some (if ps.count p = 1 then lastAccess h p else now, now) := by
  induction ps generalizing h with
  | nil => rfl
  | cons q ps ih =>
      rw [List.foldl_cons, ih, recordAccess_eq]
      by_cases hq : q = p
      · subst hq
        have hlast : lastAccess (h.insertOrAssign q (lastAccess h q, now)) q = now := by
          simp [lastAccess]
        rw [hlast, PartialMap.insertOrAssign_self, List.count_cons_self]
        by_cases h0 : ps.count q = 0
        · simp [h0]
        · simp [h0]
      · have hne : p ≠ q := Ne.symm hq
        have hlast : lastAccess (h.insertOrAssign q (lastAccess h q, now)) p = lastAccess h p := by
          simp [lastAccess, PartialMap.insertOrAssign_of_ne _ _ hne]
        rw [hlast, PartialMap.insertOrAssign_of_ne _ _ hne, List.count_cons_of_ne hq]

variable {cfg : Config} {s s' : Buffer} {cs : List FrameId}

/-- The history by which an eviction of the candidates `cs` sorts the frame `f`. -/
def historyOf (s : Buffer) (cs : List FrameId) (f : FrameId) : AccTime × AccTime :=
  (if (cs.map s.getPageId).count (s.getPageId f) = 1 then lastAccess s.accessH (s.getPageId f)
    else s.accessTime, s.accessTime)

theorem recordAccesses_candidate (s : Buffer) {f : FrameId} (hf : f ∈ cs) :
    (s.recordAccesses cs).accessH (s.getPageId f) = some (s.historyOf cs f) := by
  have hfold := foldl_recordAccess s.accessTime (cs.map s.getPageId) s.accessH (s.getPageId f)
  rw [List.foldl_map] at hfold
  have hpos : (cs.map s.getPageId).count (s.getPageId f) ≠ 0 :=
    (List.count_pos_iff.2 (List.mem_map_of_mem hf)).ne'
  rw [if_neg hpos] at hfold
  exact hfold

/-! ## The levels -/

/-- The levels 1 and 2 are complementary. -/
theorem achClutser_two (cfg : Config) (acht : AccTime × AccTime) :
    achClutser cfg 2 acht = !achClutser cfg 1 acht := by
  show decide (_ ≤ _) = !decide (_ < _)
  rw [Bool.eq_iff_iff, Bool.not_eq_true', decide_eq_true_eq, decide_eq_false_iff_not]
  exact Int32.not_lt.symm

/-- **A history is on exactly one level unless its first component is `-1`.** -/
theorem level_iff (cfg : Config) (acht : AccTime × AccTime) :
    (∃! lv, lv < 3 ∧ achClutser cfg lv acht = true) ↔ acht.1 ≠ -1 := by
  have h0 : achClutser cfg 0 acht = true ↔ acht.1 = -1 := by simp [achClutser]
  have h2 := achClutser_two cfg acht
  constructor
  · rintro ⟨lv, -, huniq⟩ hfirst
    have hlv := huniq 0 ⟨by decide, h0.2 hfirst⟩
    cases h1 : achClutser cfg 1 acht with
    | true =>
        have := huniq 1 ⟨by decide, h1⟩
        omega
    | false =>
        have := huniq 2 ⟨by decide, by rw [h2, h1]; rfl⟩
        omega
  · intro hfirst
    have hnot : ¬ achClutser cfg 0 acht = true := fun h => hfirst (h0.1 h)
    cases h1 : achClutser cfg 1 acht with
    | true =>
        refine ⟨1, ⟨by decide, h1⟩, ?_⟩
        rintro lv ⟨hlt, hlv⟩
        obtain rfl | rfl | rfl : lv = 0 ∨ lv = 1 ∨ lv = 2 := by omega
        · exact absurd hlv hnot
        · rfl
        · rw [h2, h1] at hlv
          cases hlv
    | false =>
        refine ⟨2, ⟨by decide, by rw [h2, h1]; rfl⟩, ?_⟩
        rintro lv ⟨hlt, hlv⟩
        obtain rfl | rfl | rfl : lv = 0 ∨ lv = 1 ∨ lv = 2 := by omega
        · exact absurd hlv hnot
        · rw [h1] at hlv
          cases hlv
        · rfl

/-- The candidates of level `lv`. -/
def onLevel (cfg : Config) (s : Buffer) (cs : List FrameId) (lv : Nat) : List FrameId :=
  cs.filter fun f => achClutser cfg lv (s.historyOf cs f)

/-- The victims of a level, once the accesses are recorded. -/
theorem achVictims_eq (hacc : s'.accessH = (s.recordAccesses cs).accessH)
    (hpage : s'.frameToPage = s.frameToPage) (lv : Nat) :
    s'.achVictims cfg lv cs = .ok (s.onLevel cfg cs lv) := by
  rw [achVictims, onLevel]
  refine filterM_eq_ok fun f hf => ?_
  rw [hacc, getPageId, hpage, show s.frameToPage f = s.getPageId f from rfl,
    recordAccesses_candidate s hf]

theorem flushLevel_eq (hacc : s'.accessH = (s.recordAccesses cs).accessH)
    (hpage : s'.frameToPage = s.frameToPage) (lv : Nat) :
    s'.flushLevel cfg cs lv = s'.writeVictims cfg lv (s.onLevel cfg cs lv) := by
  rw [flushLevel, achVictims_eq hacc hpage, ok_bind]

/-- Every candidate is on some level. -/
theorem mem_levels {f : FrameId} :
    f ∈ [0, 1, 2].flatMap (s.onLevel cfg cs) ↔ f ∈ cs := by
  simp only [List.mem_flatMap, onLevel, List.mem_filter]
  constructor
  · rintro ⟨_, _, hf, _⟩
    exact hf
  · intro hf
    cases h1 : achClutser cfg 1 (s.historyOf cs f) with
    | true => exact ⟨1, by simp, hf, h1⟩
    | false => exact ⟨2, by simp, hf, by rw [achClutser_two, h1]; rfl⟩

theorem length_onLevel_le (lv : Nat) : (s.onLevel cfg cs lv).length ≤ cs.length :=
  List.length_filter_le _ _

/-- If no candidate is on level 0, the levels make up the candidates. -/
theorem levels_perm (cfg : Config) (h : ∀ f ∈ cs, (s.historyOf cs f).1 ≠ -1) :
    ([0, 1, 2].flatMap (s.onLevel cfg cs)).Perm cs := by
  have h0 : s.onLevel cfg cs 0 = [] := by
    rw [onLevel, List.filter_eq_nil_iff]
    intro f hf
    simpa [achClutser] using h f hf
  have h2 : s.onLevel cfg cs 2
      = cs.filter fun f => !achClutser cfg 1 (s.historyOf cs f) := by
    rw [onLevel]
    exact List.filter_congr fun f _ => achClutser_two cfg _
  rw [List.flatMap_cons, List.flatMap_cons, List.flatMap_cons, List.flatMap_nil, h0, h2, onLevel,
    List.nil_append, List.append_nil]
  exact List.filter_append_perm _ cs

end Buffer

end ZoneBuffer
