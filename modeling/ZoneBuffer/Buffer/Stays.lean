import ZoneBuffer.Buffer.Residence
import ZoneBuffer.Buffer.Steps
import ZoneBuffer.Lib.Ghost

set_option autoImplicit false

/-! # The stay of a page in its frame

What the flags of a frame should say depends on what has happened to its page since the page was
brought in. `Stay` records that: the call that brought the page in, the tag that call set, and the
calls that have found the page there since. `noteStay` keeps the record in step with a run; the
frame a call has used is the one in front of the list of the strategy. -/

namespace ZoneBuffer

open Outcome Machine

/-- What has happened to the page of a frame. The hits are those since its arrival, the last one
first. -/
structure Stay where
  arrival : Option Call
  tag : Option Int32
  hits : List Call

/-- The stays of all frames. -/
abbrev Stays := FrameId → Stay

/-- The call overwrites its page. -/
def Call.writes : Call → Bool
  | fixNewPage _ _ => false
  | writePage _ _ => true
  | readPage _ => false

namespace Stay

/-- A frame that has never been used. -/
def never : Stay := ⟨none, none, []⟩

/-- The stay is one of page `p`. -/
structure Of (st : Stay) (p : PageId) : Prop where
  arrival : ∃ c, st.arrival = some c ∧ c.page = p
  hits : ∀ c ∈ st.hits, c.page = p

/-- The page has been the target of `write_page` since it was brought in. -/
def written (st : Stay) : Bool := st.arrival.any Call.writes || st.hits.any Call.writes

end Stay

namespace Buffer

variable {cfg : Config} {s s' : Buffer} {f : FrameId} {c : Call} {g : Stays}

/-- The tag a call that misses in `s` sets, if it sets one. -/
def tagSet (cfg : Config) (c : Call) (s : Buffer) : Option Int32 :=
  match s.takeFrame cfg with
  | .ok (_, s₂) => tagGiven cfg s₂ c
  | .error _ => none

/-- The stays after a call from `s` to `s'` that has used frame `f`. -/
def noteFrame (cfg : Config) (c : Call) (s : Buffer) (f : FrameId) (g : Stays) : Stays :=
  if c.Misses s then Function.update g f ⟨some c, tagSet cfg c s, []⟩
  else Function.update g f { g f with hits := c :: (g f).hits }

/-- The stays after a call from `s` to `s'`. -/
def noteStay (cfg : Config) (c : Call) (s s' : Buffer) (g : Stays) : Stays :=
  match (s'.residents cfg).head? with
  | some f => noteFrame cfg c s f g
  | none => g

/-- The manager with the stays of its frames. -/
def stepStays (cfg : Config) : Call → Buffer × Stays → Except Fault (Buffer × Stays) :=
  ghost (step cfg) (noteStay cfg)

theorem noteStay_eq {l : List FrameId} (h : s'.residents cfg = f :: l) :
    noteStay cfg c s s' g = noteFrame cfg c s f g := by
  rw [noteStay, h, List.head?_cons]

theorem noteFrame_miss (hc : c.Misses s) :
    noteFrame cfg c s f g = Function.update g f ⟨some c, tagSet cfg c s, []⟩ := if_pos hc

theorem noteFrame_hit (hc : ¬ c.Misses s) :
    noteFrame cfg c s f g = Function.update g f { g f with hits := c :: (g f).hits } := if_neg hc

/-- The frame used has a stay of the page of the call, if it had one when it was hit. -/
theorem noteFrame_of (h : ¬ c.Misses s → (g f).Of c.page) :
    (noteFrame cfg c s f g f).Of c.page := by
  by_cases hc : c.Misses s
  · rw [noteFrame_miss hc, Function.update_self]
    exact ⟨⟨c, rfl, rfl⟩, by simp⟩
  · rw [noteFrame_hit hc, Function.update_self]
    refine ⟨(h hc).arrival, fun c' hc' => ?_⟩
    rcases List.mem_cons.1 hc' with rfl | hc'
    · rfl
    · exact (h hc).hits c' hc'

theorem noteFrame_of_ne {f' : FrameId} (h : f' ≠ f) : noteFrame cfg c s f g f' = g f' := by
  unfold noteFrame
  split
  · exact Function.update_of_ne h _ _
  · exact Function.update_of_ne h _ _

/-- Whether the page of the frame used has been written. -/
theorem noteFrame_written :
    (noteFrame cfg c s f g f).written
      = (c.writes || (decide (¬ c.Misses s) && (g f).written)) := by
  by_cases hc : c.Misses s
  · rw [noteFrame_miss hc, Function.update_self]
    simp [Stay.written, hc]
  · rw [noteFrame_hit hc, Function.update_self]
    simp only [Stay.written, List.any_cons, hc, not_false_eq_true, decide_true, Bool.true_and]
    cases c.writes <;> simp

end Buffer

end ZoneBuffer
