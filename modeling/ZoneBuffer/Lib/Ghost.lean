import ZoneBuffer.Lib.Machine

set_option autoImplicit false

/-! # Ghost state

A claim about what has happened in a run, and not only about the state reached, needs a record of
the run. `ghost` carries such a record along: `note` says what a step enters in it. The record has
no influence on the machine, so the runs with and without it are the same runs (`run_ghost`,
`along_ghost`). -/

namespace Machine

open Outcome

universe u

variable {ε : Type*} {σ γ : Type u} {ι : Type*}

/-- The machine with a record of its run. After a step on input `i` from `s` to `s'` the record
`g` is `note i s s' g`. -/
def ghost (step : ι → σ → Except ε σ) (note : ι → σ → σ → γ → γ) (i : ι) (r : σ × γ) :
    Except ε (σ × γ) := do
  let s' ← step i r.1
  .ok (s', note i r.1 s' r.2)

variable {step : ι → σ → Except ε σ} {note : ι → σ → σ → γ → γ} {i : ι} {is : List ι}
  {r r' : σ × γ} {s s' : σ} {g : γ}

theorem ghost_eq_ok : ghost step note i r = .ok r' ↔
    step i r.1 = .ok r'.1 ∧ r'.2 = note i r.1 r'.1 r.2 := by
  unfold ghost
  constructor
  · intro h
    obtain ⟨s', hs', h⟩ := bind_eq_ok.1 h
    cases h
    exact ⟨hs', rfl⟩
  · rintro ⟨hs', hg⟩
    rw [hs', ok_bind, ← hg]

/-- **The record does not influence the run.** -/
theorem run_ghost :
    run step is s = .ok s' ↔ ∃ g', run (ghost step note) is (s, g) = .ok (s', g') := by
  induction is generalizing s g with
  | nil =>
      constructor
      · intro h
        cases h
        exact ⟨g, rfl⟩
      · rintro ⟨g', h⟩
        cases h
        rfl
  | cons i is ih =>
      simp only [run_cons, bind_eq_ok]
      constructor
      · rintro ⟨s₁, hs₁, h⟩
        obtain ⟨g', hg'⟩ := (ih (g := note i s s₁ g)).1 h
        exact ⟨g', (s₁, note i s s₁ g), ghost_eq_ok.2 ⟨hs₁, rfl⟩, hg'⟩
      · rintro ⟨g', ⟨s₁, g₁⟩, hstep, h⟩
        exact ⟨s₁, (ghost_eq_ok.1 hstep).1, ih.2 ⟨g', h⟩⟩

/-- A condition on the machine's states does not see the record. -/
theorem along_ghost {cond : σ → ι → Prop} :
    Along (ghost step note) (fun r i => cond r.1 i) is r ↔ Along step cond is r.1 := by
  induction is generalizing r with
  | nil => exact Iff.rfl
  | cons i is ih =>
      refine and_congr_right fun _ => ?_
      constructor
      · intro h s' hs'
        have hnext : ghost step note i r = .ok (s', note i r.1 s' r.2) :=
          ghost_eq_ok.2 ⟨hs', rfl⟩
        exact ih.1 (h _ hnext)
      · intro h r' hr'
        exact ih.2 (h r'.1 (ghost_eq_ok.1 hr').1)

/-- **A property of state and record that each step keeps exactly when it meets a condition on the
state** holds all along a complete run exactly when all its steps meet the condition. -/
theorem visits_ghost_iff_along {cond : σ → ι → Prop} {P : σ × γ → Prop} (I : σ × γ → Prop)
    (hstep : ∀ s g i s', I (s, g) → step i s = .ok s' → P (s, g) →
      I (s', note i s s' g) ∧ (P (s', note i s s' g) ↔ cond s i))
    (hI : I (s, g)) (hP : P (s, g)) {last : σ} (hrun : run step is s = .ok last) :
    (∀ r, Visits (ghost step note) is (s, g) r → P r) ↔ Along step cond is s := by
  have hghost : ∃ g', run (ghost step note) is (s, g) = .ok (last, g') := run_ghost.1 hrun
  obtain ⟨g', hghost⟩ := hghost
  have halong : Along (ghost step note) (fun r i => cond r.1 i) is (s, g) ↔ Along step cond is s :=
    along_ghost
  rw [← halong]
  refine visits_iff_along (fun r (_ : Unit) => I r) ?_ hI hP (legal_true (fun _ t => t) is ())
    hghost
  rintro ⟨s, g⟩ _ i ⟨s', g'⟩ hI - hok hP
  obtain ⟨hok, hnote⟩ := ghost_eq_ok.1 hok
  obtain rfl : g' = note i s s' g := hnote
  exact hstep s g i s' hI hok hP

end Machine
