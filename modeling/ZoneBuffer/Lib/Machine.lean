import ZoneBuffer.Lib.Outcome

set_option autoImplicit false

/-! # Runs of a fallible machine against an abstract one

A machine takes an input and a state to the next state, or stops with a fault. It is compared
with an abstract machine that never fails and that also says which inputs a client may give
next (`pre`). A list of inputs is legal (`Legal`) when each of them is permitted in the
abstract state it meets; legality speaks of the inputs only, so a legal list can be fed to any
implementation. A run whose steps may take a wrong branch is restricted with `Along`, a
condition on the concrete state each step starts from. What a run has done on the way, and not
only the state it ends in, is read off its steps with `gather`.

The one induction over runs is `run_yields`: a relation between the two states that every
legal step keeps is kept by every legal run. -/

namespace Machine

open Outcome

variable {ε σ τ ι : Type*}

/-- The run of `step` over a list of inputs. -/
def run (step : ι → σ → Except ε σ) (is : List ι) (s : σ) : Except ε σ :=
  is.foldlM (fun s i => step i s) s

/-- The abstract run. -/
def specRun (astep : ι → τ → τ) (is : List ι) (t : τ) : τ :=
  is.foldl (fun t i => astep i t) t

@[simp] theorem run_nil (step : ι → σ → Except ε σ) (s : σ) : run step [] s = .ok s := rfl

@[simp] theorem run_cons (step : ι → σ → Except ε σ) (i : ι) (is : List ι) (s : σ) :
    run step (i :: is) s = step i s >>= run step is := rfl

@[simp] theorem specRun_nil (astep : ι → τ → τ) (t : τ) : specRun astep [] t = t := rfl

@[simp] theorem specRun_cons (astep : ι → τ → τ) (i : ι) (is : List ι) (t : τ) :
    specRun astep (i :: is) t = specRun astep is (astep i t) := rfl

theorem run_append (step : ι → σ → Except ε σ) (is js : List ι) (s : σ) :
    run step (is ++ js) s = run step is s >>= run step js := by
  induction is generalizing s with
  | nil => rfl
  | cons i is ih =>
      rw [List.cons_append, run_cons, run_cons]
      cases step i s with
      | ok s' => exact ih s'
      | error e => rfl

/-- Each input of the list is permitted in the abstract state it meets. -/
def Legal (pre : τ → ι → Prop) (astep : ι → τ → τ) : List ι → τ → Prop
  | [], _ => True
  | i :: is, t => pre t i ∧ Legal pre astep is (astep i t)

/-- Each step of the concrete run starts in a state satisfying `cond`. -/
def Along (step : ι → σ → Except ε σ) (cond : σ → ι → Prop) : List ι → σ → Prop
  | [], _ => True
  | i :: is, s => cond s i ∧ ∀ s', step i s = .ok s' → Along step cond is s'

/-- What `f` reads off the steps of a run, in order: of each step the input and the states before
and after it. -/
def gather {κ : Type*} (step : ι → σ → Except ε σ) (f : ι → σ → σ → List κ) :
    List ι → σ → List κ
  | [], _ => []
  | i :: is, s =>
      match step i s with
      | .ok s' => f i s s' ++ gather step f is s'
      | .error _ => []

theorem gather_cons {κ : Type*} {step : ι → σ → Except ε σ} {f : ι → σ → σ → List κ} {i : ι}
    {s s' : σ} (h : step i s = .ok s') (is : List ι) :
    gather step f (i :: is) s = f i s s' ++ gather step f is s' := by
  rw [gather, h]

/-- A legal list is legal for every weaker permission. -/
theorem Legal.imp {pre pre' : τ → ι → Prop} {astep : ι → τ → τ} {is : List ι} {t : τ}
    (hl : Legal pre astep is t) (h : ∀ i ∈ is, ∀ t, pre t i → pre' t i) :
    Legal pre' astep is t := by
  induction is generalizing t with
  | nil => trivial
  | cons i is ih =>
      refine ⟨h i (List.mem_cons_self ..) t hl.1, ih hl.2 fun j hj => ?_⟩
      exact h j (List.mem_cons_of_mem i hj)

/-- A decidable permission can be checked along a list. -/
instance decidableLegal (pre : τ → ι → Prop) (astep : ι → τ → τ) [∀ t i, Decidable (pre t i)] :
    ∀ is t, Decidable (Legal pre astep is t)
  | [], _ => isTrue trivial
  | i :: is, t =>
      have := decidableLegal pre astep is (astep i t)
      inferInstanceAs (Decidable (_ ∧ _))

theorem legal_true (astep : ι → τ → τ) (is : List ι) (t : τ) :
    Legal (fun _ _ => True) astep is t := by
  induction is generalizing t with
  | nil => trivial
  | cons i is ih => exact ⟨trivial, ih (astep i t)⟩

theorem legal_append (pre : τ → ι → Prop) (astep : ι → τ → τ) (is js : List ι) (t : τ) :
    Legal pre astep (is ++ js) t ↔
      Legal pre astep is t ∧ Legal pre astep js (specRun astep is t) := by
  induction is generalizing t with
  | nil => simp [Legal]
  | cons i is ih =>
      rw [List.cons_append, Legal, Legal, ih, specRun_cons, and_assoc]

theorem Along.and {step : ι → σ → Except ε σ} {cond cond' : σ → ι → Prop} {is : List ι} {s : σ}
    (h : Along step cond is s) (h' : Along step cond' is s) :
    Along step (fun s i => cond s i ∧ cond' s i) is s := by
  induction is generalizing s with
  | nil => trivial
  | cons i is ih => exact ⟨⟨h.1, h'.1⟩, fun s' hs' => ih (h.2 s' hs') (h'.2 s' hs')⟩

theorem along_append (step : ι → σ → Except ε σ) (cond : σ → ι → Prop) (is js : List ι) (s : σ) :
    Along step cond (is ++ js) s ↔
      Along step cond is s ∧ ∀ s', run step is s = .ok s' → Along step cond js s' := by
  induction is generalizing s with
  | nil => simp [Along]
  | cons i is ih =>
      rw [List.cons_append, Along, Along, and_assoc]
      refine and_congr_right fun _ => ?_
      constructor
      · intro h
        refine ⟨fun s' hs' => ((ih s').1 (h s' hs')).1, fun s'' hs'' => ?_⟩
        obtain ⟨s', hs', hrun⟩ := bind_eq_ok.1 hs''
        exact ((ih s').1 (h s' hs')).2 s'' hrun
      · rintro ⟨h1, h2⟩ s' hs'
        refine (ih s').2 ⟨h1 s' hs', fun s'' hs'' => h2 s'' ?_⟩
        rw [run_cons, hs', ok_bind]
        exact hs''

/-- A decidable condition can be checked along a run by running it. -/
instance decidableAlong (step : ι → σ → Except ε σ) (cond : σ → ι → Prop)
    [∀ s i, Decidable (cond s i)] : ∀ is s, Decidable (Along step cond is s)
  | [], _ => isTrue trivial
  | i :: is, s =>
      have : Decidable (∀ s', step i s = .ok s' → Along step cond is s') :=
        match step i s with
        | .ok s' =>
            match decidableAlong step cond is s' with
            | isTrue h => isTrue fun _ hs' => Except.ok.inj hs' ▸ h
            | isFalse h => isFalse fun hall => h (hall s' rfl)
        | .error _ => isTrue fun _ hs' => nomatch hs'
      inferInstanceAs (Decidable (_ ∧ _))

theorem along_true (step : ι → σ → Except ε σ) (is : List ι) (s : σ) :
    Along step (fun _ _ => True) is s := by
  induction is generalizing s with
  | nil => trivial
  | cons i is ih => exact ⟨trivial, fun s' _ => ih s'⟩

/-- **The induction over runs, with a condition on the steps taken.** A relation kept by every
legal step that meets the condition is kept by every legal run whose steps all meet it. -/
theorem run_yields_along {step : ι → σ → Except ε σ} {astep : ι → τ → τ} {pre : τ → ι → Prop}
    {cond : σ → ι → Prop} {E : ε → Prop} (R : σ → τ → Prop)
    (hstep : ∀ s t i, R s t → pre t i → cond s i →
      Yields (step i s) E (fun s' => R s' (astep i t)))
    (is : List ι) (s : σ) (t : τ) (h0 : R s t) (hl : Legal pre astep is t)
    (hc : Along step cond is s) :
    Yields (run step is s) E (fun s' => R s' (specRun astep is t)) := by
  induction is generalizing s t with
  | nil => exact h0
  | cons i is ih =>
      rw [run_cons]
      exact (hstep s t i h0 hl.1 hc.1).bind_of_ok fun s' hs' hR =>
        ih s' (astep i t) hR hl.2 (hc.2 s' hs')

/-- What each step guarantees under an invariant is guaranteed all along a run. -/
theorem Along.of_inv {step : ι → σ → Except ε σ} {cond P : σ → ι → Prop} (I : σ → Prop)
    (hstep : ∀ s i, I s → cond s i → P s i ∧ ∀ s', step i s = .ok s' → I s') {is : List ι} {s : σ}
    (h0 : I s) (hc : Along step cond is s) : Along step P is s := by
  induction is generalizing s with
  | nil => trivial
  | cons i is ih =>
      obtain ⟨hP, hI⟩ := hstep s i h0 hc.1
      exact ⟨hP, fun s' hs' => ih (hI s' hs') (hc.2 s' hs')⟩

/-- The induction for inputs that are restricted by the concrete state only. -/
theorem run_yields_cond {step : ι → σ → Except ε σ} {cond : σ → ι → Prop} {E : ε → Prop}
    (I : σ → Prop) (hstep : ∀ s i, I s → cond s i → Yields (step i s) E I) (is : List ι) (s : σ)
    (h0 : I s) (hc : Along step cond is s) : Yields (run step is s) E I :=
  run_yields_along (fun s (_ : Unit) => I s) (fun s _ i hI _ hi => hstep s i hI hi) is s () h0
    (legal_true (fun _ t => t) is ()) hc

/-- **The induction over runs.** -/
theorem run_yields {step : ι → σ → Except ε σ} {astep : ι → τ → τ} {pre : τ → ι → Prop}
    {E : ε → Prop} (R : σ → τ → Prop)
    (hstep : ∀ s t i, R s t → pre t i → Yields (step i s) E (fun s' => R s' (astep i t)))
    (is : List ι) (s : σ) (t : τ) (h0 : R s t) (hl : Legal pre astep is t) :
    Yields (run step is s) E (fun s' => R s' (specRun astep is t)) :=
  run_yields_along R (fun s t i h hp _ => hstep s t i h hp) is s t h0 hl (along_true step is s)

/-- **The induction for a machine that checks its inputs**: it stops exactly at the first input
that is not permitted. -/
theorem run_yields_checked {step : ι → σ → Except ε σ} {astep : ι → τ → τ} {pre : τ → ι → Prop}
    {E : ε → Prop} (R : σ → τ → Prop)
    (hstep : ∀ s t i, R s t → Yields (step i s) (fun e => E e ∧ ¬ pre t i)
      (fun s' => pre t i ∧ R s' (astep i t)))
    (is : List ι) (s : σ) (t : τ) (h0 : R s t) :
    Yields (run step is s) (fun e => E e ∧ ¬ Legal pre astep is t)
      (fun s' => Legal pre astep is t ∧ R s' (specRun astep is t)) := by
  induction is generalizing s t with
  | nil => exact ⟨trivial, h0⟩
  | cons i is ih =>
      rw [run_cons]
      have hi := hstep s t i h0
      cases hs : step i s with
      | error e =>
          have hE := hi.of_error hs
          exact ⟨hE.1, fun hl => hE.2 hl.1⟩
      | ok s' =>
          obtain ⟨hpre, hR⟩ := hi.of_ok hs
          refine (ih s' (astep i t) hR).mono ?_ ?_
          · rintro e ⟨hE, hl⟩
            exact ⟨hE, fun hl' => hl hl'.2⟩
          · rintro s'' ⟨hl, hR'⟩
            exact ⟨⟨hpre, hl⟩, hR'⟩

/-- `s'` is reached by some prefix of the run. -/
def Visits (step : ι → σ → Except ε σ) (is : List ι) (s s' : σ) : Prop :=
  ∃ done todo, is = done ++ todo ∧ run step done s = .ok s'

/-- Every state a run visits satisfies what every legal, conforming run ends in. -/
theorem Visits.elim {step : ι → σ → Except ε σ} {astep : ι → τ → τ} {pre : τ → ι → Prop}
    {cond : σ → ι → Prop} {is : List ι} {s s' : σ} {t : τ} {P : σ → Prop}
    (hv : Visits step is s s') (hl : Legal pre astep is t) (hc : Along step cond is s)
    (h : ∀ js, Legal pre astep js t → Along step cond js s → ∀ s'', run step js s = .ok s'' →
      P s'') : P s' := by
  obtain ⟨done, todo, rfl, hrun⟩ := hv
  exact h done ((legal_append pre astep done todo t).1 hl).1
    ((along_append step cond done todo s).1 hc).1 s' hrun

theorem visits_nil (step : ι → σ → Except ε σ) {s s' : σ} : Visits step [] s s' ↔ s' = s := by
  constructor
  · rintro ⟨done, todo, hnil, hrun⟩
    obtain ⟨rfl, -⟩ := List.append_eq_nil_iff.1 hnil.symm
    exact (Except.ok.inj hrun).symm
  · rintro rfl
    exact ⟨[], [], rfl, rfl⟩

theorem visits_cons (step : ι → σ → Except ε σ) {i : ι} {is : List ι} {s s' : σ} :
    Visits step (i :: is) s s' ↔ s' = s ∨ ∃ s₁, step i s = .ok s₁ ∧ Visits step is s₁ s' := by
  constructor
  · rintro ⟨done, todo, hcons, hrun⟩
    cases done with
    | nil => exact Or.inl (Except.ok.inj hrun).symm
    | cons j done =>
        rw [List.cons_append, List.cons.injEq] at hcons
        obtain ⟨rfl, rfl⟩ := hcons
        obtain ⟨s₁, hstep, hrun⟩ := bind_eq_ok.1 hrun
        exact Or.inr ⟨s₁, hstep, done, todo, rfl, hrun⟩
  · rintro (rfl | ⟨s₁, hstep, done, todo, rfl, hrun⟩)
    · exact ⟨[], i :: is, rfl, rfl⟩
    · refine ⟨i :: done, todo, rfl, ?_⟩
      rw [run_cons, hstep, ok_bind]
      exact hrun

/-- **A property that each step keeps exactly when it meets a condition** holds in all states a
complete run visits exactly when all its steps meet the condition. -/
theorem visits_iff_along {step : ι → σ → Except ε σ} {astep : ι → τ → τ} {pre : τ → ι → Prop}
    {cond : σ → ι → Prop} {P : σ → Prop} (R : σ → τ → Prop)
    (hstep : ∀ s t i s', R s t → pre t i → step i s = .ok s' → P s →
      R s' (astep i t) ∧ (P s' ↔ cond s i))
    {is : List ι} {s last : σ} {t : τ} (hR : R s t) (h0 : P s) (hl : Legal pre astep is t)
    (hrun : run step is s = .ok last) :
    (∀ s', Visits step is s s' → P s') ↔ Along step cond is s := by
  induction is generalizing s t with
  | nil =>
      refine ⟨fun _ => trivial, fun _ s' hs' => ?_⟩
      rw [(visits_nil step).1 hs']
      exact h0
  | cons i is ih =>
      obtain ⟨s₁, hs₁, hrun⟩ := bind_eq_ok.1 hrun
      obtain ⟨hR₁, hiff⟩ := hstep s t i s₁ hR hl.1 hs₁ h0
      have hnext : (∀ s', step i s = .ok s' → Along step cond is s') ↔ Along step cond is s₁ :=
        ⟨fun h => h s₁ hs₁, fun h s' hs' => Except.ok.inj (hs₁.symm.trans hs') ▸ h⟩
      rw [Along, hnext, ← hiff]
      constructor
      · intro hall
        have hP₁ := hall s₁ ((visits_cons step).2 (Or.inr ⟨s₁, hs₁, [], is, rfl, rfl⟩))
        refine ⟨hP₁, (ih hR₁ hP₁ hl.2 hrun).1 fun s' hs' => ?_⟩
        exact hall s' ((visits_cons step).2 (Or.inr ⟨s₁, hs₁, hs'⟩))
      · rintro ⟨hP₁, halong⟩ s' hs'
        rcases (visits_cons step).1 hs' with rfl | ⟨s₂, hs₂, hs'⟩
        · exact h0
        · obtain rfl := Except.ok.inj (hs₁.symm.trans hs₂)
          exact (ih hR₁ hP₁ hl.2 hrun).2 halong s' hs'

end Machine
