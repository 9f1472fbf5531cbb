import Mathlib.Data.List.Basic

set_option autoImplicit false

/-! # Outcomes of fallible computations

A computation `x : Except ε α` returns a value or stops with a fault. `Yields x E Q` says that
it returns a value satisfying `Q`, or stops with a fault that `E` excuses. With `E` everywhere
false it says that `x` succeeds; with `E` a single fault it says that nothing else can go
wrong. The file gives the rules a proof about a program written with `bind`, `if` and
`List.foldlM` needs: one rule for each construct. -/

namespace Outcome

universe u

variable {ε ι : Type*} {α β σ : Type u}

/-- `x` returns a value satisfying `Q`, or stops with a fault excused by `E`. -/
def Yields (x : Except ε α) (E : ε → Prop) (Q : α → Prop) : Prop :=
  match x with
  | .ok a => Q a
  | .error e => E e

@[simp] theorem yields_ok (a : α) (E : ε → Prop) (Q : α → Prop) :
    Yields (.ok a) E Q ↔ Q a := Iff.rfl

@[simp] theorem yields_pure (a : α) (E : ε → Prop) (Q : α → Prop) :
    Yields (pure a : Except ε α) E Q ↔ Q a := Iff.rfl

@[simp] theorem yields_error (e : ε) (E : ε → Prop) (Q : α → Prop) :
    Yields (.error e) E Q ↔ E e := Iff.rfl

theorem Yields.of_ok {x : Except ε α} {E : ε → Prop} {Q : α → Prop} {a : α}
    (h : Yields x E Q) (hx : x = .ok a) : Q a := by
  subst hx
  exact h

theorem Yields.of_error {x : Except ε α} {E : ε → Prop} {Q : α → Prop} {e : ε}
    (h : Yields x E Q) (hx : x = .error e) : E e := by
  subst hx
  exact h

theorem Yields.mono {x : Except ε α} {E E' : ε → Prop} {Q Q' : α → Prop}
    (h : Yields x E Q) (hE : ∀ e, E e → E' e) (hQ : ∀ a, Q a → Q' a) : Yields x E' Q' := by
  cases x with
  | ok a => exact hQ a h
  | error e => exact hE e h

/-- Weakening of the postcondition, the faults staying as they are. -/
theorem Yields.imp {x : Except ε α} {E : ε → Prop} {Q Q' : α → Prop}
    (h : Yields x E Q) (hQ : ∀ a, Q a → Q' a) : Yields x E Q' :=
  h.mono (fun _ he => he) hQ

/-- The postcondition may also be strengthened by what is known of the value returned. -/
theorem Yields.imp_ok {x : Except ε α} {E : ε → Prop} {Q Q' : α → Prop}
    (h : Yields x E Q) (hQ : ∀ a, x = .ok a → Q a → Q' a) : Yields x E Q' := by
  cases x with
  | ok a => exact hQ a rfl h
  | error e => exact h

theorem Yields.and {x : Except ε α} {E : ε → Prop} {Q Q' : α → Prop}
    (h : Yields x E Q) (h' : Yields x E Q') : Yields x E (fun a => Q a ∧ Q' a) := by
  cases x with
  | ok a => exact ⟨h, h'⟩
  | error e => exact h

/-- Two results about the same call. -/
theorem Yields.both {x : Except ε α} {E E' : ε → Prop} {Q Q' : α → Prop}
    (h : Yields x E Q) (h' : Yields x E' Q') :
    Yields x (fun e => E e ∧ E' e) (fun a => Q a ∧ Q' a) := by
  cases x with
  | ok a => exact ⟨h, h'⟩
  | error e => exact ⟨h, h'⟩

/-- **The rule of sequencing.** -/
theorem Yields.bind {x : Except ε α} {f : α → Except ε β} {E : ε → Prop} {Q : α → Prop}
    {R : β → Prop} (hx : Yields x E Q) (hf : ∀ a, Q a → Yields (f a) E R) :
    Yields (x >>= f) E R := by
  cases x with
  | ok a => exact hf a hx
  | error e => exact hx

/-- The rule of sequencing, the second part knowing where its argument comes from. -/
theorem Yields.bind_of_ok {x : Except ε α} {f : α → Except ε β} {E : ε → Prop} {Q : α → Prop}
    {R : β → Prop} (hx : Yields x E Q) (hf : ∀ a, x = .ok a → Q a → Yields (f a) E R) :
    Yields (x >>= f) E R := by
  cases x with
  | ok a => exact hf a rfl hx
  | error e => exact hx

/-- Sequencing after a computation whose value is known. -/
theorem Yields.bind_ok {x : Except ε α} {f : α → Except ε β} {E : ε → Prop} {R : β → Prop}
    {a : α} (hx : x = .ok a) (hf : Yields (f a) E R) : Yields (x >>= f) E R := by
  subst hx
  exact hf

/-- A fault that is renamed on the way out. -/
theorem yields_mapError {ε' : Type*} {x : Except ε α} {f : ε → ε'} {E : ε' → Prop}
    {Q : α → Prop} : Yields (x.mapError f) E Q ↔ Yields x (fun e => E (f e)) Q := by
  cases x with
  | ok a => exact Iff.rfl
  | error e => exact Iff.rfl

theorem bind_eq_ok {x : Except ε α} {f : α → Except ε β} {b : β} :
    x >>= f = .ok b ↔ ∃ a, x = .ok a ∧ f a = .ok b := by
  cases x with
  | ok a =>
      refine ⟨fun h => ⟨a, rfl, h⟩, ?_⟩
      rintro ⟨_, ⟨⟩, h⟩
      exact h
  | error e =>
      constructor
      · intro h
        exact nomatch h
      · rintro ⟨_, h, _⟩
        exact nomatch h

@[simp] theorem ok_bind (a : α) (f : α → Except ε β) : (Except.ok a >>= f) = f a := rfl

@[simp] theorem error_bind (e : ε) (f : α → Except ε β) :
    ((Except.error e : Except ε α) >>= f) = .error e := rfl

/-- A computation that yields either succeeds or stops with an excused fault. -/
theorem Yields.ok_or_error {x : Except ε α} {E : ε → Prop} {Q : α → Prop} (h : Yields x E Q) :
    (∃ a, x = .ok a ∧ Q a) ∨ ∃ e, x = .error e ∧ E e := by
  cases x with
  | ok a => exact Or.inl ⟨a, rfl, h⟩
  | error e => exact Or.inr ⟨e, rfl, h⟩

/-- A computation that cannot fail. -/
theorem Yields.exists_ok {x : Except ε α} {Q : α → Prop} (h : Yields x (fun _ => False) Q) :
    ∃ a, x = .ok a ∧ Q a := by
  rcases h.ok_or_error with hok | ⟨e, -, he⟩
  · exact hok
  · exact he.elim

/-- A computation that can be run shows what it returns. -/
theorem exists_ok_of_decide {x : Except ε α} {P : α → Prop} [DecidablePred P]
    (h : x.toOption.map (fun a => decide (P a)) = some true) : ∃ a, x = .ok a ∧ P a := by
  cases x with
  | ok a => exact ⟨a, rfl, of_decide_eq_true (Option.some.inj h)⟩
  | error e => cases h

/-- A specification proved under a hypothesis: without it nothing is known. -/
theorem Yields.under {x : Except ε α} {h : Prop} {E : ε → Prop} {Q : α → Prop}
    (hx : h → Yields x E Q) : Yields x (fun e => h → E e) (fun a => h → Q a) := by
  cases x with
  | ok a => exact hx
  | error e => exact hx

/-- Partial correctness speaks of the values returned only. -/
theorem yields_partial_iff {x : Except ε α} {Q : α → Prop} :
    Yields x (fun _ => True) Q ↔ ∀ a, x = .ok a → Q a := by
  cases x with
  | ok a =>
      refine ⟨fun h _ ha => ?_, fun h => h a rfl⟩
      cases ha
      exact h
  | error e => exact ⟨fun _ _ ha => (nomatch ha), fun _ => trivial⟩

theorem Yields.of_isOk {x : Except ε α} {E : ε → Prop} {Q : α → Prop} (h : Yields x E Q)
    (hx : x.isOk = true) : ∃ a, x = .ok a ∧ Q a := by
  cases x with
  | ok a => exact ⟨a, rfl, h⟩
  | error e => cases hx

theorem exists_ok_of_isOk {x : Except ε α} (hx : x.isOk = true) : ∃ a, x = .ok a := by
  cases x with
  | ok a => exact ⟨a, rfl⟩
  | error e => cases hx

/-! ## Loops -/

/-- **The rule of the loop over a list**, its invariant depending on the part of the list
already processed. -/
theorem Yields.foldlM_upto {f : σ → ι → Except ε σ} {E : ε → Prop} (I : List ι → σ → Prop)
    (l : List ι) (s : σ) (h0 : I [] s)
    (hstep : ∀ (done : List ι) (x : ι) (todo : List ι) (s : σ), l = done ++ x :: todo →
      I done s → Yields (f s x) E (I (done ++ [x]))) :
    Yields (l.foldlM f s) E (I l) := by
  suffices h : ∀ (todo done : List ι) (s : σ), l = done ++ todo → I done s →
      Yields (todo.foldlM f s) E (I l) from h l [] s rfl h0
  intro todo
  induction todo with
  | nil =>
      intro done s hl hI
      rw [List.append_nil] at hl
      subst hl
      exact hI
  | cons x todo ih =>
      intro done s hl hI
      rw [List.foldlM_cons]
      refine (hstep done x todo s hl hI).bind fun s' hs' => ?_
      exact ih (done ++ [x]) s' (by rw [hl, List.append_assoc]; rfl) hs'

/-- The rule of the loop for an invariant that does not depend on the position. -/
theorem Yields.foldlM {f : σ → ι → Except ε σ} {E : ε → Prop} (I : σ → Prop)
    (l : List ι) (s : σ) (h0 : I s)
    (hstep : ∀ x ∈ l, ∀ s, I s → Yields (f s x) E I) :
    Yields (l.foldlM f s) E I :=
  Yields.foldlM_upto (fun _ => I) l s h0 fun done x todo s hl hI =>
    hstep x (by rw [hl]; simp) s hI

/-- A loop none of whose steps changes the state. -/
theorem foldlM_eq_self {f : σ → ι → Except ε σ} {l : List ι} {s : σ}
    (h : ∀ i ∈ l, f s i = .ok s) : l.foldlM f s = .ok s := by
  induction l with
  | nil => rfl
  | cons i l ih =>
      rw [List.foldlM_cons, h i (List.mem_cons_self ..), ok_bind]
      exact ih fun j hj => h j (List.mem_cons_of_mem i hj)

/-- A filter whose test never fails. -/
theorem filterM_eq_ok {ι : Type} {f : ι → Except ε Bool} {q : ι → Bool} {l : List ι}
    (h : ∀ x ∈ l, f x = .ok (q x)) : l.filterM f = .ok (l.filter q) := by
  suffices h' : ∀ acc, l.filterAuxM f acc = .ok ((l.filter q).reverse ++ acc) by
    rw [List.filterM, h' []]
    simp [pure, Except.pure]
  induction l with
  | nil => intro acc; rfl
  | cons x l ih =>
      intro acc
      rw [List.filterAuxM, h x (List.mem_cons_self ..), ok_bind,
        ih fun y hy => h y (List.mem_cons_of_mem x hy)]
      cases hq : q x <;> simp [hq]

end Outcome
