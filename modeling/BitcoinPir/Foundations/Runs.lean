import Mathlib

/-!
# Runs of a state machine

A machine is a step function on states and events. `EachStep P` says that every step of a run
meets a condition on the state before it and the event; `EachStep.invariant` is the rule for
invariants that hold as long as the condition is met. Where a state is a map, `update_eq_some` says
what is in it after a step that changes one place.
-/

namespace Foundations

variable {σ ε : Type*} (step : σ → ε → σ)

/-- The state after a list of events. -/
def runFrom (s : σ) (es : List ε) : σ := es.foldl step s

@[simp]
theorem runFrom_cons (s : σ) (e : ε) (es : List ε) :
    runFrom step s (e :: es) = runFrom step (step s e) es := rfl

theorem runFrom_append (s : σ) (es es' : List ε) :
    runFrom step s (es ++ es') = runFrom step (runFrom step s es) es' :=
  List.foldl_append ..

/-- Every step of a run meets `P`. -/
def EachStep (P : σ → ε → Prop) : σ → List ε → Prop
  | _, [] => True
  | s, e :: es => P s e ∧ EachStep P (step s e) es

variable {step} {P : σ → ε → Prop} {I : σ → Prop}

theorem eachStep_nil (s : σ) : EachStep step P s [] := trivial

theorem eachStep_cons {s : σ} {e : ε} {es : List ε} :
    EachStep step P s (e :: es) ↔ P s e ∧ EachStep step P (step s e) es := Iff.rfl

/-- A property kept by every step that meets `P` holds after every run of such steps. -/
theorem EachStep.invariant (hstep : ∀ s e, I s → P s e → I (step s e)) {s : σ} {es : List ε}
    (hs : I s) (h : EachStep step P s es) : I (runFrom step s es) := by
  induction es generalizing s with
  | nil => exact hs
  | cons e es ih => exact ih (hstep s e hs h.1) h.2

/-- A property kept by every step holds after every run. -/
theorem runFrom_invariant (hstep : ∀ s e, I s → I (step s e)) {s : σ} (es : List ε) (hs : I s) :
    I (runFrom step s es) := by
  induction es generalizing s with
  | nil => exact hs
  | cons e es ih => exact ih (hstep s e hs)

/-! ## Amounts of a run -/

section Sum

variable (step)

/-- What the steps of a run add up to. -/
def runSum (amount : σ → ε → ℤ) : σ → List ε → ℤ
  | _, [] => 0
  | s, e :: es => amount s e + runSum amount (step s e) es

variable {step}

/-- A value that every step changes by an amount is, after a run, off by the sum of the amounts. -/
theorem EachStep.value_eq (value : σ → ℤ) (amount : σ → ε → ℤ)
    (hstep : ∀ s e, P s e → value (step s e) = value s + amount s e) {s : σ}
    {es : List ε} (h : EachStep step P s es) :
    value (runFrom step s es) = value s + runSum step amount s es := by
  induction es generalizing s with
  | nil => exact (add_zero _).symm
  | cons e es ih => rw [runFrom_cons, ih h.2, hstep s e h.1, runSum, add_assoc]

theorem runSum_sub (amount amount' : σ → ε → ℤ) (s : σ) (es : List ε) :
    runSum step (fun s e => amount s e - amount' s e) s es =
      runSum step amount s es - runSum step amount' s es := by
  induction es generalizing s with
  | nil => rfl
  | cons e es ih =>
    rw [runSum, runSum, runSum, ih]
    ring

end Sum

/-- What is found in a map of which one place has changed. -/
theorem update_eq_some {κ α : Type*} [DecidableEq κ] {f : κ → Option α} {k i : κ} {o : Option α}
    {a : α} (h : Function.update f k o i = some a) : i = k ∧ o = some a ∨ i ≠ k ∧ f i = some a := by
  rw [Function.update_apply] at h
  split_ifs at h with hi
  · exact .inl ⟨hi, h⟩
  · exact .inr ⟨hi, h⟩

end Foundations
