/-
  MsmnilePkg.Lib.History

  Runs of a system that takes one input after the other.

  A condition on every step of a run is a condition on the state before the
  step and on the input.  A log that only grows is good after a run exactly
  when every step adds only good entries.
-/

import Mathlib.Data.List.Basic

namespace History

variable {σ ι ε : Type*} {step : σ → ι → σ}

/-- `P` holds of the state before each step, and of the input of the step. -/
def EveryStep (P : σ → ι → Prop) (step : σ → ι → σ) : σ → List ι → Prop
  | _, [] => True
  | s, a :: inputs => P s a ∧ EveryStep P step (step s a) inputs

theorem everyStep_of_forall {P : σ → ι → Prop} (h : ∀ s a, P s a) (inputs : List ι) :
    ∀ s, EveryStep P step s inputs := by
  induction inputs with
  | nil => exact fun _ => trivial
  | cons a inputs ih => exact fun s => ⟨h s a, ih (step s a)⟩

/-- What every step keeps, a run keeps. -/
theorem run_invariant {I : σ → Prop} (hstep : ∀ s a, I s → I (step s a)) (inputs : List ι) :
    ∀ s, I s → I (inputs.foldl step s) := by
  induction inputs with
  | nil => exact fun _ hs => hs
  | cons a inputs ih => exact fun s hs => ih (step s a) (hstep s a hs)

/-- The same for an invariant that may change when an input is `seen`. -/
theorem run_observed {I : Bool → σ → Prop} {seen : ι → Bool}
    (hstep : ∀ b s a, I b s → I (b || seen a) (step s a)) (inputs : List ι) :
    ∀ b s, I b s → I (b || inputs.any seen) (inputs.foldl step s) := by
  induction inputs with
  | nil =>
      intro b s hs
      rw [List.any_nil, Bool.or_false]
      exact hs
  | cons a inputs ih =>
      intro b s hs
      rw [List.any_cons, ← Bool.or_assoc]
      exact ih _ _ (hstep b s a hs)

/-- A flag that is never taken back is set where it was set at first or by an input of the
    run. -/
theorem flag_iff (flag : σ → Bool) {sets : σ → ι → Bool}
    (hstep : ∀ s a, flag (step s a) = (flag s || sets s a)) (inputs : List ι) :
    ∀ s, flag (inputs.foldl step s) = true ↔ flag s = true ∨
      ∃ before a after, inputs = before ++ a :: after ∧
        sets (before.foldl step s) a = true := by
  induction inputs with
  | nil =>
      intro s
      refine (or_iff_left ?_).symm
      rintro ⟨before, a, after, hsplit, -⟩
      exact List.append_ne_nil_of_right_ne_nil before (List.cons_ne_nil a after) hsplit.symm
  | cons a inputs ih =>
      intro s
      rw [List.foldl_cons, ih, hstep, Bool.or_eq_true, or_assoc]
      refine or_congr_right ⟨?_, ?_⟩
      · rintro (hfirst | ⟨before, b, after, rfl, hlater⟩)
        · exact ⟨[], a, inputs, rfl, hfirst⟩
        · exact ⟨a :: before, b, after, rfl, hlater⟩
      · rintro ⟨before, b, after, hsplit, hsets⟩
        cases before with
        | nil =>
            obtain ⟨rfl, rfl⟩ := List.cons_eq_cons.mp hsplit
            exact .inl hsets
        | cons _ before =>
            obtain ⟨rfl, rfl⟩ := List.cons_eq_cons.mp hsplit
            exact .inr ⟨before, b, after, rfl, hsets⟩

/-- The rule for a log that grows. -/
theorem log_iff_everyStep {log : σ → List ε} {new : σ → ι → List ε} {G : ε → Prop}
    {P : σ → ι → Prop} (hlog : ∀ s a, log (step s a) = log s ++ new s a)
    (hnew : ∀ s a, (∀ e ∈ new s a, G e) ↔ P s a) (inputs : List ι) :
    ∀ s, (∀ e ∈ log (inputs.foldl step s), G e) ↔
      (∀ e ∈ log s, G e) ∧ EveryStep P step s inputs := by
  induction inputs with
  | nil => exact fun s => (and_iff_left trivial).symm
  | cons a inputs ih =>
      intro s
      rw [List.foldl_cons, ih, hlog, List.forall_mem_append, hnew, EveryStep, and_assoc]

end History
