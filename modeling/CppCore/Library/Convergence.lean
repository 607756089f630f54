import Mathlib.Dynamics.FixedPoints.Basic

/-!
# Convergence

A function that is applied over and over again comes to rest when each
application that changes something lowers a measure.
-/

namespace Convergence

universe u

variable {State : Type u} {step : State → State} {invariant : State → Prop} {measure : State → Nat}

theorem isFixedPt_iterate (preserved : ∀ state, invariant state → invariant (step state))
    (progress : ∀ state, invariant state →
      step state = state ∨ measure (step state) < measure state)
    {state : State} (initially : invariant state) {bound : Nat} (enough : measure state ≤ bound) :
    Function.IsFixedPt step (step^[bound] state) := by
  induction bound generalizing state with
  | zero =>
      rcases progress state initially with rest | lower
      · exact rest
      · omega
  | succ bound inductionHypothesis =>
      rcases progress state initially with rest | lower
      · have stays : Function.IsFixedPt step state := rest
        rw [(stays.iterate (bound + 1)).eq]
        exact stays
      · exact inductionHypothesis (preserved state initially) (by omega)

/-- From the bound on nothing changes. -/
theorem iterate_eq_of_le (preserved : ∀ state, invariant state → invariant (step state))
    (progress : ∀ state, invariant state →
      step state = state ∨ measure (step state) < measure state)
    {state : State} (initially : invariant state) {bound rounds : Nat}
    (enough : measure state ≤ bound) (later : bound ≤ rounds) :
    step^[rounds] state = step^[bound] state := by
  obtain ⟨more, rfl⟩ := Nat.exists_eq_add_of_le' later
  rw [Function.iterate_add_apply]
  exact ((isFixedPt_iterate preserved progress initially enough).iterate more).eq

end Convergence
