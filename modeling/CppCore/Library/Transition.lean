import Mathlib.Logic.Relation

/-!
# Labelled transition systems

Finite runs of a step relation, and the rule that carries an invariant from the
first state of a run to its last.
-/

namespace Transition

universe u v

variable {State : Type u} {Label : Type v}

/-- A finite run, with the labels of its steps in order. -/
inductive Run (step : State → Label → State → Prop) : State → List Label → State → Prop where
  | refl (state : State) : Run step state [] state
  | cons {first second last : State} {label : Label} {labels : List Label} :
      step first label second → Run step second labels last →
      Run step first (label :: labels) last

variable {step : State → Label → State → Prop}

/-- A property that every step with an allowed label preserves holds at the end of a run with
such labels. -/
theorem Run.invariant_of_labels {allowed : Label → Prop} {property : State → Prop}
    (preserved : ∀ {before label after}, step before label after → allowed label →
      property before → property after)
    {first last : State} {labels : List Label} (run : Run step first labels last)
    (all : ∀ label ∈ labels, allowed label) (initially : property first) : property last := by
  induction run with
  | refl state => exact initially
  | cons taken rest inductionHypothesis =>
      have ⟨allowedHere, allowedLater⟩ := List.forall_mem_cons.mp all
      exact inductionHypothesis allowedLater (preserved taken allowedHere initially)

/-- A property that every step preserves holds at the end of a run that starts with it. -/
theorem Run.invariant {property : State → Prop}
    (preserved : ∀ {before label after}, step before label after → property before → property after)
    {first last : State} {labels : List Label} (run : Run step first labels last)
    (initially : property first) : property last :=
  run.invariant_of_labels (fun taken _ => preserved taken) (fun _ _ => trivial) initially

/-- A run whose steps are simulated by sequences of abstract steps is simulated as a whole. -/
theorem Run.simulates {Abstract : Type*} {abstraction : State → Abstract}
    {abstractStep : Abstract → Abstract → Prop} {property : State → Prop}
    (preserved : ∀ {before label after}, step before label after → property before → property after)
    (simulated : ∀ {before label after}, step before label after → property before →
      Relation.ReflTransGen abstractStep (abstraction before) (abstraction after))
    {first last : State} {labels : List Label} (run : Run step first labels last)
    (initially : property first) :
    Relation.ReflTransGen abstractStep (abstraction first) (abstraction last) := by
  induction run with
  | refl state => exact .refl
  | cons taken rest inductionHypothesis =>
      exact (simulated taken initially).trans (inductionHypothesis (preserved taken initially))

end Transition
