import Mathlib.Algebra.Order.BigOperators.Group.List
import Mathlib.Algebra.Order.Group.Nat
import CppCore.Library.Json

/-!
# The traversal of the syntax tree

`walk` keeps a stack of the objects and arrays still to visit.  What is left to
yield is at every moment the pre-order of the values on the stack, top first.
-/

namespace CppCore.Ffi

/-- Push the containers among the values, the last value first; the head of the
list is the top of the stack. -/
def pushReversed (values stack : List Json) : List Json :=
  values.reverse.foldl
    (fun stack value => if value.isContainer then value :: stack else stack) stack

theorem pushReversed_eq (values stack : List Json) :
    pushReversed values stack = values.filter Json.isContainer ++ stack := by
  unfold pushReversed
  rw [List.foldl_reverse]
  induction values with
  | nil => rfl
  | cons value values inductionHypothesis =>
      rw [List.foldr_cons, inductionHypothesis]
      by_cases container : value.isContainer = true
      · rw [if_pos container, List.filter_cons_of_pos container, List.cons_append]
      · rw [if_neg container, List.filter_cons_of_neg container]

theorem sum_weight_pushReversed_le (values stack : List Json) :
    ((pushReversed values stack).map Json.weight).sum ≤
      (values.map Json.weight).sum + (stack.map Json.weight).sum := by
  rw [pushReversed_eq, List.map_append, List.sum_append]
  have fewer : (values.filter Json.isContainer).Sublist values := List.filter_sublist
  have lighter := (fewer.map Json.weight).sum_le_sum fun _ _ => Nat.zero_le _
  omega

/-- The loop of `walk`, with the objects it yields from here on. -/
def walkLoop : List Json → List Dict
  | [] => []
  | .obj fields :: stack => fields :: walkLoop (pushReversed (Dict.values fields) stack)
  | .arr items :: stack => walkLoop (pushReversed items stack)
  | _ :: stack => walkLoop stack
termination_by stack => (stack.map Json.weight).sum
decreasing_by
  · have lighter := sum_weight_pushReversed_le (Dict.values fields) stack
    simp only [List.map_cons, List.sum_cons, Json.weight, Json.fieldsWeight_eq_sum]
    omega
  · have lighter := sum_weight_pushReversed_le items stack
    simp only [List.map_cons, List.sum_cons, Json.weight, Json.itemsWeight_eq_sum]
    omega
  · have positive := Json.weight_pos ‹Json›
    simp only [List.map_cons, List.sum_cons]
    omega

def walk (node : Json) : List Dict := walkLoop [node]

/-- Scalars hold no objects, so leaving them off the stack loses none. -/
theorem flatMap_objects_pushReversed (values stack : List Json) :
    (pushReversed values stack).flatMap Json.objects =
      values.flatMap Json.objects ++ stack.flatMap Json.objects := by
  rw [pushReversed_eq, List.flatMap_append]
  congr 1
  induction values with
  | nil => rfl
  | cons value values inductionHypothesis =>
      rw [List.flatMap_cons]
      by_cases container : value.isContainer = true
      · rw [List.filter_cons_of_pos container, List.flatMap_cons, inductionHypothesis]
      · rw [List.filter_cons_of_neg container, inductionHypothesis,
          Json.objects_eq_nil (by simpa using container), List.nil_append]

/-- The stack invariant. -/
theorem walkLoop_eq (stack : List Json) : walkLoop stack = stack.flatMap Json.objects := by
  induction stack using walkLoop.induct with
  | case1 => rw [walkLoop, List.flatMap_nil]
  | case2 fields stack inductionHypothesis =>
      -- The object itself comes first, then its values, then the rest of the stack.
      rw [walkLoop, inductionHypothesis, flatMap_objects_pushReversed, List.flatMap_cons,
        Json.objects, Json.fieldObjects_eq_flatMap, List.cons_append]
  | case3 items stack inductionHypothesis =>
      rw [walkLoop, inductionHypothesis, flatMap_objects_pushReversed, List.flatMap_cons,
        Json.objects, Json.itemObjects_eq_flatMap]
  | case4 value stack notObject notArray inductionHypothesis =>
      have scalar : value.isContainer = false := by
        cases value with
        | obj fields => exact absurd rfl (notObject fields)
        | arr items => exact absurd rfl (notArray items)
        | _ => rfl
      rw [walkLoop, inductionHypothesis, List.flatMap_cons, Json.objects_eq_nil scalar,
        List.nil_append]
      · exact notObject
      · exact notArray

theorem walk_eq_objects (node : Json) : walk node = node.objects := by
  unfold walk
  rw [walkLoop_eq, List.flatMap_cons, List.flatMap_nil, List.append_nil]

end CppCore.Ffi
