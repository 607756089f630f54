import CppCore.Library.Fallible
import CppCore.Library.Json

/-!
# Fields of syntax tree nodes

The reducer reads each field at the type clang gives it.  A value of another
type ends the run with a fault.
-/

namespace CppCore.Ffi

inductive Fault where
  | illTyped (key : Text)
  | missing (key : Text)
  deriving DecidableEq

end CppCore.Ffi

namespace Dict

open CppCore.Ffi

def hasKind (node : Dict) (kind : Text) : Bool :=
  (node.get "kind").isText kind

/-- A node has one kind. -/
theorem hasKind_eq {node : Dict} {kind : Text} (known : node.hasKind kind = true) (other : Text) :
    node.hasKind other = decide (kind = other) := by
  unfold hasKind at *
  cases read : node.get "kind" with
  | str text =>
      rw [read] at known
      have same : text = kind := of_decide_eq_true known
      rw [same]
      rfl
  | _ =>
      rw [read] at known
      cases known

/-- `node.get(key)` where a text or nothing is expected. -/
def getText? (node : Dict) (key : Text) : Except Fault (Option Text) :=
  match node.get key with
  | .null => .ok none
  | .str text => .ok (some text)
  | _ => .error (.illTyped key)

/-- `node.get(key, fallback)` where a text is expected. -/
def getText (node : Dict) (key fallback : Text) : Except Fault Text :=
  match node.lookup key with
  | none => .ok fallback
  | some (.str text) => .ok text
  | some _ => .error (.illTyped key)

/-- `node.get(key, {})` -/
def getDict (node : Dict) (key : Text) : Except Fault Dict :=
  match node.lookup key with
  | none => .ok []
  | some (.obj fields) => .ok fields
  | some _ => .error (.illTyped key)

/-- `node.get(key, [])` -/
def getList (node : Dict) (key : Text) : Except Fault (List Json) :=
  match node.lookup key with
  | none => .ok []
  | some (.arr items) => .ok items
  | some _ => .error (.illTyped key)

/-- The children that are objects. -/
def childObjects (node : Dict) : Except Fault (List Dict) := do
  let children ← node.getList "inner"
  return children.filterMap Json.asDict

theorem mem_of_lookup {node : Dict} {key : Text} {value : Json}
    (found : node.lookup key = some value) : (key, value) ∈ node := by
  induction node with
  | nil => cases found
  | cons field node inductionHypothesis =>
      rcases field with ⟨name, content⟩
      by_cases same : key = name
      · subst same
        rw [List.lookup_cons_self, Option.some.injEq] at found
        rw [found]
        exact List.mem_cons_self
      · rw [List.lookup_cons, beq_false_of_ne same] at found
        exact List.mem_cons_of_mem _ (inductionHypothesis found)

/-- The children of a node are values of the node. -/
theorem getList_eq_ok {node : Dict} {key : Text} {items : List Json}
    (read : node.getList key = .ok items) : items = [] ∨ (key, .arr items) ∈ node := by
  unfold getList at read
  cases found : node.lookup key with
  | none =>
      rw [found] at read
      cases read
      exact .inl rfl
  | some value =>
      rw [found] at read
      cases value with
      | arr content =>
          cases read
          exact .inr (mem_of_lookup found)
      | _ => cases read

theorem sizeOf_le_of_getList {node : Dict} {key : Text} {items : List Json}
    (read : node.getList key = .ok items) : sizeOf items ≤ sizeOf node := by
  rcases getList_eq_ok read with rfl | membership
  · cases node with
    | nil => exact Nat.le_refl _
    | cons field node =>
        simp only [List.nil.sizeOf_spec, List.cons.sizeOf_spec]
        omega
  · have inner := List.sizeOf_lt_of_mem membership
    simp only [Prod.mk.sizeOf_spec, Json.arr.sizeOf_spec] at inner
    omega

/-- A recursion into the children of a node ends: the order of the recursive
functions on nodes (`1`) and on lists of children (`0`). -/
theorem lex_of_getList {node : Dict} {key : Text} {items : List Json}
    (read : node.getList key = .ok items) :
    Prod.Lex (· < ·) (· < ·) (sizeOf items, 0) (sizeOf node, 1) := by
  rcases Nat.lt_or_eq_of_le (sizeOf_le_of_getList read) with smaller | same
  · exact Prod.Lex.left _ _ smaller
  · rw [same]
    exact Prod.Lex.right _ Nat.zero_lt_one

end Dict
