import Mathlib.Algebra.BigOperators.Group.Finset.Basic
import Mathlib.Algebra.Order.Group.Multiset
import CppCore.Library.Custody

/-!
# Guards that can be moved and dismissed

Any number of `ScopeGuard` objects in one memory, in any order of construction,
move, dismissal and destruction.  The machine also keeps every call of an
action, the actions that guards were made for, and those that were dismissed
while a guard held them actively.
-/

namespace CppCore.ScopeGuard

structure Guards (Object Fn : Type) where
  live : Finset Object
  fn : Object → Fn
  active : Object → Bool
  calls : Multiset Fn
  created : Multiset Fn
  dismissed : Multiset Fn

variable {Object Fn : Type} [DecidableEq Object]

namespace Guards

/-- The members of an object, `fn_` and `active_`. -/
def store (object : Object) (fn : Fn) (active : Bool) (guards : Guards Object Fn) :
    Guards Object Fn :=
  { guards with
    fn := Function.update guards.fn object fn
    active := Function.update guards.active object active }

def construct (object : Object) (func : Fn) (guards : Guards Object Fn) : Guards Object Fn :=
  { guards with live := insert object guards.live }.store object func true

def onScopeExit (object : Object) (func : Fn) (guards : Guards Object Fn) : Guards Object Fn :=
  guards.construct object func

def defer (object : Object) (func : Fn) (guards : Guards Object Fn) : Guards Object Fn :=
  guards.onScopeExit object func

/-- The move constructor of the callable leaves any callable behind. -/
def moveConstruct (object other : Object) (movedFrom : Fn) (guards : Guards Object Fn) :
    Guards Object Fn :=
  let constructed := { guards with live := insert object guards.live }.store object
    (guards.fn other) (guards.active other)
  constructed.store other movedFrom false

def destroy (object : Object) (guards : Guards Object Fn) : Guards Object Fn :=
  let guards :=
    if guards.active object then { guards with calls := guards.calls + {guards.fn object} }
    else guards
  { guards with live := guards.live.erase object }

def dismiss (object : Object) (guards : Guards Object Fn) : Guards Object Fn :=
  { guards with active := Function.update guards.active object false }

omit [DecidableEq Object] in
def isActive (object : Object) (guards : Guards Object Fn) : Bool := guards.active object

/-- What a guard holds actively. -/
def holding (object : Object) (guards : Guards Object Fn) : Multiset Fn :=
  if guards.active object then {guards.fn object} else 0

def recordCreation (func : Fn) (guards : Guards Object Fn) : Guards Object Fn :=
  { guards with created := guards.created + {func} }

/-- An action counts as dismissed when its guard is active at that moment. -/
def recordDismissal (object : Object) (guards : Guards Object Fn) : Guards Object Fn :=
  { guards with dismissed := guards.dismissed + guards.holding object }

/-- No guard yet, whatever the memory holds. -/
def initial (fn : Object → Fn) (active : Object → Bool) : Guards Object Fn where
  live := ∅
  fn := fn
  active := active
  calls := 0
  created := 0
  dismissed := 0

end Guards

inductive GuardAction (Object Fn : Type) where
  | construct (object : Object) (func : Fn)
  | onScopeExit (object : Object) (func : Fn)
  | defer (object : Object) (func : Fn)
  | moveConstruct (object other : Object) (movedFrom : Fn)
  | dismiss (object : Object)
  | destroy (object : Object)

open Guards

/-- One step: a constructor needs a new object, and a new action unless it moves one. -/
inductive GuardStep :
    Guards Object Fn → GuardAction Object Fn → Guards Object Fn → Prop where
  | construct {guards : Guards Object Fn} {object : Object} {func : Fn} :
      object ∉ guards.live → func ∉ guards.created →
      GuardStep guards (.construct object func)
        ((guards.recordCreation func).construct object func)
  | onScopeExit {guards : Guards Object Fn} {object : Object} {func : Fn} :
      object ∉ guards.live → func ∉ guards.created →
      GuardStep guards (.onScopeExit object func)
        ((guards.recordCreation func).onScopeExit object func)
  | defer {guards : Guards Object Fn} {object : Object} {func : Fn} :
      object ∉ guards.live → func ∉ guards.created →
      GuardStep guards (.defer object func) ((guards.recordCreation func).defer object func)
  | moveConstruct {guards : Guards Object Fn} {object other : Object} {movedFrom : Fn} :
      object ∉ guards.live → other ∈ guards.live →
      GuardStep guards (.moveConstruct object other movedFrom)
        (guards.moveConstruct object other movedFrom)
  | dismiss {guards : Guards Object Fn} {object : Object} :
      object ∈ guards.live →
      GuardStep guards (.dismiss object) ((guards.recordDismissal object).dismiss object)
  | destroy {guards : Guards Object Fn} {object : Object} :
      object ∈ guards.live →
      GuardStep guards (.destroy object) (guards.destroy object)

end CppCore.ScopeGuard
