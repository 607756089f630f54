import CppCore.StatusCode

/-!
# Error callbacks and status chaining

The C interface reports an error twice: as a negative return value and as one
call of the caller's callback.  Both are narrowed from the 64-bit code on their
own, the callback's argument always to `int`.
-/

namespace CppCore

open StatusCodes

/-- The two arguments of one callback call. -/
structure ErrorCall where
  code : Int32
  message : String
  deriving DecidableEq

/-- The state of the program together with the callback calls made so far. -/
structure World (State : Type) where
  state : State
  calls : List ErrorCall

/-- A callback argument, `none` for a null pointer.  A call may change the state. -/
abbrev ErrorCallback (State : Type) := Option (Int32 → String → State → State)

/-- The arithmetic types the C interface returns. -/
inductive StatusConvertible where
  | int
  | int64
  | intptr
  deriving DecidableEq

namespace StatusConvertible

abbrev Value : StatusConvertible → Type
  | .int => Int32
  | .int64 => Int64
  | .intptr => Int64

/-- `static_cast<Ret>(code)`. -/
def staticCast : (ret : StatusConvertible) → ValueType → ret.Value
  | .int, code => code.toInt32
  | .int64, code => code
  | .intptr, code => code

/-- The implicit conversion of a returned value back to a status code. -/
def toValueType : (ret : StatusConvertible) → ret.Value → ValueType
  | .int, value => Int32.toInt64 value
  | .int64, value => value
  | .intptr, value => value

end StatusConvertible

/-- The text a `const char *` argument carries: everything before the first NUL. -/
def cString (text : String) : String :=
  String.ofList (text.toList.takeWhile (· ≠ '\x00'))

variable {State : Type}

def World.call (callback : Int32 → String → State → State) (code : Int32) (message : String)
    (world : World State) : World State where
  state := callback code message world.state
  calls := world.calls ++ [⟨code, message⟩]

def invokeError (callback : ErrorCallback State) (code : ValueType) (message : String)
    (world : World State) : World State :=
  match callback with
  | none => world
  | some callback => world.call callback code.toInt32 (cString message)

def failMsg (ret : StatusConvertible) (callback : ErrorCallback State) (code : ValueType)
    (message : String) (world : World State) : ret.Value × World State :=
  (ret.staticCast code, invokeError callback code message world)

/-- The overload that joins a leading text and a detail. -/
def failMsgDetail (ret : StatusConvertible) (callback : ErrorCallback State) (code : ValueType)
    (lead detail : String) (world : World State) : ret.Value × World State :=
  let full := "" ++ lead ++ ": " ++ detail
  (ret.staticCast code, invokeError callback code full world)

/-- The fold over the callables. `result` is the last assignment, and `||` stops
after the first negative one. -/
def chainStatusFrom (result : Int32) :
    List (World State → Int32 × World State) → World State → Int32 × World State
  | [], world => (result, world)
  | fn :: fns, world =>
      let (result, world) := fn world
      if result < 0 then (result, world) else chainStatusFrom result fns world

def chainStatus (fns : List (World State → Int32 × World State)) (world : World State) :
    Int32 × World State :=
  chainStatusFrom 0 fns world

@[simp]
theorem World.call_calls (callback : Int32 → String → State → State) (code : Int32)
    (message : String) (world : World State) :
    (world.call callback code message).calls = world.calls ++ [⟨code, message⟩] := rfl

@[simp]
theorem invokeError_null (code : ValueType) (message : String) (world : World State) :
    invokeError none code message world = world := rfl

@[simp]
theorem invokeError_some (callback : Int32 → String → State → State) (code : ValueType)
    (message : String) (world : World State) :
    invokeError (some callback) code message world =
      world.call callback code.toInt32 (cString message) := rfl

theorem chainStatusFrom_stop (result : Int32) (fn : World State → Int32 × World State)
    (fns : List (World State → Int32 × World State)) (world : World State)
    (failed : (fn world).1 < 0) :
    chainStatusFrom result (fn :: fns) world = fn world := if_pos failed

theorem chainStatusFrom_continue (result : Int32) (fn : World State → Int32 × World State)
    (fns : List (World State → Int32 × World State)) (world : World State)
    (passed : ¬ (fn world).1 < 0) :
    chainStatusFrom result (fn :: fns) world =
      chainStatusFrom (fn world).1 fns (fn world).2 := if_neg passed

end CppCore
