import CppCore.ErrorHandling

/-!
# Results

`Result` is a value or an error that carries a status code and a message.
`toCResult` and `toCStatus` translate it back into the C convention.
-/

namespace CppCore

open StatusCodes

structure Error where
  code : ValueType
  message : String
  deriving DecidableEq

def Error.status (error : Error) : Int32 := error.code.toInt32

abbrev Result (α : Type) := Except Error α

abbrev Status := Result Unit

def ok {α : Type} (value : α) : Result α := .ok value

def fail {α : Type} (code : ValueType) (message : String) : Result α := .error ⟨code, message⟩

variable {State α : Type}

namespace Result

def hasValue : Result α → Bool
  | .ok _ => true
  | .error _ => false

/-- The member `error()`, which a result that holds a value does not have. -/
def getError : (result : Result α) → result.hasValue = false → Error
  | .error error, _ => error

/-- The `and_then` of a result without a value: the continuation runs on success only. -/
def andThen (result : Status) (next : World State → Status × World State) (world : World State) :
    Status × World State :=
  match result with
  | .ok () => next world
  | .error error => (.error error, world)

end Result

/-- The payload of `std::unexpected`, which converts to any failed result. -/
structure Unexpected where
  error : Error

instance : Coe Unexpected (Result α) := ⟨fun unexpected => .error unexpected.error⟩

def propagateUnexpected (result : Result α) (failed : result.hasValue = false) : Unexpected :=
  ⟨result.getError failed⟩

def forwardUnexpected (result : Result α) (failed : result.hasValue = false) : Unexpected :=
  propagateUnexpected result failed

/-- The callback both conversions make for a failed result. -/
def reportError (callback : ErrorCallback State) (error : Error) (world : World State) :
    World State :=
  match callback with
  | none => world
  | some callback => world.call callback error.status (cString error.message)

def toCResult (ret : StatusConvertible) (result : Result ret.Value)
    (callback : ErrorCallback State) (world : World State) : ret.Value × World State :=
  match result with
  | .ok value => (value, world)
  | .error error => (ret.staticCast error.code, reportError callback error world)

def toCStatus (result : Status) (callback : ErrorCallback State) (world : World State) :
    Int32 × World State :=
  match result with
  | .ok () => (0, world)
  | .error error => (error.status, reportError callback error world)

/-- Both styles of reporting make the same callback call. -/
theorem reportError_eq_invokeError (callback : ErrorCallback State) (error : Error)
    (world : World State) :
    reportError callback error world = invokeError callback error.code error.message world := by
  cases callback <;> rfl

end CppCore
