import CppCore.Chaining
import CppCore.Validation

/-!
# Gates

The checks that a function of the C interface makes before it does anything.  A
chain of them lets an operation run exactly if every check passes, and otherwise
reports the first one that fails.
-/

namespace CppCore

open StatusCodes

variable {State : Type}

def validateHandle (ret : StatusConvertible) (handle : Int64) (callback : ErrorCallback State)
    (world : World State) : ret.Value × World State :=
  if handle ≤ 0 ∨ handle > 2147483647 then
    failMsg ret callback StatusCode.Connection.kInvalidHandleError.kValue "Invalid handle" world
  else
    (ret.staticCast StatusCode.kSuccess, world)

def validateBuffer (ret : StatusConvertible) (buffer : Pointer) (bufferSize : Int32)
    (callback : ErrorCallback State) (world : World State) : ret.Value × World State :=
  if buffer = none ∨ bufferSize ≤ 0 then
    failMsg ret callback StatusCode.Io.kBufferError.kValue "Invalid buffer or buffer_size" world
  else
    (ret.staticCast StatusCode.kSuccess, world)

/-- A check with its arguments. -/
inductive Gate where
  | onHandle (handle : Int64)
  | onOpen (port : Pointer) (baudrate dataBits : Int32)
  | onBuffer (buffer : Pointer) (bufferSize : Int32)

namespace Gate

open Chaining

def validate (ret : StatusConvertible) (callback : ErrorCallback State) :
    Gate → World State → ret.Value × World State
  | .onHandle handle => validateHandle ret handle callback
  | .onOpen port baudrate dataBits => validateOpenParams ret port baudrate dataBits callback
  | .onBuffer buffer bufferSize => validateBuffer ret buffer bufferSize callback

/-- What the gate lets through. -/
def Accepts : Gate → Prop
  | .onHandle handle => 0 < handle.toInt ∧ handle.toInt < 2 ^ 31
  | .onOpen port baudrate dataBits =>
      port ≠ none ∧ 300 ≤ baudrate.toInt ∧ 5 ≤ dataBits.toInt ∧ dataBits.toInt ≤ 8
  | .onBuffer buffer bufferSize => buffer ≠ none ∧ 0 < bufferSize.toInt

/-- The error that the gate reports, if it does not let its arguments through. -/
def violation : Gate → Option (ValueType × String)
  | .onHandle handle =>
      if handle ≤ 0 ∨ handle > 2147483647 then
        some (StatusCode.Connection.kInvalidHandleError.kValue, "Invalid handle")
      else none
  | .onOpen port baudrate dataBits =>
      if port = none then
        some (StatusCode.Connection.kNotFoundError.kValue, "Port parameter is nullptr")
      else if baudrate < 300 then
        some (StatusCode.Control.kSetStateError.kValue, "Invalid baudrate: must be >= 300")
      else if dataBits < 5 ∨ dataBits > 8 then
        some (StatusCode.Control.kSetStateError.kValue, "Invalid data bits: must be 5-8")
      else none
  | .onBuffer buffer bufferSize =>
      if buffer = none ∨ bufferSize ≤ 0 then
        some (StatusCode.Io.kBufferError.kValue, "Invalid buffer or buffer_size")
      else none

theorem validate_eq (ret : StatusConvertible) (callback : ErrorCallback State) (gate : Gate)
    (world : World State) : gate.validate ret callback world =
      match gate.violation with
      | none => (ret.staticCast StatusCode.kSuccess, world)
      | some (code, message) => failMsg ret callback code message world := by
  cases gate with
  | onHandle handle =>
      simp only [validate, validateHandle, violation]
      split_ifs <;> rfl
  | onOpen port baudrate dataBits =>
      simp only [validate, validateOpenParams, violation]
      split_ifs <;> rfl
  | onBuffer buffer bufferSize =>
      simp only [validate, validateBuffer, violation]
      split_ifs <;> rfl

theorem violation_eq_none_iff {gate : Gate} : gate.violation = none ↔ gate.Accepts := by
  cases gate with
  | onHandle handle =>
      simp only [violation, Accepts, ite_eq_right_iff, reduceCtorEq, imp_false, not_or,
        gt_iff_lt, Int64.lt_iff_toInt_lt, Int64.le_iff_toInt_le]
      have bound : (2147483647 : Int64).toInt = 2 ^ 31 - 1 := by decide
      have zero : (0 : Int64).toInt = 0 := by decide
      rw [bound, zero]
      omega
  | onOpen port baudrate dataBits =>
      have least : (300 : Int32).toInt = 300 := by decide
      have fewest : (5 : Int32).toInt = 5 := by decide
      have most : (8 : Int32).toInt = 8 := by decide
      simp only [violation, Accepts, gt_iff_lt, Int32.lt_iff_toInt_lt, least, fewest, most]
      split_ifs with isNull slow bits
      · exact iff_of_false nofun fun accepts => accepts.1 isNull
      · exact iff_of_false nofun fun accepts => by omega
      · exact iff_of_false nofun fun accepts => by omega
      · exact iff_of_true rfl ⟨isNull, by omega, by omega, by omega⟩
  | onBuffer buffer bufferSize =>
      have zero : (0 : Int32).toInt = 0 := by decide
      simp only [violation, Accepts, ite_eq_right_iff, reduceCtorEq, imp_false, not_or,
        Int32.not_le, Int32.lt_iff_toInt_lt, zero, ne_eq]

/-- Every violation is an error, also as an `int`. -/
theorem violation_isError {gate : Gate} {code : ValueType} {message : String}
    (violated : gate.violation = some (code, message)) : code.toInt32 < 0 := by
  cases gate with
  | onHandle handle =>
      simp only [violation] at violated
      split_ifs at violated
      cases violated
      decide
  | onOpen port baudrate dataBits =>
      simp only [violation] at violated
      split_ifs at violated <;> cases violated <;> decide
  | onBuffer buffer bufferSize =>
      simp only [violation] at violated
      split_ifs at violated
      cases violated
      decide

theorem validate_of_accepts {gate : Gate} (accepts : gate.Accepts) (ret : StatusConvertible)
    (callback : ErrorCallback State) (world : World State) :
    gate.validate ret callback world = (ret.staticCast StatusCode.kSuccess, world) := by
  rw [validate_eq, violation_eq_none_iff.mpr accepts]

theorem exists_violation {gate : Gate} (rejects : ¬ gate.Accepts) :
    ∃ code message, gate.violation = some (code, message) := by
  obtain ⟨⟨code, message⟩, violated⟩ :=
    Option.ne_none_iff_exists'.mp (mt violation_eq_none_iff.mp rejects)
  exact ⟨code, message, violated⟩

/-- The gates of a function, and behind them what it does. -/
def guarded (callback : ErrorCallback State) (gates : List Gate) (operation : Callable State) :
    List (Callable State) :=
  gates.map (validate .int callback) ++ [operation]

/-- The operation runs exactly when every gate accepts. Otherwise the first gate that does not
decides the result, and nothing happens but its one call of the callback. -/
theorem chainStatus_guarded (callback : ErrorCallback State) (gates : List Gate)
    (operation : Callable State) (world : World State) :
    (∀ gate ∈ gates, gate.Accepts) ∧
      chainStatus (guarded callback gates operation) world = operation world ∨
    ∃ before gate behind code message, gates = before ++ gate :: behind ∧
      (∀ gate ∈ before, gate.Accepts) ∧ ¬ gate.Accepts ∧
      gate.violation = some (code, message) ∧ code.toInt32 < 0 ∧
      chainStatus (guarded callback gates operation) world =
        (code.toInt32, invokeError callback code message world) := by
  induction gates with
  | nil => exact .inl ⟨List.forall_mem_nil _, chainStatus_singleton operation world⟩
  | cons gate gates inductionHypothesis =>
      have unfolded : guarded callback (gate :: gates) operation =
          gate.validate .int callback :: guarded callback gates operation := rfl
      by_cases accepts : gate.Accepts
      · have passed := validate_of_accepts accepts .int callback world
        have later : chainStatus (guarded callback (gate :: gates) operation) world =
            chainStatus (guarded callback gates operation) world := by
          have noError : ¬ (gate.validate .int callback world).1 < 0 := by
            rw [passed]
            exact (by decide : ¬ (0 : Int32) < 0)
          have nonempty : guarded callback gates operation ≠ [] := by simp [guarded]
          rw [unfolded, chainStatus, chainStatusFrom_continue _ _ _ _ noError, passed]
          exact chainStatusFrom_eq_chainStatus nonempty _ _
        rw [later]
        rcases inductionHypothesis with ⟨all, ran⟩ |
          ⟨before, rejecting, behind, code, message, rfl, all, rejects, violated, isError, ended⟩
        · exact .inl ⟨List.forall_mem_cons.mpr ⟨accepts, all⟩, ran⟩
        · exact .inr ⟨gate :: before, rejecting, behind, code, message, rfl,
            List.forall_mem_cons.mpr ⟨accepts, all⟩, rejects, violated, isError, ended⟩
      · obtain ⟨code, message, violated⟩ := exists_violation accepts
        have isError := violation_isError violated
        refine .inr ⟨[], gate, gates, code, message, rfl, List.forall_mem_nil _, accepts, violated,
          isError, ?_⟩
        have rejected : gate.validate .int callback world =
            (code.toInt32, invokeError callback code message world) := by
          rw [validate_eq, violated]
          rfl
        have stops : (gate.validate .int callback world).1 < 0 := by
          rw [rejected]
          exact isError
        rw [unfolded, chainStatus, chainStatusFrom_stop _ _ _ _ stops, rejected]

end Gate

end CppCore
