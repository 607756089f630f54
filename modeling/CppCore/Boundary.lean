import CppCore.Result

/-!
# Errors at the C boundary

The encoder admits codes far below the range of `int`, and every function that
reports an error narrows the code.  The narrowing keeps the code exactly down
to `-2 ^ 31`.
-/

namespace CppCore

open StatusCodes StatusCodes.CategoryBase CheckedInt

/-- The functions that hand an error to a C caller, by their return type. -/
inductive Boundary : StatusConvertible → Type where
  | failMsg {ret : StatusConvertible} (message : String) : Boundary ret
  | failMsgDetail {ret : StatusConvertible} (lead detail : String) : Boundary ret
  | toCResult {ret : StatusConvertible} (message : String) : Boundary ret
  | toCStatus (message : String) : Boundary .int

namespace Boundary

variable {State : Type} {ret : StatusConvertible}

def report : {ret : StatusConvertible} → Boundary ret → ErrorCallback State → ValueType →
    World State → ret.Value × World State
  | ret, .failMsg message, callback, code, world => CppCore.failMsg ret callback code message world
  | ret, .failMsgDetail lead detail, callback, code, world =>
      CppCore.failMsgDetail ret callback code lead detail world
  | ret, .toCResult message, callback, code, world =>
      CppCore.toCResult ret (fail code message) callback world
  | _, .toCStatus message, callback, code, world =>
      CppCore.toCStatus (fail code message) callback world

/-- The text the boundary function reports. -/
def text : {ret : StatusConvertible} → Boundary ret → String
  | _, .failMsg message => message
  | _, .failMsgDetail lead detail => "" ++ lead ++ ": " ++ detail
  | _, .toCResult message => message
  | _, .toCStatus message => message

/-- Whatever the function is, it narrows the code twice. -/
theorem report_eq (boundary : Boundary ret) (callback : Int32 → String → State → State)
    (code : ValueType) (world : World State) :
    boundary.report (some callback) code world =
      (ret.staticCast code, world.call callback code.toInt32 (cString boundary.text)) := by
  cases boundary <;> rfl

/-- The caller is told of an error, by the return value and by one callback
call with a numerically equal code. -/
def Faithful (world : World State) (outcome : ret.Value × World State) : Prop :=
  StatusCode.isError (ret.toValueType outcome.1) = true ∧
    ∃ call, outcome.2.calls = world.calls ++ [call] ∧
      call.code.toInt = (ret.toValueType outcome.1).toInt

/-- The magnitudes that keep their sign, and the agreement of both reports,
when they are narrowed. -/
def Survives : StatusConvertible → Int → Prop
  | .int, magnitude => 0 < magnitude % 2 ^ 32 ∧ magnitude % 2 ^ 32 ≤ 2 ^ 31
  | .int64, magnitude => magnitude ≤ 2 ^ 31
  | .intptr, magnitude => magnitude ≤ 2 ^ 31

theorem faithful_report_iff (boundary : Boundary ret) (callback : Int32 → String → State → State)
    (code : ValueType) (world : World State) :
    Faithful world (boundary.report (some callback) code world) ↔
      (ret.toValueType (ret.staticCast code)).toInt < 0 ∧
        code.toInt32.toInt = (ret.toValueType (ret.staticCast code)).toInt := by
  simp [Faithful, report_eq, StatusCode.isError, Int64.lt_iff_toInt_lt]

/-- The 32-bit narrowing of a negative code is negative exactly for the
magnitudes that survive it. -/
theorem toInt32_neg_iff {code : ValueType} {magnitude : Int} (exact : code.toInt = -magnitude) :
    code.toInt32.toInt < 0 ↔ Survives .int magnitude := by
  rw [Int64.toInt_toInt32, exact, Int.bmod_def]
  simp only [Survives]
  split <;> omega

theorem faithful_iff_survives (boundary : Boundary ret)
    (callback : Int32 → String → State → State) {code : ValueType} {magnitude : Int}
    (exact : code.toInt = -magnitude) (positive : 0 < magnitude) (world : World State) :
    Faithful world (boundary.report (some callback) code world) ↔ Survives ret magnitude := by
  rw [faithful_report_iff]
  cases ret with
  | int =>
      rw [← toInt32_neg_iff exact]
      simp [StatusConvertible.toValueType, StatusConvertible.staticCast, Int32.toInt_toInt64]
  | int64 =>
      simp only [StatusConvertible.toValueType, StatusConvertible.staticCast,
        toInt32_toInt_eq_iff, Survives]
      omega
  | intptr =>
      simp only [StatusConvertible.toValueType, StatusConvertible.staticCast,
        toInt32_toInt_eq_iff, Survives]
      omega

/-- A returned value is the code itself exactly when the return type holds the code. -/
theorem toValueType_staticCast_eq_iff (code : ValueType) :
    ret.toValueType (ret.staticCast code) = code ↔
      (ret = .int → -2 ^ 31 ≤ code.toInt ∧ code.toInt < 2 ^ 31) := by
  cases ret with
  | int =>
      simp only [StatusConvertible.toValueType, StatusConvertible.staticCast, forall_const]
      rw [← toInt32_toInt_eq_iff, ← Int64.toInt_inj, Int32.toInt_toInt64]
  | int64 => simp [StatusConvertible.toValueType, StatusConvertible.staticCast]
  | intptr => simp [StatusConvertible.toValueType, StatusConvertible.staticCast]

/-- Exactly which accepted codes reach a C caller as an error, and exactly which
reach it as the same error. -/
theorem boundary_faithful_iff (derived : Category) (localCode value : ValueType)
    (category : 1 ≤ derived.kCategoryCode.toInt)
    (computed : computeValue derived localCode = .ok value)
    (boundary : Boundary ret) (callback : Int32 → String → State → State)
    (world : World State) :
    (Faithful world (boundary.report (some callback) value world) ↔
      Survives ret (100 * derived.kCategoryCode.toInt + localCode.toInt)) ∧
    (Faithful world (boundary.report (some callback) value world) ∧
        ret.toValueType (boundary.report (some callback) value world).1 = value ↔
      100 * derived.kCategoryCode.toInt + localCode.toInt ≤ 2 ^ 31) := by
  obtain ⟨accepted, exact⟩ := computeValue_eq_ok_iff.mp computed
  have bounds := accepted_iff.mp accepted
  have faithful := faithful_iff_survives boundary callback exact (by omega) world
  refine ⟨faithful, ?_⟩
  rw [faithful, report_eq, toValueType_staticCast_eq_iff]
  cases ret with
  | int =>
      simp only [Survives, forall_const]
      omega
  | int64 => simp [Survives]
  | intptr => simp [Survives]

theorem boundary_faithful_iff_readError :
    (Faithful ⟨(), []⟩ ((failMsg "Read failed" : Boundary .int).report
        (some fun _ _ state => state) (-300) ⟨(), []⟩) ↔ Survives .int 300) ∧
    (Faithful ⟨(), []⟩ ((failMsg "Read failed" : Boundary .int).report
          (some fun _ _ state => state) (-300) ⟨(), []⟩) ∧
        StatusConvertible.int.toValueType ((failMsg "Read failed" : Boundary .int).report
          (some fun _ _ state => state) (-300) (⟨(), []⟩ : World Unit)).1 = -300 ↔
      (300 : Int) ≤ 2 ^ 31) :=
  boundary_faithful_iff StatusCode.Io 0 (-300) (by decide) (by decide) _ _ _

/-- The code `-2 ^ 32` is accepted, and reaches the caller as the success code. -/
theorem narrowing_returns_success :
    computeValue ⟨42949672, "Fake"⟩ 96 = .ok (-4294967296) ∧
      ((failMsg "Fake failure" : Boundary .int).report
        (some fun _ _ state => state) (-4294967296) (⟨(), []⟩ : World Unit)).1 = (0 : Int32) ∧
      ¬ Faithful ⟨(), []⟩ ((failMsg "Fake failure" : Boundary .int).report
        (some fun _ _ state => state) (-4294967296) (⟨(), []⟩ : World Unit)) := by
  refine ⟨by decide, rfl, ?_⟩
  rintro ⟨isError, _⟩
  exact absurd isError (by decide)

end Boundary

end CppCore
