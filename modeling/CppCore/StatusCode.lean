import CppCore.Library.CheckedInt
import CppCore.Library.Fallible

/-!
# Status codes

A status code packs a category code and a local code into one signed 64-bit
value.  The encoder runs at compile time: a failed `static_assert` and an
overflow in a constant expression are both compile errors.
-/

namespace CppCore.StatusCodes

open CheckedInt

abbrev ValueType := Int64

def kCategoryMultiplier : ValueType := 100

/-- What a category type gives `CategoryBase`: its `kCategoryCode` and `kCategoryName`. -/
structure Category where
  kCategoryCode : ValueType
  kCategoryName : String
  deriving DecidableEq

inductive CompileError where
  | staticAssert (message : String)
  | overflow
  deriving DecidableEq

def staticAssert (condition : Bool) (message : String) : Except CompileError Unit :=
  if condition then .ok () else .error (.staticAssert message)

/-- A constant expression without a value does not compile. -/
def constant (expression : Option ValueType) : Except CompileError ValueType :=
  match expression with
  | some value => .ok value
  | none => .error .overflow

/-- The bound of the last `static_assert`: the largest category code it admits. -/
def maxCategoryCode : Option ValueType := do
  let difference ← sub? Int64.maxValue kCategoryMultiplier
  let numerator ← add? difference 1
  div? numerator kCategoryMultiplier

namespace CategoryBase

/-- The expression `-((kCategoryCode * kCategoryMultiplier) + LocalCode)`. -/
def encode? (categoryCode localCode : ValueType) : Option ValueType := do
  let product ← mul? categoryCode kCategoryMultiplier
  let sum ← add? product localCode
  neg? sum

/-- The four `static_assert`s of `computeValue`, in the order of the source. -/
def staticAsserts (derived : Category) (localCode : ValueType) : Except CompileError Unit := do
  staticAssert (0 ≤ derived.kCategoryCode) "Category code must not be negative"
  staticAssert (0 ≤ localCode) "Code index must not be negative"
  staticAssert (localCode < kCategoryMultiplier) "Category overflow (max 99 codes)"
  let bound ← constant maxCategoryCode
  staticAssert (derived.kCategoryCode ≤ bound)
    "Category code too large, multiplication would overflow"

def computeValue (derived : Category) (localCode : ValueType) : Except CompileError ValueType := do
  staticAsserts derived localCode
  constant (encode? derived.kCategoryCode localCode)

/-- The pairs the `static_assert`s let through. -/
def Accepted (derived : Category) (localCode : ValueType) : Prop :=
  staticAsserts derived localCode = .ok ()

instance (derived : Category) (localCode : ValueType) : Decidable (Accepted derived localCode) :=
  inferInstanceAs (Decidable (staticAsserts derived localCode = .ok ()))

end CategoryBase

namespace StatusCode

def kSuccess : ValueType := 0

def isError (code : ValueType) : Bool := code < 0

def isSuccess (code : ValueType) : Bool := 0 ≤ code

/-- `none` is an evaluation that overflows. The conjunction stops at `code < 0`. -/
def belongsTo (category : Category) (code : ValueType) : Option Bool :=
  if code < 0 then do
    let negated ← neg? code
    let quotient ← div? negated kCategoryMultiplier
    return quotient == category.kCategoryCode
  else
    some false

end StatusCode

namespace CategoryBase

theorem kCategoryMultiplier_toInt : kCategoryMultiplier.toInt = 100 := by decide

theorem maxCategoryCode_eq : maxCategoryCode = some 92233720368547757 := by decide

theorem staticAssert_eq_ok_iff {condition : Bool} {message : String} {passed : Unit} :
    staticAssert condition message = .ok passed ↔ condition = true := by
  cases condition <;> simp [staticAssert]

/-- The guards in exact arithmetic. -/
theorem accepted_iff {derived : Category} {localCode : ValueType} :
    Accepted derived localCode ↔
      (0 ≤ derived.kCategoryCode.toInt ∧ derived.kCategoryCode.toInt ≤ 92233720368547757) ∧
        0 ≤ localCode.toInt ∧ localCode.toInt < 100 := by
  simp only [Accepted, staticAsserts, constant, maxCategoryCode_eq, Fallible.bind_eq_ok_iff,
    staticAssert_eq_ok_iff, decide_eq_true_eq, Int64.le_iff_toInt_le, Int64.lt_iff_toInt_lt]
  constructor
  · rintro ⟨_, categoryLower, _, localLower, _, localUpper, bound, equal, categoryUpper⟩
    cases equal
    exact ⟨⟨categoryLower, categoryUpper⟩, localLower, localUpper⟩
  · rintro ⟨⟨categoryLower, categoryUpper⟩, localLower, localUpper⟩
    exact ⟨(), categoryLower, (), localLower, (), localUpper, _, rfl, categoryUpper⟩

/-- In the accepted range no intermediate step overflows. -/
theorem encode?_steps {derived : Category} {localCode : ValueType}
    (accepted : Accepted derived localCode) :
    ∃ product sum value,
      mul? derived.kCategoryCode kCategoryMultiplier = some product ∧
      add? product localCode = some sum ∧
      neg? sum = some value ∧
      value.toInt = -(100 * derived.kCategoryCode.toInt + localCode.toInt) := by
  obtain ⟨⟨categoryLower, categoryUpper⟩, localLower, localUpper⟩ := accepted_iff.mp accepted
  obtain ⟨product, productDefined, productExact⟩ :=
    exists_checked (derived.kCategoryCode.toInt * 100) (by omega) (by omega)
  obtain ⟨sum, sumDefined, sumExact⟩ :=
    exists_checked (product.toInt + localCode.toInt) (by omega) (by omega)
  obtain ⟨value, valueDefined, valueExact⟩ :=
    exists_checked (-sum.toInt) (by omega) (by omega)
  exact ⟨product, sum, value, productDefined, sumDefined, valueDefined, by omega⟩

theorem computeValue_of_accepted {derived : Category} {localCode : ValueType}
    (accepted : Accepted derived localCode) :
    ∃ value, computeValue derived localCode = .ok value ∧
      value.toInt = -(100 * derived.kCategoryCode.toInt + localCode.toInt) := by
  obtain ⟨product, sum, value, productDefined, sumDefined, valueDefined, exact⟩ :=
    encode?_steps accepted
  have asserted : staticAsserts derived localCode = .ok () := accepted
  refine ⟨value, ?_, exact⟩
  simp [computeValue, asserted, encode?, productDefined, sumDefined, valueDefined, constant]

/-- What `computeValue` computes, and for which pairs. -/
theorem computeValue_eq_ok_iff {derived : Category} {localCode value : ValueType} :
    computeValue derived localCode = .ok value ↔
      Accepted derived localCode ∧
        value.toInt = -(100 * derived.kCategoryCode.toInt + localCode.toInt) := by
  constructor
  · intro computed
    have accepted : Accepted derived localCode := by
      obtain ⟨_, asserted, _⟩ := Fallible.bind_eq_ok_iff.mp computed
      exact asserted
    obtain ⟨expected, computedExpected, exact⟩ := computeValue_of_accepted accepted
    rw [computed, Except.ok.injEq] at computedExpected
    exact ⟨accepted, computedExpected ▸ exact⟩
  · rintro ⟨accepted, exact⟩
    obtain ⟨expected, computed, expectedExact⟩ := computeValue_of_accepted accepted
    rw [computed, Int64.toInt_inj.mp (exact.trans expectedExact.symm)]

/-- Dividing the negated value by the multiplier gives back both codes. -/
theorem decode_steps {derived : Category} {localCode value : ValueType}
    (computed : computeValue derived localCode = .ok value) :
    ∃ negated, neg? value = some negated ∧
      div? negated kCategoryMultiplier = some derived.kCategoryCode ∧
      rem? negated kCategoryMultiplier = some localCode := by
  obtain ⟨accepted, exact⟩ := computeValue_eq_ok_iff.mp computed
  obtain ⟨⟨categoryLower, categoryUpper⟩, localLower, localUpper⟩ := accepted_iff.mp accepted
  have nonzero : kCategoryMultiplier ≠ 0 := by decide
  obtain ⟨negated, negatedDefined, negatedExact⟩ :=
    exists_checked (-value.toInt) (by omega) (by omega)
  have quotient : div? negated kCategoryMultiplier = some derived.kCategoryCode := by
    rw [div?_eq_some_iff nonzero, kCategoryMultiplier_toInt, Int.tdiv_eq_ediv_of_nonneg (by omega)]
    omega
  refine ⟨negated, negatedDefined, quotient, rem?_eq_some_of_div? quotient ?_⟩
  rw [kCategoryMultiplier_toInt, Int.tmod_eq_emod_of_nonneg (by omega)]
  omega

/-- Distinct accepted pairs get distinct values. -/
theorem computeValue_injective {first second : Category} {firstLocal secondLocal value : ValueType}
    (firstComputed : computeValue first firstLocal = .ok value)
    (secondComputed : computeValue second secondLocal = .ok value) :
    first.kCategoryCode = second.kCategoryCode ∧ firstLocal = secondLocal := by
  obtain ⟨negated, negatedDefined, quotient, remainder⟩ := decode_steps firstComputed
  obtain ⟨negated', negatedDefined', quotient', remainder'⟩ := decode_steps secondComputed
  have same : negated = negated' := by simpa [negatedDefined] using negatedDefined'
  subst same
  exact ⟨by simpa [quotient] using quotient', by simpa [remainder] using remainder'⟩

/-- A larger category code gives a smaller value, whatever the local codes are. -/
theorem computeValue_antitone {first second : Category}
    {firstLocal secondLocal firstValue secondValue : ValueType}
    (firstComputed : computeValue first firstLocal = .ok firstValue)
    (secondComputed : computeValue second secondLocal = .ok secondValue)
    (smaller : first.kCategoryCode < second.kCategoryCode) : secondValue < firstValue := by
  obtain ⟨firstAccepted, firstExact⟩ := computeValue_eq_ok_iff.mp firstComputed
  obtain ⟨secondAccepted, secondExact⟩ := computeValue_eq_ok_iff.mp secondComputed
  have firstBounds := accepted_iff.mp firstAccepted
  have secondBounds := accepted_iff.mp secondAccepted
  rw [Int64.lt_iff_toInt_lt] at smaller ⊢
  omega

/-- One category code above the bound, the sum overflows for the last local code. -/
theorem encode?_overflows_above_bound {categoryCode : ValueType}
    (above : categoryCode.toInt = (Int64.maxValue.toInt - 99) / 100 + 1) :
    encode? categoryCode 99 = none := by
  have maximum : Int64.maxValue.toInt = 9223372036854775807 := by decide
  have last : (99 : ValueType).toInt = 99 := by decide
  obtain ⟨product, productDefined, productExact⟩ :=
    exists_checked (categoryCode.toInt * 100) (by omega) (by omega)
  have sumOverflows : add? product 99 = none :=
    checked_eq_none_iff.mpr (.inr (by omega))
  have productComputed : mul? categoryCode kCategoryMultiplier = some product := productDefined
  simp [encode?, productComputed, sumOverflows]

/-- The encoding is free of overflow, decodable, injective and ordered by
category on everything the guards accept, and the bound on the category code
cannot be raised. -/
theorem computeValue_encodes :
    (∀ (derived : Category) (localCode : ValueType),
      Accepted derived localCode ↔
        (0 ≤ localCode.toInt ∧ localCode.toInt < 100) ∧
          0 ≤ derived.kCategoryCode.toInt ∧
            derived.kCategoryCode.toInt ≤ (Int64.maxValue.toInt - 99) / 100) ∧
    (∀ (derived : Category) (localCode : ValueType), Accepted derived localCode →
      ∃ product sum value,
        mul? derived.kCategoryCode kCategoryMultiplier = some product ∧
        add? product localCode = some sum ∧
        neg? sum = some value ∧
        computeValue derived localCode = .ok value ∧
        Int64.minValue < value ∧
        ∃ negated, neg? value = some negated ∧
          div? negated kCategoryMultiplier = some derived.kCategoryCode ∧
          rem? negated kCategoryMultiplier = some localCode) ∧
    (∀ (first second : Category) (firstLocal secondLocal value : ValueType),
      computeValue first firstLocal = .ok value →
      computeValue second secondLocal = .ok value →
      first.kCategoryCode = second.kCategoryCode ∧ firstLocal = secondLocal) ∧
    (∀ (first second : Category) (firstLocal secondLocal firstValue secondValue : ValueType),
      computeValue first firstLocal = .ok firstValue →
      computeValue second secondLocal = .ok secondValue →
      first.kCategoryCode < second.kCategoryCode → secondValue < firstValue) ∧
    ∀ derived : Category,
      derived.kCategoryCode.toInt = (Int64.maxValue.toInt - 99) / 100 + 1 →
      ∃ localCode : ValueType, 0 ≤ localCode ∧ localCode < 100 ∧
        encode? derived.kCategoryCode localCode = none := by
  refine ⟨?_, ?_, ?_, ?_, ?_⟩
  · intro derived localCode
    have maximum : Int64.maxValue.toInt = 9223372036854775807 := by decide
    rw [accepted_iff, maximum]
    omega
  · intro derived localCode accepted
    obtain ⟨product, sum, value, productDefined, sumDefined, valueDefined, exact⟩ :=
      encode?_steps accepted
    have computed := computeValue_eq_ok_iff.mpr ⟨accepted, exact⟩
    have minimum : Int64.minValue.toInt = -9223372036854775808 := by decide
    have bounds := accepted_iff.mp accepted
    refine ⟨product, sum, value, productDefined, sumDefined, valueDefined, computed, ?_,
      decode_steps computed⟩
    rw [Int64.lt_iff_toInt_lt]
    omega
  · intro first second firstLocal secondLocal value
    exact computeValue_injective
  · intro first second firstLocal secondLocal firstValue secondValue
    exact computeValue_antitone
  · intro derived above
    exact ⟨99, by decide, by decide, encode?_overflows_above_bound above⟩

/-- The largest accepted category, with its last local code. -/
theorem computeValue_encodes_at_the_bound :
    ∃ product sum value,
      mul? 92233720368547757 kCategoryMultiplier = some product ∧
      add? product 99 = some sum ∧
      neg? sum = some value ∧
      computeValue ⟨92233720368547757, "Fake"⟩ 99 = .ok value ∧
      Int64.minValue < value ∧
      ∃ negated, neg? value = some negated ∧
        div? negated kCategoryMultiplier = some 92233720368547757 ∧
        rem? negated kCategoryMultiplier = some 99 :=
  computeValue_encodes.2.1 ⟨92233720368547757, "Fake"⟩ 99 (by decide)

end CategoryBase

/-- A named status code of a category, with the local code its value comes from. -/
structure Code (category : Category) where
  kName : String
  localCode : ValueType
  kValue : ValueType
  computed : CategoryBase.computeValue category localCode = .ok kValue

namespace StatusCode

def Configuration : Category := ⟨1, "Configuration"⟩
def Connection : Category := ⟨2, "Connection"⟩
def Io : Category := ⟨3, "Io"⟩
def Control : Category := ⟨4, "Control"⟩
def Monitor : Category := ⟨5, "Monitor"⟩

def Configuration.kSetBaudrateError : Code Configuration := ⟨"SetBaudrateError", 0, -100, by decide⟩
def Configuration.kSetDataBitsError : Code Configuration := ⟨"SetDataBitsError", 1, -101, by decide⟩
def Configuration.kSetParityError : Code Configuration := ⟨"SetParityError", 2, -102, by decide⟩
def Configuration.kSetStopBitsError : Code Configuration := ⟨"SetStopBitsError", 3, -103, by decide⟩
def Configuration.kSetFlowControlError : Code Configuration :=
  ⟨"SetFlowControlError", 4, -104, by decide⟩
def Configuration.kSetTimeoutError : Code Configuration := ⟨"SetTimeoutError", 5, -105, by decide⟩

def Connection.kNotFoundError : Code Connection := ⟨"NotFoundError", 0, -200, by decide⟩
def Connection.kInvalidHandleError : Code Connection := ⟨"InvalidHandleError", 1, -201, by decide⟩
def Connection.kCloseHandleError : Code Connection := ⟨"CloseHandleError", 2, -202, by decide⟩

def Io.kReadError : Code Io := ⟨"ReadError", 0, -300, by decide⟩
def Io.kWriteError : Code Io := ⟨"WriteError", 1, -301, by decide⟩
def Io.kAbortReadError : Code Io := ⟨"AbortReadError", 2, -302, by decide⟩
def Io.kAbortWriteError : Code Io := ⟨"AbortWriteError", 3, -303, by decide⟩
def Io.kBufferError : Code Io := ⟨"BufferError", 4, -304, by decide⟩
def Io.kClearBufferInError : Code Io := ⟨"ClearBufferInError", 5, -305, by decide⟩
def Io.kClearBufferOutError : Code Io := ⟨"ClearBufferOutError", 6, -306, by decide⟩

def Control.kSetDtrError : Code Control := ⟨"SetDtrError", 0, -400, by decide⟩
def Control.kSetRtsError : Code Control := ⟨"SetRtsError", 1, -401, by decide⟩
def Control.kGetModemStatusError : Code Control := ⟨"GetModemStatusError", 2, -402, by decide⟩
def Control.kSendBreakError : Code Control := ⟨"SendBreakError", 3, -403, by decide⟩
def Control.kGetStateError : Code Control := ⟨"GetStateError", 4, -404, by decide⟩
def Control.kSetStateError : Code Control := ⟨"SetStateError", 5, -405, by decide⟩

def Monitor.kMonitorError : Code Monitor := ⟨"MonitorError", 0, -500, by decide⟩

end StatusCode

end CppCore.StatusCodes
