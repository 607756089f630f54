import CppCore.StatusCode

/-!
# Classification of status codes

The three classifiers on the values that the encoder produces, and the range
test `belongsTo` on every 64-bit value.
-/

namespace CppCore.StatusCodes.StatusCode

open CheckedInt

variable {category derived : Category} {code localCode value : ValueType}

/-- The block of values that the local codes of a category fill, without the values that are
not errors. -/
def InRange (category : Category) (code : ValueType) : Prop :=
  code.toInt < 0 ∧ -(100 * category.kCategoryCode.toInt + 99) ≤ code.toInt ∧
    code.toInt ≤ -(100 * category.kCategoryCode.toInt)

/-- The test ends without an overflow and decides the range. -/
def TestsRange (category : Category) (code : ValueType) : Prop :=
  ∃ answer, belongsTo category code = some answer ∧ (answer = true ↔ InRange category code)

theorem minValue_toInt : (Int64.minValue : ValueType).toInt = -9223372036854775808 := by decide

theorem isError_iff : isError code = true ↔ code.toInt < 0 := by
  rw [isError, decide_eq_true_iff, Int64.lt_iff_toInt_lt]
  rfl

theorem belongsTo_of_not_error (notError : ¬ code < 0) : belongsTo category code = some false :=
  if_neg notError

/-- Negation overflows for the smallest value. -/
theorem belongsTo_minValue (category : Category) : belongsTo category Int64.minValue = none := by
  have negative : (Int64.minValue : ValueType) < 0 := by decide
  have overflows : neg? Int64.minValue = none := by decide
  rw [belongsTo, if_pos negative, overflows]
  rfl

/-- For every other negative value the division decides the range. -/
theorem belongsTo_of_error (error : code < 0) (notMinimum : code ≠ Int64.minValue) :
    ∃ answer, belongsTo category code = some answer ∧ (answer = true ↔ InRange category code) := by
  have negative : code.toInt < 0 := by
    rw [Int64.lt_iff_toInt_lt] at error
    exact error
  have lower := code.le_toInt
  have notLowest : code.toInt ≠ -9223372036854775808 := by
    intro lowest
    exact notMinimum (Int64.toInt_inj.mp (lowest.trans minValue_toInt.symm))
  obtain ⟨negated, negatedDefined, negatedExact⟩ :=
    exists_checked (-code.toInt) (by omega) (by omega)
  obtain ⟨quotient, quotientDefined, quotientExact⟩ :=
    exists_checked (negated.toInt.tdiv kCategoryMultiplier.toInt)
      (by rw [CategoryBase.kCategoryMultiplier_toInt, Int.tdiv_eq_ediv_of_nonneg] <;> omega)
      (by rw [CategoryBase.kCategoryMultiplier_toInt, Int.tdiv_eq_ediv_of_nonneg] <;> omega)
  have negatedComputed : neg? code = some negated := negatedDefined
  have quotientComputed : div? negated kCategoryMultiplier = some quotient := quotientDefined
  rw [CategoryBase.kCategoryMultiplier_toInt, Int.tdiv_eq_ediv_of_nonneg (by omega)]
    at quotientExact
  refine ⟨quotient == category.kCategoryCode, ?_, ?_⟩
  · rw [belongsTo, if_pos error, negatedComputed]
    simp only [Option.bind_eq_bind, Option.bind_some, quotientComputed]
    rfl
  · rw [beq_iff_eq, ← Int64.toInt_inj]
    unfold InRange
    omega

theorem testsRange_iff (category : Category) (code : ValueType) :
    TestsRange category code ↔ code ≠ Int64.minValue := by
  constructor
  · intro tests minimum
    obtain ⟨answer, ended, _⟩ := tests
    rw [minimum, belongsTo_minValue] at ended
    cases ended
  · intro notMinimum
    by_cases error : code < 0
    · exact belongsTo_of_error error notMinimum
    · refine ⟨false, belongsTo_of_not_error error, ?_⟩
      have notNegative : ¬ code.toInt < 0 := by
        rw [Int64.lt_iff_toInt_lt] at error
        exact error
      constructor
      · intro absurdity
        cases absurdity
      · intro inRange
        exact absurd inRange.1 notNegative

theorem inRange_of_belongsTo (belongs : belongsTo category code = some true) :
    InRange category code := by
  have notMinimum : code ≠ Int64.minValue := by
    intro minimum
    rw [minimum, belongsTo_minValue] at belongs
    cases belongs
  obtain ⟨answer, ended, decides⟩ := (testsRange_iff category code).mpr notMinimum
  rw [belongs, Option.some.injEq] at ended
  exact decides.mp ended.symm

/-- The ranges of two categories are disjoint. -/
theorem InRange.unique {first second : Category} (inFirst : InRange first code)
    (inSecond : InRange second code) : first.kCategoryCode = second.kCategoryCode := by
  unfold InRange at inFirst inSecond
  rw [← Int64.toInt_inj]
  omega

/-- `belongsTo` is an exact range test except at the smallest value, where it overflows. -/
theorem belongsTo_decides_range (category : Category) (code : ValueType) :
    (TestsRange category code ↔ code ≠ Int64.minValue) ∧
    ∀ other : Category, other.kCategoryCode ≠ category.kCategoryCode →
      ¬ (belongsTo category code = some true ∧ belongsTo other code = some true) := by
  refine ⟨testsRange_iff category code, ?_⟩
  intro other different belongs
  exact different ((inRange_of_belongsTo belongs.2).unique (inRange_of_belongsTo belongs.1))

theorem belongsTo_decides_range_configuration :
    ¬ (belongsTo Configuration (-150) = some true ∧ belongsTo Connection (-150) = some true) :=
  (belongsTo_decides_range Configuration (-150)).2 Connection (by decide)

/-- `Configuration` is a category that the guards accept. -/
theorem belongsTo_overflows :
    CategoryBase.Accepted Configuration 0 ∧ belongsTo Configuration Int64.minValue = none ∧
      ¬ TestsRange Configuration Int64.minValue := by
  refine ⟨by decide, by decide, ?_⟩
  intro tests
  obtain ⟨answer, ended, _⟩ := tests
  have overflowed : belongsTo Configuration Int64.minValue = none := by decide
  rw [overflowed] at ended
  cases ended

section Encoded

open CategoryBase

/-- What the encoder computes lies in the range of its category, unless it is zero. -/
theorem inRange_of_computeValue (computed : computeValue derived localCode = .ok value)
    (nonzero : derived.kCategoryCode ≠ 0 ∨ localCode ≠ 0) : InRange derived value := by
  obtain ⟨accepted, exact⟩ := computeValue_eq_ok_iff.mp computed
  obtain ⟨⟨categoryLower, categoryUpper⟩, localLower, localUpper⟩ := accepted_iff.mp accepted
  have positive : derived.kCategoryCode.toInt ≠ 0 ∨ localCode.toInt ≠ 0 := by
    have zero : (0 : ValueType).toInt = 0 := rfl
    rw [← zero, ne_eq, ne_eq, Int64.toInt_inj, Int64.toInt_inj]
    exact nonzero
  unfold InRange
  omega

theorem ne_minValue_of_computeValue (computed : computeValue derived localCode = .ok value) :
    value ≠ Int64.minValue := by
  obtain ⟨accepted, exact⟩ := computeValue_eq_ok_iff.mp computed
  have bounds := accepted_iff.mp accepted
  have minimum := minValue_toInt
  intro isMinimum
  rw [isMinimum] at exact
  omega

/-- The classifiers agree that an encoded value is an error of its own category and of no
other one, unless both codes are zero. -/
theorem computeValue_classified {derived : Category} {localCode value : ValueType}
    (computed : computeValue derived localCode = .ok value)
    (nonzero : derived.kCategoryCode ≠ 0 ∨ localCode ≠ 0) :
    isError value = true ∧ isSuccess value = false ∧ value ≠ kSuccess ∧
      belongsTo derived value = some true ∧
      ∀ other : Category, other.kCategoryCode ≠ derived.kCategoryCode →
        belongsTo other value = some false := by
  have inRange := inRange_of_computeValue computed nonzero
  have notMinimum := ne_minValue_of_computeValue computed
  have error : isError value = true := isError_iff.mpr inRange.1
  refine ⟨error, ?_, ?_, ?_, ?_⟩
  · have notSuccess : ¬ (0 : ValueType) ≤ value := by
      rw [Int64.le_iff_toInt_le]
      exact not_le.mpr inRange.1
    exact decide_eq_false notSuccess
  · intro success
    rw [success] at error
    cases error
  · obtain ⟨answer, ended, decides⟩ := (testsRange_iff derived value).mpr notMinimum
    rw [ended, decides.mpr inRange]
  · intro other different
    obtain ⟨answer, ended, decides⟩ := (testsRange_iff other value).mpr notMinimum
    have outside : answer ≠ true := by
      intro inside
      exact different ((decides.mp inside).unique inRange)
    rw [ended, Bool.eq_false_iff.mpr outside]

theorem computeValue_classified_lowest :
    isError (-1) = true ∧ isSuccess (-1) = false ∧ (-1 : ValueType) ≠ kSuccess ∧
      belongsTo ⟨0, "Fake"⟩ (-1) = some true ∧
      ∀ other : Category, other.kCategoryCode ≠ 0 → belongsTo other (-1) = some false :=
  computeValue_classified (show computeValue ⟨0, "Fake"⟩ 1 = .ok (-1) by decide) (by decide)

/-- The guards admit a code that is no error. -/
theorem computeValue_admits_success :
    computeValue ⟨0, "Fake"⟩ 0 = .ok 0 ∧ isError 0 = false ∧ isSuccess 0 = true ∧
      (0 : ValueType) = kSuccess ∧ belongsTo ⟨0, "Fake"⟩ 0 = some false := by
  decide

end Encoded

end CppCore.StatusCodes.StatusCode
