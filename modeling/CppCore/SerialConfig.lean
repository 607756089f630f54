import CppCore.Result

/-!
# Serial configurations

A configuration can be built at compile time, at run time from plain or strong
integers, or as an aggregate that is checked afterwards.
-/

namespace CppCore

open StatusCodes

/-- `StrongInt<Tag, int>`: one type for each tag. -/
structure StrongInt (Tag : Type) where
  value : Int32
  deriving DecidableEq

def StrongInt.get {Tag : Type} (strong : StrongInt Tag) : Int32 := strong.value

inductive BaudrateTag
inductive DataBitsTag

abbrev Baudrate := StrongInt BaudrateTag
abbrev DataBits := StrongInt DataBitsTag

/-- An `enum class` with fixed underlying type `int` has every `int` as a value. -/
structure Parity where
  underlying : Int32
  deriving DecidableEq

def Parity.kNone : Parity := ⟨0⟩
def Parity.kEven : Parity := ⟨1⟩
def Parity.kOdd : Parity := ⟨2⟩

structure StopBits where
  underlying : Int32
  deriving DecidableEq

def StopBits.kOne : StopBits := ⟨0⟩
def StopBits.kTwo : StopBits := ⟨2⟩

def validateBaudrate (baud : Int32) : Bool := 300 ≤ baud

def validateDataBits (bits : Int32) : Bool := 5 ≤ bits && bits ≤ 8

def validateParity (parity : Parity) : Bool :=
  parity == .kNone || parity == .kEven || parity == .kOdd

def validateStopBits (stopBits : StopBits) : Bool :=
  stopBits == .kOne || stopBits == .kTwo

structure SerialConfig where
  baudrate : Int32
  data_bits : Int32
  parity : Parity
  stop_bits : StopBits
  deriving DecidableEq

namespace SerialConfig

/-- The template arguments are checked by two `static_assert`s. -/
def make (baud dataBitsVal : Int32) (parity : Parity) (stopBits : StopBits) :
    Except CompileError SerialConfig := do
  staticAssert (validateBaudrate baud) "Baudrate must be >= 300"
  staticAssert (validateDataBits dataBitsVal) "DataBits must be 5-8"
  return ⟨baud, dataBitsVal, parity, stopBits⟩

def tryMake (baud dataBitsVal : Int32) (parity : Parity) (stopBits : StopBits) :
    Result SerialConfig :=
  if !validateBaudrate baud then
    fail StatusCode.Configuration.kSetBaudrateError.kValue ""
  else if !validateDataBits dataBitsVal then
    fail StatusCode.Configuration.kSetDataBitsError.kValue ""
  else if !validateParity parity then
    fail StatusCode.Configuration.kSetParityError.kValue ""
  else if !validateStopBits stopBits then
    fail StatusCode.Configuration.kSetStopBitsError.kValue ""
  else
    ok ⟨baud, dataBitsVal, parity, stopBits⟩

/-- The overload for strong integers. -/
def tryMakeStrong (baud : Baudrate) (dataBits : DataBits) (parity : Parity)
    (stopBits : StopBits) : Result SerialConfig :=
  tryMake baud.get dataBits.get parity stopBits

def isValid (config : SerialConfig) : Bool :=
  validateBaudrate config.baudrate && validateDataBits config.data_bits &&
    validateParity config.parity && validateStopBits config.stop_bits

def baudrateValue (config : SerialConfig) : Baudrate := ⟨config.baudrate⟩

def dataBitsValue (config : SerialConfig) : DataBits := ⟨config.data_bits⟩

def withBaudrate (config : SerialConfig) (baud : Baudrate) : Result SerialConfig :=
  tryMakeStrong baud config.dataBitsValue config.parity config.stop_bits

def withDataBits (config : SerialConfig) (bits : DataBits) : Result SerialConfig :=
  tryMakeStrong config.baudrateValue bits config.parity config.stop_bits

theorem make_eq_ok_iff {baud dataBitsVal : Int32} {parity : Parity} {stopBits : StopBits}
    {config : SerialConfig} :
    make baud dataBitsVal parity stopBits = .ok config ↔
      (validateBaudrate baud = true ∧ validateDataBits dataBitsVal = true) ∧
        config = ⟨baud, dataBitsVal, parity, stopBits⟩ := by
  simp only [make, Fallible.bind_eq_ok_iff, CategoryBase.staticAssert_eq_ok_iff,
    Fallible.pure_eq_ok, Except.ok.injEq]
  constructor
  · rintro ⟨_, baudValid, _, bitsValid, rfl⟩
    exact ⟨⟨baudValid, bitsValid⟩, rfl⟩
  · rintro ⟨⟨baudValid, bitsValid⟩, rfl⟩
    exact ⟨(), baudValid, (), bitsValid, rfl⟩

theorem tryMake_of_valid {baud dataBitsVal : Int32} {parity : Parity} {stopBits : StopBits}
    (valid : (⟨baud, dataBitsVal, parity, stopBits⟩ : SerialConfig).isValid = true) :
    tryMake baud dataBitsVal parity stopBits = .ok ⟨baud, dataBitsVal, parity, stopBits⟩ := by
  simp only [isValid, Bool.and_eq_true] at valid
  obtain ⟨⟨⟨baudValid, bitsValid⟩, parityValid⟩, stopValid⟩ := valid
  unfold tryMake
  simp only [baudValid, bitsValid, parityValid, stopValid, Bool.not_true, Bool.false_eq_true,
    if_false]
  rfl

theorem tryMake_of_not_valid {baud dataBitsVal : Int32} {parity : Parity} {stopBits : StopBits}
    (invalid : ¬ (⟨baud, dataBitsVal, parity, stopBits⟩ : SerialConfig).isValid = true) :
    ∃ error, tryMake baud dataBitsVal parity stopBits = .error error := by
  unfold tryMake
  split_ifs with baudInvalid bitsInvalid parityInvalid stopInvalid
  · exact ⟨_, rfl⟩
  · exact ⟨_, rfl⟩
  · exact ⟨_, rfl⟩
  · exact ⟨_, rfl⟩
  · simp only [Bool.not_eq_true', Bool.not_eq_false] at *
    exact absurd (by simp [isValid, *]) invalid

/-- The run-time construction accepts exactly the valid configurations. -/
theorem tryMake_eq_ok_iff {baud dataBitsVal : Int32} {parity : Parity} {stopBits : StopBits}
    {config : SerialConfig} :
    tryMake baud dataBitsVal parity stopBits = .ok config ↔
      config = ⟨baud, dataBitsVal, parity, stopBits⟩ ∧ config.isValid = true := by
  by_cases valid : (⟨baud, dataBitsVal, parity, stopBits⟩ : SerialConfig).isValid = true
  · rw [tryMake_of_valid valid, Except.ok.injEq]
    constructor
    · intro same
      subst same
      exact ⟨rfl, valid⟩
    · intro accepted
      exact accepted.1.symm
  · obtain ⟨error, failed⟩ := tryMake_of_not_valid valid
    rw [failed]
    constructor
    · intro accepted
      cases accepted
    · intro accepted
      rw [accepted.1] at accepted
      exact absurd accepted.2 valid

theorem isValid_iff {baud dataBitsVal : Int32} {parity : Parity} {stopBits : StopBits} :
    (⟨baud, dataBitsVal, parity, stopBits⟩ : SerialConfig).isValid = true ↔
      (300 ≤ baud ∧ 5 ≤ dataBitsVal ∧ dataBitsVal ≤ 8) ∧
        (parity = .kNone ∨ parity = .kEven ∨ parity = .kOdd) ∧
          (stopBits = .kOne ∨ stopBits = .kTwo) := by
  simp only [isValid, validateBaudrate, validateDataBits, validateParity, validateStopBits,
    Bool.and_eq_true, Bool.or_eq_true, decide_eq_true_eq, beq_iff_eq, and_assoc, or_assoc]

/-- The four ways to build a configuration accept the same arguments, and where
they accept, return the aggregate of these arguments. -/
def ConstructionsAgree (baud dataBitsVal : Int32) (parity : Parity) (stopBits : StopBits) : Prop :=
  ((∃ config, make baud dataBitsVal parity stopBits = .ok config) ↔
    ∃ config, tryMake baud dataBitsVal parity stopBits = .ok config) ∧
  ((∃ config, tryMake baud dataBitsVal parity stopBits = .ok config) ↔
    ∃ config, tryMakeStrong ⟨baud⟩ ⟨dataBitsVal⟩ parity stopBits = .ok config) ∧
  ((∃ config, tryMakeStrong ⟨baud⟩ ⟨dataBitsVal⟩ parity stopBits = .ok config) ↔
    (⟨baud, dataBitsVal, parity, stopBits⟩ : SerialConfig).isValid = true) ∧
  ∀ config,
    make baud dataBitsVal parity stopBits = .ok config ∨
      tryMake baud dataBitsVal parity stopBits = .ok config ∨
      tryMakeStrong ⟨baud⟩ ⟨dataBitsVal⟩ parity stopBits = .ok config →
    config = ⟨baud, dataBitsVal, parity, stopBits⟩

/-- `make` does not look at parity and stop bits: the constructions agree unless
one of these is the only thing wrong. -/
theorem constructionsAgree_iff (baud dataBitsVal : Int32) (parity : Parity)
    (stopBits : StopBits) :
    ConstructionsAgree baud dataBitsVal parity stopBits ↔
      (300 ≤ baud → 5 ≤ dataBitsVal → dataBitsVal ≤ 8 →
        (parity = .kNone ∨ parity = .kEven ∨ parity = .kOdd) ∧
          (stopBits = .kOne ∨ stopBits = .kTwo)) := by
  have made : (∃ config, make baud dataBitsVal parity stopBits = .ok config) ↔
      300 ≤ baud ∧ 5 ≤ dataBitsVal ∧ dataBitsVal ≤ 8 := by
    simp only [make_eq_ok_iff, exists_eq_right, validateBaudrate, validateDataBits,
      Bool.and_eq_true, decide_eq_true_eq]
  have tried : (∃ config, tryMake baud dataBitsVal parity stopBits = .ok config) ↔
      (⟨baud, dataBitsVal, parity, stopBits⟩ : SerialConfig).isValid = true := by
    simp only [tryMake_eq_ok_iff, exists_eq_left]
  have strong : tryMakeStrong ⟨baud⟩ ⟨dataBitsVal⟩ parity stopBits =
      tryMake baud dataBitsVal parity stopBits := rfl
  have returned : ∀ config,
      make baud dataBitsVal parity stopBits = .ok config ∨
        tryMake baud dataBitsVal parity stopBits = .ok config ∨
        tryMakeStrong ⟨baud⟩ ⟨dataBitsVal⟩ parity stopBits = .ok config →
      config = ⟨baud, dataBitsVal, parity, stopBits⟩ := by
    intro config accepted
    rcases accepted with accepted | accepted | accepted
    · exact (make_eq_ok_iff.mp accepted).2
    · exact (tryMake_eq_ok_iff.mp accepted).1
    · exact (tryMake_eq_ok_iff.mp accepted).1
  -- Only the first equivalence can fail: the others go through `isValid`.
  have onlyMake : ConstructionsAgree baud dataBitsVal parity stopBits ↔
      (300 ≤ baud ∧ 5 ≤ dataBitsVal ∧ dataBitsVal ≤ 8 ↔
        (⟨baud, dataBitsVal, parity, stopBits⟩ : SerialConfig).isValid = true) := by
    rw [← made, ← tried]
    constructor
    · intro agree
      exact agree.1
    · intro agree
      exact ⟨agree, by rw [strong], by rw [strong, tried], returned⟩
  rw [onlyMake, isValid_iff, iff_self_and]
  exact ⟨fun right baudValid low high => right ⟨baudValid, low, high⟩,
    fun right valid => right valid.1 valid.2.1 valid.2.2⟩

/-- A parity outside the enumerators passes the `static_assert`s and is rejected
everywhere else. -/
theorem make_accepts_invalid_parity :
    make 9600 8 ⟨77⟩ .kOne = .ok ⟨9600, 8, ⟨77⟩, .kOne⟩ ∧
      tryMake 9600 8 ⟨77⟩ .kOne = .error ⟨-102, ""⟩ ∧
      ¬ ConstructionsAgree 9600 8 ⟨77⟩ .kOne := by
  refine ⟨by decide, by decide, ?_⟩
  intro agree
  obtain ⟨config, made⟩ := agree.1.mp ⟨_, make_eq_ok_iff.mpr ⟨by decide, rfl⟩⟩
  exact absurd (tryMake_eq_ok_iff.mp made).2 (by rw [(tryMake_eq_ok_iff.mp made).1]; decide)

end SerialConfig

end CppCore
