import CppCore.SerialConfig

/-!
# Parameters of `serialOpen`

The C interface checks the line settings on its own, with the limits of
`SerialConfig::tryMake` in the same order.  It reports every violation as the
same error.
-/

namespace CppCore

open StatusCodes

/-- A `void *`, `none` for a null pointer. -/
abbrev Pointer := Option UInt64

variable {State : Type}

def validateOpenParams (ret : StatusConvertible) (port : Pointer) (baudrate dataBits : Int32)
    (callback : ErrorCallback State) (world : World State) : ret.Value × World State :=
  if port = none then
    failMsg ret callback StatusCode.Connection.kNotFoundError.kValue "Port parameter is nullptr"
      world
  else if baudrate < 300 then
    failMsg ret callback StatusCode.Control.kSetStateError.kValue
      "Invalid baudrate: must be >= 300" world
  else if dataBits < 5 ∨ dataBits > 8 then
    failMsg ret callback StatusCode.Control.kSetStateError.kValue
      "Invalid data bits: must be 5-8" world
  else
    (ret.staticCast StatusCode.kSuccess, world)

namespace Validation

variable {port : Pointer} {baudrate dataBits : Int32}

/-- The default arguments of `tryMake`. -/
def tryMake (baud dataBitsVal : Int32) : Result SerialConfig :=
  SerialConfig.tryMake baud dataBitsVal .kNone .kOne

/-- The message for the field that `tryMake` rejects with a code. -/
def message (code : ValueType) : String :=
  if code = StatusCode.Configuration.kSetBaudrateError.kValue then
    "Invalid baudrate: must be >= 300"
  else
    "Invalid data bits: must be 5-8"

theorem validateBaudrate_eq_false_iff : validateBaudrate baudrate = false ↔ baudrate < 300 := by
  rw [validateBaudrate, decide_eq_false_iff_not, Int32.not_le]

theorem validateDataBits_eq_false_iff :
    validateDataBits dataBits = false ↔ dataBits < 5 ∨ dataBits > 8 := by
  rw [validateDataBits, Bool.and_eq_false_iff, decide_eq_false_iff_not, decide_eq_false_iff_not,
    Int32.not_le, Int32.not_le]

/-- The two gates side by side, one case for each check. -/
theorem gates_cases (nonnull : port ≠ none) (baudrate dataBits : Int32)
    (callback : ErrorCallback State) (world : World State) :
    (∃ config, tryMake baudrate dataBits = .ok config ∧
      validateOpenParams .int port baudrate dataBits callback world = (0, world)) ∨
    ∃ code, (code = StatusCode.Configuration.kSetBaudrateError.kValue ∨
        code = StatusCode.Configuration.kSetDataBitsError.kValue) ∧
      tryMake baudrate dataBits = .error ⟨code, ""⟩ ∧
      validateOpenParams .int port baudrate dataBits callback world =
        failMsg .int callback StatusCode.Control.kSetStateError.kValue (message code) world := by
  unfold tryMake SerialConfig.tryMake validateOpenParams
  rw [if_neg nonnull]
  by_cases baudInvalid : validateBaudrate baudrate = false
  · refine .inr ⟨_, .inl rfl, ?_, ?_⟩
    · rw [baudInvalid]
      rfl
    · rw [if_pos (validateBaudrate_eq_false_iff.mp baudInvalid)]
      rfl
  · have baudInRange := validateBaudrate_eq_false_iff.not.mp baudInvalid
    rw [Bool.not_eq_false] at baudInvalid
    by_cases bitsInvalid : validateDataBits dataBits = false
    · refine .inr ⟨_, .inr rfl, ?_, ?_⟩
      · rw [baudInvalid, bitsInvalid]
        rfl
      · rw [if_neg baudInRange, if_pos (validateDataBits_eq_false_iff.mp bitsInvalid)]
        rfl
    · have bitsInRange := validateDataBits_eq_false_iff.not.mp bitsInvalid
      rw [Bool.not_eq_false] at bitsInvalid
      refine .inl ⟨⟨baudrate, dataBits, .kNone, .kOne⟩, ?_, ?_⟩
      · rw [baudInvalid, bitsInvalid]
        rfl
      · rw [if_neg baudInRange, if_neg bitsInRange]
        rfl

/-- Both gates accept the same line settings, and where they do not, blame the same field. The C
gate reports it as `kSetStateError`, whatever the code of `tryMake` is. -/
theorem gates_accept_alike (port : Pointer) (nonnull : port ≠ none) (baudrate dataBits : Int32)
    (callback : ErrorCallback State) (world : World State) :
    (validateOpenParams .int port baudrate dataBits callback world = (0, world) ↔
      ∃ config, tryMake baudrate dataBits = .ok config) ∧
    ∀ error, tryMake baudrate dataBits = .error error →
      (error.code = StatusCode.Configuration.kSetBaudrateError.kValue ∨
        error.code = StatusCode.Configuration.kSetDataBitsError.kValue) ∧
      ∃ after, validateOpenParams .int port baudrate dataBits callback world = (-405, after) ∧
        (callback = none → after = world) ∧
        (callback ≠ none → after.calls = world.calls ++ [⟨-405, message error.code⟩]) := by
  rcases gates_cases nonnull baudrate dataBits callback world with
    ⟨config, made, accepted⟩ | ⟨code, known, failed, rejected⟩
  · rw [made, accepted]
    refine ⟨⟨fun _ => ⟨config, rfl⟩, fun _ => rfl⟩, ?_⟩
    intro error failed
    cases failed
  · rw [failed, rejected]
    refine ⟨⟨?_, ?_⟩, ?_⟩
    · intro accepted
      have code : (-405 : Int32) = 0 := congrArg Prod.fst accepted
      exact absurd code (by decide)
    · intro made
      obtain ⟨config, made⟩ := made
      cases made
    · intro error same
      cases same
      refine ⟨known, _, rfl, ?_, ?_⟩
      · intro isNull
        rw [isNull, invokeError_null]
      · intro notNull
        obtain ⟨callback, rfl⟩ := Option.ne_none_iff_exists'.mp notNull
        rw [invokeError_some, World.call_calls]
        rcases known with rfl | rfl
        · rfl
        · rfl

theorem gates_accept_alike_slow :
    ∃ after, validateOpenParams .int (some 1) 110 9 (some fun _ _ state => state)
        (⟨(), []⟩ : World Unit) = (-405, after) ∧
      after.calls = [⟨-405, "Invalid baudrate: must be >= 300"⟩] := by
  obtain ⟨_, after, rejected, _, reported⟩ :=
    (gates_accept_alike (some 1) (by decide) 110 9 (some fun _ _ state => state)
      (⟨(), []⟩ : World Unit)).2 ⟨-100, ""⟩ (by decide)
  exact ⟨after, rejected, reported nofun⟩

/-- The gates do not return the same code. -/
theorem gates_codes_differ :
    tryMake 110 8 = .error ⟨-100, ""⟩ ∧
      (validateOpenParams .int (some 1) 110 8 (some fun _ _ state => state)
        (⟨(), []⟩ : World Unit)).1 = (-405 : Int32) ∧
      (validateOpenParams .int (some 1) 110 8 (some fun _ _ state => state)
        (⟨(), []⟩ : World Unit)).2.calls = [⟨-405, "Invalid baudrate: must be >= 300"⟩] := by
  refine ⟨by decide, rfl, rfl⟩

end Validation

end CppCore
