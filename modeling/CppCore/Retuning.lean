import CppCore.SerialConfig

/-!
# Retuning a configuration

Sequences of `withBaudrate` and `withDataBits` calls that keep the previous
configuration when a call fails.  Each call validates all four fields, so that
the two setters are independent of each other only from a valid configuration.
-/

namespace CppCore

open StatusCodes

inductive Retuning where
  | withBaudrate (baud : Int32)
  | withDataBits (bits : Int32)
  deriving DecidableEq

namespace Retuning

def apply (config : SerialConfig) : Retuning → Result SerialConfig
  | .withBaudrate baud => config.withBaudrate ⟨baud⟩
  | .withDataBits bits => config.withDataBits ⟨bits⟩

/-- The argument is one that its own field can hold. -/
def InRange : Retuning → Prop
  | .withBaudrate baud => 300 ≤ baud
  | .withDataBits bits => 5 ≤ bits ∧ bits ≤ 8

instance : DecidablePred InRange
  | .withBaudrate baud => inferInstanceAs (Decidable (300 ≤ baud))
  | .withDataBits bits => inferInstanceAs (Decidable (5 ≤ bits ∧ bits ≤ 8))

/-- The code of the setter's own error. -/
def errorCode : Retuning → ValueType
  | .withBaudrate _ => StatusCode.Configuration.kSetBaudrateError.kValue
  | .withDataBits _ => StatusCode.Configuration.kSetDataBitsError.kValue

def assign (config : SerialConfig) : Retuning → SerialConfig
  | .withBaudrate baud => { config with baudrate := baud }
  | .withDataBits bits => { config with data_bits := bits }

/-- The configuration after a call, the previous one if the call fails. -/
def after (config : SerialConfig) (call : Retuning) : SerialConfig :=
  match call.apply config with
  | .ok retuned => retuned
  | .error _ => config

/-- The argument, of a call of `withBaudrate`. -/
def baudrate? : Retuning → Option Int32
  | .withBaudrate baud => some baud
  | .withDataBits _ => none

def dataBits? : Retuning → Option Int32
  | .withBaudrate _ => none
  | .withDataBits bits => some bits

end Retuning

namespace SerialConfig

def retune (config : SerialConfig) (calls : List Retuning) : SerialConfig :=
  calls.foldl Retuning.after config

end SerialConfig

/-- The argument accepted last, or what the field held at first. -/
def lastAccepted (accepts : Int32 → Bool) (initial : Int32) (arguments : List Int32) : Int32 :=
  (arguments.filter accepts).getLastD initial

namespace Retuning

variable {config : SerialConfig}

/-- From a valid configuration only the call's own argument decides. -/
theorem apply_of_valid (valid : config.isValid = true) (call : Retuning) :
    call.apply config =
      if call.InRange then .ok (call.assign config) else .error ⟨call.errorCode, ""⟩ := by
  obtain ⟨baudrate, dataBits, parity, stopBits⟩ := config
  have fields := SerialConfig.isValid_iff.mp valid
  cases call with
  | withBaudrate baud =>
      by_cases inRange : 300 ≤ baud
      · have retuned : (⟨baud, dataBits, parity, stopBits⟩ : SerialConfig).isValid = true :=
          SerialConfig.isValid_iff.mpr ⟨⟨inRange, fields.1.2⟩, fields.2⟩
        have accepted : (withBaudrate baud).InRange := inRange
        rw [if_pos accepted]
        exact SerialConfig.tryMake_of_valid retuned
      · have rejected : ¬ (withBaudrate baud).InRange := inRange
        have invalid : validateBaudrate baud = false := decide_eq_false inRange
        rw [if_neg rejected]
        simp only [apply, SerialConfig.withBaudrate, SerialConfig.tryMakeStrong,
          SerialConfig.tryMake, StrongInt.get, invalid]
        rfl
  | withDataBits bits =>
      by_cases inRange : 5 ≤ bits ∧ bits ≤ 8
      · have retuned : (⟨baudrate, bits, parity, stopBits⟩ : SerialConfig).isValid = true :=
          SerialConfig.isValid_iff.mpr ⟨⟨fields.1.1, inRange⟩, fields.2⟩
        have accepted : (withDataBits bits).InRange := inRange
        rw [if_pos accepted]
        exact SerialConfig.tryMake_of_valid retuned
      · have rejected : ¬ (withDataBits bits).InRange := inRange
        have baudValid : validateBaudrate baudrate = true := decide_eq_true fields.1.1
        have invalid : validateDataBits bits = false := by
          rw [validateDataBits, ← Bool.decide_and]
          exact decide_eq_false inRange
        rw [if_neg rejected]
        simp only [apply, SerialConfig.withDataBits, SerialConfig.tryMakeStrong,
          SerialConfig.tryMake, SerialConfig.baudrateValue, StrongInt.get, baudValid, invalid]
        rfl

/-- What a call returns is valid, whatever it started from. -/
theorem isValid_of_apply {call : Retuning} {retuned : SerialConfig}
    (accepted : call.apply config = .ok retuned) : retuned.isValid = true := by
  cases call with
  | withBaudrate baud => exact (SerialConfig.tryMake_eq_ok_iff.mp accepted).2
  | withDataBits bits => exact (SerialConfig.tryMake_eq_ok_iff.mp accepted).2

theorem after_of_valid (valid : config.isValid = true) (call : Retuning) :
    call.after config = if call.InRange then call.assign config else config := by
  unfold after
  rw [apply_of_valid valid]
  by_cases inRange : call.InRange
  · rw [if_pos inRange, if_pos inRange]
  · rw [if_neg inRange, if_neg inRange]

theorem after_isValid (valid : config.isValid = true) (call : Retuning) :
    (call.after config).isValid = true := by
  unfold after
  cases applied : call.apply config with
  | ok retuned => exact isValid_of_apply applied
  | error _ => exact valid

end Retuning

theorem lastAccepted_cons (accepts : Int32 → Bool) (initial argument : Int32)
    (arguments : List Int32) :
    lastAccepted accepts initial (argument :: arguments) =
      lastAccepted accepts (if accepts argument then argument else initial) arguments := by
  unfold lastAccepted
  by_cases accepted : accepts argument = true
  · rw [List.filter_cons_of_pos accepted, List.getLastD_cons, if_pos accepted]
  · rw [List.filter_cons_of_neg accepted, if_neg accepted]

namespace SerialConfig

variable {config : SerialConfig}

theorem retune_isValid (valid : config.isValid = true) (calls : List Retuning) :
    (config.retune calls).isValid = true := by
  induction calls generalizing config with
  | nil => exact valid
  | cons call calls inductionHypothesis =>
      exact inductionHypothesis (Retuning.after_isValid valid call)

/-- Each field is decided by the calls of its own setter. -/
theorem retune_eq (valid : config.isValid = true) (calls : List Retuning) :
    config.retune calls =
      ⟨lastAccepted (fun baud => 300 ≤ baud) config.baudrate
          (calls.filterMap Retuning.baudrate?),
        lastAccepted (fun bits => 5 ≤ bits ∧ bits ≤ 8) config.data_bits
          (calls.filterMap Retuning.dataBits?),
        config.parity, config.stop_bits⟩ := by
  induction calls generalizing config with
  | nil => rfl
  | cons call calls inductionHypothesis =>
      have later : config.retune (call :: calls) = (call.after config).retune calls := rfl
      rw [later, inductionHypothesis (Retuning.after_isValid valid call),
        Retuning.after_of_valid valid]
      cases call with
      | withBaudrate baud =>
          have own : (Retuning.withBaudrate baud).baudrate? = some baud := rfl
          have other : (Retuning.withBaudrate baud).dataBits? = none := rfl
          rw [List.filterMap_cons_some own, List.filterMap_cons_none other, lastAccepted_cons]
          by_cases inRange : 300 ≤ baud
          · have accepted : (Retuning.withBaudrate baud).InRange := inRange
            rw [if_pos accepted, if_pos (decide_eq_true inRange)]
            rfl
          · have rejected : ¬ (Retuning.withBaudrate baud).InRange := inRange
            rw [if_neg rejected, if_neg (by simpa using inRange)]
      | withDataBits bits =>
          have own : (Retuning.withDataBits bits).dataBits? = some bits := rfl
          have other : (Retuning.withDataBits bits).baudrate? = none := rfl
          rw [List.filterMap_cons_none other, List.filterMap_cons_some own, lastAccepted_cons]
          by_cases inRange : 5 ≤ bits ∧ bits ≤ 8
          · have accepted : (Retuning.withDataBits bits).InRange := inRange
            rw [if_pos accepted, if_pos (decide_eq_true inRange)]
            rfl
          · have rejected : ¬ (Retuning.withDataBits bits).InRange := inRange
            rw [if_neg rejected, if_neg (by simpa using inRange)]

/-- Retuning keeps a configuration valid, each call fails on its own argument only, each field
holds the argument its setter accepted last, and the order of calls of different setters does
not matter. -/
theorem retuning_independent :
    (∀ config : SerialConfig, config.isValid = true →
      (∀ calls : List Retuning,
        (config.retune calls).isValid = true ∧
        (config.retune calls).parity = config.parity ∧
        (config.retune calls).stop_bits = config.stop_bits ∧
        (config.retune calls).baudrate =
          lastAccepted (fun baud => 300 ≤ baud) config.baudrate
            (calls.filterMap Retuning.baudrate?) ∧
        (config.retune calls).data_bits =
          lastAccepted (fun bits => 5 ≤ bits ∧ bits ≤ 8) config.data_bits
            (calls.filterMap Retuning.dataBits?) ∧
        ∀ call : Retuning,
          (call.InRange →
            call.apply (config.retune calls) = .ok (config.retune (calls ++ [call]))) ∧
          (¬ call.InRange →
            call.apply (config.retune calls) = .error ⟨call.errorCode, ""⟩ ∧
              config.retune (calls ++ [call]) = config.retune calls)) ∧
      ∀ first second : List Retuning,
        first.filterMap Retuning.baudrate? = second.filterMap Retuning.baudrate? →
        first.filterMap Retuning.dataBits? = second.filterMap Retuning.dataBits? →
        config.retune first = config.retune second) ∧
    ∀ (config retuned : SerialConfig) (call : Retuning),
      call.apply config = .ok retuned → retuned.isValid = true := by
  refine ⟨?_, fun config retuned call => Retuning.isValid_of_apply⟩
  intro config valid
  refine ⟨?_, ?_⟩
  · intro calls
    have fields := retune_eq valid calls
    refine ⟨retune_isValid valid calls, by rw [fields], by rw [fields], by rw [fields],
      by rw [fields], ?_⟩
    intro call
    have stillValid := retune_isValid valid calls
    have applied := Retuning.apply_of_valid stillValid call
    have next : config.retune (calls ++ [call]) = call.after (config.retune calls) :=
      List.foldl_concat ..
    rw [next, Retuning.after_of_valid stillValid]
    constructor
    · intro inRange
      rw [applied, if_pos inRange, if_pos inRange]
    · intro outOfRange
      rw [applied, if_neg outOfRange, if_neg outOfRange]
      exact ⟨rfl, rfl⟩
  · intro first second sameBaudrates sameDataBits
    rw [retune_eq valid, retune_eq valid, sameBaudrates, sameDataBits]

theorem retuning_independent_exchanged :
    (⟨9600, 8, .kEven, .kTwo⟩ : SerialConfig).retune
        [.withBaudrate 299, .withBaudrate 230400, .withDataBits 7] =
      (⟨9600, 8, .kEven, .kTwo⟩ : SerialConfig).retune
        [.withDataBits 7, .withBaudrate 299, .withBaudrate 230400] :=
  (retuning_independent.1 ⟨9600, 8, .kEven, .kTwo⟩ (by decide)).2 _ _ rfl rfl

end SerialConfig

end CppCore
