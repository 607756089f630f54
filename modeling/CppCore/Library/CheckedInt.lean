import Mathlib.Algebra.Group.Int.Defs
import Mathlib.Data.Int.Order.Basic

/-!
# Checked signed 64-bit arithmetic

A signed operation of C++ whose exact result is not representable has no value.
The operations here return `none` in that case and the exact result otherwise,
so that "no intermediate step overflows" is the equation `... = some result`.
Narrowing to 32 bits is total and reduces modulo `2 ^ 32`.
-/

namespace CheckedInt

/-- The machine value of an exact result, when 64 bits hold it. -/
def checked (exact : Int) : Option Int64 :=
  if -2 ^ 63 ≤ exact ∧ exact < 2 ^ 63 then some (Int64.ofInt exact) else none

def add? (a b : Int64) : Option Int64 := checked (a.toInt + b.toInt)

def sub? (a b : Int64) : Option Int64 := checked (a.toInt - b.toInt)

def mul? (a b : Int64) : Option Int64 := checked (a.toInt * b.toInt)

def neg? (a : Int64) : Option Int64 := checked (-a.toInt)

/-- Division truncates towards zero and is undefined for a zero divisor. -/
def div? (a b : Int64) : Option Int64 :=
  if b = 0 then none else checked (a.toInt.tdiv b.toInt)

/-- The remainder has the sign of the dividend, and is undefined exactly where
the quotient is. -/
def rem? (a b : Int64) : Option Int64 :=
  (div? a b).bind fun _ => checked (a.toInt.tmod b.toInt)

theorem checked_of_fits {exact : Int} (lower : -2 ^ 63 ≤ exact) (upper : exact < 2 ^ 63) :
    checked exact = some (Int64.ofInt exact) := if_pos ⟨lower, upper⟩

theorem checked_eq_some_iff {exact : Int} {value : Int64} :
    checked exact = some value ↔ exact = value.toInt := by
  constructor
  · intro defined
    simp only [checked] at defined
    split at defined
    next fits =>
      cases defined
      exact (Int64.toInt_ofInt_of_le fits.1 fits.2).symm
    next => cases defined
  · rintro rfl
    rw [checked_of_fits value.le_toInt value.toInt_lt, Int64.ofInt_toInt]

theorem checked_eq_none_iff {exact : Int} :
    checked exact = none ↔ exact < -2 ^ 63 ∨ 2 ^ 63 ≤ exact := by
  simp only [checked, ite_eq_right_iff, reduceCtorEq, imp_false]
  omega

theorem exists_checked (exact : Int) (lower : -2 ^ 63 ≤ exact) (upper : exact < 2 ^ 63) :
    ∃ value : Int64, checked exact = some value ∧ value.toInt = exact :=
  ⟨Int64.ofInt exact, checked_of_fits lower upper, Int64.toInt_ofInt_of_le lower upper⟩

theorem div?_eq_some_iff {a b value : Int64} (nonzero : b ≠ 0) :
    div? a b = some value ↔ a.toInt.tdiv b.toInt = value.toInt := by
  simp [div?, nonzero, checked_eq_some_iff]

theorem rem?_eq_some_of_div? {a b quotient value : Int64} (divided : div? a b = some quotient)
    (remainder : a.toInt.tmod b.toInt = value.toInt) : rem? a b = some value := by
  simp [rem?, divided, checked_eq_some_iff, remainder]

/-- Narrowing to 32 bits keeps a value exactly when 32 bits hold it. -/
theorem toInt32_toInt_eq_iff (value : Int64) :
    value.toInt32.toInt = value.toInt ↔ -2 ^ 31 ≤ value.toInt ∧ value.toInt < 2 ^ 31 := by
  constructor
  · intro kept
    have lower := value.toInt32.le_toInt
    have upper := value.toInt32.toInt_lt
    omega
  · rintro ⟨lower, upper⟩
    rw [Int64.toInt_toInt32]
    exact Int.bmod_eq_of_le (by omega) (by omega)

end CheckedInt
