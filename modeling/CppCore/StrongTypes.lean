import CppCore.Library.Accumulation
import CppCore.SerialConfig
import Mathlib.Algebra.Order.Ring.Int

/-!
# Arithmetic of strong integers

Sums and differences of `StrongInt<Tag, int>`.  A signed overflow is undefined,
so an operation has no result here where the exact one is no `int`.
-/

namespace CppCore

open Accumulation

/-- The values of `int` -/
def intBounds : Bounds Int := ⟨-2 ^ 31, 2 ^ 31 - 1⟩

namespace StrongInt

variable {Tag : Type}

def ofExact (exact : Int) : Option (StrongInt Tag) :=
  if intBounds.Admits exact then some ⟨Int32.ofInt exact⟩ else none

/-- `operator+=` -/
def addAssign (self other : StrongInt Tag) : Option (StrongInt Tag) :=
  ofExact (self.value.toInt + other.value.toInt)

/-- `operator-=` -/
def subAssign (self other : StrongInt Tag) : Option (StrongInt Tag) :=
  ofExact (self.value.toInt - other.value.toInt)

/-- `operator+`, whose left operand is a copy -/
def add (lhs rhs : StrongInt Tag) : Option (StrongInt Tag) := lhs.addAssign rhs

/-- `operator-` -/
def sub (lhs rhs : StrongInt Tag) : Option (StrongInt Tag) := lhs.subAssign rhs

/-- `operator<=>`, by the only member -/
def compare (lhs rhs : StrongInt Tag) : Ordering := Ord.compare lhs.value.toInt rhs.value.toInt

inductive Operation (Tag : Type) where
  | add (other : StrongInt Tag)
  | sub (other : StrongInt Tag)

def Operation.apply (self : StrongInt Tag) : Operation Tag → Option (StrongInt Tag)
  | .add other => self.add other
  | .sub other => self.sub other

/-- How much the operation adds. -/
def Operation.amount : Operation Tag → Int
  | .add other => other.value.toInt
  | .sub other => -other.value.toInt

def run (start : StrongInt Tag) (operations : List (Operation Tag)) : Option (StrongInt Tag) :=
  operations.foldlM Operation.apply start

def total (operations : List (Operation Tag)) : Int := (operations.map Operation.amount).sum

theorem admits_toInt (strong : StrongInt Tag) : intBounds.Admits strong.value.toInt := by
  have lower := strong.value.le_toInt
  have upper := strong.value.toInt_lt
  exact ⟨lower, Int.le_sub_one_of_lt upper⟩

theorem map_toInt_ofExact (exact : Int) :
    (ofExact exact : Option (StrongInt Tag)).map (fun strong => strong.value.toInt) =
      if intBounds.Admits exact then some exact else none := by
  unfold ofExact
  split_ifs with admitted
  · obtain ⟨lower, upper⟩ := admitted
    have upper : exact < 2 ^ 31 := Int.lt_of_le_sub_one upper
    rw [Option.map_some, Int32.toInt_ofInt_of_le lower upper]
  · rfl

theorem toInt_injective : Function.Injective fun strong : StrongInt Tag => strong.value.toInt := by
  rintro ⟨first⟩ ⟨second⟩ same
  exact congrArg mk (Int32.toInt_inj.mp same)

theorem map_toInt_apply (self : StrongInt Tag) (operation : Operation Tag) :
    (operation.apply self).map (fun strong => strong.value.toInt) =
      Accumulation.add intBounds self.value.toInt operation.amount := by
  cases operation with
  | add other => exact map_toInt_ofExact _
  | sub other =>
      rw [Operation.amount, Accumulation.add, ← sub_eq_add_neg]
      exact map_toInt_ofExact _

/-- A run follows the exact sums. -/
theorem map_toInt_run (start : StrongInt Tag) (operations : List (Operation Tag)) :
    (run start operations).map (fun strong => strong.value.toInt) =
      accumulate intBounds start.value.toInt (operations.map Operation.amount) := by
  induction operations generalizing start with
  | nil => rfl
  | cons operation operations inductionHypothesis =>
      have here := map_toInt_apply start operation
      rw [run, List.foldlM_cons, List.map_cons, accumulate, List.foldlM_cons, ← here]
      cases operation.apply start with
      | none => rfl
      | some next => exact inductionHypothesis next

theorem run_eq_some_iff {start final : StrongInt Tag} {operations : List (Operation Tag)} :
    run start operations = some final ↔
      accumulate intBounds start.value.toInt (operations.map Operation.amount) =
        some final.value.toInt := by
  rw [← map_toInt_run, ← Option.map_some (f := fun strong : StrongInt Tag => strong.value.toInt)]
  exact (Option.map_injective toInt_injective).eq_iff.symm

/-- A run of sums and differences is defined exactly if no exact sum on the way overflows, and has
the exact sum then.  The order of the operations can only decide whether it is defined, and not
even that when all of them add; and the same run keeps the order of the numbers. -/
theorem run_exact :
    (∀ (start final : StrongInt Tag) operations, run start operations = some final ↔
      final.value.toInt = start.value.toInt + total operations ∧
        ∀ taken, taken <+: operations → intBounds.Admits (start.value.toInt + total taken)) ∧
    (∀ (start first second : StrongInt Tag) operations others, operations.Perm others →
      run start operations = some first → run start others = some second → first = second) ∧
    (∀ (start : StrongInt Tag) operations others, operations.Perm others →
      (∀ operation ∈ operations, 0 ≤ operation.amount) →
      run start operations = run start others) ∧
    ∀ (lhs rhs lhsFinal rhsFinal : StrongInt Tag) operations,
      run lhs operations = some lhsFinal → run rhs operations = some rhsFinal →
      compare lhsFinal rhsFinal = compare lhs rhs := by
  refine ⟨?_, ?_, ?_, ?_⟩
  · intro start final operations
    rw [run_eq_some_iff, accumulate_eq_some_iff (admits_toInt start)]
    apply and_congr_right
    intro _
    constructor
    · intro all taken isPrefix
      exact all _ (isPrefix.map Operation.amount)
    · intro all amounts isPrefix
      obtain ⟨taken, takenPrefix, rfl⟩ := List.prefix_map_iff.mp isPrefix
      exact all taken takenPrefix
  · intro start first second operations others permuted ran ranOther
    have same := eq_of_perm (admits_toInt start) (permuted.map Operation.amount)
      (run_eq_some_iff.mp ran) (run_eq_some_iff.mp ranOther)
    exact toInt_injective same
  · intro start operations others permuted nonneg
    apply Option.map_injective toInt_injective
    rw [map_toInt_run, map_toInt_run]
    apply accumulate_perm_of_nonneg (admits_toInt start) (permuted.map Operation.amount)
    exact List.forall_mem_map.mpr nonneg
  · intro lhs rhs lhsFinal rhsFinal operations ran ranOther
    have lhsSum := ((accumulate_eq_some_iff (admits_toInt lhs)).mp (run_eq_some_iff.mp ran)).1
    have rhsSum := ((accumulate_eq_some_iff (admits_toInt rhs)).mp (run_eq_some_iff.mp ranOther)).1
    rw [compare, compare, lhsSum, rhsSum, compare_add_right]

/-- A run up to the largest `int`; two orders, with amounts of both signs and with amounts that
only add; and a run of two numbers. -/
theorem run_exact_baudrate :
    ((2147483647 : Int) =
        2147483600 + total ([.sub ⟨100⟩, .add ⟨147⟩] : List (Operation BaudrateTag)) ∧
      ∀ taken : List (Operation BaudrateTag), taken <+: [.sub ⟨100⟩, .add ⟨147⟩] →
        intBounds.Admits (2147483600 + total taken)) ∧
    (∃ first second, run (⟨9600⟩ : Baudrate) [.add ⟨100⟩, .sub ⟨200⟩] = some first ∧
      run ⟨9600⟩ [.sub ⟨200⟩, .add ⟨100⟩] = some second ∧ first = second) ∧
    run (⟨2147483600⟩ : Baudrate) [.add ⟨40⟩, .sub ⟨-40⟩] =
      run ⟨2147483600⟩ [.sub ⟨-40⟩, .add ⟨40⟩] ∧
    compare (⟨9700⟩ : Baudrate) ⟨19300⟩ = compare (⟨9600⟩ : Baudrate) ⟨19200⟩ := by
  obtain ⟨exact, unique, reordered, ordered⟩ := @run_exact BaudrateTag
  refine ⟨(exact ⟨2147483600⟩ ⟨2147483647⟩ _).mp rfl, ?_, ?_, ?_⟩
  · exact ⟨⟨9500⟩, ⟨9500⟩, rfl, rfl,
      unique ⟨9600⟩ _ _ [.add ⟨100⟩, .sub ⟨200⟩] [.sub ⟨200⟩, .add ⟨100⟩] (.swap _ _ _) rfl rfl⟩
  · apply reordered
    · exact .swap _ _ _
    · exact List.forall_mem_cons.mpr ⟨by decide, List.forall_mem_singleton.mpr (by decide)⟩
  · exact ordered ⟨9600⟩ ⟨19200⟩ ⟨9700⟩ ⟨19300⟩ [.add ⟨100⟩] rfl rfl

/-- Subtracting first avoids an overflow. -/
example : run (⟨2147483647⟩ : Baudrate) [.add ⟨1⟩, .sub ⟨1⟩] = none ∧
    run (⟨2147483647⟩ : Baudrate) [.sub ⟨1⟩, .add ⟨1⟩] = some ⟨2147483647⟩ :=
  ⟨rfl, rfl⟩

end StrongInt

end CppCore
