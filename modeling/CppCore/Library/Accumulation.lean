import Mathlib.Algebra.BigOperators.Group.List.Basic
import Mathlib.Algebra.Order.Group.Defs
import Mathlib.Algebra.Order.BigOperators.Group.List

/-!
# Bounded accumulation

A register with bounds, to which amounts are added one after the other.  It
overflows as soon as one of the sums on the way is out of bounds.
-/

namespace Accumulation

universe u

variable {Amount : Type u} [AddCommGroup Amount] [LinearOrder Amount]

structure Bounds (Amount : Type u) where
  lower : Amount
  upper : Amount

def Bounds.Admits (bounds : Bounds Amount) (value : Amount) : Prop :=
  bounds.lower ≤ value ∧ value ≤ bounds.upper

variable {bounds : Bounds Amount}

instance (value : Amount) : Decidable (bounds.Admits value) :=
  inferInstanceAs (Decidable (_ ∧ _))

/-- The sum, unless it is out of bounds. -/
def add (bounds : Bounds Amount) (value amount : Amount) : Option Amount :=
  if bounds.Admits (value + amount) then some (value + amount) else none

def accumulate (bounds : Bounds Amount) (start : Amount) (amounts : List Amount) : Option Amount :=
  amounts.foldlM (add bounds) start

theorem accumulate_cons (start amount : Amount) (amounts : List Amount) :
    accumulate bounds start (amount :: amounts) =
      if bounds.Admits (start + amount) then accumulate bounds (start + amount) amounts
      else none := by
  unfold accumulate add
  rw [List.foldlM_cons]
  split_ifs
  · rfl
  · rfl

/-- A register has the sum of the amounts, if all sums on the way are in bounds. -/
theorem accumulate_eq_some_iff {start final : Amount} {amounts : List Amount}
    (starts : bounds.Admits start) :
    accumulate bounds start amounts = some final ↔ final = start + amounts.sum ∧
      ∀ taken, taken <+: amounts → bounds.Admits (start + taken.sum) := by
  induction amounts generalizing start with
  | nil =>
      rw [accumulate, List.foldlM_nil, List.sum_nil, add_zero, Option.pure_def, Option.some.injEq]
      constructor
      · rintro rfl
        refine ⟨rfl, ?_⟩
        intro taken isPrefix
        rw [List.prefix_nil.mp isPrefix, List.sum_nil, add_zero]
        exact starts
      · rintro ⟨rfl, _⟩
        rfl
  | cons amount amounts inductionHypothesis =>
      rw [accumulate_cons, List.sum_cons, ← add_assoc]
      by_cases admitted : bounds.Admits (start + amount)
      · rw [if_pos admitted, inductionHypothesis admitted]
        apply and_congr_right
        intro _
        constructor
        · intro later taken isPrefix
          rcases List.prefix_cons_iff.mp isPrefix with rfl | ⟨rest, rfl, restPrefix⟩
          · rw [List.sum_nil, add_zero]
            exact starts
          · rw [List.sum_cons, ← add_assoc]
            exact later rest restPrefix
        · intro all taken isPrefix
          have whole := all (amount :: taken) (List.cons_prefix_cons.mpr ⟨rfl, isPrefix⟩)
          rwa [List.sum_cons, ← add_assoc] at whole
      · rw [if_neg admitted]
        refine iff_of_false nofun ?_
        rintro ⟨_, all⟩
        have first := all [amount] (List.cons_prefix_cons.mpr ⟨rfl, List.nil_prefix⟩)
        rw [List.sum_singleton] at first
        exact admitted first

/-- Amounts that are added in another order give no other result. -/
theorem eq_of_perm {start first second : Amount} {amounts others : List Amount}
    (starts : bounds.Admits start) (permuted : amounts.Perm others)
    (accumulated : accumulate bounds start amounts = some first)
    (accumulatedOther : accumulate bounds start others = some second) : first = second := by
  rw [((accumulate_eq_some_iff starts).mp accumulated).1,
    ((accumulate_eq_some_iff starts).mp accumulatedOther).1, permuted.sum_eq]

variable [IsOrderedAddMonoid Amount]

/-- The same amount on both sides does not change their order. -/
theorem compare_add_right (first second amount : Amount) :
    compare (first + amount) (second + amount) = compare first second := by
  rw [LinearOrder.compare_eq_compareOfLessAndEq, LinearOrder.compare_eq_compareOfLessAndEq]
  simp only [compareOfLessAndEq, add_lt_add_iff_right, add_left_inj]

/-- Amounts of one sign cannot leave the bounds and come back. -/
theorem admits_of_nonneg {start : Amount} {amounts : List Amount} (starts : bounds.Admits start)
    (nonneg : ∀ amount ∈ amounts, 0 ≤ amount) (ends : bounds.Admits (start + amounts.sum)) :
    ∀ taken, taken <+: amounts → bounds.Admits (start + taken.sum) := by
  rintro taken ⟨rest, rfl⟩
  obtain ⟨nonnegTaken, nonnegRest⟩ := List.forall_mem_append.mp nonneg
  rw [List.sum_append, ← add_assoc] at ends
  constructor
  · exact le_add_of_le_of_nonneg starts.1 (List.sum_nonneg nonnegTaken)
  · exact (le_add_of_nonneg_right (List.sum_nonneg nonnegRest)).trans ends.2

/-- So the order of such amounts does not matter at all. -/
theorem accumulate_perm_of_nonneg {start : Amount} {amounts others : List Amount}
    (starts : bounds.Admits start) (permuted : amounts.Perm others)
    (nonneg : ∀ amount ∈ amounts, 0 ≤ amount) :
    accumulate bounds start amounts = accumulate bounds start others := by
  have nonnegOther : ∀ amount ∈ others, 0 ≤ amount := fun amount membership =>
    nonneg amount (permuted.mem_iff.mpr membership)
  apply Option.ext
  intro final
  rw [accumulate_eq_some_iff starts, accumulate_eq_some_iff starts, permuted.sum_eq]
  apply and_congr_right
  intro _
  constructor
  · intro all
    apply admits_of_nonneg starts nonnegOther
    rw [← permuted.sum_eq]
    exact all amounts (List.prefix_refl amounts)
  · intro all
    apply admits_of_nonneg starts nonneg
    rw [permuted.sum_eq]
    exact all others (List.prefix_refl others)

end Accumulation
