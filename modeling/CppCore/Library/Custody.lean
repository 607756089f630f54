import Mathlib.Algebra.Order.Group.Multiset
import Mathlib.Tactic.Abel
import Mathlib.Logic.Relation

/-!
# Custody ledgers

Items enter custody once, and leave it by being closed or released.  A ledger
counts where the items are; it is balanced when each acquisition is in exactly
one place.
-/

namespace Custody

universe u

variable {Item : Type u}

structure Ledger (Item : Type u) where
  acquired : Multiset Item
  owned : Multiset Item
  closed : Multiset Item
  released : Multiset Item

inductive Step : Ledger Item → Ledger Item → Prop where
  | acquire (acquired owned closed released batch : Multiset Item) :
      Step ⟨acquired, owned, closed, released⟩ ⟨acquired + batch, owned + batch, closed, released⟩
  | close (acquired owned closed released batch : Multiset Item) :
      Step ⟨acquired, owned + batch, closed, released⟩ ⟨acquired, owned, closed + batch, released⟩
  | release (acquired owned closed released batch : Multiset Item) :
      Step ⟨acquired, owned + batch, closed, released⟩ ⟨acquired, owned, closed, released + batch⟩

abbrev Steps : Ledger Item → Ledger Item → Prop := Relation.ReflTransGen Step

def Ledger.Balanced (ledger : Ledger Item) : Prop :=
  ledger.acquired = ledger.owned + ledger.closed + ledger.released

theorem Step.balanced {before after : Ledger Item} (step : Step before after)
    (balanced : before.Balanced) : after.Balanced := by
  unfold Ledger.Balanced at balanced ⊢
  cases step with
  | acquire acquired owned closed released batch =>
      simp only at balanced ⊢
      rw [balanced]
      abel
  | close acquired owned closed released batch =>
      simp only at balanced ⊢
      rw [balanced]
      abel
  | release acquired owned closed released batch =>
      simp only at balanced ⊢
      rw [balanced]
      abel

theorem Steps.balanced {before after : Ledger Item} (steps : Steps before after)
    (balanced : before.Balanced) : after.Balanced := by
  induction steps with
  | refl => exact balanced
  | tail _ step inductionHypothesis => exact step.balanced inductionHypothesis

end Custody
