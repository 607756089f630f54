import CppCore.Library.Transition
import CppCore.UniqueResource.Model

/-!
# Conservation of handles

Every step of the machine is simulated by steps of a custody ledger.  What the
simulation needs is an invariant of ownership: live objects hold distinct open
handles, and `close` was only called with such handles.
-/

namespace CppCore.UniqueResource

open Custody

variable {Object Handle : Type} [DecidableEq Object] [DecidableEq Handle]
variable {traits : Traits Handle} {machine : Machine Object Handle} {object other : Object}

namespace Machine

def ledger (traits : Traits Handle) (machine : Machine Object Handle) : Ledger Handle where
  acquired := machine.acquired
  owned := machine.owned traits
  closed := machine.closed
  released := machine.released

/-- What live objects other than one of them own. -/
def others (traits : Traits Handle) (object : Object) (machine : Machine Object Handle) :
    Multiset Handle :=
  ∑ other ∈ machine.live.erase object, holding traits (machine.handle other)

@[simp]
theorem holding_invalid (traits : Traits Handle) : holding traits traits.invalid = 0 :=
  if_pos rfl

theorem holding_of_ne {handle : Handle} (valid : handle ≠ traits.invalid) :
    holding traits handle = {handle} := if_neg valid

omit [DecidableEq Handle] in
@[simp]
theorem store_handle_self (object : Object) (handle : Handle) (machine : Machine Object Handle) :
    (machine.store object handle).handle object = handle := Function.update_self ..

omit [DecidableEq Handle] in
theorem store_handle_of_ne (different : other ≠ object) (handle : Handle)
    (machine : Machine Object Handle) :
    (machine.store object handle).handle other = machine.handle other :=
  Function.update_of_ne different ..

theorem owned_eq_others (traits : Traits Handle) (live : object ∈ machine.live) :
    machine.owned traits = machine.others traits object + holding traits (machine.handle object) :=
  (Finset.sum_erase_add _ _ live).symm

theorem ledger_eq_others (live : object ∈ machine.live) :
    machine.ledger traits =
      ⟨machine.acquired, machine.others traits object + holding traits (machine.handle object),
        machine.closed, machine.released⟩ := by
  rw [← owned_eq_others traits live]
  rfl

theorem others_store (handle : Handle) :
    (machine.store object handle).others traits object = machine.others traits object := by
  apply Finset.sum_congr rfl
  intro other membership
  rw [store_handle_of_ne (Finset.ne_of_mem_erase membership)]

/-- Assigning a member exchanges what it held for the new handle. -/
theorem owned_store (live : object ∈ machine.live) (handle : Handle) :
    (machine.store object handle).owned traits =
      machine.others traits object + holding traits handle := by
  have stillLive : object ∈ (machine.store object handle).live := live
  rw [owned_eq_others traits stillLive, others_store, store_handle_self]

theorem owned_construct (fresh : object ∉ machine.live) (handle : Handle) :
    (machine.construct object handle).owned traits =
      machine.owned traits + holding traits handle := by
  have live : object ∈ (machine.allocate object).live := Finset.mem_insert_self ..
  have others : (machine.allocate object).others traits object = machine.owned traits := by
    unfold Machine.others allocate
    rw [Finset.erase_insert fresh]
    rfl
  rw [construct, owned_store live, others]

theorem ledger_deallocate (live : object ∈ machine.live)
    (emptied : machine.handle object = traits.invalid) :
    (machine.deallocate object).ledger traits = machine.ledger traits := by
  rw [ledger_eq_others live, emptied, holding_invalid, add_zero]
  rfl

omit [DecidableEq Object] in
theorem closed_close (handle : Handle) :
    (machine.close handle).closed = machine.closed + {handle} := by
  simp only [closed, close, List.map_append, List.map_cons, List.map_nil]
  rfl

/-- `reset` closes what the object held and nothing else. -/
theorem ledger_reset (traits : Traits Handle) (live : object ∈ machine.live) (handle : Handle) :
    (machine.reset traits object handle).ledger traits =
      ⟨machine.acquired, machine.others traits object + holding traits handle,
        machine.closed + holding traits (machine.handle object), machine.released⟩ := by
  unfold reset
  by_cases valid : machine.handle object = traits.invalid
  · simp only [Machine.valid, valid, ne_eq, not_true_eq_false, decide_false, Bool.false_eq_true,
      if_false, holding_invalid, add_zero, ledger, owned_store live]
    rfl
  · have closeLive : object ∈ (machine.close (machine.handle object)).live := live
    simp only [Machine.valid, ne_eq, valid, not_false_eq_true, decide_true, if_true, ledger,
      owned_store closeLive, holding_of_ne valid, ← closed_close]
    rfl

theorem reset_live (object : Object) (handle : Handle) :
    (machine.reset traits object handle).live = machine.live := by
  unfold reset
  by_cases valid : machine.valid traits object = true
  · rw [if_pos valid]
    rfl
  · rw [if_neg valid]
    rfl

theorem owned_release (live : object ∈ machine.live) :
    (machine.release traits object).2.owned traits = machine.others traits object := by
  rw [release, owned_store live, holding_invalid, add_zero]

theorem ledger_release (traits : Traits Handle) (live : object ∈ machine.live) :
    (machine.release traits object).2.ledger traits =
      ⟨machine.acquired, machine.others traits object, machine.closed, machine.released⟩ := by
  rw [← owned_release live]
  rfl

omit [DecidableEq Object] in
theorem ledger_passIn (handle : Handle) :
    (machine.passIn traits handle).ledger traits =
      { machine.ledger traits with acquired := machine.acquired + holding traits handle } := rfl

omit [DecidableEq Object] in
theorem ledger_passOut (handle : Handle) :
    (machine.passOut traits handle).ledger traits =
      { machine.ledger traits with released := machine.released + holding traits handle } := rfl

omit [DecidableEq Handle] in
/-- `swap` permutes the members, also when both objects are the same. -/
theorem swap_handle (lhs rhs : Object) (machine : Machine Object Handle) :
    (machine.swap lhs rhs).handle = machine.handle ∘ Equiv.swap lhs rhs := by
  funext object
  by_cases isRhs : object = rhs
  · subst isRhs
    simp [swap]
  · by_cases isLhs : object = lhs
    · subst isLhs
      simp [swap, store_handle_of_ne isRhs]
    · simp [swap, store_handle_of_ne isRhs, store_handle_of_ne isLhs,
        Equiv.swap_apply_of_ne_of_ne isLhs isRhs]

omit [DecidableEq Handle] in
theorem swap_mem_live {lhs rhs : Object} (lhsLive : lhs ∈ machine.live)
    (rhsLive : rhs ∈ machine.live) :
    Equiv.swap lhs rhs object ∈ machine.live ↔ object ∈ machine.live := by
  by_cases isLhs : object = lhs
  · simp [isLhs, lhsLive, rhsLive]
  · by_cases isRhs : object = rhs
    · simp [isRhs, lhsLive, rhsLive]
    · rw [Equiv.swap_apply_of_ne_of_ne isLhs isRhs]

theorem owned_swap {lhs rhs : Object} (lhsLive : lhs ∈ machine.live)
    (rhsLive : rhs ∈ machine.live) :
    (machine.swap lhs rhs).owned traits = machine.owned traits := by
  apply Finset.sum_equiv (Equiv.swap lhs rhs)
  · intro object
    exact (swap_mem_live lhsLive rhsLive).symm
  · intro object _
    rw [swap_handle]
    rfl

omit [DecidableEq Handle] in
/-- A moved-to constructor can be read as a release followed by a construction. -/
theorem moveConstruct_eq (different : object ≠ other) (machine : Machine Object Handle) :
    machine.moveConstruct traits object other =
      (machine.release traits other).2.construct object (machine.release traits other).1 := by
  have commuted := Function.update_comm different (machine.handle other) traits.invalid
    machine.handle
  simp only [moveConstruct, construct, release, store, allocate]
  rw [commuted]

/-! ## Ownership -/

/-- Live objects hold distinct open handles, and `close` was only called with
valid handles that were open. -/
structure Owning (traits : Traits Handle) (machine : Machine Object Handle) : Prop where
  distinct : ∀ first ∈ machine.live, ∀ second ∈ machine.live,
    machine.handle first ≠ traits.invalid → machine.handle first = machine.handle second →
    first = second
  opened : ∀ object ∈ machine.live,
    machine.handle object ≠ traits.invalid → machine.handle object ∈ machine.opened
  closes : ∀ call ∈ machine.closeCalls, call.handle ≠ traits.invalid ∧ call.wasOpen = true

/-- The part of ownership that does not look at one object. -/
structure OwningExcept (traits : Traits Handle) (object : Object)
    (machine : Machine Object Handle) : Prop where
  distinct : ∀ first ∈ machine.live, ∀ second ∈ machine.live, first ≠ object → second ≠ object →
    machine.handle first ≠ traits.invalid → machine.handle first = machine.handle second →
    first = second
  opened : ∀ other ∈ machine.live, other ≠ object →
    machine.handle other ≠ traits.invalid → machine.handle other ∈ machine.opened
  closes : ∀ call ∈ machine.closeCalls, call.handle ≠ traits.invalid ∧ call.wasOpen = true

omit [DecidableEq Object] [DecidableEq Handle] in
theorem Owning.except (owning : machine.Owning traits) (object : Object) :
    machine.OwningExcept traits object where
  distinct first firstLive second secondLive _ _ := owning.distinct first firstLive second secondLive
  opened other live _ := owning.opened other live
  closes := owning.closes

omit [DecidableEq Object] in
/-- Closing what an object holds harms no other object, since no other holds it. -/
theorem Owning.close (owning : machine.Owning traits) (live : object ∈ machine.live)
    (valid : machine.handle object ≠ traits.invalid) :
    (machine.close (machine.handle object)).OwningExcept traits object where
  distinct first firstLive second secondLive _ _ := owning.distinct first firstLive second secondLive
  opened other otherLive different otherValid := by
    have unequal : machine.handle other ≠ machine.handle object := fun equal =>
      different (owning.distinct other otherLive object live otherValid equal)
    exact Finset.mem_erase.mpr ⟨unequal, owning.opened other otherLive otherValid⟩
  closes call membership := by
    rcases List.mem_append.mp membership with earlier | last
    · exact owning.closes call earlier
    · rw [List.mem_singleton.mp last]
      exact ⟨valid, decide_eq_true (owning.opened object live valid)⟩

omit [DecidableEq Handle] in
theorem OwningExcept.store (owning : machine.OwningExcept traits object) {handle : Handle}
    (fresh : handle ≠ traits.invalid → handle ∈ machine.opened ∧
      ∀ other ∈ machine.live, other ≠ object → machine.handle other ≠ handle) :
    (machine.store object handle).Owning traits where
  distinct first firstLive second secondLive valid equal := by
    by_cases isFirst : first = object
    · by_cases isSecond : second = object
      · rw [isFirst, isSecond]
      · rw [isFirst, store_handle_self] at valid
        rw [isFirst, store_handle_self, store_handle_of_ne isSecond] at equal
        exact absurd equal.symm ((fresh valid).2 second secondLive isSecond)
    · rw [store_handle_of_ne isFirst] at valid equal
      by_cases isSecond : second = object
      · rw [isSecond, store_handle_self] at equal
        exact absurd equal ((fresh (equal ▸ valid)).2 first firstLive isFirst)
      · rw [store_handle_of_ne isSecond] at equal
        exact owning.distinct first firstLive second secondLive isFirst isSecond valid equal
  opened other live valid := by
    by_cases isObject : other = object
    · rw [isObject, store_handle_self] at valid ⊢
      exact (fresh valid).1
    · rw [store_handle_of_ne isObject] at valid ⊢
      exact owning.opened other live isObject valid
  closes := owning.closes

theorem Owning.reset (owning : machine.Owning traits) (live : object ∈ machine.live)
    {handle : Handle} (fresh : machine.Fresh traits handle) :
    (machine.reset traits object handle).Owning traits := by
  unfold Machine.reset
  by_cases valid : machine.handle object = traits.invalid
  · simp only [Machine.valid, valid, ne_eq, not_true_eq_false, decide_false, Bool.false_eq_true,
      if_false]
    exact (owning.except object).store fun handleValid =>
      ⟨(fresh handleValid).1, fun other otherLive _ => (fresh handleValid).2 other otherLive⟩
  · simp only [Machine.valid, ne_eq, valid, not_false_eq_true, decide_true, if_true]
    apply (owning.close live valid).store
    intro handleValid
    have unowned := (fresh handleValid).2
    exact ⟨Finset.mem_erase.mpr ⟨(unowned object live).symm, (fresh handleValid).1⟩,
      fun other otherLive _ => unowned other otherLive⟩

omit [DecidableEq Handle] in
theorem Owning.release (owning : machine.Owning traits) (object : Object) :
    (machine.release traits object).2.Owning traits :=
  (owning.except object).store fun valid => absurd rfl valid

omit [DecidableEq Handle] in
/-- A released handle can be handed to an owner again. -/
theorem Owning.fresh_release (owning : machine.Owning traits) (live : object ∈ machine.live) :
    (machine.release traits object).2.Fresh traits (machine.release traits object).1 := by
  intro valid
  refine ⟨owning.opened object live valid, ?_⟩
  intro other otherLive equal
  by_cases isObject : other = object
  · rw [isObject] at equal
    exact valid ((store_handle_self object traits.invalid machine ▸ equal).symm)
  · have unchanged := store_handle_of_ne isObject traits.invalid machine
    exact isObject (owning.distinct object live other otherLive valid
      (equal.symm.trans unchanged)).symm

omit [DecidableEq Handle] in
theorem Owning.construct (owning : machine.Owning traits) {handle : Handle}
    (fresh : machine.Fresh traits handle) :
    (machine.construct object handle).Owning traits := by
  have allocated : (machine.allocate object).OwningExcept traits object :=
    { distinct := fun first firstLive second secondLive firstOther secondOther =>
        owning.distinct first (Finset.mem_of_mem_insert_of_ne firstLive firstOther)
          second (Finset.mem_of_mem_insert_of_ne secondLive secondOther)
      opened := fun other live different =>
        owning.opened other (Finset.mem_of_mem_insert_of_ne live different)
      closes := owning.closes }
  exact allocated.store fun valid => ⟨(fresh valid).1, fun other live different =>
    (fresh valid).2 other (Finset.mem_of_mem_insert_of_ne live different)⟩

omit [DecidableEq Object] in
theorem Owning.passIn (owning : machine.Owning traits) (handle : Handle) :
    (machine.passIn traits handle).Owning traits :=
  ⟨owning.distinct, owning.opened, owning.closes⟩

omit [DecidableEq Object] in
theorem Owning.passOut (owning : machine.Owning traits) (handle : Handle) :
    (machine.passOut traits handle).Owning traits :=
  ⟨owning.distinct, owning.opened, owning.closes⟩

omit [DecidableEq Handle] in
theorem Owning.deallocate (owning : machine.Owning traits) (object : Object) :
    (machine.deallocate object).Owning traits where
  distinct first firstLive second secondLive :=
    owning.distinct first (Finset.mem_of_mem_erase firstLive)
      second (Finset.mem_of_mem_erase secondLive)
  opened other live := owning.opened other (Finset.mem_of_mem_erase live)
  closes := owning.closes

omit [DecidableEq Handle] in
theorem Owning.swap (owning : machine.Owning traits) {lhs rhs : Object}
    (lhsLive : lhs ∈ machine.live) (rhsLive : rhs ∈ machine.live) :
    (machine.swap lhs rhs).Owning traits where
  distinct first firstLive second secondLive valid equal := by
    rw [swap_handle] at valid equal
    exact (Equiv.swap lhs rhs).injective (owning.distinct
      _ ((swap_mem_live lhsLive rhsLive).mpr firstLive)
      _ ((swap_mem_live lhsLive rhsLive).mpr secondLive) valid equal)
  opened object live valid := by
    rw [swap_handle] at valid ⊢
    exact owning.opened _ ((swap_mem_live lhsLive rhsLive).mpr live) valid
  closes := owning.closes

omit [DecidableEq Object] [DecidableEq Handle] in
theorem fresh_invalid (machine : Machine Object Handle) :
    machine.Fresh traits traits.invalid := fun valid => absurd rfl valid

end Machine

open Machine

theorem Step.owning {before after : Machine Object Handle} {action : Action Object Handle}
    (step : Step traits before action after) (owning : before.Owning traits) :
    after.Owning traits := by
  cases step with
  | defaultConstruct isNew => exact owning.construct (fresh_invalid before)
  | construct isNew fresh => exact (owning.construct fresh).passIn _
  | @moveConstruct object other isNew otherLive =>
      have different : object ≠ other := fun equal => isNew (equal ▸ otherLive)
      rw [moveConstruct_eq different]
      exact (owning.release other).construct (owning.fresh_release otherLive)
  | @moveAssign object other live otherLive =>
      unfold Machine.moveAssign
      by_cases different : object ≠ other
      · rw [if_pos different]
        exact (owning.release other).reset live (owning.fresh_release otherLive)
      · rw [if_neg different]
        exact owning
  | resetTo live fresh => exact (owning.reset live fresh).passIn _
  | reset live => exact owning.reset live (fresh_invalid before)
  | release live => exact (owning.release _).passOut _
  | swap lhsLive rhsLive => exact owning.swap lhsLive rhsLive
  | destroy live => exact (owning.reset live (fresh_invalid before)).deallocate _
  | systemOpen closed =>
      exact ⟨owning.distinct, fun object live valid =>
        Finset.mem_insert_of_mem (owning.opened object live valid), owning.closes⟩
  | systemClose unowned =>
      exact ⟨owning.distinct, fun object live valid =>
        Finset.mem_erase.mpr ⟨unowned object live, owning.opened object live valid⟩,
        owning.closes⟩

/-- Every step moves handles through the ledger one place at a time. -/
theorem Step.simulated {before after : Machine Object Handle} {action : Action Object Handle}
    (step : Step traits before action after) :
    Steps (before.ledger traits) (after.ledger traits) := by
  cases step with
  | @defaultConstruct object isNew =>
      have same : (before.defaultConstruct traits object).owned traits = before.owned traits := by
        rw [Machine.defaultConstruct, owned_construct isNew, holding_invalid, add_zero]
      simp only [ledger, same]
      exact .refl
  | @construct object handle isNew fresh =>
      have owned : ((before.construct object handle).passIn traits handle).owned traits =
          before.owned traits + holding traits handle := owned_construct isNew handle
      simp only [ledger, owned]
      exact .single (.acquire ..)
  | @moveConstruct object other isNew otherLive =>
      have different : object ≠ other := fun equal => isNew (equal ▸ otherLive)
      have isNewAfter : object ∉ (before.release traits other).2.live := isNew
      have same : (before.moveConstruct traits object other).owned traits =
          before.owned traits := by
        rw [moveConstruct_eq different, owned_construct isNewAfter, owned_release otherLive,
          owned_eq_others traits otherLive]
        rfl
      simp only [ledger, same]
      exact .refl
  | @moveAssign object other live otherLive =>
      unfold Machine.moveAssign
      by_cases different : object ≠ other
      · have stillLive : object ∈ (before.release traits other).2.live := live
        have emptied := owned_eq_others traits stillLive
        have owned : before.owned traits =
            (before.release traits other).2.others traits object +
              holding traits (before.handle other) +
              holding traits ((before.release traits other).2.handle object) := by
          rw [owned_eq_others traits otherLive, ← owned_release otherLive, emptied,
            add_right_comm]
        rw [if_pos different, ledger_reset traits stillLive, ledger, owned]
        exact .single (.close ..)
      · rw [if_neg different]
  | @resetTo object handle live fresh =>
      have passedIn : ((before.reset traits object handle).passIn traits handle).ledger traits =
          ⟨before.acquired + holding traits handle,
            before.others traits object + holding traits handle,
            before.closed + holding traits (before.handle object), before.released⟩ := by
        have acquired := congrArg Ledger.acquired (ledger_reset traits live handle)
        rw [ledger_passIn, ledger_reset traits live handle]
        exact congrArg (fun acquired => Ledger.mk (acquired + holding traits handle) _ _ _) acquired
      rw [ledger_eq_others live, passedIn]
      exact .tail (.single (.close ..)) (.acquire ..)
  | @reset object live =>
      rw [ledger_eq_others live, ledger_reset traits live, holding_invalid, add_zero]
      exact .single (.close ..)
  | @release object live =>
      rw [ledger_eq_others live, ledger_passOut, ledger_release traits live]
      exact .single (.release ..)
  | @swap lhs rhs lhsLive rhsLive =>
      simp only [ledger, owned_swap lhsLive rhsLive]
      exact .refl
  | @destroy object live =>
      have stillLive : object ∈ (before.reset traits object traits.invalid).live := by
        rwa [reset_live]
      have emptied : (before.reset traits object traits.invalid).handle object = traits.invalid :=
        store_handle_self ..
      rw [Machine.destroy, ledger_deallocate stillLive emptied, ledger_eq_others live,
        ledger_reset traits live, holding_invalid, add_zero]
      exact .single (.close ..)
  | systemOpen closed => exact .refl
  | systemClose unowned => exact .refl

/-- A program that starts without objects loses and duplicates no handle,
whatever it does with them and in whatever order. -/
theorem handles_conserved {memory : Object → Handle} {opened : Finset Handle}
    {actions : List (Action Object Handle)} {machine : Machine Object Handle}
    (run : Transition.Run (Step traits) (Machine.initial memory opened) actions machine) :
    machine.acquired = machine.owned traits + machine.closed + machine.released ∧
    (∀ first ∈ machine.live, ∀ second ∈ machine.live,
      machine.handle first ≠ traits.invalid → machine.handle first = machine.handle second →
      first = second) ∧
    (∀ call ∈ machine.closeCalls, call.handle ≠ traits.invalid ∧ call.wasOpen = true) ∧
    (machine.live = ∅ → machine.acquired = machine.closed + machine.released) := by
  have initially : (Machine.initial memory opened).Owning traits :=
    ⟨fun _ live => absurd live (Finset.notMem_empty _),
      fun _ live => absurd live (Finset.notMem_empty _),
      fun _ membership => absurd membership List.not_mem_nil⟩
  have owning : machine.Owning traits := run.invariant (fun step owning => step.owning owning) initially
  have steps := run.simulates (fun step owning => step.owning owning)
    (fun step _ => step.simulated) initially
  have balanced : (machine.ledger traits).Balanced := Steps.balanced steps rfl
  refine ⟨balanced, owning.distinct, owning.closes, ?_⟩
  intro destroyed
  have nothing : machine.owned traits = 0 := by
    unfold owned
    rw [destroyed, Finset.sum_empty]
  have conserved : machine.acquired =
      machine.owned traits + machine.closed + machine.released := balanced
  rw [conserved, nothing, zero_add]

/-- Two owners, and a move that closes what the first one owned. The system opens the same handle
value again; the handle that the first owner releases is handed to the second one. -/
def twoOwners : List (Action Nat Int) :=
  [.construct 0 3, .construct 1 4, .moveAssign 0 1, .systemOpen 3, .release 0, .resetTo 1 4,
    .resetTo 0 3, .destroy 0, .destroy 1]

theorem handles_conserved_twoOwners : ∃ last : Machine Nat Int,
    Transition.Run (Step ⟨-1⟩) (Machine.initial (fun _ => -1) {3, 4}) twoOwners last ∧
    last.closeCalls = [⟨3, true⟩, ⟨3, true⟩, ⟨4, true⟩] ∧ last.released = {4} ∧
    last.acquired = last.closed + last.released := by
  have run : ∃ last : Machine Nat Int,
      Transition.Run (Step ⟨-1⟩) (Machine.initial (fun _ => -1) {3, 4}) twoOwners last ∧
      last.closeCalls = [⟨3, true⟩, ⟨3, true⟩, ⟨4, true⟩] ∧ last.released = {4} ∧
      last.live = ∅ :=
    ⟨_, .cons (.construct (by decide) fun _ => ⟨by decide, by decide⟩)
      (.cons (.construct (by decide) fun _ => ⟨by decide, by decide⟩)
        (.cons (.moveAssign (by decide) (by decide))
          (.cons (.systemOpen (by decide))
            (.cons (.release (by decide))
              (.cons (.resetTo (by decide) fun _ => ⟨by decide, by decide⟩)
                (.cons (.resetTo (by decide) fun _ => ⟨by decide, by decide⟩)
                  (.cons (.destroy (by decide)) (.cons (.destroy (by decide)) (.refl _))))))))),
      by decide, by decide, by decide⟩
  obtain ⟨last, run, calls, released, destroyed⟩ := run
  exact ⟨last, run, calls, released, (handles_conserved run).2.2.2 destroyed⟩

end CppCore.UniqueResource
