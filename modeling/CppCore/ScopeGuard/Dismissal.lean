import Mathlib.Algebra.Order.BigOperators.Group.Finset
import CppCore.Library.Transition
import CppCore.ScopeGuard.Guards

/-!
# Every action runs once or is dismissed

The steps of the machine are simulated by those of a custody ledger: an action
enters custody when a guard is made for it, and leaves it by running or by being
dismissed.
-/

namespace CppCore.ScopeGuard

open Custody

variable {Object Fn : Type} [DecidableEq Object]
variable {guards : Guards Object Fn} {object other : Object}

namespace Guards

/-- The actions that live guards hold actively. -/
def held (guards : Guards Object Fn) : Multiset Fn :=
  ∑ object ∈ guards.live, guards.holding object

def ledger (guards : Guards Object Fn) : Ledger Fn where
  acquired := guards.created
  owned := guards.held
  closed := guards.calls
  released := guards.dismissed

/-- What live guards other than one of them hold. -/
def heldByOthers (object : Object) (guards : Guards Object Fn) : Multiset Fn :=
  ∑ other ∈ guards.live.erase object, guards.holding other

omit [DecidableEq Object] in
theorem holding_of_active (active : guards.active object = true) :
    guards.holding object = {guards.fn object} := if_pos active

omit [DecidableEq Object] in
theorem holding_of_inactive (inactive : guards.active object = false) :
    guards.holding object = 0 := if_neg (by rw [inactive]; decide)

theorem holding_store_self (object : Object) (fn : Fn) (active : Bool)
    (guards : Guards Object Fn) :
    (guards.store object fn active).holding object = if active then {fn} else 0 := by
  simp only [holding, store, Function.update_self]

theorem holding_store_of_ne (different : other ≠ object) (fn : Fn) (active : Bool)
    (guards : Guards Object Fn) :
    (guards.store object fn active).holding other = guards.holding other := by
  simp only [holding, store, Function.update_of_ne different]

theorem dismiss_eq_store (object : Object) (guards : Guards Object Fn) :
    guards.dismiss object = guards.store object (guards.fn object) false := by
  simp only [dismiss, store, Function.update_eq_self]

theorem held_eq_others (live : object ∈ guards.live) :
    guards.held = guards.heldByOthers object + guards.holding object :=
  (Finset.sum_erase_add _ _ live).symm

theorem heldByOthers_store (fn : Fn) (active : Bool) :
    (guards.store object fn active).heldByOthers object = guards.heldByOthers object := by
  apply Finset.sum_congr rfl
  intro other membership
  exact holding_store_of_ne (Finset.ne_of_mem_erase membership) ..

/-- Assigning the members exchanges what the guard held. -/
theorem held_store (live : object ∈ guards.live) (fn : Fn) (active : Bool) :
    (guards.store object fn active).held =
      guards.heldByOthers object + if active then {fn} else 0 := by
  have stillLive : object ∈ (guards.store object fn active).live := live
  rw [held_eq_others stillLive, heldByOthers_store, holding_store_self]

theorem held_insert_store (isNew : object ∉ guards.live) (fn : Fn) (active : Bool) :
    ({ guards with live := insert object guards.live }.store object fn active).held =
      guards.held + if active then {fn} else 0 := by
  have live : object ∈ ({ guards with live := insert object guards.live }).live :=
    Finset.mem_insert_self ..
  have others : ({ guards with live := insert object guards.live }).heldByOthers object =
      guards.held := by
    unfold heldByOthers held
    rw [Finset.erase_insert isNew]
    rfl
  rw [held_store live, others]

/-- A move leaves what is held unchanged. -/
theorem held_moveConstruct (isNew : object ∉ guards.live) (otherLive : other ∈ guards.live)
    (movedFrom : Fn) : (guards.moveConstruct object other movedFrom).held = guards.held := by
  have different : other ≠ object := fun same => isNew (same ▸ otherLive)
  have stillLive : other ∈ ({ guards with live := insert object guards.live }.store object
      (guards.fn other) (guards.active other)).live := Finset.mem_insert_of_mem otherLive
  have inserted := held_insert_store isNew (guards.fn other) (guards.active other)
  rw [held_eq_others stillLive, holding_store_of_ne different] at inserted
  unfold moveConstruct
  rw [held_store stillLive, if_neg Bool.false_ne_true, add_zero]
  exact add_right_cancel inserted

theorem held_construct (isNew : object ∉ guards.live) (func : Fn) :
    (guards.construct object func).held = guards.held + {func} :=
  held_insert_store isNew func true

theorem held_dismiss (live : object ∈ guards.live) :
    (guards.dismiss object).held = guards.heldByOthers object := by
  rw [dismiss_eq_store, held_store live, if_neg Bool.false_ne_true, add_zero]

/-- Destruction calls what the guard holds. -/
theorem destroy_eq (object : Object) (guards : Guards Object Fn) :
    guards.destroy object =
      { guards with
        live := guards.live.erase object
        calls := guards.calls + guards.holding object } := by
  unfold destroy
  cases active : guards.active object with
  | true => rw [holding_of_active active, if_pos rfl]
  | false => rw [holding_of_inactive active, if_neg Bool.false_ne_true, add_zero]

theorem ledger_eq_others (live : object ∈ guards.live) :
    guards.ledger =
      ⟨guards.created, guards.heldByOthers object + guards.holding object, guards.calls,
        guards.dismissed⟩ := by
  rw [← held_eq_others live]
  rfl

/-- Dismissing a guard that is not active changes nothing. -/
theorem dismiss_of_inactive (inactive : guards.active object = false) :
    guards.dismiss object = guards := by
  unfold dismiss
  rw [← inactive, Function.update_eq_self]

end Guards

open Guards

/-- Every step moves actions through the ledger one place at a time. -/
theorem GuardStep.simulated {before after : Guards Object Fn} {action : GuardAction Object Fn}
    (step : GuardStep before action after) : Steps before.ledger after.ledger := by
  have constructed : ∀ (object : Object) (func : Fn), object ∉ before.live →
      Steps before.ledger ((before.recordCreation func).construct object func).ledger := by
    intro object func isNew
    have isNewAfter : object ∉ (before.recordCreation func).live := isNew
    have held := held_construct isNewAfter func
    unfold ledger
    rw [held]
    exact .single (.acquire ..)
  cases step with
  | @construct object func isNew _ => exact constructed object func isNew
  | @onScopeExit object func isNew _ => exact constructed object func isNew
  | @defer object func isNew _ => exact constructed object func isNew
  | @moveConstruct object other movedFrom isNew otherLive =>
      unfold ledger
      rw [held_moveConstruct isNew otherLive]
      exact .refl
  | @dismiss object live =>
      have liveAfter : object ∈ (before.recordDismissal object).live := live
      have held := held_dismiss liveAfter
      rw [ledger_eq_others live, ledger, held]
      exact .single (.release ..)
  | @destroy object live =>
      rw [ledger_eq_others live, destroy_eq]
      exact .single (.close ..)

/-- A new action gets its guard once. -/
theorem GuardStep.created_nodup {before after : Guards Object Fn} {action : GuardAction Object Fn}
    (step : GuardStep before action after) (nodup : before.created.Nodup) :
    after.created.Nodup := by
  have extended : ∀ func : Fn, func ∉ before.created → (before.created + {func}).Nodup := by
    intro func isNew
    rw [add_comm, Multiset.singleton_add]
    exact Multiset.nodup_cons.mpr ⟨isNew, nodup⟩
  cases step with
  | construct _ isNew => exact extended _ isNew
  | onScopeExit _ isNew => exact extended _ isNew
  | defer _ isNew => exact extended _ isNew
  | moveConstruct _ _ => exact nodup
  | dismiss _ => exact nodup
  | destroy _ =>
      rw [destroy_eq]
      exact nodup

/-- A guard that is not active stays so while it lives. -/
theorem GuardStep.inactive {before after : Guards Object Fn} {action : GuardAction Object Fn}
    {guard : Object} (step : GuardStep before action after) (kept : action ≠ .destroy guard)
    (inactive : guard ∈ before.live ∧ before.active guard = false) :
    guard ∈ after.live ∧ after.active guard = false := by
  obtain ⟨live, notActive⟩ := inactive
  have cleared : ∀ object : Object, Function.update before.active object false guard = false := by
    intro object
    by_cases same : guard = object
    · rw [same, Function.update_self]
    · rw [Function.update_of_ne same, notActive]
  have constructed : ∀ (object : Object) (active : Bool), object ∉ before.live →
      guard ∈ insert object before.live ∧
        Function.update before.active object active guard = false := by
    intro object active isNew
    have different : guard ≠ object := fun same => isNew (same ▸ live)
    exact ⟨Finset.mem_insert_of_mem live, by rw [Function.update_of_ne different, notActive]⟩
  cases step with
  | construct isNew _ => exact constructed _ true isNew
  | onScopeExit isNew _ => exact constructed _ true isNew
  | defer isNew _ => exact constructed _ true isNew
  | @moveConstruct object other movedFrom isNew otherLive =>
      have ⟨liveAfter, notActiveAfter⟩ := constructed object (before.active other) isNew
      refine ⟨liveAfter, ?_⟩
      by_cases same : guard = other
      · subst same
        exact Function.update_self ..
      · exact (Function.update_of_ne same ..).trans notActiveAfter
  | dismiss _ => exact ⟨live, cleared _⟩
  | @destroy object _ =>
      have different : guard ≠ object := fun same => kept (same ▸ rfl)
      rw [destroy_eq]
      exact ⟨Finset.mem_erase.mpr ⟨different, live⟩, notActive⟩

/-- After a move the old guard is stale until it is destroyed: dismissing it changes nothing. -/
theorem dismiss_movedFrom {moved last : Guards Object Fn} {movedFrom : Fn}
    {later : List (GuardAction Object Fn)}
    (move : GuardStep guards (.moveConstruct object other movedFrom) moved)
    (run : Transition.Run GuardStep moved later last)
    (kept : ∀ action ∈ later, action ≠ .destroy other) :
    (last.recordDismissal other).dismiss other = last := by
  have stale : other ∈ moved.live ∧ moved.active other = false := by
    cases move with
    | moveConstruct _ otherLive =>
        exact ⟨Finset.mem_insert_of_mem otherLive, Function.update_self ..⟩
  have ⟨_, inactive⟩ : other ∈ last.live ∧ last.active other = false :=
    run.invariant_of_labels (fun step kept stale => step.inactive kept stale) kept stale
  have recorded : last.recordDismissal other = last := by
    unfold recordDismissal
    rw [holding_of_inactive inactive, add_zero]
  rw [recorded, dismiss_of_inactive inactive]

section Conservation

variable {fn : Object → Fn} {active : Object → Bool} {actions : List (GuardAction Object Fn)}

theorem created_eq (run : Transition.Run GuardStep (Guards.initial fn active) actions guards) :
    guards.created = guards.held + guards.calls + guards.dismissed := by
  have steps := run.simulates (fun _ _ => trivial) (fun step _ => step.simulated) trivial
  have balanced : guards.ledger.Balanced := Steps.balanced steps rfl
  exact balanced

theorem created_nodup (run : Transition.Run GuardStep (Guards.initial fn active) actions guards) :
    guards.created.Nodup :=
  run.invariant (fun step nodup => step.created_nodup nodup) Multiset.nodup_zero

variable [DecidableEq Fn]

/-- Each action is in one place: held by one guard, called once, or dismissed. -/
theorem count_created (run : Transition.Run GuardStep (Guards.initial fn active) actions guards)
    (func : Fn) :
    guards.held.count func + guards.calls.count func + guards.dismissed.count func =
      if func ∈ guards.created then 1 else 0 := by
  rw [← Multiset.count_add, ← Multiset.count_add, ← created_eq run]
  exact Multiset.count_eq_of_nodup (created_nodup run)

/-- Two guards that hold the same action hold it twice. -/
theorem one_lt_count_held {first second : Object} (firstLive : first ∈ guards.live)
    (secondLive : second ∈ guards.live) (firstActive : guards.active first = true)
    (secondActive : guards.active second = true) (same : guards.fn first = guards.fn second)
    (different : first ≠ second) : 1 < guards.held.count (guards.fn first) := by
  have secondAmongOthers : second ∈ guards.live.erase first :=
    Finset.mem_erase.mpr ⟨different.symm, secondLive⟩
  have others : guards.holding second ≤ guards.heldByOthers first :=
    Finset.single_le_sum (fun _ _ => Multiset.zero_le _) secondAmongOthers
  have counted := Multiset.count_le_of_le (guards.fn first) others
  rw [holding_of_active secondActive, ← same, Multiset.count_singleton_self] at counted
  rw [held_eq_others firstLive, Multiset.count_add, holding_of_active firstActive,
    Multiset.count_singleton_self]
  exact Nat.lt_succ_of_le counted

/-- Whatever a program does with its guards, an action is held by one active guard at most, runs
at most once, and has run at the end unless it was dismissed by its active guard. -/
theorem actions_run_once
    (run : Transition.Run GuardStep (Guards.initial fn active) actions guards) :
    (∀ first ∈ guards.live, ∀ second ∈ guards.live,
      guards.isActive first = true → guards.isActive second = true →
      guards.fn first = guards.fn second → first = second) ∧
    (∀ func, guards.calls.count func ≤ 1) ∧
    (∀ func ∉ guards.created, guards.calls.count func = 0) ∧
    (guards.live = ∅ → ∀ func ∈ guards.created,
      guards.calls.count func = if func ∈ guards.dismissed then 0 else 1) ∧
    ∀ (object other : Object) (movedFrom : Fn) (moved last : Guards Object Fn)
      (later : List (GuardAction Object Fn)),
      GuardStep guards (.moveConstruct object other movedFrom) moved →
      Transition.Run GuardStep moved later last →
      (∀ action ∈ later, action ≠ .destroy other) →
      (last.recordDismissal other).dismiss other = last := by
  have count := count_created run
  refine ⟨?_, ?_, ?_, ?_, ?_⟩
  · intro first firstLive second secondLive firstActive secondActive same
    by_contra different
    have twice := one_lt_count_held firstLive secondLive firstActive secondActive same different
    have once := count (guards.fn first)
    split_ifs at once <;> omega
  · intro func
    have once := count func
    split_ifs at once <;> omega
  · intro func unknown
    have once := count func
    rw [if_neg unknown] at once
    omega
  · intro destroyed func created
    have nothing : guards.held.count func = 0 := by
      unfold held
      rw [destroyed, Finset.sum_empty, Multiset.count_zero]
    have once := count func
    rw [if_pos created, nothing, Nat.zero_add] at once
    by_cases dismissed : func ∈ guards.dismissed
    · have counted := Multiset.count_pos.mpr dismissed
      rw [if_pos dismissed]
      omega
    · have counted := Multiset.count_eq_zero.mpr dismissed
      rw [if_neg dismissed]
      omega
  · intro object other movedFrom moved last later move rest kept
    exact dismiss_movedFrom move rest kept

/-- A guard is moved, the old one is dismissed, and both are destroyed: the action runs. -/
theorem actions_run_once_moved :
    let guarded := ((Guards.initial (fun _ : Nat => "") (fun _ => false)).recordCreation
      "cleanup").construct 0 "cleanup"
    let moved := guarded.moveConstruct 1 0 "cleanup"
    let dismissed := (moved.recordDismissal 0).dismiss 0
    let last := (dismissed.destroy 0).destroy 1
    last.calls.count "cleanup" = if "cleanup" ∈ last.dismissed then 0 else 1 :=
  (actions_run_once
    (.cons (.construct (by decide) (by decide))
      (.cons (.moveConstruct (by decide) (by decide))
        (.cons (.dismiss (by decide))
          (.cons (.destroy (by decide))
            (.cons (.destroy (by decide)) (.refl _))))))).2.2.2.1 (by decide) "cleanup" (by decide)

end Conservation

end CppCore.ScopeGuard
