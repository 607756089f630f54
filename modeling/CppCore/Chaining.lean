import CppCore.ErrorHandling

/-!
# Chains of status codes

`chainStatus` is run on callables that record their own calls.  The record shows
which of them are called, in which order, and what they return.
-/

namespace CppCore.Chaining

variable {State : Type}

abbrev Callable (State : Type) := World State → Int32 × World State

/-- A state with the calls made so far: what was returned, and by which callable. -/
structure Recorded (State : Type) where
  state : State
  chainCalls : List (Int32 × Nat)

def startRecord (world : World State) : World (Recorded State) :=
  ⟨⟨world.state, []⟩, world.calls⟩

def forgetRecord (world : World (Recorded State)) : World State :=
  ⟨world.state.state, world.calls⟩

/-- The callable at an index of the chain, with the record of its call. -/
def recordCall (index : Nat) (fn : Callable State) : Callable (Recorded State) := fun world =>
  let (result, after) := fn (forgetRecord world)
  (result, ⟨⟨after.state, world.state.chainCalls ++ [(result, index)]⟩, after.calls⟩)

def recordCallsFrom (index : Nat) (fns : List (Callable State)) :
    List (Callable (Recorded State)) :=
  (fns.zipIdx index).map fun (fn, position) => recordCall position fn

def recordCalls (fns : List (Callable State)) : List (Callable (Recorded State)) :=
  recordCallsFrom 0 fns

/-- What the callables return up to the first error. -/
def returned : List (Callable State) → World State → List Int32
  | [], _ => []
  | fn :: fns, world =>
      let (result, after) := fn world
      result :: if result < 0 then [] else returned fns after

theorem returned_stop {fn : Callable State} {world : World State} (failed : (fn world).1 < 0)
    (fns : List (Callable State)) : returned (fn :: fns) world = [(fn world).1] := by
  simp only [returned, if_pos failed]

theorem returned_continue {fn : Callable State} {world : World State}
    (passed : ¬ (fn world).1 < 0) (fns : List (Callable State)) :
    returned (fn :: fns) world = (fn world).1 :: returned fns (fn world).2 := by
  simp only [returned, if_neg passed]

/-- Recording changes neither the result nor the state, and records what is returned. -/
theorem chainStatusFrom_record (result : Int32) (fns : List (Callable State)) (index : Nat)
    (world : World (Recorded State)) :
    chainStatusFrom result (recordCallsFrom index fns) world =
      let outcome := chainStatusFrom result fns (forgetRecord world)
      (outcome.1, ⟨⟨outcome.2.state,
        world.state.chainCalls ++ (returned fns (forgetRecord world)).zipIdx index⟩,
        outcome.2.calls⟩) := by
  induction fns generalizing result index world with
  | nil => simp [recordCallsFrom, chainStatusFrom, returned, forgetRecord]
  | cons fn fns inductionHypothesis =>
      have recorded : recordCallsFrom index (fn :: fns) =
          recordCall index fn :: recordCallsFrom (index + 1) fns := rfl
      rw [recorded]
      by_cases failed : (fn (forgetRecord world)).1 < 0
      · have failedRecorded : (recordCall index fn world).1 < 0 := failed
        rw [chainStatusFrom_stop _ _ _ _ failedRecorded, chainStatusFrom_stop _ _ _ _ failed,
          returned_stop failed]
        rfl
      · have passedRecorded : ¬ (recordCall index fn world).1 < 0 := failed
        rw [chainStatusFrom_continue _ _ _ _ passedRecorded, inductionHypothesis,
          chainStatusFrom_continue _ _ _ _ failed, returned_continue failed]
        simp [recordCall, forgetRecord]

/-- A callable is called exactly when every earlier one returned no error. -/
theorem called_iff (fns : List (Callable State)) (world : World State) {index : Nat}
    (inChain : index < fns.length) :
    index < (returned fns world).length ↔
      ∀ earlier < index, ∃ value, (returned fns world)[earlier]? = some value ∧ 0 ≤ value := by
  induction fns generalizing world index with
  | nil => cases inChain
  | cons fn fns inductionHypothesis =>
      cases index with
      | zero => simp [returned]
      | succ index =>
          have inRest : index < fns.length := Nat.lt_of_succ_lt_succ inChain
          by_cases failed : (fn world).1 < 0
          · rw [returned_stop failed]
            constructor
            · intro called
              simp at called
            · intro passed
              obtain ⟨value, isFirst, notNegative⟩ := passed 0 (Nat.succ_pos _)
              cases isFirst
              exact absurd failed (Int32.not_lt.mpr notNegative)
          · have notNegative : 0 ≤ (fn world).1 := Int32.not_lt.mp failed
            rw [returned_continue failed, List.length_cons, Nat.add_lt_add_iff_right,
              inductionHypothesis (fn world).2 inRest]
            constructor
            · intro passed earlier before
              cases earlier with
              | zero => exact ⟨(fn world).1, rfl, notNegative⟩
              | succ earlier => exact passed earlier (Nat.lt_of_succ_lt_succ before)
            · intro passed earlier before
              exact passed (earlier + 1) (Nat.succ_lt_succ before)

/-- Without an error the whole chain is called. -/
theorem length_returned {fns : List (Callable State)} {world : World State}
    (noError : ∀ value ∈ returned fns world, 0 ≤ value) :
    (returned fns world).length = fns.length := by
  induction fns generalizing world with
  | nil => rfl
  | cons fn fns inductionHypothesis =>
      have passed : ¬ (fn world).1 < 0 := Int32.not_lt.mpr (noError _ List.mem_cons_self)
      rw [returned_continue passed] at noError ⊢
      rw [List.length_cons, List.length_cons,
        inductionHypothesis (List.forall_mem_cons.mp noError).2]

/-- The result is the first error, or else what was returned last. -/
theorem chainStatusFrom_result (result : Int32) (fns : List (Callable State))
    (world : World State) :
    (chainStatusFrom result fns world).1 =
      ((returned fns world).find? (· < 0)).getD ((returned fns world).getLastD result) := by
  induction fns generalizing result world with
  | nil => rfl
  | cons fn fns inductionHypothesis =>
      by_cases failed : (fn world).1 < 0
      · rw [chainStatusFrom_stop _ _ _ _ failed, returned_stop failed,
          List.find?_cons_of_pos (by simpa using failed), Option.getD_some]
      · rw [chainStatusFrom_continue _ _ _ _ failed, returned_continue failed,
          List.find?_cons_of_neg (by simpa using failed), List.getLastD_cons, inductionHypothesis]

/-- The assignment before the first call is overwritten by it. -/
theorem chainStatusFrom_eq_chainStatus {fns : List (Callable State)} (nonempty : fns ≠ [])
    (result : Int32) (world : World State) :
    chainStatusFrom result fns world = chainStatus fns world := by
  cases fns with
  | nil => exact absurd rfl nonempty
  | cons fn fns => rfl

/-- A chain goes on after a part of it that ends without an error. -/
theorem chainStatusFrom_append {result : Int32} (noError : ¬ result < 0)
    (first second : List (Callable State)) (world : World State) :
    chainStatusFrom result (first ++ second) world =
      let outcome := chainStatusFrom result first world
      if outcome.1 < 0 then outcome else chainStatusFrom outcome.1 second outcome.2 := by
  induction first generalizing result world with
  | nil => exact (if_neg noError).symm
  | cons fn first inductionHypothesis =>
      by_cases failed : (fn world).1 < 0
      · simp only [List.cons_append, chainStatusFrom_stop _ _ _ _ failed, if_pos failed]
      · rw [List.cons_append, chainStatusFrom_continue _ _ _ _ failed, inductionHypothesis failed,
          chainStatusFrom_continue _ _ _ _ failed]

theorem chainStatus_append (first : List (Callable State)) {second : List (Callable State)}
    (nonempty : second ≠ []) (world : World State) :
    chainStatus (first ++ second) world =
      let outcome := chainStatus first world
      if outcome.1 < 0 then outcome else chainStatus second outcome.2 := by
  have noError : ¬ (0 : Int32) < 0 := by decide
  unfold chainStatus
  rw [chainStatusFrom_append noError]
  simp only [chainStatusFrom_eq_chainStatus nonempty]

theorem chainStatus_singleton (fn : Callable State) (world : World State) :
    chainStatus [fn] world = fn world := by
  by_cases failed : (fn world).1 < 0
  · exact chainStatusFrom_stop _ _ _ _ failed
  · exact chainStatusFrom_continue _ _ _ _ failed

/-- A chain calls its callables in order up to the first error, returns that error or else the
last result, and can be regrouped. -/
theorem chainStatus_runs_to_first_error :
    (∀ (fns : List (Callable State)) (world : World State),
      let outcome := chainStatus (recordCalls fns) (startRecord world)
      let calls := outcome.2.state.chainCalls
      let results := calls.map Prod.fst
      (outcome.1, forgetRecord outcome.2) = chainStatus fns world ∧
      calls.map Prod.snd = List.range calls.length ∧
      (∀ index < fns.length, index ∈ calls.map Prod.snd ↔
        ∀ earlier < index, ∃ value, (value, earlier) ∈ calls ∧ 0 ≤ value) ∧
      outcome.1 = (results.find? (· < 0)).getD (results.getLastD 0) ∧
      ((∀ value ∈ results, 0 ≤ value) → calls.length = fns.length)) ∧
    ∀ (first second : List (Callable State)) (world : World State), second ≠ [] →
      chainStatus (first ++ second) world = chainStatus (first ++ [chainStatus second]) world ∧
      chainStatus (first ++ second) world = chainStatus (chainStatus first :: second) world := by
  constructor
  · intro fns world
    have recorded := chainStatusFrom_record 0 fns 0 (startRecord world)
    have same : forgetRecord (startRecord world) = world := rfl
    have outcome : chainStatus (recordCalls fns) (startRecord world) =
        ((chainStatus fns world).1, ⟨⟨(chainStatus fns world).2.state,
          (returned fns world).zipIdx⟩, (chainStatus fns world).2.calls⟩) := recorded
    simp only [outcome, List.zipIdx_map_fst, List.zipIdx_map_snd, List.length_zipIdx,
      List.mem_zipIdx_iff_getElem?, List.range_eq_range', List.mem_range'_1, Nat.zero_le,
      true_and, Nat.zero_add]
    refine ⟨rfl, ?_, chainStatusFrom_result 0 fns world, length_returned⟩
    intro index inChain
    exact called_iff fns world inChain
  · intro first second world nonempty
    constructor
    · rw [chainStatus_append first nonempty,
        chainStatus_append first (List.cons_ne_nil _ _)]
      simp only [chainStatus_singleton]
    · have grouped : chainStatus first :: second = [chainStatus first] ++ second := rfl
      rw [grouped, chainStatus_append first nonempty, chainStatus_append _ nonempty,
        chainStatus_singleton]

theorem chainStatus_runs_to_first_error_grouped :
    chainStatus ([fun world => (7, world)] ++ [fun world => (-100, world), fun world => (5, world)])
        (⟨(), []⟩ : World Unit) =
      chainStatus ([fun world => (7, world)] ++
        [chainStatus [fun world => (-100, world), fun world => (5, world)]]) ⟨(), []⟩ :=
  (chainStatus_runs_to_first_error.2 [fun world => (7, world)]
    [fun world => (-100, world), fun world => (5, world)] ⟨(), []⟩ (List.cons_ne_nil _ _)).1

end CppCore.Chaining
