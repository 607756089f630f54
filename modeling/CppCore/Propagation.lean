import CppCore.Result

/-!
# Two styles of error propagation

Operations on a shared state are run either as a `Result` pipeline that is
converted once, or as `chainStatus` over callables that report on their own.
Both refine one abstract run, which stops at the first failure.
-/

namespace CppCore

open StatusCodes

/-- A failure with a code that `int` holds, as every code of `StatusCode` does. -/
structure Failure where
  code : ValueType
  message : String
  lower : -2 ^ 31 ≤ code.toInt
  negative : code.toInt ≤ -1

def Failure.error (failure : Failure) : Error := ⟨failure.code, failure.message⟩

/-- The state of the operations, with the labels of those run so far. -/
structure Execution (State : Type) where
  state : State
  executed : List Nat

structure Operation (State : Type) where
  label : Nat
  run : State → Option Failure × State

variable {State : Type}

/-- A callback acts on the state of the operations. -/
def onExecution (callback : ErrorCallback State) : ErrorCallback (Execution State) :=
  callback.map fun callback code message execution =>
    { execution with state := callback code message execution.state }

namespace Operation

def execute (operation : Operation State) (world : World (Execution State)) :
    Option Failure × World (Execution State) :=
  let (failure, state) := operation.run world.state.state
  (failure, { world with state := ⟨state, world.state.executed ++ [operation.label]⟩ })

def status (operation : Operation State) (world : World (Execution State)) :
    Status × World (Execution State) :=
  match operation.execute world with
  | (none, world) => (ok (), world)
  | (some failure, world) => (fail failure.code failure.message, world)

/-- The operation as a callable of `chainStatus`. -/
def callable (callback : ErrorCallback State) (operation : Operation State)
    (world : World (Execution State)) : Int32 × World (Execution State) :=
  match operation.execute world with
  | (none, world) => (0, world)
  | (some failure, world) =>
      failMsg .int (onExecution callback) failure.code failure.message world

theorem callable_of_success (callback : ErrorCallback State) {operation : Operation State}
    {world after : World (Execution State)} (executed : operation.execute world = (none, after)) :
    operation.callable callback world = (0, after) := by
  simp [callable, executed]

theorem callable_of_failure (callback : ErrorCallback State) {operation : Operation State}
    {world after : World (Execution State)} {failure : Failure}
    (executed : operation.execute world = (some failure, after)) :
    operation.callable callback world =
      failMsg .int (onExecution callback) failure.code failure.message after := by
  simp [callable, executed]

@[simp]
theorem execute_calls (operation : Operation State) (world : World (Execution State)) :
    (operation.execute world).2.calls = world.calls := rfl

end Operation

/-- The ways to write a pipeline of results: an operation, `and_then`, and a
function that calls another one and returns early with `forwardUnexpected`. -/
inductive Pipeline (State : Type) where
  | success
  | single (operation : Operation State)
  | andThen (first next : Pipeline State)
  | earlyReturn (inner rest : Pipeline State)

namespace Pipeline

def operations : Pipeline State → List (Operation State)
  | success => []
  | single operation => [operation]
  | andThen first next => first.operations ++ next.operations
  | earlyReturn inner rest => inner.operations ++ rest.operations

def run : Pipeline State → World (Execution State) → Status × World (Execution State)
  | success, world => (ok (), world)
  | single operation, world => operation.status world
  | andThen first next, world =>
      let (result, world) := first.run world
      result.andThen next.run world
  | earlyReturn inner rest, world =>
      let (result, world) := inner.run world
      if failed : result.hasValue = false then
        (forwardUnexpected result failed, world)
      else
        rest.run world

/-- `op1().and_then(op2).and_then(op3)`. -/
def andThenChain (operations : List (Operation State)) : Pipeline State :=
  operations.foldl (fun pipeline next => andThen pipeline (single next)) success

/-- One function that checks the result of each operation in turn. -/
def earlyReturns : List (Operation State) → Pipeline State
  | [] => success
  | first :: rest => earlyReturn (single first) (earlyReturns rest)

/-- A number of enclosing functions that only forward the result. -/
def enclosed (pipeline : Pipeline State) : Nat → Pipeline State
  | 0 => pipeline
  | depth + 1 => earlyReturn (enclosed pipeline depth) success

end Pipeline

def runResultStyle (callback : ErrorCallback State) (pipeline : Pipeline State)
    (world : World (Execution State)) : Int32 × World (Execution State) :=
  let (result, world) := pipeline.run world
  toCStatus result (onExecution callback) world

def runStatusStyle (callback : ErrorCallback State) (operations : List (Operation State))
    (world : World (Execution State)) : Int32 × World (Execution State) :=
  chainStatus (operations.map (Operation.callable callback)) world

/-- The abstract run: operations in order up to the first failure. -/
def firstFailure : List (Operation State) → World (Execution State) →
    Option Failure × World (Execution State)
  | [], world => (none, world)
  | operation :: rest, world =>
      match operation.execute world with
      | (some failure, world) => (some failure, world)
      | (none, world) => firstFailure rest world

/-- What a caller of the C interface sees of an abstract run. -/
def reportFailure (callback : ErrorCallback State) :
    Option Failure × World (Execution State) → Int32 × World (Execution State)
  | (none, world) => (0, world)
  | (some failure, world) =>
      (failure.code.toInt32,
        invokeError (onExecution callback) failure.code failure.message world)

/-- The callback calls a caller sees for the outcome of an abstract run. -/
def callsFor (callback : ErrorCallback State) : Option Failure → List ErrorCall
  | none => []
  | some failure =>
      if callback.isSome then [⟨failure.code.toInt32, cString failure.message⟩] else []

theorem firstFailure_append (first second : List (Operation State))
    (world : World (Execution State)) :
    firstFailure (first ++ second) world =
      match firstFailure first world with
      | (some failure, world) => (some failure, world)
      | (none, world) => firstFailure second world := by
  induction first generalizing world with
  | nil => rfl
  | cons operation rest inductionHypothesis =>
      simp only [List.cons_append, firstFailure]
      rcases operation.execute world with ⟨failure | failure, after⟩
      · exact inductionHypothesis after
      · rfl

theorem firstFailure_calls (operations : List (Operation State))
    (world : World (Execution State)) :
    (firstFailure operations world).2.calls = world.calls := by
  induction operations generalizing world with
  | nil => rfl
  | cons operation rest inductionHypothesis =>
      have executed := operation.execute_calls world
      rcases outcome : operation.execute world with ⟨failure | failure, after⟩ <;>
        simp only [firstFailure, outcome] at executed ⊢
      · exact (inductionHypothesis after).trans executed
      · exact executed

theorem Failure.toInt32_neg (failure : Failure) : failure.code.toInt32 < 0 := by
  have kept := (CheckedInt.toInt32_toInt_eq_iff failure.code).mpr
    ⟨failure.lower, by have := failure.negative; omega⟩
  have negative := failure.negative
  rw [Int32.lt_iff_toInt_lt, kept]
  simpa using (by omega : failure.code.toInt < 0)

namespace Pipeline

@[simp]
theorem andThenChain_operations (operations : List (Operation State)) :
    (andThenChain operations).operations = operations := by
  have folded : ∀ (pipeline : Pipeline State),
      (operations.foldl (fun pipeline next => andThen pipeline (single next))
        pipeline).operations = pipeline.operations ++ operations := by
    induction operations with
    | nil => simp
    | cons next rest inductionHypothesis =>
        intro pipeline
        simp [inductionHypothesis, Pipeline.operations]
  exact folded success

@[simp]
theorem earlyReturns_operations (operations : List (Operation State)) :
    (earlyReturns operations).operations = operations := by
  induction operations with
  | nil => rfl
  | cons first rest inductionHypothesis =>
      simp [earlyReturns, Pipeline.operations, inductionHypothesis]

@[simp]
theorem enclosed_operations (pipeline : Pipeline State) (depth : Nat) :
    (pipeline.enclosed depth).operations = pipeline.operations := by
  induction depth with
  | zero => rfl
  | succ depth inductionHypothesis =>
      simp [enclosed, Pipeline.operations, inductionHypothesis]

theorem run_earlyReturn_of_ok {inner rest : Pipeline State} {world after : World (Execution State)}
    (succeeded : inner.run world = (.ok (), after)) :
    (earlyReturn inner rest).run world = rest.run after := by
  simp [run, succeeded, Result.hasValue]

theorem run_earlyReturn_of_error {inner rest : Pipeline State}
    {world after : World (Execution State)} {error : Error}
    (failed : inner.run world = (.error error, after)) :
    (earlyReturn inner rest).run world = (.error error, after) := by
  simp only [run, failed]
  exact dif_pos rfl

/-- Every pipeline is the abstract run of its operations, with the first
failure forwarded unchanged. -/
theorem run_refines (pipeline : Pipeline State) (world : World (Execution State)) :
    pipeline.run world =
      match firstFailure pipeline.operations world with
      | (some failure, world) => (.error failure.error, world)
      | (none, world) => (.ok (), world) := by
  induction pipeline generalizing world with
  | success => rfl
  | single operation =>
      simp only [run, Operation.status, operations, firstFailure]
      rcases operation.execute world with ⟨failure | failure, after⟩ <;> rfl
  | andThen first next firstRefines nextRefines =>
      simp only [run, operations, firstFailure_append, firstRefines]
      rcases firstFailure first.operations world with ⟨failure | failure, after⟩
      · exact nextRefines after
      · rfl
  | earlyReturn inner rest innerRefines restRefines =>
      have innerRun := innerRefines world
      simp only [operations, firstFailure_append]
      rcases outcome : firstFailure inner.operations world with ⟨failure | failure, after⟩ <;>
        simp only [outcome] at innerRun ⊢
      · exact (run_earlyReturn_of_ok innerRun).trans (restRefines after)
      · exact run_earlyReturn_of_error innerRun

end Pipeline

theorem runResultStyle_refines (callback : ErrorCallback State) (pipeline : Pipeline State)
    (world : World (Execution State)) :
    runResultStyle callback pipeline world =
      reportFailure callback (firstFailure pipeline.operations world) := by
  simp only [runResultStyle, pipeline.run_refines]
  rcases firstFailure pipeline.operations world with ⟨failure | failure, after⟩
  · rfl
  · simp only [toCStatus, reportError_eq_invokeError]
    rfl

/-- The fold keeps the result of the last callable, which is `0` after every
operation that succeeds. -/
theorem runStatusStyle_refines (callback : ErrorCallback State)
    (operations : List (Operation State)) (world : World (Execution State)) :
    runStatusStyle callback operations world =
      reportFailure callback (firstFailure operations world) := by
  unfold runStatusStyle chainStatus
  induction operations generalizing world with
  | nil => rfl
  | cons operation rest inductionHypothesis =>
      rcases executed : operation.execute world with ⟨failure | failure, after⟩
      · have called := Operation.callable_of_success callback executed
        have passed : ¬ (0 : Int32) < 0 := by decide
        rw [List.map_cons, chainStatusFrom_continue _ _ _ _ (by rwa [called]), called]
        simpa [firstFailure, executed] using inductionHypothesis after
      · have called := Operation.callable_of_failure callback executed
        rw [List.map_cons, chainStatusFrom_stop _ _ _ _
          (by rw [called]; exact failure.toInt32_neg), called]
        simp [firstFailure, executed, reportFailure, failMsg, StatusConvertible.staticCast]

theorem reportFailure_calls (callback : ErrorCallback State) (failure : Option Failure)
    (world : World (Execution State)) :
    (reportFailure callback (failure, world)).2.calls =
      world.calls ++ callsFor callback failure := by
  cases failure with
  | none => simp [reportFailure, callsFor]
  | some failure => cases callback <;> simp [reportFailure, callsFor, onExecution]

/-- Whichever way a list of operations is written as a pipeline, converting its
result once is observationally the same as chaining callables that report on
their own: operations run, final state, returned `int` and callback calls. -/
theorem propagation_styles_agree (operations : List (Operation State)) :
    (Pipeline.andThenChain operations).operations = operations ∧
    (∀ depth, ((Pipeline.earlyReturns operations).enclosed depth).operations = operations) ∧
    ∀ (pipeline : Pipeline State) (callback : ErrorCallback State)
      (world : World (Execution State)), pipeline.operations = operations →
      runResultStyle callback pipeline world = runStatusStyle callback operations world ∧
      (runStatusStyle callback operations world).1 =
        ((firstFailure operations world).1.elim 0 fun failure => failure.code.toInt32) ∧
      (runStatusStyle callback operations world).2.calls =
        world.calls ++ callsFor callback (firstFailure operations world).1 := by
  refine ⟨by simp, by simp, ?_⟩
  rintro pipeline callback world rfl
  rw [runResultStyle_refines, runStatusStyle_refines]
  refine ⟨rfl, ?_, ?_⟩
  · rcases firstFailure pipeline.operations world with ⟨failure | failure, after⟩ <;> rfl
  · rw [← firstFailure_calls pipeline.operations world, ← reportFailure_calls]

/-- The second operation fails, so that the third one is not run. -/
def readOperations : List (Operation Nat) :=
  [⟨1, fun count => (none, count + 1)⟩,
    ⟨2, fun count => (some ⟨-300, "Read failed", by decide, by decide⟩, count + 10)⟩,
    ⟨3, fun count => (none, count + 100)⟩]

/-- The first result is checked, and the others are chained by `and_then`. -/
def readPipeline : Pipeline Nat :=
  .earlyReturn (.andThenChain (readOperations.take 1)) (.andThenChain (readOperations.drop 1))

/-- The callback multiplies what the operations have counted. -/
theorem propagation_styles_agree_readError :
    let callback : ErrorCallback Nat := some fun _ _ count => count * 1000
    let status := runStatusStyle callback readOperations ⟨⟨0, []⟩, []⟩
    runResultStyle callback readPipeline ⟨⟨0, []⟩, []⟩ = status ∧ status.1 = -300 ∧
      status.2.calls = [⟨-300, "Read failed"⟩] ∧ status.2.state = ⟨11000, [1, 2]⟩ := by
  intro callback status
  obtain ⟨same, returned, calls⟩ :=
    (propagation_styles_agree readOperations).2.2 readPipeline callback ⟨⟨0, []⟩, []⟩ rfl
  exact ⟨same, returned, calls, rfl⟩

end CppCore
