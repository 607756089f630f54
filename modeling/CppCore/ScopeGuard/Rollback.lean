import CppCore.ScopeGuard.Classification
import CppCore.ScopeGuard.Guards

/-!
# Guards roll back

A block registers an action behind each of its steps, and dismisses the guards
that only a failure should run when all steps are done.  A step that throws is
answered by the actions of the steps before it, the last one first.
-/

namespace CppCore.ScopeGuard

/-- How an action is registered: with a `ScopeGuard` that is dismissed at the end of the block, with
one that is not, or with one of the other guards. -/
inductive Registration where
  | dismissed
  | deferred
  | other (kind : GuardKind)
  deriving DecidableEq

/-- The exits at which the action runs. -/
def Registration.meantFor : Registration → Completion → Bool
  | .dismissed, completion => completion = .exceptional
  | .deferred, _ => true
  | .other kind, completion => kind.meantFor completion

/-- A statement of the block and the guard behind it. -/
structure Stage (Store : Type) where
  perform : Store → Completion × Store
  registration : Registration
  action : Store → Store

/-- What a block works on. Its guards are numbered. -/
structure Frame (Store : Type) where
  guards : Guards Nat (Store → Store)
  store : Store

variable {Store : Type}

namespace Stage

def register (stage : Stage Store) (object : Nat) (guards : Guards Nat (Store → Store)) :
    Guards Nat (Store → Store) :=
  match stage.registration with
  | .dismissed => guards.construct object stage.action
  | .deferred => guards.defer object stage.action
  | .other _ => guards

/-- The destructor of the guard. -/
def destroy (stage : Stage Store) (object : Nat) (exceptionsOnEntry uncaughtExceptions : Int)
    (frame : Frame Store) : Frame Store :=
  match stage.registration with
  | .dismissed | .deferred =>
      ⟨frame.guards.destroy object,
        if frame.guards.isActive object then frame.guards.fn object frame.store else frame.store⟩
  | .other kind =>
      ⟨frame.guards,
        if kind.runsAction exceptionsOnEntry uncaughtExceptions then stage.action frame.store
        else frame.store⟩

/-- The guards to dismiss, with that of the stage. -/
def dismissals (stage : Stage Store) (object : Nat) (earlier : List Nat) : List Nat :=
  if stage.registration = .dismissed then object :: earlier else earlier

end Stage

def dismissAll (objects : List Nat) (guards : Guards Nat (Store → Store)) :
    Guards Nat (Store → Store) :=
  objects.foldl (fun guards object => guards.dismiss object) guards

/-- The rest of a block, from the next guard on. A statement that throws leaves one exception
uncaught while the guards are destroyed. -/
def runStages (uncaughtExceptions : Int) :
    List (Stage Store) → Nat → List Nat → Frame Store → Completion × Frame Store
  | [], _, dismissals, frame =>
      (.normal, { frame with guards := dismissAll dismissals frame.guards })
  | stage :: stages, object, dismissals, frame =>
      match stage.perform frame.store with
      | (.exceptional, store) => (.exceptional, { frame with store })
      | (.normal, store) =>
          let (completion, left) := runStages uncaughtExceptions stages (object + 1)
            (stage.dismissals object dismissals) ⟨stage.register object frame.guards, store⟩
          (completion, stage.destroy object uncaughtExceptions
            (uncaughtExceptions + completion.raised) left)

/-- How far the statements of a block get. -/
structure Attempt (Store : Type) where
  completion : Completion
  done : List (Stage Store)
  store : Store

def attempt : List (Stage Store) → Store → Attempt Store
  | [], store => ⟨.normal, [], store⟩
  | stage :: stages, store =>
      match stage.perform store with
      | (.exceptional, store) => ⟨.exceptional, [], store⟩
      | (.normal, store) =>
          let later := attempt stages store
          { later with done := stage :: later.done }

/-- The actions that are meant for the exit, in reverse order. -/
def Attempt.settled (attempted : Attempt Store) : Store :=
  attempted.done.foldr (fun stage store =>
    if stage.registration.meantFor attempted.completion then stage.action store else store)
    attempted.store

section Attempts

variable {stage : Stage Store} {stages : List (Stage Store)} {store next : Store}

theorem attempt_thrown (thrown : stage.perform store = (.exceptional, next)) :
    attempt (stage :: stages) store = ⟨.exceptional, [], next⟩ := by
  rw [attempt, thrown]

theorem attempt_normal (performed : stage.perform store = (.normal, next)) :
    attempt (stage :: stages) store =
      { attempt stages next with done := stage :: (attempt stages next).done } := by
  rw [attempt, performed]

/-- The action of the first step is the last to run. -/
theorem settled_attempt_normal (performed : stage.perform store = (.normal, next)) :
    (attempt (stage :: stages) store).settled =
      if stage.registration.meantFor (attempt stages next).completion then
        stage.action (attempt stages next).settled
      else (attempt stages next).settled := by
  rw [attempt_normal performed]
  rfl

end Attempts

section Guards

variable {guards : Guards Nat (Store → Store)} {object other : Nat}

theorem dismissAll_fn (objects : List Nat) (guards : Guards Nat (Store → Store)) :
    (dismissAll objects guards).fn = guards.fn := by
  induction objects generalizing guards with
  | nil => rfl
  | cons object objects inductionHypothesis => exact inductionHypothesis (guards.dismiss object)

theorem dismissAll_active (objects : List Nat) (guards : Guards Nat (Store → Store))
    (other : Nat) : (dismissAll objects guards).active other =
      (guards.active other && !objects.contains other) := by
  induction objects generalizing guards with
  | nil => simp [dismissAll]
  | cons object objects inductionHypothesis =>
      have here := inductionHypothesis (guards.dismiss object)
      rw [dismissAll, List.foldl_cons, ← dismissAll, here, Guards.dismiss, List.contains_cons]
      by_cases same : other = object
      · simp [same]
      · simp [same, beq_false_of_ne same]

theorem register_elsewhere (stage : Stage Store) (different : other ≠ object) :
    (stage.register object guards).fn other = guards.fn other ∧
      (stage.register object guards).active other = guards.active other := by
  unfold Stage.register
  split
  · exact ⟨Function.update_of_ne different _ _, Function.update_of_ne different _ _⟩
  · exact ⟨Function.update_of_ne different _ _, Function.update_of_ne different _ _⟩
  · exact ⟨rfl, rfl⟩

theorem destroy_members (stage : Stage Store) (object : Nat) (entry uncaught : Int)
    (frame : Frame Store) :
    (stage.destroy object entry uncaught frame).guards.fn = frame.guards.fn ∧
      (stage.destroy object entry uncaught frame).guards.active = frame.guards.active := by
  unfold Stage.destroy Guards.destroy
  split
  · split_ifs <;> exact ⟨rfl, rfl⟩
  · split_ifs <;> exact ⟨rfl, rfl⟩
  · exact ⟨rfl, rfl⟩

theorem mem_dismissals_of_ne (stage : Stage Store) (different : other ≠ object)
    (earlier : List Nat) :
    (stage.dismissals object earlier).contains other = earlier.contains other := by
  unfold Stage.dismissals
  split_ifs
  · simp [different]
  · rfl

/-- The guards to dismiss are those before the next one. -/
theorem Stage.older_dismissals (stage : Stage Store) {earlier : List Nat}
    (older : ∀ known ∈ earlier, known < object) :
    ∀ known ∈ stage.dismissals object earlier, known < object + 1 := by
  intro known membership
  unfold Stage.dismissals at membership
  split_ifs at membership
  · rcases List.mem_cons.mp membership with rfl | inEarlier
    · exact Nat.lt_succ_self _
    · exact Nat.lt_succ_of_lt (older known inEarlier)
  · exact Nat.lt_succ_of_lt (older known membership)

end Guards

section Runs

variable {uncaughtExceptions : Int} {object other : Nat} {dismissals : List Nat}
  {stage : Stage Store} {stages : List (Stage Store)} {frame left : Frame Store} {store : Store}
  {completion : Completion}

theorem runStages_thrown (thrown : stage.perform frame.store = (.exceptional, store)) :
    runStages uncaughtExceptions (stage :: stages) object dismissals frame =
      (.exceptional, { frame with store }) := by
  rw [runStages, thrown]

theorem runStages_normal (performed : stage.perform frame.store = (.normal, store))
    (ranRest : runStages uncaughtExceptions stages (object + 1) (stage.dismissals object dismissals)
      ⟨stage.register object frame.guards, store⟩ = (completion, left)) :
    runStages uncaughtExceptions (stage :: stages) object dismissals frame =
      (completion, stage.destroy object uncaughtExceptions
        (uncaughtExceptions + completion.raised) left) := by
  rw [runStages, performed]
  simp only [ranRest]

/-- The rest of a block leaves the guards before it alone, until it dismisses some of them. -/
theorem runStages_elsewhere (stages : List (Stage Store)) (older : other < object)
    (frame : Frame Store)
    (ran : runStages uncaughtExceptions stages object dismissals frame = (completion, left)) :
    left.guards.fn other = frame.guards.fn other ∧
      left.guards.active other =
        (frame.guards.active other && !(completion = .normal && dismissals.contains other)) := by
  induction stages generalizing object dismissals frame completion left with
  | nil =>
      cases ran
      refine ⟨congrFun (dismissAll_fn _ _) other, ?_⟩
      rw [dismissAll_active]
      rfl
  | cons stage stages inductionHypothesis =>
      cases performed : stage.perform frame.store with
      | mk thrown store =>
          cases thrown with
          | exceptional =>
              rw [runStages_thrown performed] at ran
              cases ran
              exact ⟨rfl, (Bool.and_true _).symm⟩
          | normal =>
              cases ranRest : runStages uncaughtExceptions stages (object + 1)
                  (stage.dismissals object dismissals)
                  ⟨stage.register object frame.guards, store⟩ with
              | mk completionRest leftRest =>
                  rw [runStages_normal performed ranRest] at ran
                  cases ran
                  have different : other ≠ object := Nat.ne_of_lt older
                  obtain ⟨sameFn, sameActive⟩ :=
                    inductionHypothesis (Nat.lt_succ_of_lt older) _ ranRest
                  obtain ⟨registeredFn, registeredActive⟩ := register_elsewhere stage different
                  obtain ⟨destroyedFn, destroyedActive⟩ := destroy_members stage object
                    uncaughtExceptions (uncaughtExceptions + completion.raised) leftRest
                  rw [destroyedFn, destroyedActive, sameFn, sameActive,
                    mem_dismissals_of_ne stage different, registeredFn, registeredActive]
                  exact ⟨rfl, rfl⟩

/-- The guard of the stage finds at its destruction how the block is being left. -/
theorem destroy_store (uncaughtExceptions : Int) (stage : Stage Store)
    (older : ∀ earlier ∈ dismissals, earlier < object)
    (kept : left.guards.fn object = (stage.register object frame.guards).fn object)
    (dismissed : left.guards.active object =
      ((stage.register object frame.guards).active object &&
        !(completion = .normal && (stage.dismissals object dismissals).contains object))) :
    (stage.destroy object uncaughtExceptions (uncaughtExceptions + completion.raised) left).store =
      if stage.registration.meantFor completion then stage.action left.store else left.store := by
  have notEarlier : dismissals.contains object = false := by
    rw [← Bool.not_eq_true, List.contains_iff_mem]
    exact fun membership => Nat.lt_irrefl object (older object membership)
  unfold Stage.destroy
  cases registered : stage.registration with
  | dismissed =>
      have listed : (stage.dismissals object dismissals).contains object = true := by
        simp [Stage.dismissals, registered]
      simp only [Stage.register, registered, listed, Guards.construct, Guards.store,
        Function.update_self] at kept dismissed
      cases completion with
      | normal => simp [Guards.isActive, dismissed, Registration.meantFor]
      | exceptional => simp [Guards.isActive, dismissed, kept, Registration.meantFor]
  | deferred =>
      have unlisted : (stage.dismissals object dismissals).contains object = false := by
        simpa [Stage.dismissals, registered] using notEarlier
      simp only [Stage.register, registered, unlisted, Guards.defer, Guards.onScopeExit,
        Guards.construct, Guards.store, Function.update_self, Bool.and_false] at kept dismissed
      simp [Guards.isActive, dismissed, kept, Registration.meantFor]
  | other kind =>
      simp only [GuardKind.runsAction_eq]
      rfl

/-- A block runs its statements as far as they get, and then the actions that are meant for the
way it is left. -/
theorem runStages_eq (stages : List (Stage Store))
    (older : ∀ earlier ∈ dismissals, earlier < object) (frame : Frame Store) :
    (runStages uncaughtExceptions stages object dismissals frame).1 =
        (attempt stages frame.store).completion ∧
      (runStages uncaughtExceptions stages object dismissals frame).2.store =
        (attempt stages frame.store).settled := by
  induction stages generalizing object dismissals frame with
  | nil => exact ⟨rfl, rfl⟩
  | cons stage stages inductionHypothesis =>
      cases performed : stage.perform frame.store with
      | mk thrown store =>
          cases thrown with
          | exceptional =>
              rw [runStages_thrown performed, attempt_thrown performed]
              exact ⟨rfl, rfl⟩
          | normal =>
              cases ranRest : runStages uncaughtExceptions stages (object + 1)
                  (stage.dismissals object dismissals)
                  ⟨stage.register object frame.guards, store⟩ with
              | mk completion left =>
                  obtain ⟨sameCompletion, sameStore⟩ := inductionHypothesis
                    (stage.older_dismissals older) ⟨stage.register object frame.guards, store⟩
                  rw [ranRest] at sameCompletion sameStore
                  simp only at sameCompletion sameStore
                  -- The rest of the block only dismisses the guard of this stage, if at all.
                  obtain ⟨kept, dismissed⟩ :=
                    runStages_elsewhere stages (Nat.lt_succ_self object) _ ranRest
                  have destroyed := destroy_store uncaughtExceptions stage older kept dismissed
                  rw [runStages_normal performed ranRest, settled_attempt_normal performed,
                    attempt_normal performed, destroyed, sameCompletion, sameStore]
                  exact ⟨rfl, rfl⟩

end Runs

/-- A whole block, with no guard to dismiss from before. -/
def runBlock (uncaughtExceptions : Int) (stages : List (Stage Store)) (first : Nat)
    (frame : Frame Store) : Completion × Frame Store :=
  runStages uncaughtExceptions stages first [] frame

/-- Only a failure runs the action, and the action takes back what the statement does.  A statement
that throws does nothing. -/
structure Stage.Reversible (stage : Stage Store) : Prop where
  registration : stage.registration = .dismissed ∨ stage.registration = .other .scopeFail
  reverts : ∀ before after, stage.perform before = (.normal, after) → stage.action after = before
  clean : ∀ before after, stage.perform before = (.exceptional, after) → after = before

theorem Stage.Reversible.meantFor {stage : Stage Store} (reversible : stage.Reversible)
    (completion : Completion) :
    stage.registration.meantFor completion = decide (completion = .exceptional) := by
  rcases reversible.registration with registered | registered
  · rw [registered]
    rfl
  · rw [registered]
    rfl

/-- The statements are all done, or all of them are taken back. -/
theorem attempt_reversible (stages : List (Stage Store)) (store : Store)
    (reversible : ∀ stage ∈ stages, stage.Reversible) :
    (attempt stages store).completion = .normal ∧ (attempt stages store).done = stages ∧
        (attempt stages store).settled = (attempt stages store).store ∨
      (attempt stages store).completion = .exceptional ∧
        (attempt stages store).settled = store := by
  induction stages generalizing store with
  | nil => exact .inl ⟨rfl, rfl, rfl⟩
  | cons stage stages inductionHypothesis =>
      obtain ⟨here, later⟩ := List.forall_mem_cons.mp reversible
      cases performed : stage.perform store with
      | mk thrown next =>
          cases thrown with
          | exceptional =>
              rw [attempt_thrown performed]
              exact .inr ⟨rfl, here.clean _ _ performed⟩
          | normal =>
              rw [settled_attempt_normal performed, attempt_normal performed, here.meantFor]
              rcases inductionHypothesis next later with ⟨completed, all, same⟩ | ⟨failed, same⟩
              · refine .inl ⟨completed, congrArg (stage :: ·) all, ?_⟩
                rw [completed, if_neg (by decide), same]
              · refine .inr ⟨failed, ?_⟩
                rw [failed, if_pos (by decide), same]
                exact here.reverts _ _ performed

/-- All actions, in reverse order. -/
def undoAll (stages : List (Stage Store)) (store : Store) : Store :=
  stages.foldr (fun stage store => stage.action store) store

theorem undoAll_attempt (stages : List (Stage Store)) (store : Store)
    (reversible : ∀ stage ∈ stages, stage.Reversible)
    (completed : (attempt stages store).completion = .normal) :
    undoAll stages (attempt stages store).store = store := by
  induction stages generalizing store with
  | nil => rfl
  | cons stage stages inductionHypothesis =>
      obtain ⟨here, later⟩ := List.forall_mem_cons.mp reversible
      cases performed : stage.perform store with
      | mk thrown next =>
          cases thrown with
          | exceptional =>
              rw [attempt_thrown performed] at completed
              cases completed
          | normal =>
              rw [attempt_normal performed] at completed ⊢
              have undone := inductionHypothesis next later completed
              rw [undoAll, List.foldr_cons, ← undoAll, undone]
              exact here.reverts _ _ performed

/-- Stages whose guards run the same action at the same exits. -/
structure Stage.Interchangeable (stage other : Stage Store) : Prop where
  perform : stage.perform = other.perform
  action : stage.action = other.action
  meantFor : ∀ completion,
    stage.registration.meantFor completion = other.registration.meantFor completion

theorem attempt_interchangeable {stages others : List (Stage Store)}
    (same : List.Forall₂ Stage.Interchangeable stages others) (store : Store) :
    (attempt stages store).completion = (attempt others store).completion ∧
      (attempt stages store).settled = (attempt others store).settled := by
  induction same generalizing store with
  | nil => exact ⟨rfl, rfl⟩
  | @cons stage other stages others here _ inductionHypothesis =>
      cases performed : stage.perform store with
      | mk thrown next =>
          have performedOther := performed
          rw [here.perform] at performedOther
          cases thrown with
          | exceptional =>
              rw [attempt_thrown performed, attempt_thrown performedOther]
              exact ⟨rfl, rfl⟩
          | normal =>
              obtain ⟨sameCompletion, sameSettled⟩ := inductionHypothesis next
              rw [settled_attempt_normal performed, settled_attempt_normal performedOther,
                attempt_normal performed, attempt_normal performedOther, sameCompletion,
                sameSettled, here.meantFor, here.action]
              exact ⟨rfl, rfl⟩

/-- A block as a statement of another one. -/
def blockStage (uncaughtExceptions : Int) (stages : List (Stage Store)) (first : Nat)
    (guards : Guards Nat (Store → Store)) : Stage Store where
  perform store :=
    let (completion, left) := runBlock uncaughtExceptions stages first ⟨guards, store⟩
    (completion, left.store)
  registration := .other .scopeFail
  action := undoAll stages

section Blocks

variable {uncaughtExceptions : Int} {stages : List (Stage Store)} {first : Nat}
  {guards : Guards Nat (Store → Store)}

theorem perform_blockStage (store : Store) :
    (blockStage uncaughtExceptions stages first guards).perform store =
      ((attempt stages store).completion, (attempt stages store).settled) := by
  obtain ⟨sameCompletion, sameStore⟩ := runStages_eq stages (List.forall_mem_nil _) ⟨guards, store⟩
  exact Prod.ext sameCompletion sameStore

/-- The block is done as a whole, or nothing of it. -/
theorem perform_blockStage_reversible (reversible : ∀ stage ∈ stages, stage.Reversible)
    (store : Store) :
    (blockStage uncaughtExceptions stages first guards).perform store =
        (.normal, (attempt stages store).store) ∧ (attempt stages store).done = stages ∨
      (blockStage uncaughtExceptions stages first guards).perform store =
        (.exceptional, store) := by
  rw [perform_blockStage]
  rcases attempt_reversible stages store reversible with ⟨completed, all, same⟩ | ⟨failed, same⟩
  · exact .inl ⟨by rw [completed, same], all⟩
  · exact .inr (by rw [failed, same])

theorem reversible_blockStage (reversible : ∀ stage ∈ stages, stage.Reversible) :
    (blockStage uncaughtExceptions stages first guards).Reversible := by
  constructor
  · exact .inr rfl
  · intro before after performed
    rcases perform_blockStage_reversible reversible before with ⟨completed, _⟩ | failed
    · have completion : (attempt stages before).completion = .normal := by
        rw [perform_blockStage] at performed
        exact congrArg Prod.fst performed
      have sameStore : (attempt stages before).store = after :=
        congrArg Prod.snd (completed.symm.trans performed)
      rw [← sameStore]
      exact undoAll_attempt stages before reversible completion
    · cases failed.symm.trans performed
  · intro before after performed
    rcases perform_blockStage_reversible reversible before with ⟨completed, _⟩ | failed
    · cases completed.symm.trans performed
    · exact (congrArg Prod.snd (failed.symm.trans performed)).symm

end Blocks

/-- Whatever is in flight and in the memory, a block runs its statements as far as they get and
then the actions that are meant for the way it is left.  If failures run actions that take back
what the statements do, then the block is done as a whole or not at all, and so is a block of such
blocks.  A guard that is dismissed at the end can be exchanged for one that waits for exceptions. -/
theorem blocks_roll_back (uncaughtExceptions : Int) (stages : List (Stage Store)) (first : Nat)
    (guards : Guards Nat (Store → Store)) :
    (∀ store, (blockStage uncaughtExceptions stages first guards).perform store =
      ((attempt stages store).completion, (attempt stages store).settled)) ∧
    ((∀ stage ∈ stages, stage.Reversible) →
      (blockStage uncaughtExceptions stages first guards).Reversible ∧
      ∀ store, (blockStage uncaughtExceptions stages first guards).perform store =
          (.normal, (attempt stages store).store) ∧ (attempt stages store).done = stages ∨
        (blockStage uncaughtExceptions stages first guards).perform store =
          (.exceptional, store)) ∧
    ∀ others, List.Forall₂ Stage.Interchangeable stages others →
      (blockStage uncaughtExceptions stages first guards).perform =
        (blockStage uncaughtExceptions others first guards).perform := by
  refine ⟨perform_blockStage, ?_, ?_⟩
  · intro reversible
    exact ⟨reversible_blockStage reversible, perform_blockStage_reversible reversible⟩
  · intro others same
    funext store
    obtain ⟨sameCompletion, sameSettled⟩ := attempt_interchangeable same store
    rw [perform_blockStage, perform_blockStage, sameCompletion, sameSettled]

/-- A statement that opens a port, with the guard that closes it again. -/
def openPort (port : Nat) : Stage (List Nat) where
  perform opened := if port ∈ opened then (.exceptional, opened) else (.normal, port :: opened)
  registration := .dismissed
  action opened := opened.tail

theorem reversible_openPort (port : Nat) : (openPort port).Reversible where
  registration := .inl rfl
  reverts before after performed := by
    simp only [openPort] at performed
    split_ifs at performed
    · cases performed
    · cases performed
      rfl
  clean before after performed := by
    simp only [openPort] at performed
    split_ifs at performed
    · cases performed
      rfl
    · cases performed

/-- The third port may be taken. -/
def threePorts : List (Stage (List Nat)) := [openPort 1, openPort 2, openPort 7]

/-- The same statements under guards that wait for exceptions. -/
def threeWaiting : List (Stage (List Nat)) :=
  threePorts.map fun stage => { stage with registration := .other .scopeFail }

/-- With an exception in flight, the first two ports are closed again when the third is taken. -/
theorem blocks_roll_back_threePorts :
    let guards : Guards Nat (List Nat → List Nat) := .initial (fun _ => id) fun _ => true
    let block := blockStage 1 threePorts 0 guards
    block.Reversible ∧ block.perform [7] = (.exceptional, [7]) ∧
      block.perform [5] = (.normal, [7, 2, 1, 5]) ∧
      block.perform = (blockStage 1 threeWaiting 0 guards).perform := by
  intro guards block
  obtain ⟨exits, rollsBack, exchange⟩ := blocks_roll_back 1 threePorts 0 guards
  have reversible : ∀ stage ∈ threePorts, stage.Reversible :=
    List.forall_mem_cons.mpr ⟨reversible_openPort 1, List.forall_mem_cons.mpr
      ⟨reversible_openPort 2, List.forall_mem_singleton.mpr (reversible_openPort 7)⟩⟩
  have interchangeable (port : Nat) : Stage.Interchangeable (openPort port)
      { openPort port with registration := .other .scopeFail } := ⟨rfl, rfl, fun _ => rfl⟩
  refine ⟨(rollsBack reversible).1, exits [7], exits [5], exchange _ ?_⟩
  exact .cons (interchangeable 1) (.cons (interchangeable 2) (.cons (interchangeable 7) .nil))

end CppCore.ScopeGuard
