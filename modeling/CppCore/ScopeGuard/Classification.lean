import CppCore.ScopeGuard.Programs

/-!
# Guards classify every exit

The induction over programs carries one fact about the counter: a normal exit
restores it, and an exceptional exit leaves it one higher.  A guard therefore
finds at its destruction how its own block is being left, whatever else is in
flight.
-/

namespace CppCore.ScopeGuard

/-- The events of one scope after it was entered: its guards in order of
construction, the exit, and the actions of the guards meant for that exit, in
reverse order. -/
def blockEvents (scope : Nat) (guards : List (Nat × GuardKind)) (completion : Completion) :
    List Event :=
  (guards.map fun guard => .construct scope guard.1 guard.2) ++
    .leave scope completion ::
      (guards.filter fun guard => guard.2.meantFor completion).reverse.map
        fun guard => .run scope guard.1

def eventsOf (scope : Nat) (events : List Event) : List Event :=
  events.filter fun event => event.scope = scope

def eventsOfOthers (scope : Nat) (events : List Event) : List Event :=
  events.filter fun event => event.scope ≠ scope

/-- The trace shows one complete and correct life of the scope. -/
def Classified (events : List Event) (scope : Nat) : Prop :=
  ∃ guards completion, (guards.map Prod.fst).Nodup ∧
    eventsOf scope events = .enter scope :: blockEvents scope guards completion

theorem Event.scope_construct (scope guard : Nat) (kind : GuardKind) :
    (Event.construct scope guard kind).scope = scope := rfl

theorem Event.scope_run (scope guard : Nat) : (Event.run scope guard).scope = scope := rfl

theorem eventsOf_append (scope : Nat) (first second : List Event) :
    eventsOf scope (first ++ second) = eventsOf scope first ++ eventsOf scope second :=
  List.filter_append ..

theorem eventsOfOthers_append (scope : Nat) (first second : List Event) :
    eventsOfOthers scope (first ++ second) =
      eventsOfOthers scope first ++ eventsOfOthers scope second :=
  List.filter_append ..

theorem eventsOf_cons_own {scope : Nat} {event : Event} {events : List Event}
    (own : event.scope = scope) : eventsOf scope (event :: events) = event :: eventsOf scope events :=
  List.filter_cons_of_pos (by simpa using own)

theorem eventsOf_cons_other {scope : Nat} {event : Event} {events : List Event}
    (other : event.scope ≠ scope) : eventsOf scope (event :: events) = eventsOf scope events :=
  List.filter_cons_of_neg (by simpa using other)

theorem eventsOfOthers_cons_own {scope : Nat} {event : Event} {events : List Event}
    (own : event.scope = scope) : eventsOfOthers scope (event :: events) = eventsOfOthers scope events :=
  List.filter_cons_of_neg (by simpa using own)

theorem eventsOf_leave (scope : Nat) (completion : Completion) :
    eventsOf scope [.leave scope completion] = [.leave scope completion] :=
  eventsOf_cons_own rfl

theorem eventsOfOthers_leave (scope : Nat) (completion : Completion) :
    eventsOfOthers scope [.leave scope completion] = [] :=
  eventsOfOthers_cons_own rfl

theorem eventsOf_eq_nil {scope : Nat} {events : List Event}
    (elsewhere : ∀ event ∈ events, event.scope ≠ scope) : eventsOf scope events = [] := by
  apply List.filter_eq_nil_iff.mpr
  intro event membership
  simpa using elsewhere event membership

theorem eventsOfOthers_eq_self {scope : Nat} {events : List Event}
    (elsewhere : ∀ event ∈ events, event.scope ≠ scope) :
    eventsOfOthers scope events = events := by
  apply List.filter_eq_self.mpr
  intro event membership
  simpa using elsewhere event membership

theorem eventsOf_eventsOfOthers {scope other : Nat} (different : other ≠ scope)
    (events : List Event) : eventsOf other (eventsOfOthers scope events) = eventsOf other events := by
  unfold eventsOf eventsOfOthers
  rw [List.filter_filter]
  apply List.filter_congr
  intro event _
  by_cases same : event.scope = other
  · simp [same, different]
  · simp [same]

theorem Classified.congr {scope : Nat} {events events' : List Event}
    (classified : Classified events scope) (same : eventsOf scope events' = eventsOf scope events) :
    Classified events' scope := by
  obtain ⟨guards, completion, distinct, shown⟩ := classified
  exact ⟨guards, completion, distinct, same.trans shown⟩

/-- A complete trace whose scopes are numbered from `first` up to `last`. -/
structure Traced (first last : Nat) (events : List Event) : Prop where
  ordered : first ≤ last
  within : ∀ event ∈ events, first ≤ event.scope ∧ event.scope < last
  classified : ∀ scope, .enter scope ∈ events → Classified events scope

theorem Traced.nil (first : Nat) : Traced first first [] where
  ordered := Nat.le_refl first
  within _ membership := absurd membership List.not_mem_nil
  classified _ membership := absurd membership List.not_mem_nil

/-- A trace does not mention a scope that was entered before it. -/
theorem Traced.elsewhere {first last scope : Nat} {events : List Event}
    (traced : Traced first last events) (below : scope < first) :
    ∀ event ∈ events, event.scope ≠ scope := by
  intro event membership same
  have bounds := traced.within event membership
  omega

theorem Traced.append {first middle last : Nat} {earlier later : List Event}
    (before : Traced first middle earlier) (after : Traced middle last later) :
    Traced first last (earlier ++ later) where
  ordered := Nat.le_trans before.ordered after.ordered
  within event membership := by
    have ordered := before.ordered
    have orderedAfter := after.ordered
    rcases List.mem_append.mp membership with inEarlier | inLater
    · have bounds := before.within event inEarlier
      omega
    · have bounds := after.within event inLater
      omega
  classified scope entered := by
    rcases List.mem_append.mp entered with inEarlier | inLater
    · have bounds : scope < middle := (before.within _ inEarlier).2
      apply (before.classified scope inEarlier).congr
      rw [eventsOf_append, eventsOf_eq_nil (after.elsewhere bounds), List.append_nil]
    · have bounds : middle ≤ scope := (after.within _ inLater).1
      apply (after.classified scope inLater).congr
      have elsewhere : ∀ event ∈ earlier, event.scope ≠ scope := by
        intro event membership same
        have upper := (before.within event membership).2
        omega
      rw [eventsOf_append, eventsOf_eq_nil elsewhere, List.nil_append]

/-- What a run of a program does. -/
structure Ran (before : State) (outcome : Outcome) : Prop where
  counted : outcome.state.uncaughtExceptions =
    before.uncaughtExceptions + outcome.completion.raised
  guards : before.nextGuard ≤ outcome.state.nextGuard
  traced : Traced before.nextScope outcome.state.nextScope outcome.events

/-- What a run of the rest of a block does, in a scope that was entered before. -/
structure BlockRan (scope : Nat) (before : State) (outcome : Outcome) : Prop where
  counted : outcome.state.uncaughtExceptions =
    before.uncaughtExceptions + outcome.completion.raised
  guards : before.nextGuard ≤ outcome.state.nextGuard
  traced : Traced before.nextScope outcome.state.nextScope (eventsOfOthers scope outcome.events)
  own : ∃ guards : List (Nat × GuardKind),
    (∀ guard ∈ guards, before.nextGuard ≤ guard.1) ∧ (guards.map Prod.fst).Nodup ∧
      eventsOf scope outcome.events = blockEvents scope guards outcome.completion

/-- With the counter as it is at the exit of the block, a guard's test is right. -/
theorem GuardKind.runsAction_eq (kind : GuardKind) (entry : Int) (completion : Completion) :
    kind.runsAction entry (entry + completion.raised) = kind.meantFor completion := by
  cases completion with
  | normal =>
    cases kind <;>
      simp [GuardKind.runsAction, ScopeFail.runsAction, ScopeSuccess.runsAction,
        GuardKind.meantFor, Completion.raised]
  | exceptional =>
    have raised : entry < entry + 1 := Int.lt_succ entry
    have notLowered : ¬ entry + 1 ≤ entry := Int.not_le.mpr raised
    cases kind <;>
      simp [GuardKind.runsAction, ScopeFail.runsAction, ScopeSuccess.runsAction,
        GuardKind.meantFor, Completion.raised, raised, notLowered]

theorem Ran.seq {before : State} {first second : Outcome} (firstRan : Ran before first)
    (normal : first.completion = .normal) (secondRan : Ran first.state second) :
    Ran before { second with events := first.events ++ second.events } where
  counted := by
    have firstCounted := firstRan.counted
    rw [normal, Completion.raised, Int.add_zero] at firstCounted
    rw [← firstCounted]
    exact secondRan.counted
  guards := Nat.le_trans firstRan.guards secondRan.guards
  traced := firstRan.traced.append secondRan.traced

theorem Ran.handle {before : State} {body handled : Outcome} (bodyRan : Ran before body)
    (thrown : body.completion = .exceptional) (handlerRan : Ran body.state.enterHandler handled) :
    Ran before
      ⟨handled.completion, handled.state.leaveHandler, body.events ++ handled.events⟩ where
  counted := by
    -- The handler catches the one exception that the body raised.
    have bodyCounted := bodyRan.counted
    have handlerCounted := handlerRan.counted
    simp only [thrown, Completion.raised, State.enterHandler, State.leaveHandler] at *
    omega
  guards := Nat.le_trans bodyRan.guards handlerRan.guards
  traced := bodyRan.traced.append handlerRan.traced

/-- Entering a scope turns the record of its block into a complete trace. -/
theorem BlockRan.enter {before : State} {outcome : Outcome}
    (ran : BlockRan before.nextScope before.enterScope outcome) :
    Ran before { outcome with events := .enter before.nextScope :: outcome.events } where
  counted := ran.counted
  guards := ran.guards
  traced := by
    have ordered : before.nextScope + 1 ≤ outcome.state.nextScope := ran.traced.ordered
    have others : ∀ event ∈ outcome.events, event.scope ≠ before.nextScope →
        event ∈ eventsOfOthers before.nextScope outcome.events := by
      intro event membership different
      exact List.mem_filter.mpr ⟨membership, by simpa using different⟩
    refine ⟨by simp only; omega, ?_, ?_⟩
    · intro event membership
      rcases List.mem_cons.mp membership with isEnter | inBlock
      · subst isEnter
        exact ⟨Nat.le_refl _, ordered⟩
      · by_cases same : event.scope = before.nextScope
        · simp only [same]
          omega
        · have bounds : before.nextScope + 1 ≤ event.scope ∧ event.scope < outcome.state.nextScope :=
            ran.traced.within event (others event inBlock same)
          simp only
          omega
    · intro scope entered
      by_cases same : scope = before.nextScope
      · subst same
        obtain ⟨guards, _, distinct, shown⟩ := ran.own
        refine ⟨guards, outcome.completion, distinct, ?_⟩
        rw [← shown]
        exact eventsOf_cons_own rfl
      · have inBlock : .enter scope ∈ outcome.events := by
          rcases List.mem_cons.mp entered with isEnter | inBlock
          · exact absurd (Event.enter.inj isEnter) same
          · exact inBlock
        apply (ran.traced.classified scope (others _ inBlock same)).congr
        rw [eventsOf_eventsOfOthers same]
        exact eventsOf_cons_other (Ne.symm same)

theorem BlockRan.done (scope : Nat) (before : State) :
    BlockRan scope before ⟨.normal, before, [.leave scope .normal]⟩ where
  counted := by simp [Completion.raised]
  guards := Nat.le_refl _
  traced := by
    simp only [eventsOfOthers_leave]
    exact Traced.nil before.nextScope
  own := ⟨[], by simp, by simp, eventsOf_leave scope .normal⟩

/-- A statement that throws leaves the block at once. -/
theorem BlockRan.thrown {scope : Nat} {before : State} {outcome : Outcome}
    (below : scope < before.nextScope) (ran : Ran before outcome)
    (thrown : outcome.completion = .exceptional) :
    BlockRan scope before
      { outcome with events := outcome.events ++ [.leave scope .exceptional] } where
  counted := ran.counted
  guards := ran.guards
  traced := by
    rw [eventsOfOthers_append, eventsOfOthers_eq_self (ran.traced.elsewhere below),
      eventsOfOthers_leave, List.append_nil]
    exact ran.traced
  own := by
    refine ⟨[], by simp, by simp, ?_⟩
    rw [eventsOf_append, eventsOf_eq_nil (ran.traced.elsewhere below), eventsOf_leave, thrown]
    rfl

theorem BlockRan.statement {scope : Nat} {before : State} {first remaining : Outcome}
    (below : scope < before.nextScope) (firstRan : Ran before first)
    (normal : first.completion = .normal) (restRan : BlockRan scope first.state remaining) :
    BlockRan scope before { remaining with events := first.events ++ remaining.events } where
  counted := by
    have firstCounted := firstRan.counted
    rw [normal, Completion.raised, Int.add_zero] at firstCounted
    rw [← firstCounted]
    exact restRan.counted
  guards := Nat.le_trans firstRan.guards restRan.guards
  traced := by
    simp only [eventsOfOthers_append, eventsOfOthers_eq_self (firstRan.traced.elsewhere below)]
    exact firstRan.traced.append restRan.traced
  own := by
    obtain ⟨guards, fresh, distinct, shown⟩ := restRan.own
    refine ⟨guards, fun guard membership => Nat.le_trans firstRan.guards (fresh guard membership),
      distinct, ?_⟩
    simp only [eventsOf_append, eventsOf_eq_nil (firstRan.traced.elsewhere below),
      List.nil_append]
    exact shown

theorem BlockRan.object {scope : Nat} {before : State} {outcome destroyed : Outcome}
    (below : scope < before.nextScope) (restRan : BlockRan scope before outcome)
    (destructorRan : Ran outcome.state destroyed) (normal : destroyed.completion = .normal) :
    BlockRan scope before
      ⟨outcome.completion, destroyed.state, outcome.events ++ destroyed.events⟩ where
  counted := by
    have destructorCounted := destructorRan.counted
    rw [normal, Completion.raised, Int.add_zero] at destructorCounted
    rw [destructorCounted]
    exact restRan.counted
  guards := Nat.le_trans restRan.guards destructorRan.guards
  traced := by
    have elsewhere := destructorRan.traced.elsewhere (Nat.lt_of_lt_of_le below restRan.traced.ordered)
    simp only [eventsOfOthers_append, eventsOfOthers_eq_self elsewhere]
    exact restRan.traced.append destructorRan.traced
  own := by
    have elsewhere := destructorRan.traced.elsewhere (Nat.lt_of_lt_of_le below restRan.traced.ordered)
    obtain ⟨guards, fresh, distinct, shown⟩ := restRan.own
    refine ⟨guards, fresh, distinct, ?_⟩
    simp only [eventsOf_append, eventsOf_eq_nil elsewhere, List.append_nil]
    exact shown

theorem blockEvents_cons_kept {kind : GuardKind} {completion : Completion}
    (notMeant : kind.meantFor completion = false) (scope guard : Nat)
    (guards : List (Nat × GuardKind)) :
    blockEvents scope ((guard, kind) :: guards) completion =
      .construct scope guard kind :: blockEvents scope guards completion := by
  unfold blockEvents
  rw [List.filter_cons_of_neg (by simpa using notMeant)]
  rfl

theorem blockEvents_cons_run {kind : GuardKind} {completion : Completion}
    (meant : kind.meantFor completion = true) (scope guard : Nat)
    (guards : List (Nat × GuardKind)) :
    blockEvents scope ((guard, kind) :: guards) completion =
      .construct scope guard kind :: blockEvents scope guards completion ++
        [.run scope guard] := by
  unfold blockEvents
  rw [List.filter_cons_of_pos (by simpa using meant)]
  simp

/-- The guards constructed later in the block have later numbers. -/
theorem fresh_cons {before : State} (kind : GuardKind) {guards : List (Nat × GuardKind)}
    (fresh : ∀ guard ∈ guards, before.constructGuard.nextGuard ≤ guard.1)
    (distinct : (guards.map Prod.fst).Nodup) :
    (∀ guard ∈ (before.nextGuard, kind) :: guards, before.nextGuard ≤ guard.1) ∧
      (((before.nextGuard, kind) :: guards).map Prod.fst).Nodup := by
  have later : ∀ guard ∈ guards, before.nextGuard < guard.1 := fresh
  constructor
  · intro guard membership
    rcases List.mem_cons.mp membership with isFirst | inRest
    · exact Nat.le_of_eq (congrArg Prod.fst isFirst).symm
    · exact Nat.le_of_lt (later guard inRest)
  · refine List.nodup_cons.mpr ⟨?_, distinct⟩
    intro repeated
    obtain ⟨guard, inRest, same⟩ := List.mem_map.mp repeated
    exact Nat.ne_of_gt (later guard inRest) same

theorem BlockRan.guardKept {scope : Nat} {before : State} {kind : GuardKind} {outcome : Outcome}
    (restRan : BlockRan scope before.constructGuard outcome)
    (notMeant : kind.meantFor outcome.completion = false) :
    BlockRan scope before
      { outcome with events := .construct scope before.nextGuard kind :: outcome.events } where
  counted := restRan.counted
  guards := Nat.le_of_succ_le restRan.guards
  traced := by
    simp only [eventsOfOthers_cons_own (Event.scope_construct ..)]
    exact restRan.traced
  own := by
    obtain ⟨guards, fresh, distinct, shown⟩ := restRan.own
    have ⟨fresh, distinct⟩ := fresh_cons kind fresh distinct
    refine ⟨(before.nextGuard, kind) :: guards, fresh, distinct, ?_⟩
    rw [blockEvents_cons_kept notMeant, ← shown]
    exact eventsOf_cons_own rfl

theorem BlockRan.guardRun {scope : Nat} {before : State} {kind : GuardKind}
    {outcome acted : Outcome} (below : scope < before.nextScope)
    (restRan : BlockRan scope before.constructGuard outcome)
    (meant : kind.meantFor outcome.completion = true)
    (actionRan : Ran outcome.state acted) (normal : acted.completion = .normal) :
    BlockRan scope before
      ⟨outcome.completion, acted.state, .construct scope before.nextGuard kind :: outcome.events ++
        .run scope before.nextGuard :: acted.events⟩ where
  counted := by
    have actionCounted := actionRan.counted
    rw [normal, Completion.raised, Int.add_zero] at actionCounted
    rw [actionCounted]
    exact restRan.counted
  guards := Nat.le_trans (Nat.le_of_succ_le restRan.guards) actionRan.guards
  traced := by
    have elsewhere := actionRan.traced.elsewhere (Nat.lt_of_lt_of_le below restRan.traced.ordered)
    simp only [eventsOfOthers_append, eventsOfOthers_cons_own (Event.scope_construct ..),
      eventsOfOthers_cons_own (Event.scope_run ..), eventsOfOthers_eq_self elsewhere]
    exact restRan.traced.append actionRan.traced
  own := by
    have elsewhere := actionRan.traced.elsewhere (Nat.lt_of_lt_of_le below restRan.traced.ordered)
    obtain ⟨guards, fresh, distinct, shown⟩ := restRan.own
    have ⟨fresh, distinct⟩ := fresh_cons kind fresh distinct
    refine ⟨(before.nextGuard, kind) :: guards, fresh, distinct, ?_⟩
    rw [blockEvents_cons_run meant, ← shown]
    simp only [eventsOf_append, eventsOf_cons_own (Event.scope_construct ..),
      eventsOf_cons_own (Event.scope_run ..), eventsOf_eq_nil elsewhere]

/-- The counter decides as the exit of the block does. -/
theorem BlockRan.runsAction_eq {scope : Nat} {before : State} {outcome : Outcome}
    (restRan : BlockRan scope before.constructGuard outcome) (kind : GuardKind) :
    kind.runsAction before.uncaughtExceptions outcome.state.uncaughtExceptions =
      kind.meantFor outcome.completion := by
  rw [restRan.counted]
  exact kind.runsAction_eq before.uncaughtExceptions outcome.completion

mutual

theorem Program.run_ran (program : Program) {before : State} {outcome : Outcome}
    (ran : program.run before = some outcome) : Ran before outcome := by
  cases program with
  | skip =>
    simp only [Program.run, Option.some.injEq] at ran
    subst ran
    exact ⟨by simp [Completion.raised], Nat.le_refl _, Traced.nil _⟩
  | seq first second =>
    simp only [Program.run, Option.bind_eq_bind, Option.bind_eq_some_iff] at ran
    obtain ⟨one, firstRun, ran⟩ := ran
    have firstRan := first.run_ran firstRun
    cases exit : one.completion with
    | exceptional =>
      simp only [exit, Option.pure_def, Option.some.injEq] at ran
      subst ran
      exact firstRan
    | normal =>
      simp only [exit, Option.bind_eq_some_iff, Option.pure_def, Option.some.injEq] at ran
      obtain ⟨two, secondRun, rfl⟩ := ran
      exact firstRan.seq exit (second.run_ran secondRun)
  | throw =>
    simp only [Program.run, Option.some.injEq] at ran
    subst ran
    exact ⟨rfl, Nat.le_refl _, Traced.nil _⟩
  | rethrow =>
    simp only [Program.run, Option.ite_none_left_eq_some, Option.some.injEq] at ran
    obtain ⟨_, rfl⟩ := ran
    exact ⟨rfl, Nat.le_refl _, Traced.nil _⟩
  | tryCatch body handler =>
    simp only [Program.run, Option.bind_eq_bind, Option.bind_eq_some_iff] at ran
    obtain ⟨one, bodyRun, ran⟩ := ran
    have bodyRan := body.run_ran bodyRun
    cases exit : one.completion with
    | normal =>
      simp only [exit, Option.pure_def, Option.some.injEq] at ran
      subst ran
      exact bodyRan
    | exceptional =>
      simp only [exit, Option.bind_eq_some_iff, Option.pure_def, Option.some.injEq] at ran
      obtain ⟨two, handlerRun, rfl⟩ := ran
      exact bodyRan.handle exit (handler.run_ran handlerRun)
  | scope block =>
    simp only [Program.run, Option.bind_eq_bind, Option.bind_eq_some_iff, Option.pure_def,
      Option.some.injEq] at ran
    obtain ⟨one, blockRun, rfl⟩ := ran
    exact (block.run_ran (Nat.lt_succ_self _) blockRun).enter

theorem Block.run_ran (block : Block) {scope : Nat} {before : State} {outcome : Outcome}
    (below : scope < before.nextScope) (ran : block.run scope before = some outcome) :
    BlockRan scope before outcome := by
  cases block with
  | done =>
    simp only [Block.run, Option.some.injEq] at ran
    subst ran
    exact BlockRan.done scope before
  | statement program rest =>
    simp only [Block.run, Option.bind_eq_bind, Option.bind_eq_some_iff] at ran
    obtain ⟨one, firstRun, ran⟩ := ran
    have firstRan := program.run_ran firstRun
    cases exit : one.completion with
    | exceptional =>
      simp only [exit, Option.pure_def, Option.some.injEq] at ran
      subst ran
      have thrown := BlockRan.thrown below firstRan exit
      rwa [exit] at thrown
    | normal =>
      simp only [exit, Option.bind_eq_some_iff, Option.pure_def, Option.some.injEq] at ran
      obtain ⟨two, restRun, rfl⟩ := ran
      have stillBelow := Nat.lt_of_lt_of_le below firstRan.traced.ordered
      exact BlockRan.statement below firstRan exit (rest.run_ran stillBelow restRun)
  | guard kind action rest =>
    simp only [Block.run, Option.bind_eq_bind, Option.bind_eq_some_iff] at ran
    obtain ⟨one, restRun, ran⟩ := ran
    have restRan : BlockRan scope before.constructGuard one := rest.run_ran below restRun
    -- The reading on entry is that of the state in which the rest of the block starts.
    rw [restRan.runsAction_eq kind] at ran
    cases meant : kind.meantFor one.completion with
    | false =>
      simp only [meant, Bool.false_eq_true, if_false, Option.pure_def, Option.some.injEq] at ran
      subst ran
      exact restRan.guardKept meant
    | true =>
      simp only [meant, if_true, Option.bind_eq_some_iff] at ran
      obtain ⟨two, actionRun, ran⟩ := ran
      cases exit : two.completion with
      | exceptional => simp [exit] at ran
      | normal =>
        simp only [exit, Option.pure_def, Option.some.injEq] at ran
        subst ran
        exact BlockRan.guardRun below restRan meant (action.run_ran actionRun) exit
  | object destructor rest =>
    simp only [Block.run, Option.bind_eq_bind, Option.bind_eq_some_iff] at ran
    obtain ⟨one, restRun, two, destructorRun, ran⟩ := ran
    have restRan := rest.run_ran below restRun
    cases exit : two.completion with
    | exceptional => simp [exit] at ran
    | normal =>
      simp only [exit, Option.pure_def, Option.some.injEq] at ran
      subst ran
      exact BlockRan.object below restRan (destructor.run_ran destructorRun) exit

end

/-- In every run, whatever is in flight when it starts, every scope that is entered
runs the actions of its guards as their exit demands, each once and in reverse order
of construction. -/
theorem guards_classify_exits {program : Program} {before : State} {outcome : Outcome}
    (ran : program.run before = some outcome) {scope : Nat}
    (entered : .enter scope ∈ outcome.events) : Classified outcome.events scope :=
  (program.run_ran ran).traced.classified scope entered

/-- A destructor that throws, catches and scopes while an exception leaves its block. -/
def unwinding : Program :=
  let inner : Block := .guard .scopeFail .skip (.guard .scopeSuccess .skip .done)
  .tryCatch
    (.scope (.guard .scopeFail .skip (.guard .scopeSuccess .skip
      (.object (.seq (.tryCatch .throw .skip) (.scope inner)) (.statement .throw .done)))))
    .skip

theorem guards_classify_exits_unwinding :
    Classified
      [.enter 0, .construct 0 0 .scopeFail, .construct 0 1 .scopeSuccess, .leave 0 .exceptional,
        .enter 1, .construct 1 2 .scopeFail, .construct 1 3 .scopeSuccess, .leave 1 .normal,
        .run 1 3, .run 0 0] 1 := by
  have ran : unwinding.run ⟨0, 0, 0, 0⟩ = some ⟨.normal, ⟨0, 0, 2, 4⟩,
      [.enter 0, .construct 0 0 .scopeFail, .construct 0 1 .scopeSuccess, .leave 0 .exceptional,
        .enter 1, .construct 1 2 .scopeFail, .construct 1 3 .scopeSuccess, .leave 1 .normal,
        .run 1 3, .run 0 0]⟩ := by rfl
  exact guards_classify_exits ran (by decide)

end CppCore.ScopeGuard
