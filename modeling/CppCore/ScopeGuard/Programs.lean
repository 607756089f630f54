import Mathlib.Data.List.Nodup

/-!
# Programs with exceptions and exit guards

Programs are built from sequencing, `throw`, rethrow, `try` and scopes.  A block
declares guards and objects whose lifetime is the rest of the block.  The
machine counts the exceptions thrown and not yet caught, which is all that
`ScopeFail` and `ScopeSuccess` look at.
-/

namespace CppCore.ScopeGuard

inductive Completion where
  | normal
  | exceptional
  deriving DecidableEq

/-- How much a completion adds to `std::uncaught_exceptions()`. -/
def Completion.raised : Completion → Int
  | .normal => 0
  | .exceptional => 1

/-- The destructor's test of `ScopeFail`. -/
def ScopeFail.runsAction (exceptionsOnEntry uncaughtExceptions : Int) : Bool :=
  uncaughtExceptions > exceptionsOnEntry

/-- The destructor's test of `ScopeSuccess`. -/
def ScopeSuccess.runsAction (exceptionsOnEntry uncaughtExceptions : Int) : Bool :=
  uncaughtExceptions ≤ exceptionsOnEntry

inductive GuardKind where
  | scopeFail
  | scopeSuccess
  deriving DecidableEq

def GuardKind.runsAction : GuardKind → Int → Int → Bool
  | .scopeFail => ScopeFail.runsAction
  | .scopeSuccess => ScopeSuccess.runsAction

/-- The exits a guard is meant for. -/
def GuardKind.meantFor : GuardKind → Completion → Bool
  | .scopeFail, completion => completion = .exceptional
  | .scopeSuccess, completion => completion = .normal

mutual

inductive Program where
  | skip
  | seq (first second : Program)
  | throw
  | rethrow
  | tryCatch (body handler : Program)
  | scope (block : Block)

inductive Block where
  | done
  | statement (program : Program) (rest : Block)
  | guard (kind : GuardKind) (action : Program) (rest : Block)
  | object (destructor : Program) (rest : Block)

end

/-- Scopes and guards are numbered as they are entered and constructed. -/
inductive Event where
  | enter (scope : Nat)
  | construct (scope guard : Nat) (kind : GuardKind)
  | leave (scope : Nat) (completion : Completion)
  | run (scope guard : Nat)
  deriving DecidableEq

def Event.scope : Event → Nat
  | .enter scope => scope
  | .construct scope _ _ => scope
  | .leave scope _ => scope
  | .run scope _ => scope

structure State where
  uncaughtExceptions : Int
  handling : Nat
  nextScope : Nat
  nextGuard : Nat

structure Outcome where
  completion : Completion
  state : State
  events : List Event

namespace State

def throwException (state : State) : State :=
  { state with uncaughtExceptions := state.uncaughtExceptions + 1 }

/-- A handler becomes active: its exception is caught. -/
def enterHandler (state : State) : State :=
  { state with
    uncaughtExceptions := state.uncaughtExceptions - 1
    handling := state.handling + 1 }

def leaveHandler (state : State) : State :=
  { state with handling := state.handling - 1 }

def enterScope (state : State) : State :=
  { state with nextScope := state.nextScope + 1 }

def constructGuard (state : State) : State :=
  { state with nextGuard := state.nextGuard + 1 }

end State

mutual

/-- `none` is a call of `std::terminate`: an exception escapes a destructor, or
nothing is being handled at a rethrow. -/
def Program.run : Program → State → Option Outcome
  | .skip, state => some ⟨.normal, state, []⟩
  | .seq first second, state => do
      let outcome ← first.run state
      match outcome.completion with
      | .exceptional => return outcome
      | .normal =>
          let rest ← second.run outcome.state
          return { rest with events := outcome.events ++ rest.events }
  | .throw, state => some ⟨.exceptional, state.throwException, []⟩
  | .rethrow, state =>
      if state.handling = 0 then none else some ⟨.exceptional, state.throwException, []⟩
  | .tryCatch body handler, state => do
      let outcome ← body.run state
      match outcome.completion with
      | .normal => return outcome
      | .exceptional =>
          let handled ← handler.run outcome.state.enterHandler
          return ⟨handled.completion, handled.state.leaveHandler, outcome.events ++ handled.events⟩
  | .scope block, state => do
      let outcome ← block.run state.nextScope state.enterScope
      return { outcome with events := .enter state.nextScope :: outcome.events }

/-- The rest of a block. What it declares is destroyed, last declared first, on
every way out. -/
def Block.run (scope : Nat) : Block → State → Option Outcome
  | .done, state => some ⟨.normal, state, [.leave scope .normal]⟩
  | .statement program rest, state => do
      let outcome ← program.run state
      match outcome.completion with
      | .exceptional =>
          return { outcome with events := outcome.events ++ [.leave scope .exceptional] }
      | .normal =>
          let remaining ← rest.run scope outcome.state
          return { remaining with events := outcome.events ++ remaining.events }
  | .guard kind action rest, state => do
      let exceptionsOnEntry := state.uncaughtExceptions
      let outcome ← rest.run scope state.constructGuard
      let events := .construct scope state.nextGuard kind :: outcome.events
      if kind.runsAction exceptionsOnEntry outcome.state.uncaughtExceptions then
        let acted ← action.run outcome.state
        match acted.completion with
        | .exceptional => none
        | .normal =>
            return ⟨outcome.completion, acted.state,
              events ++ .run scope state.nextGuard :: acted.events⟩
      else
        return { outcome with events := events }
  | .object destructor rest, state => do
      let outcome ← rest.run scope state
      let destroyed ← destructor.run outcome.state
      match destroyed.completion with
      | .exceptional => none
      | .normal =>
          return ⟨outcome.completion, destroyed.state, outcome.events ++ destroyed.events⟩

end

end CppCore.ScopeGuard
