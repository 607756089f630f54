import Mathlib.Algebra.BigOperators.Group.Finset.Basic
import Mathlib.Algebra.Order.Group.Multiset
import CppCore.Library.Custody

/-!
# Resource owners

Any number of `UniqueResource` objects in one memory.  The member functions act
on the `handle_` of an object and call `Traits::close`; the machine also keeps
which handles are open, every call of `close` and the handles that crossed the
interface.
-/

namespace CppCore.UniqueResource

/-- The constant of a traits type. Its `close` is `Machine.close`. -/
structure Traits (Handle : Type) where
  invalid : Handle

structure CloseCall (Handle : Type) where
  handle : Handle
  wasOpen : Bool
  deriving DecidableEq

structure Machine (Object Handle : Type) where
  live : Finset Object
  handle : Object → Handle
  opened : Finset Handle
  closeCalls : List (CloseCall Handle)
  acquired : Multiset Handle
  released : Multiset Handle

variable {Object Handle : Type} [DecidableEq Object] [DecidableEq Handle]

namespace Machine

/-- `Traits::close`. -/
def close (handle : Handle) (machine : Machine Object Handle) : Machine Object Handle :=
  { machine with
    opened := machine.opened.erase handle
    closeCalls := machine.closeCalls ++ [⟨handle, decide (handle ∈ machine.opened)⟩] }

/-- Assign the member `handle_` of an object. -/
def store (object : Object) (handle : Handle) (machine : Machine Object Handle) :
    Machine Object Handle :=
  { machine with handle := Function.update machine.handle object handle }

def allocate (object : Object) (machine : Machine Object Handle) : Machine Object Handle :=
  { machine with live := insert object machine.live }

def deallocate (object : Object) (machine : Machine Object Handle) : Machine Object Handle :=
  { machine with live := machine.live.erase object }

variable (traits : Traits Handle)

def valid (object : Object) (machine : Machine Object Handle) : Bool :=
  machine.handle object ≠ traits.invalid

def reset (object : Object) (newHandle : Handle) (machine : Machine Object Handle) :
    Machine Object Handle :=
  let machine :=
    if machine.valid traits object then machine.close (machine.handle object) else machine
  machine.store object newHandle

def release (object : Object) (machine : Machine Object Handle) :
    Handle × Machine Object Handle :=
  let out := machine.handle object
  (out, machine.store object traits.invalid)

def construct (object : Object) (handle : Handle) (machine : Machine Object Handle) :
    Machine Object Handle :=
  (machine.allocate object).store object handle

def defaultConstruct (object : Object) (machine : Machine Object Handle) :
    Machine Object Handle :=
  machine.construct object traits.invalid

def moveConstruct (object other : Object) (machine : Machine Object Handle) :
    Machine Object Handle :=
  (machine.construct object (machine.handle other)).store other traits.invalid

def moveAssign (object other : Object) (machine : Machine Object Handle) :
    Machine Object Handle :=
  if object ≠ other then
    let (handle, machine) := machine.release traits other
    machine.reset traits object handle
  else
    machine

def destroy (object : Object) (machine : Machine Object Handle) : Machine Object Handle :=
  (machine.reset traits object traits.invalid).deallocate object

/-- `std::swap` of the two members. -/
def swap (lhs rhs : Object) (machine : Machine Object Handle) : Machine Object Handle :=
  let temporary := machine.handle lhs
  let machine := machine.store lhs (machine.handle rhs)
  machine.store rhs temporary

/-- What a handle adds to a multiset of valid handles. -/
def holding (handle : Handle) : Multiset Handle :=
  if handle = traits.invalid then 0 else {handle}

/-- The handles owned by live objects. -/
def owned (machine : Machine Object Handle) : Multiset Handle :=
  ∑ object ∈ machine.live, holding traits (machine.handle object)

/-- The handles passed to `Traits::close`. -/
def closed (machine : Machine Object Handle) : Multiset Handle :=
  (machine.closeCalls.map CloseCall.handle : List Handle)

/-- A handle passed in is invalid, or open and owned by nobody. -/
def Fresh (handle : Handle) (machine : Machine Object Handle) : Prop :=
  handle ≠ traits.invalid →
    handle ∈ machine.opened ∧ ∀ object ∈ machine.live, machine.handle object ≠ handle

/-- Count a handle that a user passes in, or gets back. -/
def passIn (handle : Handle) (machine : Machine Object Handle) : Machine Object Handle :=
  { machine with acquired := machine.acquired + holding traits handle }

def passOut (handle : Handle) (machine : Machine Object Handle) : Machine Object Handle :=
  { machine with released := machine.released + holding traits handle }

end Machine

/-- What a program does with its objects, and what the system does with handles
that no object owns. -/
inductive Action (Object Handle : Type) where
  | defaultConstruct (object : Object)
  | construct (object : Object) (handle : Handle)
  | moveConstruct (object other : Object)
  | moveAssign (object other : Object)
  | resetTo (object : Object) (handle : Handle)
  | reset (object : Object)
  | release (object : Object)
  | swap (lhs rhs : Object)
  | destroy (object : Object)
  | systemOpen (handle : Handle)
  | systemClose (handle : Handle)

open Machine

/-- One step: a constructor needs a new object, every other function live ones. -/
inductive Step (traits : Traits Handle) :
    Machine Object Handle → Action Object Handle → Machine Object Handle → Prop where
  | defaultConstruct {machine : Machine Object Handle} {object : Object} :
      object ∉ machine.live →
      Step traits machine (.defaultConstruct object) (machine.defaultConstruct traits object)
  | construct {machine : Machine Object Handle} {object : Object} {handle : Handle} :
      object ∉ machine.live → machine.Fresh traits handle →
      Step traits machine (.construct object handle)
        ((machine.construct object handle).passIn traits handle)
  | moveConstruct {machine : Machine Object Handle} {object other : Object} :
      object ∉ machine.live → other ∈ machine.live →
      Step traits machine (.moveConstruct object other) (machine.moveConstruct traits object other)
  | moveAssign {machine : Machine Object Handle} {object other : Object} :
      object ∈ machine.live → other ∈ machine.live →
      Step traits machine (.moveAssign object other) (machine.moveAssign traits object other)
  | resetTo {machine : Machine Object Handle} {object : Object} {handle : Handle} :
      object ∈ machine.live → machine.Fresh traits handle →
      Step traits machine (.resetTo object handle)
        ((machine.reset traits object handle).passIn traits handle)
  | reset {machine : Machine Object Handle} {object : Object} :
      object ∈ machine.live →
      Step traits machine (.reset object) (machine.reset traits object traits.invalid)
  | release {machine : Machine Object Handle} {object : Object} :
      object ∈ machine.live →
      Step traits machine (.release object)
        ((machine.release traits object).2.passOut traits (machine.release traits object).1)
  | swap {machine : Machine Object Handle} {lhs rhs : Object} :
      lhs ∈ machine.live → rhs ∈ machine.live →
      Step traits machine (.swap lhs rhs) (machine.swap lhs rhs)
  | destroy {machine : Machine Object Handle} {object : Object} :
      object ∈ machine.live →
      Step traits machine (.destroy object) (machine.destroy traits object)
  | systemOpen {machine : Machine Object Handle} {handle : Handle} :
      handle ∉ machine.opened →
      Step traits machine (.systemOpen handle)
        { machine with opened := insert handle machine.opened }
  | systemClose {machine : Machine Object Handle} {handle : Handle} :
      (∀ object ∈ machine.live, machine.handle object ≠ handle) →
      Step traits machine (.systemClose handle)
        { machine with opened := machine.opened.erase handle }

/-- No object yet, nothing closed, and any set of open handles. -/
def Machine.initial (memory : Object → Handle) (opened : Finset Handle) :
    Machine Object Handle where
  live := ∅
  handle := memory
  opened := opened
  closeCalls := []
  acquired := 0
  released := 0

end CppCore.UniqueResource
