import VirtualInstrument.Dispatch.Entry
import VirtualInstrument.Simulator.Fault
/- The changes a command makes to the state. Every value is found before the first key is
   changed; then the keys are set one after the other, in the order in which the actions name
   them first. -/
namespace VirtualInstrument.Simulator

open Dispatch Expression

abbrev Drawn (α : Type) := ExceptT SimulationFault (StateM Sources) α

def ofEvaluation (scope : Scope) (expression : Expression) : Drawn Value := fun sources =>
  let (outcome, rest) := expression.value scope sources
  (outcome.mapError .failed, rest)

def storable (value : Value) : Except SimulationFault Stored :=
  match value.toStored? with
  | some stored => .ok stored
  | none => .error (.unstorable value.describe)

def sourceValue (scope : Scope) : Source Stored → Drawn Stored
  | .literal value => pure value
  | .template template => pure (.string (substitute template scope.captures))
  | .dynamic expression => do
    let value ← ofEvaluation scope expression
    liftM (storable value)

def amount? : Stored → Option Float
  | .number x => some x
  | .string t => (Scpi.parseNumber t).toOption
  | _ => none

def shown (heap : Heap) (value : Stored) : Except SimulationFault Text :=
  match heap.unload? value with
  | some document => .ok document.compact
  | none => .error .endless

inductive Direction
  | up
  | down
deriving DecidableEq, Repr

def Direction.move (direction : Direction) (base delta : Float) : Float :=
  match direction with
  | .up => base + delta
  | .down => base - delta

/-- The number a key starts from: what is staged for it, or else what it holds; zero when it
    holds nothing. -/
def baseOf (store : Store) (staged : Fields Stored) (key : Text) :
    Except SimulationFault Float :=
  match (staged.get? key).or (store.get? key) with
  | none => .ok 0
  | some current =>
    match amount? current with
    | some x => .ok x
    | none => do .error (.notNumeric key (← shown store.heap current))

def deltaOf (store : Store) (key : Text) (amount : Stored) : Except SimulationFault Float :=
  match amount? amount with
  | some x => .ok x
  | none => do .error (.badAmount key (← shown store.heap amount))

def stageStep (store : Store) (staged : Fields Stored) (direction : Direction) (key : Text)
    (amount : Stored) : Except SimulationFault (Fields Stored) := do
  let base ← baseOf store staged key
  let delta ← deltaOf store key amount
  .ok (staged.put key (.number (direction.move base delta)))

def stageSets (scope : Scope) (staged : Fields Stored) :
    List (Text × Source Stored) → Drawn (Fields Stored)
  | [] => pure staged
  | (key, source) :: rest => do
    let value ← sourceValue scope source
    stageSets scope (staged.put key value) rest

def stageSteps (store : Store) (scope : Scope) (direction : Direction)
    (staged : Fields Stored) : List (Text × Source Stored) → Drawn (Fields Stored)
  | [] => pure staged
  | (key, source) :: rest => do
    let amount ← sourceValue scope source
    let next ← liftM (stageStep store staged direction key amount)
    stageSteps store scope direction next rest

def scopeOf (store : Store) (captures : List Text) : Scope :=
  ⟨store.heap, store.root, captures⟩

/-- The value each named key is to have: first the keys that are set, then those that go up,
    then those that go down. -/
def stage (store : Store) (captures : List Text) (actions : Actions Stored) :
    Drawn (Fields Stored) := do
  let scope := scopeOf store captures
  let sets ← stageSets scope [] actions.set
  let raised ← stageSteps store scope .up sets actions.inc
  stageSteps store scope .down raised actions.dec

/-- Sets the staged keys. It stops at the first that cannot be set, and those before it stay
    set. -/
def commit (store : Store) : Fields Stored → Store × Option KeyFault
  | [] => (store, none)
  | (key, value) :: rest =>
    match store.set key value with
    | (next, none) => commit next rest
    | (next, some fault) => (next, some fault)

end VirtualInstrument.Simulator
