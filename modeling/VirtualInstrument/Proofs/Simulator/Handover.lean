import VirtualInstrument.Proofs.Dispatch.Additions
import VirtualInstrument.Proofs.Simulator.Separation
/- What actions hand over to the state. All their values are found in the state before the call; a key
   then starts from what it is set to, or else from what it holds, goes up by its amounts and down by
   its amounts, and is stored once. -/
namespace VirtualInstrument.Fields

variable {α : Type}

end VirtualInstrument.Fields

namespace VirtualInstrument.Simulator

open Dispatch Expression

def draw (scope : Scope) : List (Text × Source Stored) → Drawn (List (Text × Stored))
  | [] => pure []
  | (key, source) :: rest => do
    let value ← sourceValue scope source
    let values ← draw scope rest
    pure ((key, value) :: values)

def amounts (key : Text) (given : List (Text × Stored)) : List Float :=
  given.filterMap fun entry => if entry.1 = key then amount? entry.2 else none

def Direction.through (direction : Direction) (key : Text) (given : List (Text × Stored))
    (base : Float) : Float :=
  (amounts key given).foldl direction.move base

/-- What actions find for their keys: what these are set to, go up by and go down by. -/
structure Values where
  sets : List (Text × Stored)
  raises : List (Text × Stored)
  lowers : List (Text × Stored)

def Values.Moves (values : Values) (key : Text) : Prop :=
  key ∈ values.raises.map (·.1) ∨ key ∈ values.lowers.map (·.1)

/-- The values of actions, set, up and down in this order, all of them in the state as it is. -/
structure Finds (sim : Simulator) (actions : Actions Stored) (captures : List Text)
    (values : Values) (last : Sources) : Prop where
  numeric : ∀ entry ∈ values.raises ++ values.lowers, (amount? entry.2).isSome = true
  run : ∃ second third,
    draw (scopeOf sim.store captures) actions.set sim.sources = (.ok values.sets, second) ∧
    draw (scopeOf sim.store captures) actions.inc second = (.ok values.raises, third) ∧
    draw (scopeOf sim.store captures) actions.dec third = (.ok values.lowers, last)

section Drawing
variable {scope : Scope}

end Drawing

end VirtualInstrument.Simulator
