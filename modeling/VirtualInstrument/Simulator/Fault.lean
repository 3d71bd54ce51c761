import VirtualInstrument.Expression.Evaluation
import VirtualInstrument.State.Store
/- Why a simulated command fails. -/
namespace VirtualInstrument

inductive SimulationFault
  | failed (cause : Expression.Unevaluated)
  /-- The description of a value that no key can hold. -/
  | unstorable (given : Text)
  | notNumeric (key current : Text)
  | badAmount (key amount : Text)
  | badKey (cause : KeyFault)
  /-- A value with a map in it that contains itself has no text. -/
  | endless
deriving DecidableEq, Repr

def SimulationFault.message : SimulationFault → Text
  | .failed cause => cause.message
  | .unstorable given => text "Cannot store " ++ given ++ text " in state"
  | .notNumeric key current =>
    text "Cannot change \"" ++ key ++ text "\": current value " ++ current ++
      text " is not numeric"
  | .badAmount key amount =>
    text "Cannot change \"" ++ key ++ text "\" by non-numeric " ++ amount
  | .badKey cause => cause.message
  | .endless => text "Converting circular structure to JSON"

end VirtualInstrument
