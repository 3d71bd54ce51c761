import VirtualInstrument.Document.Writer
/- Actions that may raise something instead of returning, and what is reported of them. -/
namespace VirtualInstrument

/-- How an action ends: it returns a value, fails with a message, or raises a bare value. -/
inductive Ending (α : Type)
  | returned (value : α)
  | failed (message : Text)
  | raised (value : Document)
deriving Repr

mutual

/-- A bare value as a message: a list is shown by its items with commas between them, where a
    null shows nothing, and a map without its entries. -/
def Document.spoken : Document → Text
  | .null => text "null"
  | .boolean b => Document.booleanBody b
  | .number x => Decimal.numberText x
  | .string t => t
  | .list items => Text.join (text ",") (spokenItems items)
  | .map _ => text "[object Object]"

def spokenItems : List Document → List Text
  | [] => []
  | .null :: rest => [] :: spokenItems rest
  | item :: rest => item.spoken :: spokenItems rest

end

def Ending.outcome {α : Type} : Ending α → Except Text α
  | .returned value => .ok value
  | .failed message => .error message
  | .raised value => .error value.spoken

end VirtualInstrument
