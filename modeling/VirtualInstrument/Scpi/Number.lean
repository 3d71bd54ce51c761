import VirtualInstrument.Decimal.Numeral
/- Numbers in responses. A text counts as a number only when the whole of it is one, so a
   unit behind the digits or a stray letter makes it an ordinary text. -/
namespace VirtualInstrument.Scpi

inductive NumberFault
  | empty
  | notNumeric (response : Text)
deriving DecidableEq, Repr

def NumberFault.message : NumberFault → Text
  | .empty => text "empty response"
  | .notNumeric response => text "non-numeric response: \"" ++ response ++ text "\""

/-- The number that a response writes. All of it has to be the number, and the number has to
    be finite. -/
def parseNumber (response : Text) : Except NumberFault Float :=
  let trimmed := Text.trim response
  if trimmed.isEmpty then .error .empty
  else match Decimal.numeral? trimmed with
    | some x => if x.isFinite then .ok x else .error (.notNumeric trimmed)
    | none => .error (.notNumeric trimmed)

end VirtualInstrument.Scpi
