import VirtualInstrument.Text.Units
/- Templates: texts in which a dollar sign and digits stand for a capture. -/
namespace VirtualInstrument.Dispatch

open Text

def placeholder? : Text → Option (Text × Text)
  | u :: rest =>
    if u = unit '$' ∧ !(rest.takeWhile isDigit).isEmpty then
      some (rest.takeWhile isDigit, rest.dropWhile isDigit)
    else none
  | [] => none

def hasPlaceholder : Text → Bool
  | [] => false
  | u :: rest => (placeholder? (u :: rest)).isSome || hasPlaceholder rest

/-- What a placeholder is replaced with: the capture of that number, counted from one, or the
    placeholder itself when there is none. -/
def fill (captures : List Text) (digits : Text) : Text :=
  let n := digitsValue digits
  match if n = 0 then none else captures[n - 1]? with
  | some capture => capture
  | none => unit '$' :: digits

/-- Reads the template once from left to right; the text of a capture is not read again. -/
def substituteWithin (captures : List Text) : Nat → Text → Text
  | _, [] => []
  | 0, t => t
  | fuel + 1, u :: rest =>
    match placeholder? (u :: rest) with
    | some (digits, more) => fill captures digits ++ substituteWithin captures fuel more
    | none => u :: substituteWithin captures fuel rest

def substitute (template : Text) (captures : List Text) : Text :=
  substituteWithin captures template.length template

end VirtualInstrument.Dispatch
