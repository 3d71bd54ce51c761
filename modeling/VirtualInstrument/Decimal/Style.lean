import VirtualInstrument.Decimal.Shortest
import VirtualInstrument.Text.Units
/- The text of a number: the shortest digits that read back, written out in place for the
   sizes a reader expects and with an exponent beyond them. -/
namespace VirtualInstrument.Decimal

/-- How digits become text. A number whose point stands after `point` digits is written in
    place when `leastPoint ≤ point ≤ greatestPoint`. -/
structure NumberStyle where
  leastPoint : Int
  greatestPoint : Int
  exponentMark : Text
  plusMark : Text
  minusMark : Text
  pointMark : Text
  notANumber : Text
  infinity : Text
  zero : Text
deriving DecidableEq, Repr

/-- Responses, documents and messages write numbers in place from a millionth up to twenty-one
    digits, and name the others with a signed exponent; zero has no sign. -/
def plainStyle : NumberStyle :=
  ⟨-5, 21, text "e", text "+", text "-", text ".", text "NaN", text "Infinity", text "0"⟩

def zeros (n : Nat) : Text := List.replicate n (Text.unit '0')

def NumberStyle.positive (style : NumberStyle) (d : Digits) : Text :=
  let digits := Text.ofNat d.digits
  let count := digits.length
  if style.leastPoint ≤ d.point ∧ d.point ≤ style.greatestPoint then
    if d.point ≤ 0 then text "0" ++ style.pointMark ++ zeros (-d.point).toNat ++ digits
    else if count ≤ d.point.toNat then digits ++ zeros (d.point.toNat - count)
    else digits.take d.point.toNat ++ style.pointMark ++ digits.drop d.point.toNat
  else
    let power := d.point - 1
    let sign := if power < 0 then style.minusMark else style.plusMark
    let fraction := if count = 1 then [] else style.pointMark ++ digits.drop 1
    digits.take 1 ++ fraction ++ style.exponentMark ++ sign ++ Text.ofNat power.natAbs

def NumberStyle.write (style : NumberStyle) (x : Float) : Text :=
  match classify x with
  | .nan => style.notANumber
  | .infinite negative => (if negative then style.minusMark else []) ++ style.infinity
  | .finite d =>
    if d.mantissa = 0 then style.zero
    else (if d.negative then style.minusMark else []) ++
      style.positive (shortest d.mantissa d.exponent)

def numberText (x : Float) : Text := plainStyle.write x

end VirtualInstrument.Decimal
