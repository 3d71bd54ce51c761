import VirtualInstrument.Decimal.Dyadic
import VirtualInstrument.Text.Blank
/- Reading numbers. A numeral is read whole or not at all, apart from the leading integer
   that a setting may start with. -/
namespace VirtualInstrument.Decimal

open Text

def infinity : Float := 1.0 / 0.0

/-- The double nearest to `mantissa * 10 ^ exponent`. The size is settled first, so that no
    exponent, however long, makes a number of that many digits. -/
def nearest (mantissa : Nat) (exponent : Int) : Float :=
  let size := exponent + (toString mantissa).length
  if mantissa = 0 ∨ size < -330 then 0.0
  else if 310 < size then infinity
  else Float.ofScientific mantissa (decide (exponent < 0)) exponent.natAbs

def negateIf (negative : Bool) (x : Float) : Float := if negative then -x else x

def takeSign (t : Text) : Bool × Text :=
  match t with
  | u :: rest =>
    if u = unit '-' then (true, rest) else if u = unit '+' then (false, rest) else (false, t)
  | [] => (false, [])

/-- The exponent part `e±dd` when one is written in full; otherwise zero and nothing taken. -/
def takeExponent (t : Text) : Int × Text :=
  match t with
  | u :: rest =>
    if u = unit 'e' ∨ u = unit 'E' then
      let (negative, body) := takeSign rest
      let digits := body.takeWhile isDigit
      if digits.isEmpty then (0, t)
      else
        let size : Int := digitsValue digits
        (if negative then -size else size, body.dropWhile isDigit)
    else (0, t)
  | [] => (0, [])

def takeFraction (t : Text) : Option Text × Text :=
  match t with
  | u :: rest =>
    if u = unit '.' then (some (rest.takeWhile isDigit), rest.dropWhile isDigit) else (none, t)
  | [] => (none, [])

/-- The longest unsigned decimal at the start of a text that begins with a digit: digits, a
    point with any digits after it, an exponent. -/
def takeDecimal (t : Text) : Float × Text :=
  let whole := t.takeWhile isDigit
  let (fraction, afterFraction) := takeFraction (t.dropWhile isDigit)
  let (power, rest) := takeExponent afterFraction
  let decimals := fraction.getD []
  (nearest (digitsValue (whole ++ decimals)) (power - decimals.length), rest)

def wholeDecimal? (t : Text) : Option Float :=
  let whole := t.takeWhile isDigit
  let decimals := (takeFraction (t.dropWhile isDigit)).1.getD []
  if whole.isEmpty && decimals.isEmpty then none
  else match takeDecimal t with
    | (x, []) => some x
    | _ => none

def radixDigit? (radix : Nat) (u : CodeUnit) : Option Nat :=
  (hexValue? u).bind fun d => if d < radix then some d else none

def radixNumeral? (radix : Nat) (t : Text) : Option Float :=
  if t.isEmpty then none
  else (t.mapM (radixDigit? radix)).map fun digits =>
    nearest (digits.foldl (fun n d => radix * n + d) 0) 0

def radixOf? (mark : CodeUnit) : Option Nat :=
  match glyph mark with
  | 'x' | 'X' => some 16
  | 'o' | 'O' => some 8
  | 'b' | 'B' => some 2
  | _ => none

/-- A numeral: a decimal with an optional sign, `Infinity` with an optional sign, or an
    unsigned hexadecimal, octal or binary number behind `0x`, `0o` or `0b`. -/
def numeral? (t : Text) : Option Float :=
  let signed :=
    let (negative, body) := takeSign t
    if body = text "Infinity" then some (negateIf negative infinity)
    else (wholeDecimal? body).map (negateIf negative)
  match t with
  | zero :: mark :: digits =>
    match if zero = unit '0' then radixOf? mark else none with
    | some radix => radixNumeral? radix digits
    | none => signed
  | _ => signed

/-- The integer a text starts with, after blanks and a sign; what follows it is ignored. -/
def leadingInteger? (t : Text) : Option Float :=
  let (negative, body) := takeSign (trimStart t)
  let digits := body.takeWhile isDigit
  if digits.isEmpty then none else some (negateIf negative (nearest (digitsValue digits) 0))

end VirtualInstrument.Decimal
