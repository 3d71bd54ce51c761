/- The exact value of a double: a sign, a natural number and a power of two. Rounding to an
   integer and the remainder of a division are done on that value, so neither loses a bit. -/
namespace VirtualInstrument

/-- The number `mantissa * 2 ^ exponent`, negated when `negative`. -/
structure Dyadic where
  negative : Bool
  mantissa : Nat
  exponent : Int
deriving DecidableEq, Repr

inductive FloatClass
  | nan
  | infinite (negative : Bool)
  | finite (value : Dyadic)
deriving DecidableEq, Repr

def classify (x : Float) : FloatClass :=
  let bits : Nat := x.toBits.toNat
  let negative := bits / Nat.pow 2 63 == 1
  let power : Nat := bits / Nat.pow 2 52 % 2048
  let fraction : Nat := bits % Nat.pow 2 52
  if power == 2047 then if fraction == 0 then .infinite negative else .nan
  else if power == 0 then .finite ⟨negative, fraction, -1074⟩
  else .finite ⟨negative, Nat.pow 2 52 + fraction, Int.ofNat power - 1075⟩

namespace Dyadic

def toFloat (d : Dyadic) : Float :=
  let size : Int := if d.mantissa = 0 then 0 else d.mantissa.log2 + 1
  let power := max (-1074) (d.exponent + size - 53)
  let mantissa :=
    if d.exponent ≤ power then d.mantissa / Nat.pow 2 (power - d.exponent).toNat
    else d.mantissa * Nat.pow 2 (d.exponent - power).toNat
  let magnitude :=
    if mantissa < Nat.pow 2 52 then mantissa
    else (power + 1075).toNat * Nat.pow 2 52 + (mantissa - Nat.pow 2 52)
  Float.ofBits ((if d.negative then Nat.pow 2 63 else 0) + magnitude).toUInt64

/-- The integer part of the magnitude, and what is left over as a fraction of `2 ^ bits`. -/
structure Split where
  whole : Nat
  part : Nat
  bits : Nat
deriving DecidableEq, Repr

def splitPoint (d : Dyadic) : Split :=
  let bits := (-d.exponent).toNat
  if 0 ≤ d.exponent then ⟨d.mantissa * Nat.pow 2 d.exponent.toNat, 0, 0⟩
  else ⟨d.mantissa / Nat.pow 2 bits, d.mantissa % Nat.pow 2 bits, bits⟩

def isWhole (d : Dyadic) : Bool := d.splitPoint.part == 0

/-- Keeps a value that is whole already, whatever its size; rounds any other with `round`. -/
def integral (d : Dyadic) (round : Split → Nat) : Dyadic :=
  if d.isWhole then d else ⟨d.negative, round d.splitPoint, 0⟩

end Dyadic

def mapFinite (rule : Dyadic → Dyadic) (x : Float) : Float :=
  match classify x with
  | .finite d => (rule d).toFloat
  | _ => x

/-- The integer part, with the sign of the number even when it is zero. -/
def truncate : Float → Float := mapFinite fun d => d.integral (·.whole)

def floorOf : Float → Float :=
  mapFinite fun d => d.integral fun s => if d.negative then s.whole + 1 else s.whole

def ceilOf : Float → Float :=
  mapFinite fun d => d.integral fun s => if d.negative then s.whole else s.whole + 1

def roundOf : Float → Float :=
  mapFinite fun d => d.integral fun s =>
    let one := Nat.pow 2 s.bits
    if (if d.negative then one < 2 * s.part else one ≤ 2 * s.part)
    then s.whole + 1 else s.whole

def wholeOf? (x : Float) : Option Int :=
  match classify x with
  | .finite d =>
    let s := d.splitPoint
    if s.part ≠ 0 then none else some (if d.negative then -(s.whole : Int) else s.whole)
  | _ => none

/-- What division of the magnitudes leaves over, with the sign of the dividend. -/
def remainder (x y : Float) : Float :=
  match classify x, classify y with
  | .finite _, .infinite _ => x
  | .finite a, .finite b =>
    if b.mantissa = 0 then 0.0 / 0.0
    else
      let exponent := min a.exponent b.exponent
      let dividend := a.mantissa * Nat.pow 2 (a.exponent - exponent).toNat
      let divisor := b.mantissa * Nat.pow 2 (b.exponent - exponent).toNat
      (Dyadic.mk a.negative (dividend % divisor) exponent).toFloat
  | _, _ => 0.0 / 0.0

end VirtualInstrument
