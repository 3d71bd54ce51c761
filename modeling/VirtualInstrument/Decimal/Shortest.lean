import VirtualInstrument.Decimal.Dyadic
/- The shortest decimal that reads back as a given double. Every decimal in the interval of
   reals that round to the double reads back as it; among those with the fewest digits the
   nearest is taken. All comparisons are between natural numbers. -/
namespace VirtualInstrument.Decimal

/-- The number `0.d₁d₂… * 10 ^ point`, whose digits `d₁d₂…` are those of `digits`. -/
structure Digits where
  digits : Nat
  point : Int
deriving DecidableEq, Repr

/-- A double as four times its mantissa, the two ends of the interval that rounds to it, and
    the exponent of two of their common unit. -/
structure Interval where
  low : Nat
  value : Nat
  high : Nat
  closed : Bool
  exponent : Int
deriving DecidableEq, Repr

/-- Below a power of two the next double is half as far away as above it. -/
def interval (mantissa : Nat) (exponent : Int) : Interval :=
  let below := if mantissa = Nat.pow 2 52 ∧ -1074 < exponent then 1 else 2
  ⟨4 * mantissa - below, 4 * mantissa, 4 * mantissa + 2, mantissa % 2 == 0, exponent - 2⟩

/-- The interval measured against the grid of the multiples of `10 ^ power`: `unit` is one
    step of the grid. -/
structure Scaled where
  low : Nat
  value : Nat
  high : Nat
  closed : Bool
  unit : Nat
deriving DecidableEq, Repr

def Interval.scale (i : Interval) (power : Int) : Scaled :=
  let up := Nat.pow 2 i.exponent.toNat * Nat.pow 10 (-power).toNat
  ⟨i.low * up, i.value * up, i.high * up, i.closed,
    Nat.pow 2 (-i.exponent).toNat * Nat.pow 10 power.toNat⟩

def Scaled.holds (s : Scaled) (steps : Nat) : Bool :=
  let place := steps * s.unit
  if s.closed then s.low ≤ place && place ≤ s.high else s.low < place && place < s.high

/-- The grid point that reads back: one of the two neighbours of the value, the nearer when
    both do, the even one when they are equally near. -/
def Scaled.pick? (s : Scaled) : Option Nat :=
  let steps := s.value / s.unit
  match s.holds steps, s.holds (steps + 1) with
  | false, false => none
  | true, false => some steps
  | false, true => some (steps + 1)
  | true, true =>
    let before := s.value - steps * s.unit
    let after := (steps + 1) * s.unit - s.value
    if before < after ∨ (before = after ∧ steps % 2 = 0) then some steps else some (steps + 1)

def Interval.point (i : Interval) : Int :=
  let guess := Int.fdiv ((i.value.log2 + i.exponent) * 30103) 100000
  let trial := (List.range 5).find? fun (k : Nat) =>
    let s := i.scale (guess - 1 + k)
    decide (s.value < s.unit)
  guess - 1 + (trial.getD 4 : Nat)

def stripZeros : Nat → Nat → Nat
  | 0, n => n
  | fuel + 1, n => if n % 10 = 0 ∧ n ≠ 0 then stripZeros fuel (n / 10) else n

def digitCount (n : Nat) : Nat := (toString n).length

/-- The digits of `mantissa * 2 ^ exponent`, a positive number. Seventeen always suffice. -/
def shortest (mantissa : Nat) (exponent : Int) : Digits :=
  let i := interval mantissa exponent
  let point := i.point
  let found := (List.range 17).findSome? fun (k : Nat) =>
    let count : Int := k + 1
    ((i.scale (point - count)).pick?).map fun steps =>
      Digits.mk (stripZeros 20 steps) (point - count + digitCount steps)
  found.getD ⟨0, 0⟩

end VirtualInstrument.Decimal
