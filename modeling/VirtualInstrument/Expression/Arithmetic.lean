import VirtualInstrument.Decimal.Dyadic
import VirtualInstrument.Expression.Tree
/- Calculation with numbers. -/
namespace VirtualInstrument.Expression

def nan : Float := 0.0 / 0.0

/-- A power. Plus or minus one to an infinite or undefined power is undefined. -/
def powerOf (base exponent : Float) : Float :=
  if exponent.isNaN || ((base == 1 || base == -1) && !exponent.isFinite) then nan
  else base ^ exponent

def moduloOf (a b : Float) : Float := remainder (remainder a b + b) b

def isNegativeZero (x : Float) : Bool := x == 0 && 1 / x < 0

/-- The lesser of two numbers; minus zero is less than zero, and an undefined number wins. -/
def lesser (a b : Float) : Float :=
  if a.isNaN then a else if b.isNaN then b
  else if a < b || isNegativeZero a then (if b < a then b else a) else b

def greater (a b : Float) : Float :=
  if a.isNaN then a else if b.isNaN then b
  else if b < a || isNegativeZero b then (if a < b then b else a) else b

def leastOf (xs : List Float) : Float := xs.foldl lesser (1.0 / 0.0)

def greatestOf (xs : List Float) : Float := xs.foldl greater (-1.0 / 0.0)

def roundPlaces (x digits : Float) : Float :=
  let factor := powerOf 10 digits
  roundOf (x * factor) / factor

def total (start : Float) (xs : List Float) : Float := xs.foldl (· + ·) start

def meanOf (xs : List Float) : Float := total 0 xs / Float.ofNat xs.length

/-- The mean square distance from the mean; a sample divides by one less than its size. -/
def varianceOf (xs : List Float) (sample : Bool) : Float :=
  let mean := meanOf xs
  let squares := xs.foldl (fun sum x => sum + powerOf (x - mean) 2) 0
  squares / (Float.ofNat xs.length - (if sample then 1 else 0))

def medianOf (xs : List Float) : Float :=
  let sorted := xs.mergeSort fun a b => !(b - a < 0)
  let middle := sorted.length / 2
  if sorted.length % 2 = 1 then sorted.getD middle 0
  else (sorted.getD (middle - 1) 0 + sorted.getD middle 0) / 2

/-- One term of a sum that carries along what rounding has lost. -/
def compensated (state : Float × Float) (term : Float) : Float × Float :=
  let summand := term - state.2
  let sum := state.1 + summand
  (sum, (sum - state.1) - summand)

def hypotenuse (xs : List Float) : Float :=
  let sizes := xs.map Float.abs
  if sizes.any fun x => x == 1.0 / 0.0 then 1.0 / 0.0
  else if sizes.any Float.isNaN then nan
  else
    let greatest := greatestOf sizes
    if greatest == 0 then 0
    else
      let (sum, _) := sizes.foldl
        (fun state x => compensated state ((x / greatest) * (x / greatest))) (0, 0)
      Float.sqrt sum * greatest

def pi : Float := 3.141592653589793

def euler : Float := 2.718281828459045

end VirtualInstrument.Expression
