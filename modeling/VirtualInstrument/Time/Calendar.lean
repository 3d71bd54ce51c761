import VirtualInstrument.Decimal.Dyadic
import VirtualInstrument.Text.Units
/- Moments, as milliseconds since the start of 1970, and their calendar notation. -/
namespace VirtualInstrument.Time

def limit : Int := 8640000000000000

def moment? (reading : Float) : Option Int :=
  (wholeOf? (truncate reading)).bind fun ms => if ms.natAbs ≤ limit.natAbs then some ms else none

structure Date where
  year : Int
  month : Nat
  day : Nat
deriving DecidableEq, Repr

/-- The date a number of days after the first of January 1970. Years are counted from March,
    so that the leap day is the last one, in cycles of four hundred years. -/
def dateOfDay (days : Int) : Date :=
  let shifted := days + 719468
  let cycle := shifted.fdiv 146097
  let ofCycle := (shifted.fmod 146097).toNat
  let yearOfCycle := (ofCycle - ofCycle / 1460 + ofCycle / 36524 - ofCycle / 146096) / 365
  let ofYear := ofCycle - (365 * yearOfCycle + yearOfCycle / 4 - yearOfCycle / 100)
  let fromMarch := (5 * ofYear + 2) / 153
  let month := if fromMarch < 10 then fromMarch + 3 else fromMarch - 9
  ⟨cycle * 400 + yearOfCycle + (if month ≤ 2 then 1 else 0), month,
    ofYear - (153 * fromMarch + 2) / 5 + 1⟩

def padded (width n : Nat) : Text :=
  let digits := Text.ofNat n
  List.replicate (width - digits.length) (Text.unit '0') ++ digits

/-- Four digits, or a sign and six for a year that four cannot show. -/
def yearText (year : Int) : Text :=
  if 0 ≤ year ∧ year ≤ 9999 then padded 4 year.toNat
  else (if year < 0 then text "-" else text "+") ++ padded 6 year.natAbs

def momentText (ms : Int) : Text :=
  let date := dateOfDay (ms.fdiv 86400000)
  let ofDay := (ms.fmod 86400000).toNat
  yearText date.year ++ text "-" ++ padded 2 date.month ++ text "-" ++ padded 2 date.day ++
    text "T" ++ padded 2 (ofDay / 3600000) ++ text ":" ++ padded 2 (ofDay / 60000 % 60) ++
    text ":" ++ padded 2 (ofDay / 1000 % 60) ++ text "." ++ padded 3 (ofDay % 1000) ++ text "Z"

end VirtualInstrument.Time
