import VirtualInstrument.Text.UpperTable
import VirtualInstrument.Text.Units
/- Letter case. A command is looked up under its upper-case form, by the full mapping of
   Unicode (a sharp s becomes two letters); a pattern compares single units instead, under
   a folding that keeps the length of a text. -/
namespace VirtualInstrument.Text

def UpperRun.image? (run : UpperRun) (point : Nat) : Option Nat :=
  if run.first ≤ point && point ≤ run.last && (point - run.first) % run.stride == 0
  then some (run.target + (point - run.first)) else none

def upperPoint (point : Nat) : List Nat :=
  if point < 128 then
    if 97 ≤ point && point ≤ 122 then [point - 32] else [point]
  else match upperRuns.findSome? (·.image? point) with
    | some image => [image]
    | none => (upperExpansions.lookup point).getD [point]

/-- The text in upper case. A surrogate without its partner stays as it is. -/
def upper : Text → Text
  | [] => []
  | [u] => (upperPoint u.toNat).flatMap ofPoint
  | u :: v :: rest =>
    if isHighSurrogate u && isLowSurrogate v then
      (upperPoint (pairPoint u v)).flatMap ofPoint ++ upper rest
    else (upperPoint u.toNat).flatMap ofPoint ++ upper (v :: rest)

/-- The unit two units share when they differ in letter case only: the upper-case form where
    that is one unit, and never an ASCII unit for one that is not. -/
def fold (u : CodeUnit) : CodeUnit :=
  match upperPoint u.toNat with
  | [image] => if 128 ≤ u && image < 128 then u else image.toUInt16
  | _ => u

def caseVariants (u : CodeUnit) : List CodeUnit :=
  let shared := fold u
  let images := upperRuns.flatMap fun run =>
    if shared.toNat < run.target || run.target + (run.last - run.first) < shared.toNat then []
    else [(run.first + (shared.toNat - run.target)).toUInt16]
  (u :: shared :: images).filter fun v => fold v == shared

end VirtualInstrument.Text
