/- Text, as the instrument line counts it: a list of 16-bit code units.
   Lengths, positions and indices are counts of units, so a character beyond the first
   65536 is two of them and half of such a pair is still a text. -/
namespace VirtualInstrument

abbrev CodeUnit := UInt16

abbrev Text := List CodeUnit

namespace Text

/-- One unit for a character of the basic plane, a surrogate pair for any other. -/
def ofPoint (point : Nat) : Text :=
  if point < 0x10000 then [point.toUInt16]
  else [(0xD800 + (point - 0x10000) / 0x400).toUInt16, (0xDC00 + (point - 0x10000) % 0x400).toUInt16]

def ofString (s : String) : Text := s.toList.flatMap fun c => ofPoint c.toNat

end Text

def text (s : String) : Text := Text.ofString s

namespace Text

def unit (c : Char) : CodeUnit := c.toNat.toUInt16

/-- The ASCII character of a unit. Every other unit is shown as the replacement character,
    which no rule of this library asks for. -/
def glyph (u : CodeUnit) : Char := if u < 128 then Char.ofNat u.toNat else '\uFFFD'

def isHighSurrogate (u : CodeUnit) : Bool := 0xD800 ≤ u && u < 0xDC00

def isLowSurrogate (u : CodeUnit) : Bool := 0xDC00 ≤ u && u < 0xE000

def pairPoint (high low : CodeUnit) : Nat :=
  0x10000 + (high.toNat - 0xD800) * 0x400 + (low.toNat - 0xDC00)

def isDigit (u : CodeUnit) : Bool := 48 ≤ u && u ≤ 57

def isLetter (u : CodeUnit) : Bool := (65 ≤ u && u ≤ 90) || (97 ≤ u && u ≤ 122)

def isWordUnit (u : CodeUnit) : Bool := isLetter u || isDigit u || u == 95

def digitValue (u : CodeUnit) : Nat := u.toNat - 48

def digitsValue (digits : Text) : Nat := digits.foldl (fun n u => 10 * n + digitValue u) 0

def hexValue? (u : CodeUnit) : Option Nat :=
  if isDigit u then some (digitValue u)
  else if 65 ≤ u && u ≤ 70 then some (u.toNat - 55)
  else if 97 ≤ u && u ≤ 102 then some (u.toNat - 87)
  else none

def ofNat (n : Nat) : Text := ofString (toString n)

def join (separator : Text) (parts : List Text) : Text := separator.intercalate parts

def split (separator : CodeUnit) : Text → List Text
  | [] => [[]]
  | u :: rest =>
    if u = separator then [] :: split separator rest
    else match split separator rest with
      | [] => [[u]]
      | piece :: pieces => (u :: piece) :: pieces

def after? (start : Text) (t : Text) : Option Text :=
  if start.isPrefixOf t then some (t.drop start.length) else none

def upperAscii (t : Text) : Text := t.map fun u => if 97 ≤ u && u ≤ 122 then u - 32 else u

def lowerAscii (t : Text) : Text := t.map fun u => if 65 ≤ u && u ≤ 90 then u + 32 else u

def less : Text → Text → Bool
  | _, [] => false
  | [], _ :: _ => true
  | a :: as, b :: bs => a < b || (a == b && less as bs)

end Text

end VirtualInstrument
