import VirtualInstrument.Text.Units
/- UTF-8. Writing is total: a surrogate without its partner is written as the replacement
   character. Reading is total as well: each longest stretch that begins a character but
   cannot be completed is read as one replacement character. -/
namespace VirtualInstrument.Text

def pointBytes (point : Nat) : List UInt8 :=
  if point < 0x80 then [point.toUInt8]
  else if point < 0x800 then [(0xC0 + point / 64).toUInt8, (0x80 + point % 64).toUInt8]
  else if point < 0x10000 then
    [(0xE0 + point / 4096).toUInt8, (0x80 + point / 64 % 64).toUInt8, (0x80 + point % 64).toUInt8]
  else [(0xF0 + point / 262144).toUInt8, (0x80 + point / 4096 % 64).toUInt8,
    (0x80 + point / 64 % 64).toUInt8, (0x80 + point % 64).toUInt8]

def replacement : CodeUnit := 0xFFFD

def isSurrogate (u : CodeUnit) : Bool := isHighSurrogate u || isLowSurrogate u

def unitBytes (u : CodeUnit) : List UInt8 :=
  pointBytes (if isSurrogate u then replacement.toNat else u.toNat)

def toUtf8 : Text → List UInt8
  | [] => []
  | [u] => unitBytes u
  | u :: v :: rest =>
    if isHighSurrogate u && isLowSurrogate v then pointBytes (pairPoint u v) ++ toUtf8 rest
    else unitBytes u ++ toUtf8 (v :: rest)

/-- A character under way: the value so far, the bytes still owed, and the range the next
    byte must lie in. -/
structure PartialPoint where
  value : Nat
  owed : Nat
  low : UInt8
  high : UInt8
deriving DecidableEq, Repr

inductive Lead
  | whole (point : Nat)
  | opens (state : PartialPoint)
  | stray
deriving DecidableEq, Repr

def lead (b : UInt8) : Lead :=
  if b < 0x80 then .whole b.toNat
  else if b < 0xC2 then .stray
  else if b < 0xE0 then .opens ⟨b.toNat - 0xC0, 1, 0x80, 0xBF⟩
  else if b == 0xE0 then .opens ⟨0, 2, 0xA0, 0xBF⟩
  else if b == 0xED then .opens ⟨13, 2, 0x80, 0x9F⟩
  else if b < 0xF0 then .opens ⟨b.toNat - 0xE0, 2, 0x80, 0xBF⟩
  else if b == 0xF0 then .opens ⟨0, 3, 0x90, 0xBF⟩
  else if b < 0xF4 then .opens ⟨b.toNat - 0xF0, 3, 0x80, 0xBF⟩
  else if b == 0xF4 then .opens ⟨4, 3, 0x80, 0x8F⟩
  else .stray

def readLead (b : UInt8) : Text × Option PartialPoint :=
  match lead b with
  | .whole point => (ofPoint point, none)
  | .opens state => ([], some state)
  | .stray => ([replacement], none)

def ofUtf8Within : Option PartialPoint → List UInt8 → Text
  | none, [] => []
  | some _, [] => [replacement]
  | none, b :: rest =>
    let (units, state) := readLead b
    units ++ ofUtf8Within state rest
  | some state, b :: rest =>
    if state.low ≤ b && b ≤ state.high then
      let value := state.value * 64 + (b.toNat - 0x80)
      if state.owed ≤ 1 then ofPoint value ++ ofUtf8Within none rest
      else ofUtf8Within (some ⟨value, state.owed - 1, 0x80, 0xBF⟩) rest
    else
      let (units, next) := readLead b
      replacement :: units ++ ofUtf8Within next rest

def ofUtf8 (bytes : List UInt8) : Text := ofUtf8Within none bytes

end VirtualInstrument.Text
