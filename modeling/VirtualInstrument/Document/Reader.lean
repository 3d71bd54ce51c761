import VirtualInstrument.Decimal.Numeral
import VirtualInstrument.Document.Basic
/- Reading a document from its text. Blanks are the four ASCII ones only, numbers have no
   leading zeros, and of two entries with one name the later value stands at the place of
   the earlier. Each step uses up part of the text, so its length bounds the reading. -/
namespace VirtualInstrument.Document

open Text

def isSpace (u : CodeUnit) : Bool := u == 0x20 || u == 0x0A || u == 0x0D || u == 0x09

def skipSpace (t : Text) : Text := t.dropWhile isSpace

def escaped? (u : CodeUnit) : Option CodeUnit :=
  match glyph u with
  | '"' => some u
  | '\\' => some u
  | '/' => some u
  | 'b' => some 0x08
  | 'f' => some 0x0C
  | 'n' => some 0x0A
  | 'r' => some 0x0D
  | 't' => some 0x09
  | _ => none

def hexUnit? (a b c d : CodeUnit) : Option CodeUnit := do
  let w ← hexValue? a
  let x ← hexValue? b
  let y ← hexValue? c
  let z ← hexValue? d
  some (w * 4096 + x * 256 + y * 16 + z).toUInt16

def readQuoted : Text → Option (Text × Text)
  | [] => none
  | [u] => if u = unit '"' then some ([], []) else none
  | u :: v :: rest =>
    if u = unit '"' then some ([], v :: rest)
    else if u < 32 then none
    else if u = unit '\\' then
      if v = unit 'u' then
        match rest with
        | a :: b :: c :: d :: more => do
          let x ← hexUnit? a b c d
          let (body, after) ← readQuoted more
          some (x :: body, after)
        | _ => none
      else do
        let x ← escaped? v
        let (body, after) ← readQuoted rest
        some (x :: body, after)
    else do
      let (body, after) ← readQuoted (v :: rest)
      some (u :: body, after)

def readNumber (t : Text) : Option (Float × Text) :=
  let (negative, body) :=
    match t with
    | u :: rest => if u = unit '-' then (true, rest) else (false, t)
    | [] => (false, [])
  let whole := body.takeWhile isDigit
  let fraction := (Decimal.takeFraction (body.dropWhile isDigit)).1
  if whole.isEmpty || (whole.head? == some (unit '0') && whole.length != 1) ||
      fraction == some [] then none
  else
    let (x, rest) := Decimal.takeDecimal body
    some (Decimal.negateIf negative x, rest)

def readWord (t : Text) : Option (Document × Text) :=
  match after? (text "null") t, after? (text "true") t, after? (text "false") t with
  | some rest, _, _ => some (.null, rest)
  | _, some rest, _ => some (.boolean true, rest)
  | _, _, some rest => some (.boolean false, rest)
  | _, _, _ => none

mutual

def readValue : Nat → Text → Option (Document × Text)
  | 0, _ => none
  | fuel + 1, t =>
    match skipSpace t with
    | [] => none
    | u :: rest =>
      match glyph u with
      | '"' => (readQuoted rest).map fun (body, after) => (.string body, after)
      | '[' =>
        match skipSpace rest with
        | [] => none
        | v :: more =>
          if v = unit ']' then some (.list [], more)
          else (readItems fuel (v :: more)).map fun (items, after) => (.list items, after)
      | '{' =>
        match skipSpace rest with
        | [] => none
        | v :: more =>
          if v = 125 then some (.map [], more)
          else (readEntries fuel [] (v :: more)).map fun (fields, after) => (.map fields, after)
      | 'n' | 't' | 'f' => readWord (u :: rest)
      | _ => (readNumber (u :: rest)).map fun (x, after) => (.number x, after)

def readItems : Nat → Text → Option (List Document × Text)
  | 0, _ => none
  | fuel + 1, t => do
    let (item, after) ← readValue fuel t
    match skipSpace after with
    | [] => none
    | u :: rest =>
      if u = unit ',' then do
        let (items, last) ← readItems fuel rest
        some (item :: items, last)
      else if u = unit ']' then some ([item], rest)
      else none

def readEntries : Nat → Fields Document → Text → Option (Fields Document × Text)
  | 0, _, _ => none
  | fuel + 1, fields, t =>
    match skipSpace t with
    | [] => none
    | q :: body =>
      if q ≠ unit '"' then none
      else do
        let (name, afterName) ← readQuoted body
        match skipSpace afterName with
        | [] => none
        | colon :: afterColon =>
          if colon ≠ unit ':' then none
          else do
            let (value, after) ← readValue fuel afterColon
            match skipSpace after with
            | [] => none
            | u :: rest =>
              if u = unit ',' then readEntries fuel (fields.set name value) rest
              else if u = 125 then some (fields.set name value, rest)
              else none

end

def read? (t : Text) : Option Document :=
  match readValue (t.length + 1) t with
  | some (d, rest) => if (skipSpace rest).isEmpty then some d else none
  | none => none

end VirtualInstrument.Document
