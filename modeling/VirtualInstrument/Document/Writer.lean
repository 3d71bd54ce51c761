import VirtualInstrument.Decimal.Style
import VirtualInstrument.Document.Basic
/- The text of a document: compact, as responses and messages show it, or indented by two
   blanks a level, as session files hold it. Numbers that are not finite are written as
   null. -/
namespace VirtualInstrument.Document

open Text

def hexDigit (n : Nat) : CodeUnit := if n < 10 then (48 + n).toUInt16 else (87 + n).toUInt16

def escapeUnit (u : CodeUnit) : Text :=
  text "\\u" ++ [hexDigit (u.toNat / 4096), hexDigit (u.toNat / 256 % 16),
    hexDigit (u.toNat / 16 % 16), hexDigit (u.toNat % 16)]

def quoteUnit (u : CodeUnit) : Text :=
  match glyph u with
  | '"' => text "\\\""
  | '\\' => text "\\\\"
  | '\x08' => text "\\b"
  | '\t' => text "\\t"
  | '\n' => text "\\n"
  | '\x0c' => text "\\f"
  | '\r' => text "\\r"
  | _ => if u < 32 || isHighSurrogate u || isLowSurrogate u then escapeUnit u else [u]

def quoteBody : Text → Text
  | [] => []
  | [u] => quoteUnit u
  | u :: v :: rest =>
    if isHighSurrogate u && isLowSurrogate v then u :: v :: quoteBody rest
    else quoteUnit u ++ quoteBody (v :: rest)

def quote (t : Text) : Text := text "\"" ++ quoteBody t ++ text "\""

def numberBody (x : Float) : Text :=
  match classify x with
  | .finite _ => Decimal.numberText x
  | _ => text "null"

def booleanBody (b : Bool) : Text := if b then text "true" else text "false"

def bracketed (opening closing : CodeUnit) (parts : List Text) : Text :=
  opening :: (join (text ",") parts ++ [closing])

mutual

def compact : Document → Text
  | .null => text "null"
  | .boolean b => booleanBody b
  | .number x => numberBody x
  | .string t => quote t
  | .list items => bracketed (unit '[') (unit ']') (compactItems items)
  | .map fields => bracketed 123 125 (compactFields fields)

def compactItems : List Document → List Text
  | [] => []
  | item :: rest => item.compact :: compactItems rest

def compactFields : List (Text × Document) → List Text
  | [] => []
  | (name, value) :: rest => (quote name ++ text ":" ++ value.compact) :: compactFields rest

end

def lineStart (level : Nat) : Text := unit '\n' :: List.replicate (2 * level) (unit ' ')

/-- The parts on lines of their own one level deeper; brackets without parts stay together. -/
def laidOut (level : Nat) (opening closing : CodeUnit) (parts : List Text) : Text :=
  if parts.isEmpty then [opening, closing]
  else opening :: (lineStart (level + 1) ++ join (text "," ++ lineStart (level + 1)) parts ++
    lineStart level ++ [closing])

mutual

def indented (level : Nat) : Document → Text
  | .null => text "null"
  | .boolean b => booleanBody b
  | .number x => numberBody x
  | .string t => quote t
  | .list items => laidOut level (unit '[') (unit ']') (indentedItems (level + 1) items)
  | .map fields => laidOut level 123 125 (indentedFields (level + 1) fields)

def indentedItems (level : Nat) : List Document → List Text
  | [] => []
  | item :: rest => item.indented level :: indentedItems level rest

def indentedFields (level : Nat) : List (Text × Document) → List Text
  | [] => []
  | (name, value) :: rest =>
    (quote name ++ text ": " ++ value.indented level) :: indentedFields level rest

end

end VirtualInstrument.Document
