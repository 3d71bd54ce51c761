import VirtualInstrument.Pattern.Tree
import VirtualInstrument.Text.Identifier
/- The tokens of a pattern: single conditions, repetition marks, bars and brackets.
   A brace that does not begin a repetition, a closing brace and a closing square bracket
   stand for themselves, and so does a backslash escape with no meaning of its own. -/
namespace VirtualInstrument.Pattern

open Text

inductive GroupKind
  | plain
  | capturing (name : Option Text)
  | looking (ahead negated : Bool)
deriving DecidableEq, Repr

inductive Token
  /-- A part that takes units and may be repeated. -/
  | part (tree : Tree)
  /-- A condition on the place alone. It cannot be repeated. -/
  | place (tree : Tree)
  | repeated (count : Repetition)
  | bar
  | opens (kind : GroupKind)
  | closes
deriving DecidableEq, Repr

structure Scope where
  names : List (Option Text)
deriving DecidableEq, Repr

def Scope.hasNames (scope : Scope) : Bool := scope.names.any (·.isSome)

def isOctal (u : CodeUnit) : Bool := 48 ≤ u && u ≤ 55

def takeOctal (t : Text) : CodeUnit × Text :=
  let limit := match t with
    | u :: _ => if u ≤ 51 then 3 else 2
    | [] => 0
  let digits := (t.take limit).takeWhile isOctal
  ((digits.foldl (fun n u => 8 * n + digitValue u) 0).toUInt16, t.drop digits.length)

def takeHex? (count : Nat) (t : Text) : Option (CodeUnit × Text) :=
  let digits := t.take count
  if digits.length < count then none
  else (digits.mapM hexValue?).map fun values =>
    ((values.foldl (fun n d => 16 * n + d) 0).toUInt16, t.drop count)

def setLetter? (u : CodeUnit) : Option SetItem :=
  match glyph u with
  | 'd' => some (.digit false)
  | 'D' => some (.digit true)
  | 's' => some (.blank false)
  | 'S' => some (.blank true)
  | 'w' => some (.word false)
  | 'W' => some (.word true)
  | _ => none

def controlLetter? (u : CodeUnit) : Option CodeUnit :=
  match glyph u with
  | 'f' => some 0x0C
  | 'n' => some 0x0A
  | 'r' => some 0x0D
  | 't' => some 0x09
  | 'v' => some 0x0B
  | _ => none

/-- The unit that an escape stands for, wherever it is written; the text follows the
    backslash. Inside a set a control escape also takes digits and the underscore. -/
def takeEscapedUnit (scope : Scope) (inSet : Bool) : Text → Option (CodeUnit × Text)
  | [] => none
  | u :: rest =>
    if isOctal u then some (takeOctal (u :: rest))
    else match glyph u with
      | 'c' =>
        match rest with
        | v :: more =>
          if isLetter v || (inSet && isWordUnit v) then some (v % 32, more)
          else some (unit '\\', u :: rest)
        | [] => some (unit '\\', [u])
      | 'x' => some ((takeHex? 2 rest).getD (u, rest))
      | 'u' => some ((takeHex? 4 rest).getD (u, rest))
      | 'k' => if scope.hasNames then none else some (u, rest)
      | _ => some ((controlLetter? u).getD u, rest)

/-- The code point of an escape in a name, after its letter: four digits, eight in two escapes
    for the halves of a pair, or any number of digits in braces. -/
def takePoint? (t : Text) : Option (Nat × Text) :=
  match after? (text "\x7b") t with
  | some body =>
    let digits := body.takeWhile fun u => (hexValue? u).isSome
    let value := digits.foldl (fun n u => 16 * n + (hexValue? u).getD 0) 0
    (after? (text "\x7d") (body.dropWhile fun u => (hexValue? u).isSome)).map (value, ·)
  | none =>
    (takeHex? 4 t).map fun (high, rest) =>
      match (after? (text "\\u") rest).bind (takeHex? 4) with
      | some (low, more) =>
        if isHighSurrogate high && isLowSurrogate low then (pairPoint high low, more)
        else (high.toNat, rest)
      | none => (high.toNat, rest)

def takeNamePoint? : Text → Option (Nat × Text)
  | [] => none
  | u :: rest =>
    if u = unit '\\' then (after? (text "u") rest).bind takePoint?
    else match rest with
      | [] => some (u.toNat, [])
      | v :: more =>
        if isHighSurrogate u && isLowSurrogate v then some (pairPoint u v, more)
        else some (u.toNat, rest)

def namePoints? : Nat → Text → Option (List Nat)
  | _, [] => some []
  | 0, _ :: _ => none
  | fuel + 1, u :: rest => do
    let (point, more) ← takeNamePoint? (u :: rest)
    let points ← namePoints? fuel more
    some (point :: points)

def isName : List Nat → Bool
  | [] => false
  | first :: others => isIdentifierStart first && others.all isIdentifierPart

def takeName? (t : Text) : Option (Text × Text) := do
  let written := t.takeWhile (· ≠ unit '>')
  let rest ← after? (text ">") (t.dropWhile (· ≠ unit '>'))
  let points ← namePoints? written.length written
  if isName points then some (points.flatMap ofPoint, rest) else none

def takeNamedReference? (scope : Scope) (t : Text) : Option (Token × Text) := do
  let body ← after? (text "<") t
  let (name, rest) ← takeName? body
  let index ← scope.names.findIdx? (· == some name)
  some (.part (.again index), rest)

def setOf (item : SetItem) : Tree := .oneOf ⟨false, [item]⟩

/-- An escape outside a set; the text follows the backslash. A number is a reference when
    there are that many groups. -/
def takeEscape (scope : Scope) : Text → Option (Token × Text)
  | [] => none
  | u :: rest =>
    let digits := (u :: rest).takeWhile isDigit
    if u ≠ unit '0' && !digits.isEmpty && digitsValue digits ≤ scope.names.length then
      some (.part (.again (digitsValue digits - 1)), (u :: rest).dropWhile isDigit)
    else if u = unit 'b' then some (.place (.boundary false), rest)
    else if u = unit 'B' then some (.place (.boundary true), rest)
    else if u = unit 'k' && scope.hasNames then takeNamedReference? scope rest
    else match setLetter? u with
      | some item => some (.part (setOf item), rest)
      | none =>
        (takeEscapedUnit scope false (u :: rest)).map fun (v, more) => (.part (.unit v), more)

def takeMember (scope : Scope) : Text → Option (SetItem × Text)
  | [] => none
  | u :: rest =>
    if u ≠ unit '\\' then some (.span u u, rest)
    else match rest with
      | [] => none
      | v :: more =>
        match setLetter? v with
        | some item => some (item, more)
        | none =>
          if v = unit 'b' then some (.span 8 8, more)
          else (takeEscapedUnit scope true rest).map fun (w, last) => (.span w w, last)

def hyphen : SetItem := .span (unit '-') (unit '-')

/-- The span between two members. With a lettered set at either end the hyphen stands for
    itself; the ends of a span must be in order. -/
def spanOf? (low high : SetItem) : Option (List SetItem) :=
  match low, high with
  | .span a _, .span b _ => if a ≤ b then some [.span a b] else none
  | _, _ => some [low, hyphen, high]

def takeMembers (scope : Scope) : Nat → Text → Option (List SetItem × Text)
  | 0, _ => none
  | fuel + 1, t =>
    match t with
    | [] => none
    | u :: rest =>
      if u = unit ']' then some ([], rest)
      else do
        let (low, afterLow) ← takeMember scope t
        match afterLow with
        | dash :: next :: more =>
          if dash ≠ unit '-' then do
            let (items, last) ← takeMembers scope fuel afterLow
            some (low :: items, last)
          else if next = unit ']' then some ([low, hyphen], more)
          else do
            let (high, afterHigh) ← takeMember scope (next :: more)
            let span ← spanOf? low high
            let (items, last) ← takeMembers scope fuel afterHigh
            some (span ++ items, last)
        | _ => do
          let (items, last) ← takeMembers scope fuel afterLow
          some (low :: items, last)

def takeSet (scope : Scope) (t : Text) : Option (Token × Text) :=
  let (negated, body) := match after? (text "^") t with
    | some rest => (true, rest)
    | none => (false, t)
  (takeMembers scope (body.length + 1) body).map fun (items, rest) =>
    (.part (.oneOf ⟨negated, items⟩), rest)

/-- The bounds of a repetition in braces, after the opening one. Without a second bound the
    comma decides whether there is a limit. -/
def takeBounds? (t : Text) : Option (Nat × Option Nat × Text) :=
  let least := t.takeWhile isDigit
  if least.isEmpty then none
  else match t.dropWhile isDigit with
    | 125 :: rest => some (digitsValue least, some (digitsValue least), rest)
    | 44 :: rest =>
      let most := rest.takeWhile isDigit
      match rest.dropWhile isDigit with
      | 125 :: more =>
        some (digitsValue least, if most.isEmpty then none else some (digitsValue most), more)
      | _ => none
    | _ => none

/-- A repetition with given bounds, and the question mark that makes it lazy. Bounds in the
    wrong order are refused. -/
def repetition (least : Nat) (most : Option Nat) (t : Text) : Option (Token × Text) :=
  let ordered := match most with
    | some m => least ≤ m
    | none => true
  if !ordered then none
  else match after? (text "?") t with
    | some rest => some (.repeated ⟨least, most, false⟩, rest)
    | none => some (.repeated ⟨least, most, true⟩, t)

def takeGroup (t : Text) : Option (Token × Text) :=
  match after? (text "?") t with
  | none => some (.opens (.capturing none), t)
  | some body =>
    match after? (text ":") body, after? (text "=") body, after? (text "!") body,
        after? (text "<=") body, after? (text "<!") body, after? (text "<") body with
    | some rest, _, _, _, _, _ => some (.opens .plain, rest)
    | _, some rest, _, _, _, _ => some (.opens (.looking true false), rest)
    | _, _, some rest, _, _, _ => some (.opens (.looking true true), rest)
    | _, _, _, some rest, _, _ => some (.opens (.looking false false), rest)
    | _, _, _, _, some rest, _ => some (.opens (.looking false true), rest)
    | _, _, _, _, _, some rest =>
      (takeName? rest).map fun (name, more) => (.opens (.capturing (some name)), more)
    | _, _, _, _, _, _ => none

def takeToken (scope : Scope) : Text → Option (Token × Text)
  | [] => none
  | u :: rest =>
    match glyph u with
    | '^' => some (.place .start, rest)
    | '$' => some (.place .stop, rest)
    | '.' => some (.part .anyUnit, rest)
    | '|' => some (.bar, rest)
    | '(' => takeGroup rest
    | ')' => some (.closes, rest)
    | '*' => repetition 0 none rest
    | '+' => repetition 1 none rest
    | '?' => repetition 0 (some 1) rest
    | '{' =>
      match takeBounds? rest with
      | some (least, most, more) => repetition least most more
      | none => some (.part (.unit u), rest)
    | '[' => takeSet scope rest
    | '\\' => takeEscape scope rest
    | _ => some (.part (.unit u), rest)

def tokensWithin (scope : Scope) : Nat → Text → Option (List Token)
  | _, [] => some []
  | 0, _ :: _ => none
  | fuel + 1, u :: rest => do
    let (token, more) ← takeToken scope (u :: rest)
    let tokens ← tokensWithin scope fuel more
    some (token :: tokens)

def tokens? (scope : Scope) (t : Text) : Option (List Token) := tokensWithin scope t.length t

def groupNames (tokens : List Token) : List (Option Text) :=
  tokens.filterMap fun token => match token with
    | .opens (.capturing name) => some name
    | _ => none

end VirtualInstrument.Pattern
