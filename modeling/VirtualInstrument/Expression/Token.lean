import VirtualInstrument.Decimal.Numeral
import VirtualInstrument.Expression.Fault
/- The tokens of an expression. Each token is the longest that its own text allows, and the
   list ends with a token that stands for the end of the text. -/
namespace VirtualInstrument.Expression

open Text

inductive TokenKind
  | literal (value : Literal)
  | name (name : Text)
  | symbol (symbol : Symbol)
  | stop
deriving DecidableEq, Repr

structure Token where
  kind : TokenKind
  place : Nat
deriving DecidableEq, Repr

/-- The spellings of the symbols, two-unit ones before their beginnings. -/
def symbols : List (Text × Symbol) := [
  (text "**", .power), (text "//", .floorOver), (text "==", .equal), (text "!=", .unequal),
  (text "<=", .atMost), (text ">=", .atLeast), (text "&&", .and), (text "||", .or),
  (text "+", .plus), (text "-", .minus), (text "*", .times), (text "/", .over),
  (text "%", .modulo), (text "<", .less), (text ">", .greater), (text "!", .not),
  (text "(", .openParen), (text ")", .closeParen), (text "[", .openBracket),
  (text "]", .closeBracket), (text ",", .comma), (text ".", .dot), (text "?", .question),
  (text ":", .colon)]

def keywords : List (Text × TokenKind) := [
  (text "and", .symbol .and), (text "or", .symbol .or), (text "not", .symbol .not),
  (text "true", .literal (.boolean true)), (text "True", .literal (.boolean true)),
  (text "false", .literal (.boolean false)), (text "False", .literal (.boolean false)),
  (text "null", .literal .null), (text "None", .literal .null)]

def isNameStart (u : CodeUnit) : Bool := isLetter u || u == unit '_'

/-- The unit behind a backslash in a string: a line feed, a tab or the unit itself. -/
def unescape (u : CodeUnit) : CodeUnit :=
  if u = unit 'n' then 0x0A else if u = unit 't' then 0x09 else u

def takeString? (quote : CodeUnit) : Text → Option (Text × Text)
  | [] => none
  | [u] => if u = quote then some ([], []) else none
  | u :: v :: rest =>
    if u = unit '\\' then
      (takeString? quote rest).map fun (body, after) => (unescape v :: body, after)
    else if u = quote then some ([], v :: rest)
    else (takeString? quote (v :: rest)).map fun (body, after) => (u :: body, after)

def takeToken (place : Nat) : Text → Except SyntaxFault (TokenKind × Text)
  | [] => .ok (.stop, [])
  | u :: rest =>
    if isDigit u then
      let (x, more) := Decimal.takeDecimal (u :: rest)
      .ok (.literal (.number x), more)
    else if u = unit '"' ∨ u = unit '\'' then
      match takeString? u rest with
      | some (body, more) => .ok (.literal (.string body), more)
      | none => .error (.unterminated place)
    else if isNameStart u then
      let word := (u :: rest).takeWhile isWordUnit
      .ok ((keywords.lookup word).getD (.name word), (u :: rest).dropWhile isWordUnit)
    else
      match symbols.findSome? fun (spelling, symbol) =>
          (after? spelling (u :: rest)).map fun more => (TokenKind.symbol symbol, more) with
      | some found => .ok found
      | none => .error (.strayUnit u place)

def tokensWithin : Nat → Nat → Text → Except SyntaxFault (List Token)
  | _, place, [] => .ok [⟨.stop, place⟩]
  | 0, _, _ :: _ => .error .exhausted
  | fuel + 1, place, u :: rest =>
    if isBlank u then tokensWithin fuel (place + 1) rest
    else do
      let (kind, more) ← takeToken place (u :: rest)
      let tokens ← tokensWithin fuel (place + ((u :: rest).length - more.length)) more
      .ok (⟨kind, place⟩ :: tokens)

def tokens (t : Text) : Except SyntaxFault (List Token) := tokensWithin t.length 0 t

end VirtualInstrument.Expression
