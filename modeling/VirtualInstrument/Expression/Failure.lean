import VirtualInstrument.Expression.Function
/- Why an expression has no value. A value in a message is named by its description. -/
namespace VirtualInstrument.Expression

inductive Context
  | function (f : Function)
  | operator (spelling : Text)
  | sign (spelling : Text)
  | place
deriving DecidableEq, Repr

def Context.label : Context → Text
  | .function f => f.name ++ text "()"
  | .operator spelling => text "'" ++ spelling ++ text "'"
  | .sign spelling => text "unary '" ++ spelling ++ text "'"
  | .place => text "index"

inductive Failure
  | notNumber (context : Context) (given : Text)
  | notList (context : Context) (given : Text)
  | wrongCount (f : Function) (given : Nat)
  | undefinedResult (f : Function)
  | emptyList (f : Function)
  | fewPoints (f : Function) (least : Nat)
  | emptyRange (low high : Text)
  | emptyChoice
  | withoutLength (given : Text)
  | noMember (g : Group) (name : Text)
  | unknownKey (name : Text)
  | unreadable (name given : Text)
  | fractionalIndex (index : Text)
  | outOfRange (index : Text)
  | cannotAdd (left right : Text)
  | cannotCompare (left right : Text)
  | divisionByZero
  | noCapture (name : Text)
  | unknownName (name : Text)
  | notCallable (given : Text)
  | noMoment
  /-- A map that contains itself cannot be shown. -/
  | circular
deriving DecidableEq, Repr

def arityText (least : Nat) : Option Nat → Text
  | none => Text.ofNat least ++ text " to Infinity"
  | some most =>
    if least = most then Text.ofNat least
    else Text.ofNat least ++ text " to " ++ Text.ofNat most

def Failure.message : Failure → Text
  | .notNumber context given => context.label ++ text ": expected a number, got " ++ given
  | .notList context given => context.label ++ text ": expected a list, got " ++ given
  | .wrongCount f given =>
    f.name ++ text "() takes " ++ arityText f.arity.1 f.arity.2 ++ text " argument(s), got " ++
      Text.ofNat given
  | .undefinedResult f => f.name ++ text "(): math domain error"
  | .emptyList f => f.name ++ text "() of an empty list"
  | .fewPoints f least =>
    f.name ++ text "() requires at least " ++ Text.ofNat least ++ text " data point(s)"
  | .emptyRange low high =>
    text "randint(): empty range (" ++ low ++ text ", " ++ high ++ text ")"
  | .emptyChoice => text "choice(): empty list"
  | .withoutLength given => text "len(): unsupported " ++ given
  | .noMember g name => g.name ++ text " has no member '" ++ name ++ text "'"
  | .unknownKey name => text "unknown state key '" ++ name ++ text "'"
  | .unreadable name given => text "cannot read '" ++ name ++ text "' of " ++ given
  | .fractionalIndex index => text "index must be an integer, got " ++ index
  | .outOfRange index => text "index " ++ index ++ text " out of range"
  | .cannotAdd left right => text "cannot add " ++ left ++ text " and " ++ right
  | .cannotCompare left right => text "cannot compare " ++ left ++ text " and " ++ right
  | .divisionByZero => text "division by zero"
  | .noCapture name => text "no capture " ++ name ++ text " for this command"
  | .unknownName name => text "unknown name '" ++ name ++ text "'"
  | .notCallable given => given ++ text " is not callable"
  | .noMoment => text "Invalid time value"
  | .circular => text "Converting circular structure to JSON"

end VirtualInstrument.Expression
