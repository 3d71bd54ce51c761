import VirtualInstrument.Decimal.Dyadic
import VirtualInstrument.Document.Basic
/- Checking a document against a form. A check finds a value, or issues with it; a value with
   issues is flawed when it is of the right shape, and unfit when it is not. Of the
   alternatives of a choice, one that is only flawed speaks for the choice. -/
namespace VirtualInstrument.Schema

inductive Segment
  | name (name : Text)
  | index (n : Nat)
deriving DecidableEq, Repr

def Segment.label : Segment → Text
  | .name n => n
  | .index n => Text.ofNat n

inductive Kind
  | null | boolean | number | string | array | object
deriving DecidableEq, Repr

def Kind.label : Kind → Text
  | .null => text "null"
  | .boolean => text "boolean"
  | .number => text "number"
  | .string => text "string"
  | .array => text "array"
  | .object => text "object"

def kindOf : Document → Kind
  | .null => .null
  | .boolean _ => .boolean
  | .number _ => .number
  | .string _ => .string
  | .list _ => .array
  | .map _ => .object

inductive Complaint
  | required
  | wrongKind (expected received : Kind)
  | notInteger
  | negative
  | emptyString
  | unknownNames (names : List Text)
  /-- A string that is none of the given words. -/
  | notOneOf (words : List Text) (received : Text)
  /-- A document that is no string where one of the given words has to be. -/
  | noWord (words : List Text) (received : Kind)
  | noAlternative
deriving DecidableEq, Repr

def quoted (word : Text) : Text := text "'" ++ word ++ text "'"

def wordList (words : List Text) : Text := Text.join (text " | ") (words.map quoted)

def Complaint.message : Complaint → Text
  | .required => text "Required"
  | .wrongKind expected received =>
    text "Expected " ++ expected.label ++ text ", received " ++ received.label
  | .notInteger => text "Expected integer, received float"
  | .negative => text "Number must be greater than or equal to 0"
  | .emptyString => text "String must contain at least 1 character(s)"
  | .unknownNames names =>
    text "Unrecognized key(s) in object: " ++ Text.join (text ", ") (names.map quoted)
  | .notOneOf words received =>
    text "Invalid enum value. Expected " ++ wordList words ++ text ", received " ++ quoted received
  | .noWord words received =>
    text "Expected " ++ wordList words ++ text ", received " ++ received.label
  | .noAlternative => text "Invalid input"

structure Issue where
  path : List Segment
  complaint : Complaint
deriving DecidableEq, Repr

def Issue.location (issue : Issue) : Text := Text.join (text ".") (issue.path.map (·.label))

inductive Verdict (α : Type)
  | sound (value : α)
  | flawed (issues : List Issue)
  | unfit (issues : List Issue)
deriving Repr

/-- A check of the document at a path; where the document lacks a value it is given none. -/
abbrev Check (α : Type) := List Segment → Option Document → Verdict α

namespace Verdict

variable {α β γ : Type}

def issues : Verdict α → List Issue
  | .sound _ => []
  | .flawed issues | .unfit issues => issues

def map (f : α → β) : Verdict α → Verdict β
  | .sound a => .sound (f a)
  | .flawed issues => .flawed issues
  | .unfit issues => .unfit issues

/-- Two checks one after the other. All issues are kept, and the worse verdict counts. -/
def both (one : Verdict α) (other : Verdict β) : Verdict (α × β) :=
  match one, other with
  | .sound a, .sound b => .sound (a, b)
  | .unfit issues, _ => .unfit (issues ++ other.issues)
  | _, .unfit issues => .unfit (one.issues ++ issues)
  | _, _ => .flawed (one.issues ++ other.issues)

def all : List (Verdict α) → Verdict (List α)
  | [] => .sound []
  | one :: rest => (one.both (all rest)).map fun (a, as) => a :: as

def flawedBy (verdict : Verdict α) (found : List Issue) : Verdict α :=
  match found, verdict with
  | [], _ => verdict
  | _, .sound _ => .flawed found
  | _, .flawed issues => .flawed (issues ++ found)
  | _, .unfit issues => .unfit (issues ++ found)

def orElse (path : List Segment) (one : Verdict α) (other : Unit → Verdict α) : Verdict α :=
  match one with
  | .sound a => .sound a
  | .flawed issues =>
    match other () with
    | .sound a => .sound a
    | _ => .flawed issues
  | .unfit _ =>
    match other () with
    | .unfit _ => .unfit [⟨path, .noAlternative⟩]
    | verdict => verdict

end Verdict

variable {α : Type}

def mismatch (path : List Segment) (expected : Kind) : Option Document → Verdict α
  | none => .unfit [⟨path, .required⟩]
  | some d => .unfit [⟨path, .wrongKind expected (kindOf d)⟩]

def string : Check Text := fun path document =>
  match document with
  | some (.string t) => .sound t
  | other => mismatch path .string other

def number : Check Float := fun path document =>
  match document with
  | some (.number x) => .sound x
  | other => mismatch path .number other

def require (check : Check α) (holds : α → Bool) (complaint : Complaint) : Check α :=
  fun path document =>
    match check path document with
    | .sound a => if holds a then .sound a else .flawed [⟨path, complaint⟩]
    | verdict => verdict

def nonEmptyString : Check Text := require string (!·.isEmpty) .emptyString

def nonNegative : Check Float := require number (fun x => 0 ≤ x) .negative

def integer : Check Float := require number (fun x => (wholeOf? x).isSome) .notInteger

def word (words : List (Text × α)) : Check α := fun path document =>
  let spellings := words.map (·.1)
  match document with
  | none => .unfit [⟨path, .required⟩]
  | some (.string t) =>
    match words.lookup t with
    | some a => .sound a
    | none => .unfit [⟨path, .notOneOf spellings t⟩]
  | some d => .unfit [⟨path, .noWord spellings (kindOf d)⟩]

def maybe (check : Check α) : Check (Option α) := fun path document =>
  match document with
  | none => .sound none
  | some d => (check path (some d)).map some

def withDefault (default : α) (check : Check α) : Check α := fun path document =>
  match document with
  | none => .sound default
  | some d => check path (some d)

def listOf (check : Check α) : Check (List α) := fun path document =>
  match document with
  | some (.list items) =>
    .all (items.mapIdx fun i item => check (path ++ [.index i]) (some item))
  | other => mismatch path .array other

/-- A map whose values all have one form; an entry under the reserved name is checked and
    left out. -/
def recordOf (check : Check α) : Check (Fields α) := fun path document =>
  match document with
  | some (.map fields) =>
    (Verdict.all (fields.map fun (name, value) =>
      (check (path ++ [.name name]) (some value)).map fun a => (name, a))).map
        fun entries => entries.filter (·.1 != Fields.reservedName)
  | other => mismatch path .object other

def form (read : List Segment → Fields Document → Verdict α) : Check α := fun path document =>
  match document with
  | some (.map fields) => read path fields
  | other => mismatch path .object other

def field (check : Check α) (name : Text) (path : List Segment) (fields : Fields Document) :
    Verdict α :=
  check (path ++ [.name name]) (fields.get? name)

mutual

/-- A document without the entries under the reserved name, at every depth. -/
def withoutReserved : Document → Document
  | .list items => .list (withoutReservedItems items)
  | .map fields => .map (withoutReservedFields fields)
  | other => other

def withoutReservedItems : List Document → List Document
  | [] => []
  | item :: rest => withoutReserved item :: withoutReservedItems rest

def withoutReservedFields : List (Text × Document) → Fields Document
  | [] => []
  | (name, value) :: rest =>
    if name = Fields.reservedName then withoutReservedFields rest
    else (name, withoutReserved value) :: withoutReservedFields rest

end

def anything : Check Document := fun path document =>
  match document with
  | none => .unfit [⟨path, .noAlternative⟩]
  | some d => .sound (withoutReserved d)

end VirtualInstrument.Schema
