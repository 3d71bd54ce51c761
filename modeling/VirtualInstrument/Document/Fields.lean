import VirtualInstrument.Text.Units
/- Named entries in their listing order: names that are list positions first, in ascending
   order, then the others in the order they were added. A name occurs once. -/
namespace VirtualInstrument

abbrev Fields (α : Type) := List (Text × α)

/-- The position a name stands for: a decimal without leading zeros below 2 ^ 32 - 1. -/
def position? (name : Text) : Option Nat :=
  let n := Text.digitsValue name
  if name.all Text.isDigit && name == Text.ofNat n && n < 4294967295 then some n else none

namespace Fields

variable {α β : Type}

def get? : Fields α → Text → Option α
  | [], _ => none
  | (name, value) :: rest, sought => if name = sought then some value else get? rest sought

def has (fields : Fields α) (name : Text) : Bool := (fields.get? name).isSome

def precedes (new old : Text) : Bool :=
  match position? new, position? old with
  | some n, some m => n < m
  | some _, none => true
  | none, _ => false

def insertNew (name : Text) (value : α) : Fields α → Fields α
  | [] => [(name, value)]
  | entry :: rest =>
    if precedes name entry.1 then (name, value) :: entry :: rest
    else entry :: insertNew name value rest

def replace (name : Text) (value : α) : Fields α → Fields α
  | [] => []
  | entry :: rest =>
    if entry.1 = name then (name, value) :: rest else entry :: replace name value rest

/-- Gives a name a value: in place when it is listed, at its place in the order when not. -/
def set (fields : Fields α) (name : Text) (value : α) : Fields α :=
  if fields.has name then fields.replace name value else fields.insertNew name value

/-- Gives a name a value: in place when it is listed, behind all others when not. -/
def put (fields : Fields α) (name : Text) (value : α) : Fields α :=
  if fields.has name then fields.replace name value else fields ++ [(name, value)]

def ofList (entries : List (Text × α)) : Fields α :=
  entries.foldl (fun fields entry => fields.set entry.1 entry.2) []

def names (fields : Fields α) : List Text := fields.map (·.1)

/-- The name that assignment to a map never creates. -/
def reservedName : Text := text "__proto__"

end Fields

end VirtualInstrument
