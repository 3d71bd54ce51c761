import VirtualInstrument.Document.Writer
import VirtualInstrument.Expression.Function
import VirtualInstrument.Scpi.Number
import VirtualInstrument.State.Heap
/- The values of expressions: what a key can hold, and besides it functions and their
   groups, which can be called and shown but not stored. -/
namespace VirtualInstrument.Expression

inductive Value
  | null
  | boolean (b : Bool)
  | number (x : Float)
  | string (t : Text)
  | list (items : List Value)
  | map (address : Address)
  | group (g : Group)
  | function (f : Function)
deriving Repr, Inhabited

namespace Value

mutual

def ofStored : Stored → Value
  | .null => .null
  | .boolean b => .boolean b
  | .number x => .number x
  | .string t => .string t
  | .list items => .list (ofStoredItems items)
  | .map address => .map address

def ofStoredItems : List Stored → List Value
  | [] => []
  | item :: rest => ofStored item :: ofStoredItems rest

end

mutual

/-- What a key can hold of a value: all of it, or nothing when there is a function or a group
    in it. -/
def toStored? : Value → Option Stored
  | .null => some .null
  | .boolean b => some (.boolean b)
  | .number x => some (.number x)
  | .string t => some (.string t)
  | .list items => (toStoredItems? items).map .list
  | .map address => some (.map address)
  | .group _ => none
  | .function _ => none

def toStoredItems? : List Value → Option (List Stored)
  | [] => some []
  | item :: rest => do
    let stored ← toStored? item
    let others ← toStoredItems? rest
    some (stored :: others)

end

mutual

/-- The document that shows a value. A function and a group are shown by name. -/
def toDocument? (heap : Heap) : Value → Option Document
  | .null => some .null
  | .boolean b => some (.boolean b)
  | .number x => some (.number x)
  | .string t => some (.string t)
  | .list items => (toDocuments? heap items).map .list
  | .map address => heap.unload? (.map address)
  | .group g => some (.map [(text "name", .string g.name), (text "members", .map [])])
  | .function f => some (.map [(text "name", .string f.name)])

def toDocuments? (heap : Heap) : List Value → Option (List Document)
  | [] => some []
  | item :: rest => do
    let document ← toDocument? heap item
    let others ← toDocuments? heap rest
    some (document :: others)

end

def render? (heap : Heap) : Value → Option Text
  | .null => some []
  | .boolean b => some (Document.booleanBody b)
  | .number x => some (Decimal.numberText x)
  | .string t => some t
  | .group g => some (text "<namespace " ++ g.name ++ text ">")
  | .function f => some (text "<function " ++ f.name ++ text ">")
  | value => (value.toDocument? heap).map (·.compact)

def describe : Value → Text
  | .null => text "null"
  | .boolean b => text "boolean " ++ Document.booleanBody b
  | .number x => text "number " ++ Document.numberBody x
  | .string t => text "string " ++ Document.quote t
  | .list _ => text "list"
  | .map _ => text "map"
  | .group g => text "namespace " ++ g.name
  | .function f => text "function " ++ f.name

/-- Null, false, zero and whatever is empty count as false. -/
def isTruthy (heap : Heap) : Value → Bool
  | .null => false
  | .boolean b => b
  | .number x => !(x == 0)
  | .string t => !t.isEmpty
  | .list items => !items.isEmpty
  | .map address => !(heap.fields address).isEmpty
  | .group _ => true
  | .function _ => true

/-- A number, a truth value as one or zero, or a string that writes a number. -/
def asNumber? : Value → Option Float
  | .number x => some x
  | .boolean b => some (if b then 1 else 0)
  | .string t => (Scpi.parseNumber t).toOption
  | _ => none

/-- A capture that writes a number is that number: `15.0` is more than 10. -/
def ofCapture (capture : Text) : Value :=
  match (Scpi.parseNumber capture).toOption with
  | some x => .number x
  | none => .string capture

end Value

end VirtualInstrument.Expression
