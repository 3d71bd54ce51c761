import VirtualInstrument.State.Heap
/- The state of one instrument: a map of values under dotted keys. A key is the path of its
   segments through nested maps, except that a key of the top map which has dots in it is
   taken as it is written. -/
namespace VirtualInstrument

inductive KeyFault
  | invalid (key : Text)
  | notAMap (key segment : Text)
deriving DecidableEq, Repr

def KeyFault.message : KeyFault → Text
  | .invalid key => text "Invalid state key: \"" ++ key ++ text "\""
  | .notAMap key segment =>
    text "Cannot set \"" ++ key ++ text "\": \"" ++ segment ++ text "\" is not a map"

structure Store where
  heap : Heap
  root : Address
  seed : Fields Document
deriving Repr, Inhabited

namespace Store

def create (heap : Heap) (seed : Fields Document) : Store :=
  let (loaded, entries) := heap.loadFields seed
  let (grown, root) := loaded.allocate entries
  ⟨grown, root, seed⟩

def reset (store : Store) : Store := create store.heap store.seed

def rootFields (store : Store) : Fields Stored := store.heap.fields store.root

def segments (key : Text) : List Text := Text.split (Text.unit '.') key

/-- What a value holds under one segment: an entry of a map, or the item of a list when the
    segment is a number. -/
def child? (heap : Heap) (value : Stored) (segment : Text) : Option Stored :=
  match value with
  | .map address => (heap.fields address).get? segment
  | .list items =>
    if !segment.isEmpty && segment.all Text.isDigit then items[Text.digitsValue segment]?
    else none
  | _ => none

def follow? (heap : Heap) (value : Stored) : List Text → Option Stored
  | [] => some value
  | segment :: rest => (child? heap value segment).bind fun next => follow? heap next rest

def get? (store : Store) (key : Text) : Option Stored :=
  match store.rootFields.get? key with
  | some value => some value
  | none => follow? store.heap (.map store.root) (segments key)

def has (store : Store) (key : Text) : Bool := (store.get? key).isSome

def forbidden : List Text := [[], Fields.reservedName, text "prototype", text "constructor"]

def assign (heap : Heap) (address : Address) (name : Text) (value : Stored) : Heap :=
  heap.write address ((heap.fields address).set name value)

/-- Sets the value at the end of a path, with a new map for each segment that is missing on
    the way. The second part is the segment that is no map, when one stops the way; the first
    is the memory as it is left. -/
def assignPath (heap : Heap) (address : Address) (value : Stored) :
    Text → List Text → Heap × Option Text
  | name, [] => (assign heap address name value, none)
  | name, next :: rest =>
    match (heap.fields address).get? name with
    | none =>
      let (grown, created) := heap.allocate []
      assignPath (assign grown address name (.map created)) created value next rest
    | some (.map inner) => assignPath heap inner value next rest
    | some _ => (heap, some name)

/-- Gives a key a value. The state is returned as it is left, together with the fault of a
    key that could not be set. -/
def set (store : Store) (key : Text) (value : Stored) : Store × Option KeyFault :=
  let path := segments key
  if path.any forbidden.contains then (store, some (.invalid key))
  else match path with
    | [] => (store, some (.invalid key))
    | first :: rest =>
      if rest.isEmpty || store.rootFields.has key then
        ({ store with heap := assign store.heap store.root key value }, none)
      else
        let (heap, stopped) := assignPath store.heap store.root value first rest
        ({ store with heap }, stopped.map (.notAMap key))

end Store

end VirtualInstrument
