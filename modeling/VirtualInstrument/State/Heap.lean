import VirtualInstrument.Document.Basic
/- The memory of an instrument. A map is known by its address, so that two keys, or a key
   and a literal of the profile, can hold the very same map and a change through one shows
   through the other. Lists and scalars are plain values. -/
namespace VirtualInstrument

abbrev Address := Nat

inductive Stored
  | null
  | boolean (b : Bool)
  | number (x : Float)
  | string (t : Text)
  | list (items : List Stored)
  | map (address : Address)
deriving Repr, Inhabited

structure Heap where
  maps : Array (Fields Stored)
deriving Repr, Inhabited

namespace Heap

def empty : Heap := ⟨#[]⟩

def fields (heap : Heap) (address : Address) : Fields Stored := heap.maps.getD address []

def allocate (heap : Heap) (entries : Fields Stored) : Heap × Address :=
  (⟨heap.maps.push entries⟩, heap.maps.size)

def write (heap : Heap) (address : Address) (entries : Fields Stored) : Heap :=
  ⟨heap.maps.setIfInBounds address entries⟩

mutual

/-- Puts a document into memory; each of its maps becomes a new one. -/
def load (heap : Heap) : Document → Heap × Stored
  | .null => (heap, .null)
  | .boolean b => (heap, .boolean b)
  | .number x => (heap, .number x)
  | .string t => (heap, .string t)
  | .list items =>
    let (loaded, values) := loadItems heap items
    (loaded, .list values)
  | .map entries =>
    let (loaded, values) := loadFields heap entries
    let (grown, address) := loaded.allocate values
    (grown, .map address)

def loadItems (heap : Heap) : List Document → Heap × List Stored
  | [] => (heap, [])
  | item :: rest =>
    let (once, value) := load heap item
    let (all, values) := loadItems once rest
    (all, value :: values)

def loadFields (heap : Heap) : List (Text × Document) → Heap × Fields Stored
  | [] => (heap, [])
  | (name, item) :: rest =>
    let (once, value) := load heap item
    let (all, values) := loadFields once rest
    (all, (name, value) :: values)

end

mutual

def unloadWith (ofMap : Address → Option Document) : Stored → Option Document
  | .null => some .null
  | .boolean b => some (.boolean b)
  | .number x => some (.number x)
  | .string t => some (.string t)
  | .list items => (unloadItems ofMap items).map .list
  | .map address => ofMap address

def unloadItems (ofMap : Address → Option Document) : List Stored → Option (List Document)
  | [] => some []
  | item :: rest => do
    let document ← unloadWith ofMap item
    let documents ← unloadItems ofMap rest
    some (document :: documents)

end

def unloadFields (ofMap : Address → Option Document) : Fields Stored → Option (Fields Document)
  | [] => some []
  | (name, value) :: rest => do
    let document ← unloadWith ofMap value
    let documents ← unloadFields ofMap rest
    some ((name, document) :: documents)

def unloadMap (heap : Heap) : Nat → Address → Option Document
  | 0, _ => none
  | depth + 1, address =>
    (unloadFields (heap.unloadMap depth) (heap.fields address)).map .map

/-- The document of a value. A map that contains itself has none; any other one nests at most
    as deep as there are maps. -/
def unload? (heap : Heap) (value : Stored) : Option Document :=
  unloadWith (heap.unloadMap heap.maps.size) value

end Heap

end VirtualInstrument
