import VirtualInstrument.Files.Path
import VirtualInstrument.Text.Utf8
/- The files that profiles and sessions are kept in: what stands at each place below the top
   directory. The name of a file is made of bytes, and has a longest length. -/
namespace VirtualInstrument

abbrev FileName := List UInt8

abbrev Place := List FileName

inductive FileFault
  | missing
  | refused
deriving DecidableEq, Repr

inductive Content
  | file (bytes : List UInt8)
  | directory
deriving DecidableEq, Repr

/-- Each place is listed once. The top directory is not listed, and the directory of every
    place that is. -/
structure Disk where
  entries : List (Place × Content)
deriving DecidableEq, Repr

namespace Disk

def empty : Disk := ⟨[]⟩

def longestName : Nat := 255

def longestPath : Nat := 4095

def content? (disk : Disk) (place : Place) : Option Content :=
  if place.isEmpty then some .directory else disk.entries.lookup place

def put (disk : Disk) (place : Place) (content : Content) : Disk :=
  ⟨(place, content) :: disk.entries.filter (·.1 != place)⟩

def remove (disk : Disk) (place : Place) : Disk := ⟨disk.entries.filter (·.1 != place)⟩

inductive Target
  | present (place : Place) (content : Content)
  | free (place : Place)
deriving DecidableEq, Repr

/-- The segments of a path as names. An empty one stands where slashes meet or end a path. -/
def segments (path : Text) : List FileName := (Text.split Path.slash path).map Text.toUtf8

/-- One step on a way: a segment asks for a directory to be where the way has led so far, and
    leads to the directory itself, to the one above it, or to an entry of it. -/
def step (disk : Disk) (place : Place) (segment : FileName) : Except FileFault Target :=
  if disk.content? place ≠ some .directory then .error .refused
  else if segment.isEmpty || segment = Text.toUtf8 Path.here then .ok (.present place .directory)
  else if segment = Text.toUtf8 Path.parent then .ok (.present place.dropLast .directory)
  else if longestName < segment.length then .error .refused
  else match disk.content? (place ++ [segment]) with
    | some content => .ok (.present (place ++ [segment]) content)
    | none => .ok (.free (place ++ [segment]))

/-- Follows the segments of a path. Only the last of them may be free. -/
def walk (disk : Disk) (place : Place) : List FileName → Except FileFault Target
  | [] =>
    match disk.content? place with
    | some content => .ok (.present place content)
    | none => .error .missing
  | [segment] => disk.step place segment
  | segment :: rest =>
    match disk.step place segment with
    | .ok (.present next _) => disk.walk next rest
    | .ok (.free _) => .error .missing
    | .error fault => .error fault

/-- What a path leads to. No path has the unit zero in it or is empty, and there is a longest
    length. -/
def find (disk : Disk) (path : Text) : Except FileFault Target :=
  if path.contains 0 then .error .refused
  else if path.isEmpty then .error .missing
  else if longestPath < (Text.toUtf8 path).length then .error .refused
  else disk.walk [] (segments path)

def access (disk : Disk) (path : Text) : Except FileFault Unit :=
  match disk.find path with
  | .ok (.present _ _) => .ok ()
  | .ok (.free _) => .error .missing
  | .error fault => .error fault

def read (disk : Disk) (path : Text) : Except FileFault (List UInt8) :=
  match disk.find path with
  | .ok (.present _ (.file bytes)) => .ok bytes
  | .ok (.present _ .directory) => .error .refused
  | .ok (.free _) => .error .missing
  | .error fault => .error fault

def write (disk : Disk) (path : Text) (bytes : List UInt8) : Except FileFault Disk :=
  match disk.find path with
  | .ok (.present place (.file _)) => .ok (disk.put place (.file bytes))
  | .ok (.present _ .directory) => .error .refused
  | .ok (.free place) => .ok (disk.put place (.file bytes))
  | .error fault => .error fault

def rename (disk : Disk) (source target : Text) : Except FileFault Disk :=
  match disk.find source, disk.find target with
  | .ok (.present old (.file bytes)), .ok (.present new (.file _)) =>
    .ok ((disk.remove old).put new (.file bytes))
  | .ok (.present old (.file bytes)), .ok (.free new) =>
    .ok ((disk.remove old).put new (.file bytes))
  | .error fault, _ => .error fault
  | .ok (.free _), _ => .error .missing
  | _, .error fault => .error fault
  | _, _ => .error .refused

def makeWay (disk : Disk) (place : Place) : List FileName → Except FileFault Disk
  | [] => .ok disk
  | segment :: rest =>
    match disk.step place segment with
    | .ok (.present next .directory) => disk.makeWay next rest
    | .ok (.present _ (.file _)) => .error .refused
    | .ok (.free next) => (disk.put next .directory).makeWay next rest
    | .error fault => .error fault

def makeDirectories (disk : Disk) (path : Text) : Except FileFault Disk :=
  if path.contains 0 then .error .refused
  else if path.isEmpty then .error .missing
  else if longestPath < (Text.toUtf8 path).length then .error .refused
  else disk.makeWay [] (segments path)

def nameIn? (directory place : Place) : Option FileName :=
  if place.dropLast = directory then place.getLast? else none

def list (disk : Disk) (path : Text) : Except FileFault (List Text) :=
  match disk.find path with
  | .ok (.present place .directory) =>
    .ok ((disk.entries.filterMap fun entry => (nameIn? place entry.1).map Text.ofUtf8).mergeSort
      fun a b => !Text.less b a)
  | .ok (.present _ (.file _)) => .error .refused
  | .ok (.free _) => .error .missing
  | .error fault => .error fault

end Disk

end VirtualInstrument
