import VirtualInstrument.Document.Overlay
import VirtualInstrument.Document.Reader
import VirtualInstrument.Event
import VirtualInstrument.Files.Disk
import VirtualInstrument.Profile.Fault
import VirtualInstrument.Profile.Location
import VirtualInstrument.Profile.Schema
/- Profile files. A file is read as a document first, so that the user's changes can be laid
   over it, and the result is checked against the form of a profile once. -/
namespace VirtualInstrument.Profile

def causeOf : FileFault → ProfileCause
  | .missing => .missing
  | .refused => .unreadable

def readDocument (disk : Disk) (path : Text) : Except ProfileFault (Fields Document) :=
  match disk.read path with
  | .error fault => .error ⟨path, causeOf fault⟩
  | .ok bytes =>
    match Document.read? (Text.ofUtf8 bytes) with
    | none => .error ⟨path, .notADocument⟩
    | some document =>
      match Schema.recordOf Schema.anything [] (some document) with
      | .sound fields => .ok fields
      | _ => .error ⟨path, .notAMap⟩

def noSimulation (source : Text) : Event :=
  .warning (text "[Profile] " ++ source ++
    text " has no \"simulation\" section, using an empty one")

def merged (override path : Text) : Event :=
  .log (text "[Profile] Merged user override " ++ override ++ text " into " ++ path)

/-- The profile that a document holds. One without a simulation has an empty one, with a
    warning. -/
def ofDocument (document : Option Document) (source : Text) :
    Except ProfileFault Profile × List Event :=
  match Form.draft [] document with
  | .sound draft =>
    let events := if draft.simulation.isNone then [noSimulation source] else []
    (.ok ⟨draft.model, draft.identification, draft.simulation.getD .empty⟩, events)
  | verdict => (.error ⟨source, .invalid verdict.issues⟩, [])

def load (disk : Disk) (path : Text) : Except ProfileFault Profile × List Event :=
  match readDocument disk path with
  | .error fault => (.error fault, [])
  | .ok fields => ofDocument (some (.map fields)) path

def loadWithOverride (disk : Disk) (path : Text) (roots : ProfileRoots) :
    Except ProfileFault Profile × List Event :=
  match readDocument disk path with
  | .error fault => (.error fault, [])
  | .ok base =>
    match (overridePath? path roots).filter fun override => (disk.access override).isOk with
    | none => ofDocument (some (.map base)) path
    | some override =>
      match readDocument disk override with
      | .error fault => (.error fault, [])
      | .ok changes =>
        let (profile, events) :=
          ofDocument (some (.map (Document.overlayFields base changes))) path
        (profile, merged override path :: events)

end VirtualInstrument.Profile
