import VirtualInstrument.Document.Reader
import VirtualInstrument.Document.Writer
import VirtualInstrument.Files.Disk
import VirtualInstrument.Session.Form
import VirtualInstrument.Time.Feed
/- Session files. Saving a log keeps the records of all other names. The new text goes to a
   file of its own first and takes the place of the old one in a single step, so a session file
   is never half written. -/
namespace VirtualInstrument.Session

/-- The session that a document holds; only its first issue is reported. -/
def ofDocument (document : Document) (path : Text) : Except SessionFault Session :=
  match Form.session [] (some document) with
  | .sound session => .ok session
  | verdict =>
    match verdict.issues with
    | issue :: _ => .error ⟨path, .invalid issue.location issue.complaint.message⟩
    | [] => .error ⟨path, .invalid [] []⟩

def causeOf : FileFault → SessionCause
  | .missing => .missing
  | .refused => .unreadable

def load (disk : Disk) (path : Text) : Except SessionFault Session :=
  match disk.read path with
  | .error fault => .error ⟨path, causeOf fault⟩
  | .ok bytes =>
    match Document.read? (Text.ofUtf8 bytes) with
    | none => .error ⟨path, .notADocument⟩
    | some document => ofDocument document path

def loadRecord (disk : Disk) (path name : Text) : Except SessionFault SessionRecord :=
  match load disk path with
  | .error fault => .error fault
  | .ok session =>
    match session.get? name with
    | some record => .ok record
    | none => .error ⟨path, .unknownName name session.names⟩

def existing (disk : Disk) (path : Text) : Except SessionFault Session :=
  match disk.access path with
  | .ok () => load disk path
  | .error .missing => .ok []
  | .error .refused => .error ⟨path, .unreadable⟩

def draftPath (path : Text) (time : Float) : Text :=
  path ++ text ".tmp." ++ Decimal.numberText time

def contentWith (session : Session) (name profile : Text) (log : List Document) : Text :=
  (Document.map (session.toFields.set name (recordDocument profile log))).indented 0

def saved (log : List Document) (name path : Text) : Event :=
  .log (text "[SessionLog] Saved " ++ Text.ofNat log.length ++ text " entries for '" ++ name ++
    text "' to " ++ path)

structure SaveOutcome where
  result : Except SessionFault Unit
  events : List Event
  disk : Disk
  clock : Feed Float

def save (disk : Disk) (clock : Feed Float) (path name profile : Text) (log : List Document) :
    SaveOutcome :=
  match existing disk path with
  | .error fault => ⟨.error fault, [], disk, clock⟩
  | .ok session =>
    match disk.makeDirectories (Path.directory path) with
    | .error _ => ⟨.error ⟨path, .unwritable⟩, [], disk, clock⟩
    | .ok prepared =>
      let (time, later) := clock.next
      let content := contentWith session name profile log
      match prepared.write (draftPath path time) (Text.toUtf8 content) with
      | .error _ => ⟨.error ⟨path, .unwritable⟩, [], prepared, later⟩
      | .ok drafted =>
        match drafted.rename (draftPath path time) path with
        | .error _ => ⟨.error ⟨path, .unwritable⟩, [], drafted, later⟩
        | .ok renamed => ⟨.ok (), [saved log name path], renamed, later⟩

end VirtualInstrument.Session
