import VirtualInstrument.Document.Basic
import VirtualInstrument.Instrument
/- Recorded sessions. A session file holds, under a name for each instrument, the profile it
   was recorded with and the log of its calls. -/
namespace VirtualInstrument

structure LogEntry where
  kind : Kind
  command : Text
  response : Option Text
  /-- Seconds since the recording started. -/
  timestamp : Float
deriving DecidableEq, Repr

def LogEntry.answer (entry : LogEntry) : Text := entry.response.getD []

structure SessionRecord where
  profile : Text
  log : List LogEntry
deriving DecidableEq, Repr

abbrev Session := Fields SessionRecord

def LogEntry.responseField (entry : LogEntry) : List (Text × Document) :=
  match entry.response with
  | some t => [(text "response", .string t)]
  | none => []

def LogEntry.toDocument (entry : LogEntry) : Document :=
  .map ([(text "kind", .string entry.kind.label), (text "command", .string entry.command)] ++
    entry.responseField ++ [(text "timestamp", .number entry.timestamp)])

/-- An entry as a recorder writes it: the response comes last. -/
def LogEntry.recorded (entry : LogEntry) : Document :=
  .map ([(text "kind", .string entry.kind.label), (text "command", .string entry.command),
    (text "timestamp", .number entry.timestamp)] ++ entry.responseField)

def recordDocument (profile : Text) (log : List Document) : Document :=
  .map [(text "profile", .string profile), (text "log", .list log)]

def SessionRecord.toDocument (record : SessionRecord) : Document :=
  recordDocument record.profile (record.log.map (·.toDocument))

def Session.toFields (session : Session) : Fields Document :=
  session.map fun (name, record) => (name, record.toDocument)

inductive SessionCause
  | missing
  | unreadable
  | unwritable
  | notADocument
  /-- The place of the first issue and what is wrong there. -/
  | invalid (place complaint : Text)
  | unknownName (name : Text) (known : List Text)
deriving DecidableEq, Repr

def listNames (known : List Text) : Text :=
  let listed := Text.join (text ", ") known
  if listed.isEmpty then text "none" else listed

def SessionCause.message : SessionCause → Text
  | .missing => text "Session file does not exist"
  | .unreadable => text "Session file could not be read"
  | .unwritable => text "Session file could not be written"
  | .notADocument => text "Invalid JSON in session file"
  | .invalid place complaint =>
    text "Invalid session file: " ++ place ++ text ": " ++ complaint
  | .unknownName name known =>
    text "No session recorded for '" ++ name ++ text "' (available: " ++
      listNames known ++ text ")"

structure SessionFault where
  path : Text
  cause : SessionCause
deriving DecidableEq, Repr

def SessionFault.message (fault : SessionFault) : Text :=
  fault.cause.message ++ text " (" ++ fault.path ++ text ")"

end VirtualInstrument
