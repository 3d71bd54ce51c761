import VirtualInstrument.Profile.Schema
import VirtualInstrument.Session.Basic
/- The form of a session file. Names it does not know are left out. Older logs call the kind of
   an entry its type. -/
namespace VirtualInstrument.Session.Form

open Schema

def kinds : List (Text × Kind) :=
  [(Kind.write.label, .write), (Kind.query.label, .query), (Kind.rawQuery.label, .rawQuery)]

def logEntry : Check LogEntry := fun path document =>
  form (fun path fields =>
    ((field (word kinds) (text "kind") path fields).both <|
      (field string (text "command") path fields).both <|
      (field (maybe string) (text "response") path fields).both <|
      field (withDefault 0 nonNegative) (text "timestamp") path fields).map
        fun (kind, command, response, timestamp) => LogEntry.mk kind command response timestamp)
    path (document.map (Profile.Form.renameField (text "type") (text "kind")))

def record : Check SessionRecord := form fun path fields =>
  ((field string (text "profile") path fields).both <|
    field (listOf logEntry) (text "log") path fields).map
      fun (profile, log) => SessionRecord.mk profile log

def session : Check Session := recordOf record

end VirtualInstrument.Session.Form
