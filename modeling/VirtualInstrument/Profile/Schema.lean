import VirtualInstrument.Profile.Basic
import VirtualInstrument.Schema.Verdict
/- The form of a profile document. Names it does not know are left out, except in the actions
   of a command, where they are refused. Older profiles call the pattern of an error rule by
   the name that now holds the commands. -/
namespace VirtualInstrument.Profile.Form

open Schema

/-- Gives the value under an old name its new name, when the new one is not used. -/
def renameField (old new : Text) : Document → Document
  | .map fields =>
    match Fields.has fields new, Fields.get? fields old with
    | false, some value => .map (Fields.set (fields.filter (·.1 != old)) new value)
    | _, _ => .map fields
  | other => other

def amount : Check Document := fun path document =>
  Verdict.orElse path ((number path document).map .number) fun _ =>
    (string path document).map .string

def actionNames : List Text :=
  [text "delay", text "set", text "inc", text "dec", text "get", text "response"]

def unknownNames (known : List Text) (path : List Segment) (fields : Fields Document) :
    List Issue :=
  let unknown := fields.names.filter fun name => !known.contains name
  if unknown.isEmpty then [] else [⟨path, .unknownNames unknown⟩]

def actions : Check ActionSpec := form fun path fields =>
  let read := (field (maybe nonNegative) (text "delay") path fields).both <|
    (field (maybe (recordOf anything)) (text "set") path fields).both <|
    (field (maybe (recordOf amount)) (text "inc") path fields).both <|
    (field (maybe (recordOf amount)) (text "dec") path fields).both <|
    (field (maybe string) (text "get") path fields).both <|
    field (maybe string) (text "response") path fields
  (read.map fun (delay, set, inc, dec, get, response) =>
    ActionSpec.mk delay set inc dec get response).flawedBy (unknownNames actionNames path fields)

def entrySpec : Check EntrySpec := fun path document =>
  Verdict.orElse path ((string path document).map .plain) fun _ =>
    (actions path document).map .actions

def errorSpec : Check ErrorSpec := fun path document =>
  form (fun path fields =>
    ((field nonEmptyString (text "pattern") path fields).both <|
      (field (withDefault (text "false") string) (text "condition") path fields).both <|
      (field integer (text "code") path fields).both <|
      field string (text "message") path fields).map
        fun (pattern, condition, code, message) => ErrorSpec.mk pattern condition code message)
    path (document.map (renameField (text "scpi") (text "pattern")))

def simulation : Check Simulation := form fun path fields =>
  ((field (withDefault [] (recordOf anything)) (text "initial_state") path fields).both <|
    (field (withDefault [] (recordOf entrySpec)) (text "scpi") path fields).both <|
    field (withDefault [] (listOf errorSpec)) (text "errors") path fields).map
      fun (initialState, commands, errors) => Simulation.mk initialState commands errors

structure Draft where
  model : Option Text
  identification : Option Text
  simulation : Option Simulation
deriving Repr

def draft : Check Draft := form fun path fields =>
  ((field (maybe string) (text "model") path fields).both <|
    (field (maybe string) (text "identification") path fields).both <|
    field (maybe simulation) (text "simulation") path fields).map
      fun (model, identification, simulation) => Draft.mk model identification simulation

end VirtualInstrument.Profile.Form
