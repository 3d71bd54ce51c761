import VirtualInstrument.Document.Basic
/- Profiles: how a simulated instrument behaves. A profile names the model, the state it
   starts with, the entry that answers each command, and the rules that put errors on the
   instrument's queue. -/
namespace VirtualInstrument

namespace Profile

/-- What a command does: sets, raises and lowers keys, answers with the value of a key or with
    a response, and stays busy for some seconds. -/
structure ActionSpec where
  delay : Option Float
  set : Option (Fields Document)
  inc : Option (Fields Document)
  dec : Option (Fields Document)
  get : Option Text
  response : Option Text
deriving DecidableEq, Repr

inductive EntrySpec
  | plain (t : Text)
  | actions (spec : ActionSpec)
deriving DecidableEq, Repr

structure ErrorSpec where
  pattern : Text
  condition : Text
  code : Float
  message : Text
deriving DecidableEq, Repr

structure Simulation where
  initialState : Fields Document
  commands : Fields EntrySpec
  errors : List ErrorSpec
deriving DecidableEq, Repr

def Simulation.empty : Simulation := ⟨[], [], []⟩

end Profile

structure Profile where
  model : Option Text
  identification : Option Text
  simulation : Profile.Simulation
deriving DecidableEq, Repr

namespace Profile

def present {α : Type} (name : String) (value : Option α) (shown : α → Document) :
    List (Text × Document) :=
  match value with
  | some a => [(text name, shown a)]
  | none => []

def ActionSpec.toDocument (spec : ActionSpec) : Document :=
  .map (present "delay" spec.delay .number ++ present "set" spec.set .map ++
    present "inc" spec.inc .map ++ present "dec" spec.dec .map ++
    present "get" spec.get .string ++ present "response" spec.response .string)

def EntrySpec.toDocument : EntrySpec → Document
  | .plain t => .string t
  | .actions spec => spec.toDocument

def ErrorSpec.toDocument (spec : ErrorSpec) : Document :=
  .map [(text "pattern", .string spec.pattern),
    (text "condition", .string spec.condition),
    (text "code", .number spec.code),
    (text "message", .string spec.message)]

def Simulation.toDocument (simulation : Simulation) : Document :=
  .map [(text "initial_state", .map simulation.initialState),
    (text "scpi",
      .map (simulation.commands.map fun (key, spec) => (key, spec.toDocument))),
    (text "errors", .list (simulation.errors.map (·.toDocument)))]

def toDocument (profile : Profile) : Document :=
  .map (present "model" profile.model .string ++
    present "identification" profile.identification .string ++
    [(text "simulation", profile.simulation.toDocument)])

end Profile

end VirtualInstrument
