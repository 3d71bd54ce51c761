import VirtualInstrument.Dispatch.Table
import VirtualInstrument.Instrument
import VirtualInstrument.Scpi.ErrorQueue
import VirtualInstrument.Simulator.Mutation
/- A simulated instrument. A command is answered by the entry it matches, or else by a common
   command that every instrument knows; then the error rules look at the state as it is now,
   and last the instrument is busy for as long as the entry says. -/
namespace VirtualInstrument

structure Simulator where
  model : Text
  identification : Text
  /-- The name of the profile in messages. -/
  source : Text
  strict : Bool
  debug : Bool
  table : Dispatch.Table Stored
  store : Store
  queue : Scpi.ErrorQueue
  /-- Milliseconds. -/
  timeout : Float
  sources : Sources

namespace Simulator

open Dispatch Expression Scpi

structure Resolution where
  response : Text
  delay : Float
deriving DecidableEq, Repr

def line (sim : Simulator) (t : Text) : Text := text "[SimBackend] " ++ sim.model ++ t

def note (sim : Simulator) (t : Text) : List Event :=
  if sim.debug then [.debug (sim.line t)] else []

def drawing {α : Type} (sim : Simulator) (computation : Drawn α) :
    Except SimulationFault α × Simulator :=
  let (outcome, rest) := computation.run sim.sources
  (outcome, { sim with sources := rest })

def render (heap : Heap) (value : Value) : Except SimulationFault Text :=
  match value.render? heap with
  | some t => .ok t
  | none => .error .endless

def textOf (store : Store) (key : Text) : Except SimulationFault Text :=
  match store.get? key with
  | some value => render store.heap (.ofStored value)
  | none => .ok []

def respond (sim : Simulator) (actions : Actions Stored) (captures : List Text) :
    Except SimulationFault Text × Simulator :=
  match actions.get, actions.response with
  | some key, _ => (textOf sim.store key, sim)
  | none, some source =>
    sim.drawing do
      let value ← sourceValue (scopeOf sim.store captures) source
      liftM (render sim.store.heap (.ofStored value))
  | none, none => (.ok [], sim)

def mutate (sim : Simulator) (actions : Actions Stored) (captures : List Text) :
    Except SimulationFault Unit × Simulator :=
  match sim.drawing (stage sim.store captures actions) with
  | (.error fault, next) => (.error fault, next)
  | (.ok staged, next) =>
    match commit next.store staged with
    | (store, none) => (.ok (), { next with store })
    | (store, some fault) => (.error (.badKey fault), { next with store })

def perform (sim : Simulator) (actions : Actions Stored) (captures : List Text) :
    Except SimulationFault Resolution × Simulator :=
  match sim.mutate actions captures with
  | (.error fault, next) => (.error fault, next)
  | (.ok (), next) =>
    let (response, last) := next.respond actions captures
    (response.map fun t => ⟨t, actions.delay⟩, last)

def execute (sim : Simulator) (entry : Entry Stored) (captures : List Text) :
    Except SimulationFault Resolution × Simulator :=
  match entry with
  | .literal t => (.ok ⟨t, 0⟩, sim)
  | .template t => (.ok ⟨substitute t captures, 0⟩, sim)
  | .dynamic expression =>
    sim.drawing do
      let value ← ofEvaluation (scopeOf sim.store captures) expression
      let t ← liftM (render sim.store.heap value)
      pure ⟨t, 0⟩
  | .actions actions => sim.perform actions captures

/-- Commands that every instrument knows, unless its profile has an entry for them. -/
inductive Common
  | identify
  | clear
  | nextError
  | reset
  | isComplete
  | selfTest
  | wait
  | version
deriving DecidableEq, Repr

def Common.ofCommand? (command : Text) : Option Common :=
  let key := Text.upper command
  if key = text "*IDN?" then some .identify
  else if key = text "*CLS" then some .clear
  else if isErrorQuery command then some .nextError
  else if key = text "*RST" then some .reset
  else if key = text "*OPC?" then some .isComplete
  else if key = text "*TST?" then some .selfTest
  else if key = text "*OPC" || key = text "*WAI" then some .wait
  else if versionQueries.contains key then some .version
  else none

def answer (sim : Simulator) : Common → Text × Simulator
  | .identify => (sim.identification, sim)
  | .clear => ([], { sim with queue := .empty })
  | .nextError =>
    let (report, queue) := sim.queue.next
    (report, { sim with queue })
  | .reset => ([], { sim with store := sim.store.reset, queue := .empty })
  | .isComplete => (text "1", sim)
  | .selfTest => (text "0", sim)
  | .wait => ([], sim)
  | .version => (text "1999.0", sim)

def undefinedHeader : ErrorEntry := ⟨-113, text "Undefined header"⟩

def ignore (sim : Simulator) : Simulator :=
  if sim.strict then { sim with queue := sim.queue.push undefinedHeader } else sim

def unknown (sim : Simulator) (command : Text) : Event :=
  .warning (sim.line (text ": no response defined for \"" ++ command ++ text "\""))

def respondTo (sim : Simulator) (command : Text) :
    Outcome Simulator SimulationFault (Resolution × List Text) :=
  match sim.table.match? command with
  | some found =>
    let (result, next) := sim.execute found.entry found.captures
    ⟨result.map fun resolution => (resolution, found.captures), [], next⟩
  | none =>
    match Common.ofCommand? command with
    | some common =>
      let (response, next) := sim.answer common
      ⟨.ok (⟨response, 0⟩, []), [], next⟩
    | none => ⟨.ok (⟨[], 0⟩, []), [sim.unknown command], sim.ignore⟩

def queued (sim : Simulator) (rule : ErrorRule) (command : Text) : List Event :=
  sim.note (text " queued error " ++ Decimal.numberText rule.code ++ text " for \"" ++
    command ++ text "\"")

/-- Queues the error of each matching rule whose condition holds, up to a condition that
    fails. -/
def checkRules (sim : Simulator) (command : Text) :
    List MatchedRule → Outcome Simulator SimulationFault Unit
  | [] => ⟨.ok (), [], sim⟩
  | matched :: rest =>
    match sim.drawing (ofEvaluation (scopeOf sim.store matched.captures)
        matched.rule.condition) with
    | (.error fault, next) => ⟨.error fault, [], next⟩
    | (.ok value, next) =>
      if value.isTruthy next.store.heap then
        let entry : ErrorEntry := ⟨matched.rule.code, matched.rule.message⟩
        let after := checkRules { next with queue := next.queue.push entry } command rest
        ⟨after.result, sim.queued matched.rule command ++ after.events, after.next⟩
      else checkRules next command rest

def busy (sim : Simulator) (delay : Float) : List Event :=
  if delay > 0 then
    sim.note (text " busy for " ++ Decimal.numberText delay ++ text "s") ++
      [.pause (delay * 1000)]
  else []

def resolve (sim : Simulator) (command : Text) : Outcome Simulator SimulationFault Text :=
  let stripped := Text.trim command
  let received := sim.note (text " << " ++ stripped)
  let answered := sim.respondTo stripped
  match answered.result with
  | .error fault => ⟨.error fault, received ++ answered.events, answered.next⟩
  | .ok (resolution, captures) =>
    let rules := answered.next.table.matchErrors stripped captures
    let checked := answered.next.checkRules stripped rules
    let events := received ++ answered.events ++ checked.events
    match checked.result with
    | .error fault => ⟨.error fault, events, checked.next⟩
    | .ok () =>
      ⟨.ok resolution.response,
        events ++ sim.busy resolution.delay ++ sim.note (text " >> " ++ resolution.response),
        checked.next⟩

def settle (kind : Kind) (delay : Option Float) : List Event :=
  match kind, delay with
  | .write, _ => []
  | _, some seconds => if seconds > 0 then [.pause (seconds * 1000)] else []
  | _, none => []

def exchange (sim : Simulator) (kind : Kind) (command : Text) (delay : Option Float) :
    Outcome Simulator SimulationFault Response :=
  let resolved := sim.resolve command
  match resolved.result with
  | .error fault => ⟨.error fault, resolved.events, resolved.next⟩
  | .ok t => ⟨.ok (.ofText t kind), resolved.events ++ settle kind delay, resolved.next⟩

def control (sim : Simulator) : Control → Outcome Simulator SimulationFault Unit
  | .connect => ⟨.ok (), sim.note (text " connected"), sim⟩
  | .disconnect => ⟨.ok (), sim.note (text " disconnected"), sim⟩
  | .close => ⟨.ok (), sim.note (text " closed"), sim⟩
  | .setTimeout ms =>
    let events := if ms ≤ 0 then
        [.warning (sim.line (text ": non-positive timeout " ++ Decimal.numberText ms ++
          text "ms"))]
      else []
    ⟨.ok (), events, { sim with timeout := ms }⟩

instance : Instrument Simulator SimulationFault where
  exchange := exchange
  control := control
  timeout := timeout

def setResponse (sim : Simulator) (key : Text) (spec : Profile.EntrySpec) :
    Except ProfileFault Unit × Simulator :=
  let outcome := do
    let entry ← compileEntry spec (Table.placeOf key)
    let (heap, loaded) := entry.load sim.store.heap
    let table ← sim.table.insert key loaded
    .ok { sim with table, store := { sim.store with heap } }
  match outcome with
  | .ok next => (.ok (), next)
  | .error cause => (.error ⟨sim.source, cause⟩, sim)

end Simulator

end VirtualInstrument
