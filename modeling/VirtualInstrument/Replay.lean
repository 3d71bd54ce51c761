import VirtualInstrument.Decimal.Style
import VirtualInstrument.Session.File
import VirtualInstrument.Settings
import VirtualInstrument.Text.Blank
/- Replaying a session. Each call has to be the next one of the log, by its kind and its trimmed
   command. A call that is not, and any call behind the end of the log, fails and leaves the
   replay where it is. -/
namespace VirtualInstrument

structure ReplayCall where
  kind : Kind
  command : Text
deriving DecidableEq, Repr

/-- A call that is not the next one of the log; nothing is expected at the end of the log. -/
structure ReplayMismatch where
  model : Text
  step : Nat
  expected : Option ReplayCall
  actual : ReplayCall
deriving DecidableEq, Repr

def ReplayCall.text (call : ReplayCall) : Text :=
  call.kind.label ++ VirtualInstrument.text " '" ++ call.command ++ VirtualInstrument.text "'"

def ReplayMismatch.message (mismatch : ReplayMismatch) : Text :=
  match mismatch.expected with
  | none =>
    text "Replay for '" ++ mismatch.model ++ text "' ended, but received unexpected " ++
      mismatch.actual.kind.label ++ text ": '" ++ mismatch.actual.command ++ text "'"
  | some call =>
    text "Replay mismatch for '" ++ mismatch.model ++ text "' at step " ++
      Text.ofNat mismatch.step ++ text ". Expected " ++ call.text ++ text ", received " ++
      mismatch.actual.text

structure Replay where
  model : Text
  log : List LogEntry
  /-- The number of entries that are served. -/
  cursor : Nat
  timeout : Float
  debug : Bool
deriving DecidableEq, Repr

namespace Replay

def start (model : Text) (log : List LogEntry) (timeout : Option Float) (debug : Bool) : Replay :=
  ⟨model, log, 0, timeout.getD defaultTimeout, debug⟩

def remaining (replay : Replay) : Nat := replay.log.length - replay.cursor

def isComplete (replay : Replay) : Bool := replay.log.length ≤ replay.cursor

def note (replay : Replay) (t : Text) : List Event :=
  if replay.debug then [.debug (text "[ReplayBackend] " ++ replay.model ++ t)] else []

/-- Whether a call of one kind is served by an entry of another: bytes are served from text. -/
def accepts (called recorded : Kind) : Bool :=
  called = recorded || (called = .rawQuery && recorded = .query)

def callOf (entry : LogEntry) : ReplayCall := ⟨entry.kind, Text.trim entry.command⟩

def mismatch (replay : Replay) (expected : Option ReplayCall) (actual : ReplayCall) :
    Outcome Replay ReplayMismatch Response :=
  ⟨.error ⟨replay.model, replay.cursor, expected, actual⟩, [], replay⟩

/-- Serves the next entry; the recorded time has passed already, so a delay is not waited for. -/
def exchange (replay : Replay) (kind : Kind) (command : Text) (_ : Option Float) :
    Outcome Replay ReplayMismatch Response :=
  let actual : ReplayCall := ⟨kind, Text.trim command⟩
  match replay.log[replay.cursor]? with
  | none => replay.mismatch none actual
  | some entry =>
    let recorded := callOf entry
    if accepts kind recorded.kind && recorded.command == actual.command then
      ⟨.ok (.ofText entry.answer kind),
        replay.note (text " step " ++ Text.ofNat replay.cursor ++ text ": " ++
          recorded.kind.label ++ text " " ++ recorded.command),
        { replay with cursor := replay.cursor + 1 }⟩
    else replay.mismatch (some recorded) actual

def control (replay : Replay) : Control → Outcome Replay ReplayMismatch Unit
  | .connect => ⟨.ok (), replay.note (text " connected"), replay⟩
  | .disconnect => ⟨.ok (), replay.note (text " disconnected"), replay⟩
  | .close =>
    ⟨.ok (), replay.note (text " closed at step " ++ Text.ofNat replay.cursor ++ text "/" ++
      Text.ofNat replay.log.length), replay⟩
  | .setTimeout ms => ⟨.ok (), [], { replay with timeout := ms }⟩

instance : Instrument Replay ReplayMismatch where
  exchange := exchange
  control := control
  timeout := timeout

structure Options where
  model : Option Text
  timeout : Option Float
  debug : Bool

def loaded (record : SessionRecord) (path name : Text) : Event :=
  .log (text "[ReplayBackend] Loaded " ++ Text.ofNat record.log.length ++ text " entries for '" ++
    name ++ text "' from " ++ path)

def ofFile (disk : Disk) (path name : Text) (options : Options) :
    Except SessionFault Replay × List Event :=
  match Session.loadRecord disk path name with
  | .error fault => (.error fault, [])
  | .ok record =>
    (.ok (start (options.model.getD record.profile) record.log options.timeout options.debug),
      [loaded record path name])

end Replay

end VirtualInstrument
