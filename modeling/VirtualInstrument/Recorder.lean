import VirtualInstrument.Session.File
import VirtualInstrument.Text.Blank
/- Recording a session: an instrument around another one that returns what the inner one
   returns and logs every call that succeeds. -/
namespace VirtualInstrument

structure Recorder (σ : Type) where
  inner : σ
  startedAt : Float
  log : List LogEntry
  /-- Milliseconds of the clock that times the entries. Without one the wall clock does. -/
  stopwatch : Option (Feed Float)
  wall : Feed Float

namespace Recorder

variable {σ ε : Type} [Instrument σ ε]

def readClock (recorder : Recorder σ) : Float × Recorder σ :=
  match recorder.stopwatch with
  | some watch =>
    let (ms, later) := watch.next
    (ms, { recorder with stopwatch := some later })
  | none =>
    let (ms, later) := recorder.wall.next
    (ms, { recorder with wall := later })

def start (inner : σ) (stopwatch : Option (Feed Float)) (wall : Feed Float) : Recorder σ :=
  let (ms, recorder) := readClock ⟨inner, 0, [], stopwatch, wall⟩
  { recorder with startedAt := ms }

def record (recorder : Recorder σ) (kind : Kind) (command : Text) (response : Response) :
    Recorder σ :=
  let (ms, later) := recorder.readClock
  let entry : LogEntry :=
    ⟨kind, Text.trim command, response.text?, (ms - recorder.startedAt) / 1000⟩
  { later with log := later.log ++ [entry] }

def exchange (recorder : Recorder σ) (kind : Kind) (command : Text) (delay : Option Float) :
    Outcome (Recorder σ) ε Response :=
  let outcome := Instrument.exchange recorder.inner kind command delay
  let after := { recorder with inner := outcome.next }
  match outcome.result with
  | .ok response => ⟨.ok response, outcome.events, after.record kind command response⟩
  | .error fault => ⟨.error fault, outcome.events, after⟩

def control (recorder : Recorder σ) (call : Control) : Outcome (Recorder σ) ε Unit :=
  let outcome := Instrument.control recorder.inner call
  ⟨outcome.result, outcome.events, { recorder with inner := outcome.next }⟩

instance : Instrument (Recorder σ) ε where
  exchange := exchange
  control := control
  timeout recorder := Instrument.timeout recorder.inner

def save (recorder : Recorder σ) (disk : Disk) (path name profile : Text) :
    Except SessionFault Unit × List Event × Disk × Recorder σ :=
  let outcome := Session.save disk recorder.wall path name profile
    (recorder.log.map (·.recorded))
  (outcome.result, outcome.events, outcome.disk, { recorder with wall := outcome.clock })

end Recorder

end VirtualInstrument
