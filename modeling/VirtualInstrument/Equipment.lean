import VirtualInstrument.Recorder
import VirtualInstrument.Replay
import VirtualInstrument.Serial.Bench
import VirtualInstrument.Simulator.Creation
/- Setting up an instrument: a script says once what stands behind it, and from then on only
   makes calls. -/
namespace VirtualInstrument

inductive Mode
  /-- A simulation by a profile, given by its key or its path. -/
  | simulated (profile : Text) (options : Simulator.Options) (sources : Sources)
  /-- What a session file holds under a name. -/
  | replayed (path name : Text) (debug : Bool)
  | serial (config : Serial.Config) (instant : Bool)

inductive Equipment
  | simulated (sim : Simulator)
  | replayed (replay : Replay)
  | serial (bench : Serial.Bench)

namespace Equipment

inductive Fault
  | simulation (fault : SimulationFault)
  | mismatch (fault : ReplayMismatch)
  | serial (fault : Serial.Fault)
deriving DecidableEq, Repr

inductive SetupFault
  | profile (fault : ProfileFault)
  | session (fault : SessionFault)
deriving DecidableEq, Repr

def simulate (disk : Disk) (settings : Settings) (profile : Text) (options : Simulator.Options)
    (sources : Sources) : Except ProfileFault Simulator × List Event :=
  let packaged := options.packaged.getD settings.roots.packaged
  let path := Profile.locate profile packaged
  Simulator.create disk settings
    { options with profile := none, path := some path, packaged := some packaged } sources

def setUp (disk : Disk) (settings : Settings) :
    Mode → Except SetupFault Equipment × List Event
  | .simulated profile options sources =>
    let (made, events) := simulate disk settings profile options sources
    ((made.map simulated).mapError .profile, events)
  | .replayed path name debug =>
    let (made, events) := Replay.ofFile disk path name ⟨none, none, debug⟩
    ((made.map replayed).mapError .session, events)
  | .serial config instant => (.ok (serial (.start config instant)), [])

def lift {σ ε α : Type} (make : σ → Equipment) (fault : ε → Fault) (outcome : Outcome σ ε α) :
    Outcome Equipment Fault α :=
  ⟨outcome.result.mapError fault, outcome.events, make outcome.next⟩

def exchange (equipment : Equipment) (kind : Kind) (command : Text) (delay : Option Float) :
    Outcome Equipment Fault Response :=
  match equipment with
  | simulated sim => lift simulated .simulation (Instrument.exchange sim kind command delay)
  | replayed replay => lift replayed .mismatch (Instrument.exchange replay kind command delay)
  | serial bench => lift serial .serial (Instrument.exchange bench kind command delay)

def control (equipment : Equipment) (call : Control) : Outcome Equipment Fault Unit :=
  match equipment with
  | simulated sim => lift simulated .simulation (Instrument.control sim call)
  | replayed replay => lift replayed .mismatch (Instrument.control replay call)
  | serial bench => lift serial .serial (Instrument.control bench call)

def timeout : Equipment → Float
  | simulated sim => Instrument.timeout sim
  | replayed replay => Instrument.timeout replay
  | serial bench => Instrument.timeout bench

instance : Instrument Equipment Fault where
  exchange := exchange
  control := control
  timeout := timeout

end Equipment

end VirtualInstrument
