import VirtualInstrument.Equipment
/- What a script works with: equipment as it is, or equipment whose session is recorded. -/
namespace VirtualInstrument

inductive Station
  | plain (equipment : Equipment)
  | recorded (recorder : Recorder Equipment)

namespace Station

/-- Sets up equipment. A recording starts at once, on the wall clock. -/
def setUp (disk : Disk) (settings : Settings) (wall : Feed Float) (mode : Mode) (record : Bool) :
    Except Equipment.SetupFault Station × List Event :=
  let (made, events) := Equipment.setUp disk settings mode
  (made.map fun equipment =>
    if record then recorded (.start equipment none wall) else plain equipment, events)

def lift {σ ε α : Type} (make : σ → Station) (outcome : Outcome σ ε α) : Outcome Station ε α :=
  ⟨outcome.result, outcome.events, make outcome.next⟩

def exchange (station : Station) (kind : Kind) (command : Text) (delay : Option Float) :
    Outcome Station Equipment.Fault Response :=
  match station with
  | plain equipment => lift plain (Instrument.exchange equipment kind command delay)
  | recorded recorder => lift recorded (Instrument.exchange recorder kind command delay)

def control (station : Station) (call : Control) : Outcome Station Equipment.Fault Unit :=
  match station with
  | plain equipment => lift plain (Instrument.control equipment call)
  | recorded recorder => lift recorded (Instrument.control recorder call)

def timeout : Station → Float
  | plain equipment => Instrument.timeout equipment
  | recorded recorder => Instrument.timeout recorder

instance : Instrument Station Equipment.Fault where
  exchange := exchange
  control := control
  timeout := timeout

end Station

end VirtualInstrument
