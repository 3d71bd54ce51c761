import VirtualInstrument.Serial.Link
/- A serial link on the bench: its devices follow a script, and time passes only when nothing else
   can happen. A device opens, takes a command or closes at once; the script says which of these
   fail, and with which line each command is answered. -/
namespace VirtualInstrument.Serial

structure Timer where
  ms : Float
  input : Input
deriving DecidableEq, Repr

structure Bench where
  link : Link
  /-- The inputs that the link is to be given, in their order. -/
  due : List Input
  timers : List Timer
  /-- The answers to the next commands; nothing where an instrument keeps silent. -/
  replies : List (Option Text)
  openError : Option Text
  writeError : Option Text
  /-- Whether a pause is over at once, without a timer. -/
  instant : Bool
  calls : Nat
  finished : List (Ticket × Except Fault Response)
  events : List Event
  /-- Whether the process has ended. Nothing happens after that. -/
  aborted : Bool

namespace Bench

def start (config : Config) (instant : Bool) : Bench :=
  ⟨.start config, [], [], [], none, none, instant, 0, [], [], false⟩

def emit (bench : Bench) (event : Event) : Bench :=
  { bench with events := bench.events ++ [event] }

def follow (bench : Bench) (input : Input) : Bench := { bench with due := bench.due ++ [input] }

def arm (bench : Bench) (ms : Float) (input : Input) : Bench :=
  { bench.emit (.armed ms) with timers := bench.timers ++ [⟨ms, input⟩] }

/-- A device takes a command. The answer of the script comes before anything else. -/
def send (bench : Bench) (device : DeviceId) (data : Text) : Bench :=
  let next := bench.emit (.deviceSent data)
  match bench.writeError with
  | some message => next.follow (.written (some message))
  | none =>
    let answered := { next.follow (.written none) with replies := bench.replies.drop 1 }
    match bench.replies with
    | some t :: _ => { answered with due := .line device t :: answered.due }
    | _ => answered

def perform (bench : Bench) : Effect → Bench
  | .make _ => bench.emit (.deviceMade bench.link.config.path bench.link.config.baudRate)
  | .openDevice ticket device =>
    (bench.emit .deviceOpening).follow (.opened ticket device bench.openError)
  | .send device data => bench.send device data
  | .shut _ => (bench.emit .deviceClosing).follow .shut
  | .arm ticket ms => bench.arm ms (.expired ticket)
  | .disarm ticket =>
    { bench with timers := bench.timers.filter (·.input != .expired ticket) }
  | .pause ms =>
    if bench.instant then (bench.emit (.pause ms)).follow .rested else bench.arm ms .rested
  | .log line => bench.emit (.log line)
  | .later input => bench.follow input
  | .finish ticket result => { bench with finished := bench.finished ++ [(ticket, result)] }
  | .abort => { bench with aborted := true }

def feed (bench : Bench) (input : Input) : Bench :=
  if bench.aborted then bench
  else
    let (link, effects) := bench.link.step input
    effects.foldl perform { bench with link }

/-- The timer that runs out next: the shortest, and of equal ones the first. -/
def nextTimer? : List Timer → Option Timer
  | [] => none
  | timer :: rest =>
    match nextTimer? rest with
    | none => some timer
    | some other => if other.ms < timer.ms then some other else some timer

/-- The next thing that happens: an input that is due, or else a timer that runs out. -/
def advance? (bench : Bench) : Option Bench :=
  if bench.aborted then none
  else match bench.due with
  | input :: rest => some (feed { bench with due := rest } input)
  | [] =>
    (nextTimer? bench.timers).map fun timer =>
      { bench.emit (.fired timer.ms) with
        timers := bench.timers.erase timer
        due := [timer.input] }

def advance (bench : Bench) : Nat → Bench
  | 0 => bench
  | fuel + 1 =>
    match bench.advance? with
    | none => bench
    | some next => next.advance fuel

/-- No call takes more steps than this: it is opened or has its turn, it is written, it hears a
    line or runs out of time, it pauses twice, it is shut and it leaves, and each of its three
    timers fires. -/
def stepsOfCall : Nat := 16

def settle (bench : Bench) : Bench := bench.advance (stepsOfCall * bench.calls)

inductive Call
  | connect
  | exchange (kind : Kind) (command : Text) (delay : Option Float)
  | close
deriving DecidableEq, Repr

def settleTime (delay : Option Float) : Float :=
  match delay with
  | some seconds => if seconds > 0 then seconds * 1000 else 0
  | none => 0

def Call.input (call : Call) (ticket : Ticket) : Input :=
  match call with
  | .connect => .connect ticket
  | .exchange kind command delay => .exchange ticket ⟨kind, command, settleTime delay⟩
  | .close => .close ticket

/-- Makes a call without waiting for its end. Its ticket is the number of calls before it. -/
def begin (bench : Bench) (call : Call) : Ticket × Bench :=
  (bench.calls, feed { bench with calls := bench.calls + 1 } (call.input bench.calls))

def result? (bench : Bench) (ticket : Ticket) : Option (Except Fault Response) :=
  bench.finished.lookup ticket

def clear (bench : Bench) : Bench := { bench with finished := [], events := [] }

/-- A call from its beginning to its end. One that does not return, as the process has ended, counts
    as refused. -/
def call (bench : Bench) (c : Call) : Outcome Bench Fault Response :=
  let (ticket, begun) := bench.clear.begin c
  let settled := begun.settle
  ⟨(settled.result? ticket).getD (.error .notOpened), settled.events, settled.clear⟩

def exchange (bench : Bench) (kind : Kind) (command : Text) (delay : Option Float) :
    Outcome Bench Fault Response :=
  bench.call (.exchange kind command delay)

def setTimeout (bench : Bench) (ms : Float) : Except Fault Unit × Bench :=
  match bench.link.setTimeout ms with
  | .ok link => (.ok (), { bench with link })
  | .error fault => (.error fault, bench)

def control (bench : Bench) (c : Control) : Outcome Bench Fault Unit :=
  let made (call : Call) : Outcome Bench Fault Unit :=
    let outcome := bench.call call
    ⟨outcome.result.map fun _ => (), outcome.events, outcome.next⟩
  match c with
  | .connect => made .connect
  | .disconnect => made .close
  | .close => made .close
  | .setTimeout ms =>
    let (result, next) := bench.setTimeout ms
    ⟨result, [], next⟩

instance : Instrument Bench Fault where
  exchange := exchange
  control := control
  timeout bench := bench.link.timeout

/-! What can happen to the device that was made last -/

def lastDevice? (bench : Bench) : Option DeviceId :=
  if bench.link.made = 0 then none else some (bench.link.made - 1)

def lose (bench : Bench) (loss : Loss) : Bool × Bench :=
  match bench.lastDevice? with
  | none => (false, bench)
  | some device => (bench.link.watched.contains device, bench.feed (.lost device loss))

def listenersAt (bench : Bench) (device : DeviceId) : Nat :=
  (bench.link.listeners.filter (·.1 = device)).length

/-- A line comes in at the last device; the answer says whether a query listens, and there is
    none without a device. -/
def receive (bench : Bench) (t : Text) : Option Bool × Bench :=
  match bench.lastDevice? with
  | none => (none, bench)
  | some device => (some (0 < bench.listenersAt device), bench.feed (.line device t))

end Bench

end VirtualInstrument.Serial
