import VirtualInstrument.Decimal.Style
import VirtualInstrument.Instrument
import VirtualInstrument.Settings
import VirtualInstrument.Text.Blank
/- The link to an instrument on a serial line, as a machine that takes inputs and asks for
   effects. A call is an input, and so is all that the device, a timer or a pause has to tell; the
   machine itself never waits. One call holds the line at a time, in the order of the calls, and
   keeps it until its answer is there and the command delay is over. -/
namespace VirtualInstrument.Serial

structure Config where
  path : Text
  baudRate : Float
  /-- Milliseconds the instrument is given after each command. -/
  commandDelay : Float
  timeout : Float
  /-- What ends a line in either direction. -/
  terminator : Text
deriving DecidableEq, Repr

def Config.ofOptions (path : Text) (baudRate : Float) (commandDelay timeout : Option Float)
    (terminator : Option Text) : Config :=
  ⟨path, baudRate, commandDelay.getD 50, timeout.getD defaultTimeout,
    terminator.getD (text "\n")⟩

abbrev DeviceId := Nat

abbrev Ticket := Nat

inductive Loss
  | closed
  | failed (message : Text)
deriving DecidableEq, Repr

inductive Fault
  | lost (loss : Loss)
  | notOpened
  | unanswered (command : Text)
  /-- The device cannot be opened or written to. -/
  | refused (message : Text)
  | badTimeout (ms : Float)
deriving DecidableEq, Repr

def Loss.message : Loss → Text
  | .closed => text "SERIAL_PORT_DISCONNECTED: Port closed"
  | .failed message => text "SERIAL_PORT_ERROR: " ++ message

def Fault.message : Fault → Text
  | .lost loss => loss.message
  | .notOpened => text "Port not opened"
  | .unanswered command => text "Timeout waiting for response to: " ++ command
  | .refused message => message
  | .badTimeout ms => text "Timeout must be positive, got " ++ Decimal.numberText ms ++ text "ms"

structure Request where
  kind : Kind
  command : Text
  settle : Float
deriving DecidableEq, Repr

inductive Job
  | exchange (request : Request)
  | close
deriving DecidableEq, Repr

inductive Phase
  | sending (request : Request)
  | settling (request : Request)
  | awaiting (request : Request)
  | resting (response : Response)
  | closing
deriving DecidableEq, Repr

inductive Hearing
  | nothing
  | line (t : Text)
  | expired
deriving DecidableEq, Repr

structure Holder where
  ticket : Ticket
  phase : Phase
  hearing : Hearing
deriving DecidableEq, Repr

inductive Input
  | connect (ticket : Ticket)
  | exchange (ticket : Ticket) (request : Request)
  | close (ticket : Ticket)
  /-- A device that was to be opened is open, or cannot be. -/
  | opened (ticket : Ticket) (device : DeviceId) (error : Option Text)
  | turn
  /-- What was to be sent is sent, or cannot be. -/
  | written (error : Option Text)
  | rested
  | shut
  /-- A call that closed the device returns. -/
  | leave (ticket : Ticket)
  | line (device : DeviceId) (t : Text)
  | expired (ticket : Ticket)
  /-- A device has gone while it was in use. -/
  | lost (device : DeviceId) (loss : Loss)
deriving DecidableEq, Repr

inductive Effect
  | make (device : DeviceId)
  | openDevice (ticket : Ticket) (device : DeviceId)
  | send (device : DeviceId) (data : Text)
  | shut (device : DeviceId)
  | arm (ticket : Ticket) (ms : Float)
  | disarm (ticket : Ticket)
  | pause (ms : Float)
  | log (line : Text)
  /-- An input that follows those that are due already. -/
  | later (input : Input)
  /-- A call returns. -/
  | finish (ticket : Ticket) (result : Except Fault Response)
  /-- The process ends, with a failure that nobody handles. -/
  | abort

structure Link where
  config : Config
  /-- Milliseconds a query waits for its answer. -/
  timeout : Float
  made : Nat
  /-- The calls that wait for a device to open, each with its device. -/
  opening : List (Ticket × DeviceId)
  device : Option DeviceId
  opened : Bool
  loss : Option Loss
  /-- The devices whose loss is noticed. -/
  watched : List DeviceId
  /-- The queries that listen for a line, each at its device. -/
  listeners : List (DeviceId × Ticket)
  timers : List Ticket
  holder : Option Holder
  /-- Whether a turn is due already. -/
  promised : Bool
  /-- The calls that wait for the line, in their order. -/
  waiting : List (Ticket × Job)
  /-- The calls that have closed the device and are yet to return. -/
  leaving : List Ticket
deriving DecidableEq, Repr

abbrev Move := Link × List Effect

/-- The end of its time fails a query that waits for its answer. Before that nobody handles the
    failure. -/
def Holder.unhandled (holder : Holder) : List Effect :=
  match holder.phase, holder.hearing with
  | .sending _, .expired | .settling _, .expired => [.abort]
  | _, _ => []

namespace Link

def start (config : Config) : Link :=
  ⟨config, config.timeout, 0, [], none, false, none, [], [], [], none, false, [], []⟩

def isOpen (link : Link) : Bool := link.opened && link.loss.isNone

def setTimeout (link : Link) (ms : Float) : Except Fault Link :=
  if ms ≤ 0 then .error (.badTimeout ms) else .ok { link with timeout := ms }

/-- The device a command can go to. The loss of a device is reported before its absence. -/
def ready (link : Link) : Except Fault DeviceId :=
  match link.loss, link.device with
  | some loss, _ => .error (.lost loss)
  | none, some device => .ok device
  | none, none => .error .notOpened

/-! The line goes from call to call. -/

def enqueue (link : Link) (ticket : Ticket) (job : Job) : Move :=
  let next := { link with waiting := link.waiting ++ [(ticket, job)] }
  if link.holder.isSome || link.promised then (next, [])
  else ({ next with promised := true }, [.later .turn])

def release (link : Link) : Move :=
  let next := { link with holder := none }
  if link.waiting.isEmpty then (next, []) else ({ next with promised := true }, [.later .turn])

def finish (link : Link) (ticket : Ticket) (result : Except Fault Response) : Move :=
  let (next, effects) := link.release
  (next, .finish ticket result :: effects)

/-! Exchanges -/

def cancel (link : Link) (ticket : Ticket) : Move :=
  ({ link with
      listeners := link.listeners.filter (·.2 != ticket)
      timers := link.timers.filter (· != ticket) },
    [.disarm ticket])

def listen (link : Link) (ticket : Ticket) (device : DeviceId) : Link :=
  { link with
    listeners := (device, ticket) :: link.listeners
    timers := ticket :: link.timers }

/-- A query listens before its command is sent, so that no answer is missed. -/
def beginExchange (link : Link) (ticket : Ticket) (request : Request) : Move :=
  match link.ready with
  | .error fault => link.finish ticket (.error fault)
  | .ok device =>
    let next := { link with holder := some ⟨ticket, .sending request, .nothing⟩ }
    let send : Effect := .send device (request.command ++ link.config.terminator)
    match request.kind with
    | .write => (next, [send])
    | .query | .rawQuery =>
      (next.listen ticket device, [.arm ticket (link.timeout + request.settle), send])

/-- The response is there; the instrument is given time before the next command. -/
def rest (link : Link) (holder : Holder) (response : Response) : Move :=
  ({ link with holder := some { holder with phase := .resting response } },
    [.pause link.config.commandDelay])

def await (link : Link) (holder : Holder) (request : Request) : Move :=
  match holder.hearing with
  | .line t => link.rest holder (.ofText t request.kind)
  | .expired => link.finish holder.ticket (.error (.unanswered request.command))
  | .nothing =>
    ({ link with holder := some { holder with phase := .awaiting request } }, [])

def sent (link : Link) (holder : Holder) (request : Request) : Move :=
  match request.kind with
  | .write => link.rest holder .done
  | .query | .rawQuery =>
    if request.settle > 0 then
      ({ link with holder := some { holder with phase := .settling request } },
        [.pause request.settle])
    else link.await holder request

def unsent (link : Link) (holder : Holder) (request : Request) (message : Text) : Move :=
  match request.kind with
  | .write => link.finish holder.ticket (.error (.refused message))
  | .query | .rawQuery =>
    let (cancelled, first) := link.cancel holder.ticket
    let (next, rest) := cancelled.finish holder.ticket (.error (.refused message))
    (next, first ++ rest)

def hear (link : Link) (holder : Holder) (hearing : Hearing) : Move :=
  let (cancelled, first) := link.cancel holder.ticket
  let heard := { holder with hearing }
  let (next, rest) := match holder.phase with
    | .awaiting request => cancelled.await heard request
    | _ => ({ cancelled with holder := some heard }, heard.unhandled)
  (next, first ++ rest)

/-! Opening and closing -/

def connect (link : Link) (ticket : Ticket) : Move :=
  if link.opened then (link, [.finish ticket (.ok .done)])
  else
    let device := link.made
    ({ link with
        made := device + 1
        opening := (ticket, device) :: link.opening
        device := some device
        watched := device :: link.watched },
      [.make device, .openDevice ticket device])

def openedLine (config : Config) : Text :=
  text "[Serial] Opened " ++ config.path ++ text " at " ++ Decimal.numberText config.baudRate ++
    text " baud"

def connected (link : Link) (ticket : Ticket) (device : DeviceId) : Option Text → Move
  | none =>
    ({ link with opened := true, loss := none },
      [.log (openedLine link.config), .finish ticket (.ok .done)])
  | some message =>
    ({ link with device := none, watched := link.watched.filter (· != device) },
      [.finish ticket (.error (.refused message))])

/-- A call to close waits for the line only when there is a device. -/
def close (link : Link) (ticket : Ticket) : Move :=
  if link.device.isNone then (link, [.finish ticket (.ok .done)]) else link.enqueue ticket .close

def forget (link : Link) (device : DeviceId) : Link :=
  { link with
    watched := link.watched.filter (· != device)
    listeners := link.listeners.filter (·.1 != device) }

/-- There is no device any more. The line goes on to the next call before this one returns. -/
def closed (link : Link) (ticket : Ticket) : Move :=
  let (next, effects) := release { link with
    device := none
    opened := false
    loss := none
    leaving := ticket :: link.leaving }
  (next, effects ++ [.later (.leave ticket)])

/-- A device that is open is shut; one that is lost already is only forgotten. -/
def beginClose (link : Link) (ticket : Ticket) : Move :=
  match link.device with
  | none => link.closed ticket
  | some device =>
    let next := link.forget device
    if link.isOpen then
      ({ next with holder := some ⟨ticket, .closing, .nothing⟩ }, [.shut device])
    else next.closed ticket

def closedLine (config : Config) : Text := text "[Serial] Closed " ++ config.path

/-- A device has gone. One that has failed counts as opened until it is closed. -/
def lose (link : Link) (device : DeviceId) (loss : Loss) : Link :=
  if link.watched.contains device then
    match loss with
    | .closed => { link with loss := some loss, opened := false }
    | .failed _ => { link with loss := some loss }
  else link

def turn (link : Link) : Move :=
  match link.waiting with
  | [] => ({ link with promised := false }, [])
  | (ticket, job) :: rest =>
    let next := { link with promised := false, waiting := rest }
    match job with
    | .exchange request => next.beginExchange ticket request
    | .close => next.beginClose ticket

/-- What an input leads to. One that nothing has asked for leads to nothing; only a call and the
    loss of a device come by themselves. -/
def step (link : Link) : Input → Move
  | .connect ticket => link.connect ticket
  | .exchange ticket request => link.enqueue ticket (.exchange request)
  | .close ticket => link.close ticket
  | .opened ticket device error =>
    if link.opening.contains (ticket, device) then
      connected { link with opening := link.opening.erase (ticket, device) } ticket device error
    else (link, [])
  | .turn => if link.promised && link.holder.isNone then link.turn else (link, [])
  | .written error =>
    match link.holder with
    | some holder =>
      match holder.phase, error with
      | .sending request, none => link.sent holder request
      | .sending request, some message => link.unsent holder request message
      | _, _ => (link, [])
    | none => (link, [])
  | .rested =>
    match link.holder with
    | some holder =>
      match holder.phase with
      | .settling request => link.await holder request
      | .resting response => link.finish holder.ticket (.ok response)
      | _ => (link, [])
    | none => (link, [])
  | .shut =>
    match link.holder with
    | some holder => if holder.phase = .closing then link.closed holder.ticket else (link, [])
    | none => (link, [])
  | .leave ticket =>
    if link.leaving.contains ticket then
      ({ link with leaving := link.leaving.erase ticket },
        [.log (closedLine link.config), .finish ticket (.ok .done)])
    else (link, [])
  | .line device t =>
    match link.holder with
    | some holder =>
      if link.listeners.contains (device, holder.ticket) then
        link.hear holder (.line (Text.trim t))
      else (link, [])
    | none => (link, [])
  | .expired ticket =>
    match link.holder with
    | some holder =>
      if holder.ticket = ticket && link.timers.contains ticket then link.hear holder .expired
      else (link, [])
    | none => (link, [])
  | .lost device loss => (link.lose device loss, [])

end Link

end VirtualInstrument.Serial
