import VirtualInstrument.Proofs.Serial.Turns
import VirtualInstrument.Serial.Bench
/- Overlapping calls. Calls are made to a link at any time, whatever else happens, and an observer
   writes down what is seen of them. What an input does to the calls at a link is said once, by the
   passes that there are; all that holds of overlapping calls follows from these. -/
namespace VirtualInstrument.Serial

abbrev News := { input : Input // input.call? = none }

inductive Incident
  | call (call : Bench.Call)
  | news (news : News)
  | timeout (ms : Float)

def newsOf (inputs : List Input) (uncalled : ∀ input ∈ inputs, input.call? = none) :
    List Incident :=
  inputs.pmap (fun input quiet => .news ⟨input, quiet⟩) uncalled

/-- What is seen of a call that holds the line. -/
inductive Beat
  | sends (device : DeviceId) (data : Text)
  | shuts (device : DeviceId)
  | pauses (ms : Float)
  /-- The pause is over. -/
  | rests
  | returns (ticket : Ticket) (result : Except Fault Response)
  /-- A call has closed the device and has only to return. -/
  | leaves (ticket : Ticket)

/-- What a link has asked for and not been given yet. -/
inductive Debt
  | turn
  | written
  | rest
  | shut
  | alarm (ticket : Ticket)
deriving DecidableEq, Repr

def Debt.alarm? : Debt → Option Ticket
  | .alarm ticket => some ticket
  | _ => none

def Bench.Call.job? : Bench.Call → Option Job
  | .connect => none
  | .exchange kind command delay => some (.exchange ⟨kind, command, Bench.settleTime delay⟩)
  | .close => some .close

/-- A call that joins those that wait for the line. One that closes does so only while there is a
    device. -/
def Link.queues? (link : Link) : Input → Option (Ticket × Job)
  | .exchange ticket request => some (ticket, .exchange request)
  | .close ticket => if link.device.isSome then some (ticket, .close) else none
  | _ => none

def Effect.beat? (made : List Bench.Call) : Effect → Option Beat
  | .send device data => some (.sends device data)
  | .shut device => some (.shuts device)
  | .pause ms => some (.pauses ms)
  | .finish ticket result =>
    match made[ticket]? with
    | some (.exchange _ _ _) => some (.returns ticket result)
    | _ => none
  | .later (.leave ticket) => some (.leaves ticket)
  | _ => none

def Effect.debt? : Effect → Option Debt
  | .later .turn => some .turn
  | .send _ _ => some .written
  | .pause _ => some .rest
  | .shut _ => some .shut
  | .arm ticket _ => some (.alarm ticket)
  | _ => none

def Effect.withdraws? : Effect → Option Debt
  | .disarm ticket => some (.alarm ticket)
  | _ => none

def Input.pays? : Input → Option Debt
  | .turn => some .turn
  | .written _ => some .written
  | .rested => some .rest
  | .shut => some .shut
  | .expired ticket => some (.alarm ticket)
  | _ => none

def Input.line? : Input → Option (DeviceId × Text)
  | .line device t => some (device, t)
  | _ => none

def rested (trace : List Beat) : Input → List Beat
  | .rested =>
    match trace.getLast? with
    | some (.pauses _) => [.rests]
    | _ => []
  | _ => []

def seen (made : List Bench.Call) (trace : List Beat) (input : Input) (effects : List Effect) :
    List Beat :=
  rested trace input ++ effects.filterMap (Effect.beat? made)

def account (owed : List Debt) (input : Input) (effects : List Effect) : List Debt :=
  let left := match input.pays? with
    | some debt => owed.erase debt
    | none => owed
  left.filter (fun debt => !(effects.filterMap Effect.withdraws?).contains debt) ++
    effects.filterMap Effect.debt?

/-- The queries that listen now and did not before, each at its device and after so many lines. -/
def listening (before now : List (DeviceId × Ticket)) (lines : Nat) :
    List (Ticket × DeviceId × Nat) :=
  (now.filter fun listener => !before.contains listener).map
    fun listener => (listener.2, listener.1, lines)

def Effect.isAbort : Effect → Bool
  | .abort => true
  | _ => false

/-- A link in use, with what has been written down of the calls so far. -/
structure Traffic where
  link : Link
  /-- All calls; a ticket is a place in this list. -/
  made : List Bench.Call
  /-- The calls that want the line, in the order in which they were made. -/
  queued : List (Ticket × Job)
  trace : List Beat
  owed : List Debt
  /-- The lines that the devices have sent. -/
  lines : List (DeviceId × Text)
  /-- The queries that have begun to listen, each at its device and after so many lines. -/
  listened : List (Ticket × DeviceId × Nat)
  /-- Whether the process has ended. -/
  aborted : Bool

namespace Traffic

def start (config : Config) : Traffic := ⟨.start config, [], [], [], [], [], [], false⟩

def feed (now : Traffic) (input : Input) : Traffic :=
  let (link, effects) := now.link.step input
  { now with
    link
    queued := now.queued ++ (now.link.queues? input).toList
    trace := now.trace ++ seen now.made now.trace input effects
    owed := account now.owed input effects
    lines := now.lines ++ input.line?.toList
    listened := now.listened ++ listening now.link.listeners link.listeners now.lines.length
    aborted := effects.any Effect.isAbort }

def more (now : Traffic) (call : Bench.Call) : Traffic := { now with made := now.made ++ [call] }

def meet (now : Traffic) : Incident → Traffic
  | .call call => (now.more call).feed (call.input now.made.length)
  | .news news => now.feed news
  | .timeout ms =>
    match now.link.setTimeout ms with
    | .ok link => { now with link }
    | .error _ => now

/-- When the process has ended, nothing leads to anything. -/
def take (now : Traffic) (incident : Incident) : Traffic :=
  if now.aborted then now else now.meet incident

def run (config : Config) (incidents : List Incident) : Traffic :=
  incidents.foldl take (start config)

end Traffic

def Holder.Premature (holder : Holder) : Prop :=
  holder.hearing = .expired ∧
    ∃ request, holder.phase = .sending request ∨ holder.phase = .settling request

theorem Holder.mem_unhandled {holder : Holder} {effect : Effect} :
    effect ∈ holder.unhandled ↔ effect = .abort ∧ holder.Premature := by
  obtain ⟨ticket, phase, hearing⟩ := holder
  cases phase with
  | sending request => cases hearing <;> simp [unhandled, Premature]
  | settling request => cases hearing <;> simp [unhandled, Premature]
  | _ => simp [unhandled, Premature]

theorem Holder.unhandled_silent {β : Type} {shows : Effect → Option β}
    (silent : shows .abort = none) (holder : Holder) : holder.unhandled.filterMap shows = [] := by
  refine List.filterMap_eq_nil_iff.mpr ?_
  intro effect member
  rw [(mem_unhandled.mp member).1, silent]

/-- The calls at a link, and how they are served: those that wait for a device to open, the one that
    holds the line, those that wait for it, those that have only to return, and the queries that
    listen. -/
structure Calls where
  config : Config
  opening : List (Ticket × DeviceId)
  holder : Option Holder
  promised : Bool
  waiting : List (Ticket × Job)
  leaving : List Ticket
  listeners : List (DeviceId × Ticket)
  timers : List Ticket

def Link.calls (link : Link) : Calls :=
  ⟨link.config, link.opening, link.holder, link.promised, link.waiting, link.leaving,
    link.listeners, link.timers⟩

namespace Calls

def hold (calls : Calls) (holder : Holder) : Calls := { calls with holder := some holder }

def release (calls : Calls) : Calls :=
  { calls with holder := none, promised := calls.promised || !calls.waiting.isEmpty }

def turns (calls : Calls) : List Effect := if calls.waiting.isEmpty then [] else [.later .turn]

theorem mem_turns {calls : Calls} {effect : Effect} :
    effect ∈ calls.turns ↔ calls.waiting ≠ [] ∧ effect = .later .turn := by
  unfold turns
  cases waiting : calls.waiting with
  | nil => simp
  | cons first rest => simp

def listen (calls : Calls) (ticket : Ticket) (device : DeviceId) : Calls :=
  { calls with
    listeners := (device, ticket) :: calls.listeners
    timers := ticket :: calls.timers }

def cancel (calls : Calls) (ticket : Ticket) : Calls :=
  { calls with
    listeners := calls.listeners.filter (·.2 != ticket)
    timers := calls.timers.filter (· != ticket) }

end Calls

/-- What the call that holds the line waits for. A query that reads its answer hears a line, or else
    its alarm. -/
def Holder.awaits (holder : Holder) : Debt :=
  match holder.phase with
  | .sending _ => .written
  | .settling _ => .rest
  | .awaiting _ => .alarm holder.ticket
  | .resting _ => .rest
  | .closing => .shut

def Calls.awaits? (calls : Calls) : Option Debt :=
  match calls.holder with
  | some holder => some holder.awaits
  | none => if calls.promised then some .turn else none

def Effect.Aside (link : Link) (input : Input) : Effect → Prop
  | .make _ | .openDevice _ _ | .log _ => True
  | .finish ticket _ => input = .connect ticket ∨ input = .close ticket ∨
    (∃ device, (ticket, device) ∈ link.opening) ∨ ticket ∈ link.leaving
  | _ => False

namespace Link

structure Next (link : Link) (ticket : Ticket) (job : Job) (rest : List (Ticket × Job)) :
    Prop where
  free : link.holder = none
  promised : link.promised = true
  first : link.waiting = (ticket, job) :: rest

def turned (link : Link) (rest : List (Ticket × Job)) : Calls :=
  { link.calls with promised := false, waiting := rest }

/-- A query comes to read its answer: its command is sent, and it has settled. -/
def Reads (link : Link) (input : Input) (ticket : Ticket) (request : Request)
    (hearing : Hearing) : Prop :=
  (input = .written none ∧ link.holder = some ⟨ticket, .sending request, hearing⟩ ∧
    request.kind ≠ .write ∧ ¬ request.settle > 0) ∨
  (input = .rested ∧ link.holder = some ⟨ticket, .settling request, hearing⟩)

def Hears (link : Link) (input : Input) (ticket : Ticket) (hearing : Hearing) : Prop :=
  (∃ device t, input = .line device t ∧ (device, ticket) ∈ link.listeners ∧
    hearing = .line (Text.trim t)) ∨
  (input = .expired ticket ∧ ticket ∈ link.timers ∧ hearing = .expired)

structure Misses (link : Link) (input : Input) : Prop where
  unqueued : link.queues? input = none
  unpaid : ∀ debt, link.calls.awaits? = some debt → input.pays? = some debt →
    ∃ ticket, debt = .alarm ticket
  unarmed : ∀ holder, input = .expired holder.ticket → link.holder = some holder →
    holder.ticket ∉ link.timers
  unheard : ∀ device t holder, input = .line device t → link.holder = some holder →
    (device, holder.ticket) ∉ link.listeners

end Link

/-- What an input does to the calls at a link, with its effects. -/
inductive Pass (link : Link) : Input → Calls → List Effect → Prop
  | aside {input : Input} {opening : List (Ticket × DeviceId)} {leaving : List Ticket}
      {effects : List Effect} (misses : link.Misses input)
      (opens : ∀ entry ∈ opening, entry ∈ link.opening ∨ input = .connect entry.1)
      (leaves : ∀ ticket ∈ leaving, ticket ∈ link.leaving)
      (apart : ∀ effect ∈ effects, effect.Aside link input) :
      Pass link input { link.calls with opening, leaving } effects
  | queues {input : Input} {ticket : Ticket} {job : Job}
      (queued : link.queues? input = some (ticket, job)) :
      Pass link input
        { link.calls with
          waiting := link.waiting ++ [(ticket, job)]
          promised := link.promised || link.holder.isNone }
        (if link.holder.isSome || link.promised then [] else [.later .turn])
  | refused {ticket : Ticket} {request : Request} {rest : List (Ticket × Job)}
      (next : link.Next ticket (.exchange request) rest) (fault : Fault) :
      Pass link .turn (link.turned rest).release
        (.finish ticket (.error fault) :: (link.turned rest).turns)
  | writes {ticket : Ticket} {request : Request} {rest : List (Ticket × Job)}
      (next : link.Next ticket (.exchange request) rest) (write : request.kind = .write)
      (device : DeviceId) :
      Pass link .turn ((link.turned rest).hold ⟨ticket, .sending request, .nothing⟩)
        [.send device (request.command ++ link.config.terminator)]
  | asks {ticket : Ticket} {request : Request} {rest : List (Ticket × Job)}
      (next : link.Next ticket (.exchange request) rest) (query : request.kind ≠ .write)
      (device : DeviceId) (ms : Float) :
      Pass link .turn
        (((link.turned rest).listen ticket device).hold ⟨ticket, .sending request, .nothing⟩)
        [.arm ticket ms, .send device (request.command ++ link.config.terminator)]
  | shuts {ticket : Ticket} {rest : List (Ticket × Job)} {listeners : List (DeviceId × Ticket)}
      (next : link.Next ticket .close rest)
      (fewer : ∀ listener ∈ listeners, listener ∈ link.listeners) (device : DeviceId) :
      Pass link .turn
        ({ link.turned rest with listeners }.hold ⟨ticket, .closing, .nothing⟩) [.shut device]
  | drops {ticket : Ticket} {rest : List (Ticket × Job)} {listeners : List (DeviceId × Ticket)}
      (next : link.Next ticket .close rest)
      (fewer : ∀ listener ∈ listeners, listener ∈ link.listeners) :
      Pass link .turn
        { link.turned rest with listeners, leaving := ticket :: link.leaving }.release
        ((link.turned rest).turns ++ [.later (.leave ticket)])
  /-- A turn for nobody. -/
  | spares (free : link.holder = none) (empty : link.waiting = []) :
      Pass link .turn { link.calls with promised := false } []
  | wrote {ticket : Ticket} {request : Request} {hearing : Hearing}
      (held : link.holder = some ⟨ticket, .sending request, hearing⟩)
      (write : request.kind = .write) :
      Pass link (.written none) (link.calls.hold ⟨ticket, .resting .done, hearing⟩)
        [.pause link.config.commandDelay]
  | settles {ticket : Ticket} {request : Request} {hearing : Hearing}
      (held : link.holder = some ⟨ticket, .sending request, hearing⟩)
      (query : request.kind ≠ .write) (positive : request.settle > 0) :
      Pass link (.written none) (link.calls.hold ⟨ticket, .settling request, hearing⟩)
        [.pause request.settle]
  | waits {input : Input} {ticket : Ticket} {request : Request}
      (reads : link.Reads input ticket request .nothing) :
      Pass link input (link.calls.hold ⟨ticket, .awaiting request, .nothing⟩) []
  | reads {input : Input} {ticket : Ticket} {request : Request} {t : Text}
      (reads : link.Reads input ticket request (.line t)) :
      Pass link input
        (link.calls.hold ⟨ticket, .resting (.ofText t request.kind), .line t⟩)
        [.pause link.config.commandDelay]
  | fails {input : Input} {ticket : Ticket} {request : Request}
      (reads : link.Reads input ticket request .expired) :
      Pass link input link.calls.release
        (.finish ticket (.error (.unanswered request.command)) :: link.calls.turns)
  /-- What a query is told before it comes to read its answer. -/
  | hears {input : Input} {ticket : Ticket} {phase : Phase} {before hearing : Hearing}
      (held : link.holder = some ⟨ticket, phase, before⟩)
      (early : ∀ request, phase ≠ .awaiting request) (hears : link.Hears input ticket hearing) :
      Pass link input ((link.calls.cancel ticket).hold ⟨ticket, phase, hearing⟩)
        (.disarm ticket :: Holder.unhandled ⟨ticket, phase, hearing⟩)
  | answered {ticket : Ticket} {request : Request} {before : Hearing} {device : DeviceId}
      (held : link.holder = some ⟨ticket, .awaiting request, before⟩)
      (listens : (device, ticket) ∈ link.listeners) (t : Text) :
      Pass link (.line device t)
        ((link.calls.cancel ticket).hold
          ⟨ticket, .resting (.ofText (Text.trim t) request.kind), .line (Text.trim t)⟩)
        [.disarm ticket, .pause link.config.commandDelay]
  | unanswered {ticket : Ticket} {request : Request} {before : Hearing}
      (held : link.holder = some ⟨ticket, .awaiting request, before⟩)
      (armed : ticket ∈ link.timers) :
      Pass link (.expired ticket) (link.calls.cancel ticket).release
        (.disarm ticket :: .finish ticket (.error (.unanswered request.command)) ::
          link.calls.turns)
  | unwritten {ticket : Ticket} {request : Request} {hearing : Hearing}
      (held : link.holder = some ⟨ticket, .sending request, hearing⟩)
      (write : request.kind = .write) (message : Text) :
      Pass link (.written (some message)) link.calls.release
        (.finish ticket (.error (.refused message)) :: link.calls.turns)
  | unasked {ticket : Ticket} {request : Request} {hearing : Hearing}
      (held : link.holder = some ⟨ticket, .sending request, hearing⟩)
      (query : request.kind ≠ .write) (message : Text) :
      Pass link (.written (some message)) (link.calls.cancel ticket).release
        (.disarm ticket :: .finish ticket (.error (.refused message)) :: link.calls.turns)
  | returns {ticket : Ticket} {response : Response} {hearing : Hearing}
      (held : link.holder = some ⟨ticket, .resting response, hearing⟩) :
      Pass link .rested link.calls.release
        (.finish ticket (.ok response) :: link.calls.turns)
  | leaves {ticket : Ticket} {hearing : Hearing}
      (held : link.holder = some ⟨ticket, .closing, hearing⟩) :
      Pass link .shut { link.calls with leaving := ticket :: link.leaving }.release
        (link.calls.turns ++ [.later (.leave ticket)])

namespace Link

variable {link : Link} {input : Input}

theorem Reads.queues?_eq_none {ticket : Ticket} {request : Request} {hearing : Hearing}
    (reads : link.Reads input ticket request hearing) : link.queues? input = none := by
  rcases reads with ⟨rfl, _⟩ | ⟨rfl, _⟩
  · rfl
  · rfl

theorem Hears.queues?_eq_none {ticket : Ticket} {hearing : Hearing}
    (hears : link.Hears input ticket hearing) : link.queues? input = none := by
  rcases hears with ⟨device, t, rfl, _⟩ | ⟨rfl, _⟩
  · rfl
  · rfl

def Passes (link : Link) (input : Input) (move : Move) : Prop :=
  Pass link input move.1.calls move.2

theorem Misses.passes (misses : link.Misses input) : link.Passes input (link, []) :=
  .aside misses (fun _ => .inl) (fun _ => id) (fun _ none => nomatch none)

theorem misses_of_silent (unqueued : link.queues? input = none) (unpaid : input.pays? = none)
    (silent : input.line? = none) : link.Misses input := by
  refine ⟨unqueued, ?_, ?_, ?_⟩
  · intro debt _ paid
    rw [unpaid] at paid
    cases paid
  · rintro holder rfl
    cases unpaid
  · rintro device t holder rfl
    cases silent

theorem release_eq (link : Link) : link.release = ({ link with
    holder := none
    promised := link.promised || !link.waiting.isEmpty }, link.calls.turns) := by
  unfold release
  cases waiting : link.waiting with
  | nil => simp [Calls.turns, calls, waiting]
  | cons first rest => simp [Calls.turns, calls, waiting]

theorem finish_release (link : Link) (ticket : Ticket) (result : Except Fault Response) :
    link.finish ticket result =
      (link.release.1, .finish ticket result :: link.calls.turns) := by
  rw [finish, release_eq]

theorem release_calls (link : Link) : link.release.1.calls = link.calls.release := by
  rw [release_eq]
  rfl

theorem enqueue_passes {ticket : Ticket} {job : Job}
    (queued : link.queues? input = some (ticket, job)) :
    link.Passes input (link.enqueue ticket job) := by
  have pass : Pass link input _ _ := .queues queued
  unfold Passes enqueue
  cases held : link.holder with
  | some holder => simpa [held, calls] using pass
  | none =>
    cases due : link.promised with
    | true => simpa [held, due, calls] using pass
    | false => simpa [held, due, calls] using pass

theorem connect_passes (ticket : Ticket) :
    link.Passes (.connect ticket) (link.connect ticket) := by
  have misses : link.Misses (.connect ticket) := misses_of_silent rfl rfl rfl
  unfold Passes Link.connect
  split
  · refine .aside misses (fun _ => .inl) (fun _ => id) ?_
    exact List.forall_mem_singleton.mpr (.inl rfl)
  · refine .aside misses ?_ (fun _ => id) (by simp [Effect.Aside])
    intro entry member
    rcases List.mem_cons.mp member with rfl | old
    · exact .inr rfl
    · exact .inl old

theorem opened_passes {ticket : Ticket} {device : DeviceId} (error : Option Text)
    (listed : (ticket, device) ∈ link.opening) :
    link.Passes (.opened ticket device error)
      (connected { link with opening := link.opening.erase (ticket, device) } ticket device
        error) := by
  have misses : link.Misses (.opened ticket device error) := misses_of_silent rfl rfl rfl
  have fewer : ∀ entry ∈ link.opening.erase (ticket, device),
      entry ∈ link.opening ∨ Input.opened ticket device error = .connect entry.1 :=
    fun entry member => .inl (List.mem_of_mem_erase member)
  have opening : ∃ device, (ticket, device) ∈ link.opening := ⟨device, listed⟩
  cases error with
  | none =>
    exact .aside misses fewer (fun _ => id) (by simp [connected, Effect.Aside, opening])
  | some message =>
    exact .aside misses fewer (fun _ => id) (by simp [connected, Effect.Aside, opening])

theorem leave_passes {ticket : Ticket} (listed : ticket ∈ link.leaving) :
    link.Passes (.leave ticket)
      ({ link with leaving := link.leaving.erase ticket },
        [.log (closedLine link.config), .finish ticket (.ok .done)]) := by
  have misses : link.Misses (.leave ticket) := misses_of_silent rfl rfl rfl
  exact .aside misses (fun _ => .inl) (fun _ => List.mem_of_mem_erase)
    (by simp [Effect.Aside, listed])

theorem close_passes (ticket : Ticket) : link.Passes (.close ticket) (link.close ticket) := by
  unfold Link.close
  cases current : link.device with
  | none =>
    have misses : link.Misses (.close ticket) :=
      misses_of_silent (by simp [queues?, current]) rfl rfl
    refine .aside misses (fun _ => .inl) (fun _ => id) ?_
    exact List.forall_mem_singleton.mpr (.inr (.inl rfl))
  | some device =>
    refine enqueue_passes ?_
    simp [queues?, current]

theorem Next.exchange_passes {ticket : Ticket} {request : Request} {rest : List (Ticket × Job)}
    (next : link.Next ticket (.exchange request) rest) :
    link.Passes .turn
      (beginExchange { link with promised := false, waiting := rest } ticket request) := by
  unfold Passes beginExchange
  cases ready : Link.ready { link with promised := false, waiting := rest } with
  | error fault =>
    dsimp only
    rw [finish_release, release_calls]
    exact .refused next fault
  | ok device =>
    dsimp only
    cases kind : request.kind with
    | write => exact .writes next kind device
    | query => exact .asks next (by simp [kind]) device _
    | rawQuery => exact .asks next (by simp [kind]) device _

theorem Next.close_passes {ticket : Ticket} {rest : List (Ticket × Job)}
    (next : link.Next ticket .close rest) :
    link.Passes .turn (beginClose { link with promised := false, waiting := rest } ticket) := by
  unfold Passes beginClose
  split
  · unfold closed
    rw [release_eq]
    exact .drops next fun _ => id
  · rename_i device _
    dsimp only
    have fewer : ∀ listener ∈ link.listeners.filter (·.1 != device), listener ∈ link.listeners :=
      fun _ member => (List.mem_filter.mp member).1
    split
    · exact .shuts next fewer device
    · unfold closed
      rw [release_eq]
      exact .drops next fewer

theorem turn_passes (free : link.holder = none) (promised : link.promised = true) :
    link.Passes .turn link.turn := by
  unfold Link.turn
  split
  · rename_i empty
    exact .spares free empty
  · rename_i ticket job rest first
    cases job with
    | exchange request =>
      have next : link.Next ticket (.exchange request) rest := ⟨free, promised, first⟩
      exact next.exchange_passes
    | close =>
      have next : link.Next ticket .close rest := ⟨free, promised, first⟩
      exact next.close_passes

theorem Reads.passes {ticket : Ticket} {phase : Phase} {request : Request} {hearing : Hearing}
    (reads : link.Reads input ticket request hearing) :
    link.Passes input (link.await ⟨ticket, phase, hearing⟩ request) := by
  unfold Passes await
  cases hearing with
  | line t => exact .reads reads
  | nothing => exact .waits reads
  | expired =>
    dsimp only
    rw [finish_release, release_calls]
    exact .fails reads

theorem sent_passes {ticket : Ticket} {request : Request} {hearing : Hearing}
    (held : link.holder = some ⟨ticket, .sending request, hearing⟩) :
    link.Passes (.written none) (link.sent ⟨ticket, .sending request, hearing⟩ request) := by
  have asked (query : request.kind ≠ .write) : link.Passes (.written none)
      (if request.settle > 0 then
        ({ link with holder := some ⟨ticket, .settling request, hearing⟩ },
          [.pause request.settle])
      else link.await ⟨ticket, .sending request, hearing⟩ request) := by
    split
    · rename_i positive
      exact .settles held query positive
    · rename_i short
      have reads : link.Reads (.written none) ticket request hearing :=
        .inl ⟨rfl, held, query, short⟩
      exact reads.passes
  unfold sent
  cases kind : request.kind with
  | write => exact .wrote held kind
  | query => exact asked (by simp [kind])
  | rawQuery => exact asked (by simp [kind])

theorem unsent_passes {ticket : Ticket} {request : Request} {hearing : Hearing}
    (held : link.holder = some ⟨ticket, .sending request, hearing⟩) (message : Text) :
    link.Passes (.written (some message))
      (link.unsent ⟨ticket, .sending request, hearing⟩ request message) := by
  have asked (query : request.kind ≠ .write) : link.Passes (.written (some message))
      (((link.cancel ticket).1.finish ticket (.error (.refused message))).1,
        (link.cancel ticket).2 ++
          ((link.cancel ticket).1.finish ticket (.error (.refused message))).2) := by
    unfold Passes
    rw [finish_release, release_calls]
    exact .unasked held query message
  unfold unsent
  cases kind : request.kind with
  | write =>
    unfold Passes
    dsimp only
    rw [finish_release, release_calls]
    exact .unwritten held kind message
  | query => exact asked (by simp [kind])
  | rawQuery => exact asked (by simp [kind])

theorem awaiting_passes {ticket : Ticket} {request : Request} {before hearing : Hearing}
    (held : link.holder = some ⟨ticket, .awaiting request, before⟩)
    (hears : link.Hears input ticket hearing) :
    link.Passes input (link.hear ⟨ticket, .awaiting request, before⟩ hearing) := by
  rcases hears with ⟨device, t, rfl, listens, rfl⟩ | ⟨rfl, armed, rfl⟩
  · exact .answered held listens t
  · unfold Passes hear await
    dsimp only
    rw [finish_release, release_calls]
    exact .unanswered held armed

theorem hear_passes {ticket : Ticket} {phase : Phase} {before hearing : Hearing}
    (held : link.holder = some ⟨ticket, phase, before⟩)
    (hears : link.Hears input ticket hearing) :
    link.Passes input (link.hear ⟨ticket, phase, before⟩ hearing) := by
  cases phase with
  | awaiting request => exact awaiting_passes held hears
  | _ => exact .hears held nofun hears

theorem awaits?_of_held {holder : Holder} (held : link.holder = some holder) :
    link.calls.awaits? = some holder.awaits := by
  simp only [Calls.awaits?, calls, held]

theorem awaits?_of_free (free : link.holder = none) {debt : Debt}
    (awaited : link.calls.awaits? = some debt) : debt = .turn ∧ link.promised = true := by
  simp only [Calls.awaits?, calls, free] at awaited
  split at awaited
  · rename_i promised
    cases awaited
    exact ⟨rfl, promised⟩
  · cases awaited

theorem unpaid_passes {debt : Debt} (pays : input.pays? = some debt)
    (untimed : debt.alarm? = none) (unqueued : link.queues? input = none)
    (elsewhere : link.calls.awaits? ≠ some debt) : link.Passes input (link, []) := by
  refine Misses.passes ⟨unqueued, ?_, ?_, ?_⟩
  · intro other awaited paid
    cases pays.symm.trans paid
    exact absurd awaited elsewhere
  · rintro holder rfl
    cases pays
    cases untimed
  · rintro device t holder rfl
    cases pays

theorem written_passes (error : Option Text) :
    link.Passes (.written error) (link.step (.written error)) := by
  simp only [step]
  cases held : link.holder with
  | none =>
    refine unpaid_passes rfl rfl rfl fun awaited => ?_
    cases (awaits?_of_free held awaited).1
  | some holder =>
    have awaited := awaits?_of_held held
    obtain ⟨ticket, phase, hearing⟩ := holder
    cases phase with
    | sending request =>
      cases error with
      | none => exact sent_passes held
      | some message => exact unsent_passes held message
    | _ => exact unpaid_passes rfl rfl rfl (by simp [awaited, Holder.awaits])

theorem rested_passes : link.Passes .rested (link.step .rested) := by
  simp only [step]
  cases held : link.holder with
  | none =>
    refine unpaid_passes rfl rfl rfl fun awaited => ?_
    cases (awaits?_of_free held awaited).1
  | some holder =>
    have awaited := awaits?_of_held held
    obtain ⟨ticket, phase, hearing⟩ := holder
    cases phase with
    | settling request =>
      have reads : link.Reads .rested ticket request hearing := .inr ⟨rfl, held⟩
      exact reads.passes
    | resting response =>
      unfold Passes
      dsimp only
      rw [finish_release, release_calls]
      exact .returns held
    | _ => exact unpaid_passes rfl rfl rfl (by simp [awaited, Holder.awaits])

theorem shut_passes : link.Passes .shut (link.step .shut) := by
  simp only [step]
  cases held : link.holder with
  | none =>
    refine unpaid_passes rfl rfl rfl fun awaited => ?_
    cases (awaits?_of_free held awaited).1
  | some holder =>
    have awaited := awaits?_of_held held
    obtain ⟨ticket, phase, hearing⟩ := holder
    cases phase with
    | closing =>
      simp only [if_true]
      unfold Passes closed
      rw [release_eq]
      exact .leaves held
    | _ => exact unpaid_passes rfl rfl rfl (by simp [awaited, Holder.awaits])

theorem line_passes (device : DeviceId) (t : Text) :
    link.Passes (.line device t) (link.step (.line device t)) := by
  have missed (unheard : ∀ holder, link.holder = some holder →
      (device, holder.ticket) ∉ link.listeners) : link.Passes (.line device t) (link, []) := by
    refine Misses.passes ⟨rfl, fun _ _ paid => (nomatch paid), fun _ other => (nomatch other), ?_⟩
    rintro device t holder ⟨⟩ held
    exact unheard holder held
  simp only [step]
  cases held : link.holder with
  | none => exact missed (by simp [held])
  | some holder =>
    obtain ⟨ticket, phase, before⟩ := holder
    dsimp only
    split
    · rename_i listens
      exact hear_passes held (.inl ⟨device, t, rfl, by simpa using listens, rfl⟩)
    · rename_i deaf
      refine missed ?_
      rintro holder same
      cases held.symm.trans same
      simpa using deaf

theorem expired_passes (ticket : Ticket) :
    link.Passes (.expired ticket) (link.step (.expired ticket)) := by
  have missed (idle : ∀ holder, Input.expired ticket = .expired holder.ticket →
      link.holder = some holder → holder.ticket ∉ link.timers) :
      link.Passes (.expired ticket) (link, []) := by
    refine Misses.passes ⟨rfl, ?_, idle, fun _ _ _ other => (nomatch other)⟩
    rintro debt _ ⟨⟩
    exact ⟨ticket, rfl⟩
  simp only [step]
  cases held : link.holder with
  | none => exact missed (by simp [held])
  | some holder =>
    obtain ⟨own, phase, before⟩ := holder
    dsimp only
    split
    · rename_i noticed
      obtain ⟨rfl, armed⟩ : own = ticket ∧ ticket ∈ link.timers := by simpa using noticed
      exact hear_passes held (.inr ⟨rfl, armed, rfl⟩)
    · rename_i deaf
      refine missed ?_
      rintro holder ⟨⟩ same
      cases held.symm.trans same
      simpa using deaf

/-- What an input does to the calls at a link. -/
theorem step_passes (link : Link) (input : Input) : link.Passes input (link.step input) := by
  cases input with
  | connect ticket => exact connect_passes ticket
  | exchange ticket request => exact enqueue_passes rfl
  | close ticket => exact close_passes ticket
  | opened ticket device error =>
    simp only [step]
    split
    · rename_i listed
      exact opened_passes error (by simpa using listed)
    · exact (misses_of_silent rfl rfl rfl).passes
  | turn =>
    simp only [step]
    split
    · rename_i due
      obtain ⟨promised, free⟩ : link.promised = true ∧ link.holder = none := by simpa using due
      exact turn_passes free promised
    · rename_i early
      refine unpaid_passes rfl rfl rfl fun awaited => early ?_
      cases held : link.holder with
      | none => simp [(awaits?_of_free held awaited).2]
      | some holder =>
        rw [awaits?_of_held held] at awaited
        obtain ⟨ticket, phase, hearing⟩ := holder
        cases phase with
        | _ => cases awaited
  | written error => exact written_passes error
  | rested => exact rested_passes
  | shut => exact shut_passes
  | leave ticket =>
    simp only [step]
    split
    · rename_i listed
      exact leave_passes (by simpa using listed)
    · exact (misses_of_silent rfl rfl rfl).passes
  | line device t => exact line_passes device t
  | expired ticket => exact expired_passes ticket
  | lost device loss =>
    have misses : link.Misses (.lost device loss) := misses_of_silent rfl rfl rfl
    have same : (link.lose device loss).calls = link.calls := by
      unfold lose
      split
      · cases loss with
        | closed => rfl
        | failed message => rfl
      · rfl
    unfold Passes
    simp only [step]
    rw [same]
    exact misses.passes

end Link

end VirtualInstrument.Serial
