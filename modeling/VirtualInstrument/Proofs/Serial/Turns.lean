import VirtualInstrument.Serial.Link
/- Calls one at a time. When a call is made only after the one before it has returned, a link is at
   rest or at a single stage of a single call, and what an input does to the device is one of a few
   deeds. -/
namespace VirtualInstrument.Serial

def Input.call? : Input → Option Ticket
  | .connect ticket => some ticket
  | .exchange ticket _ => some ticket
  | .close ticket => some ticket
  | _ => none

structure Port where
  made : Nat
  device : Option DeviceId
  opened : Bool
  loss : Option Loss
  watched : List DeviceId
deriving DecidableEq, Repr

def Link.port (link : Link) : Port :=
  ⟨link.made, link.device, link.opened, link.loss, link.watched⟩

def Port.forget (port : Port) (device : DeviceId) : Port :=
  { port with watched := port.watched.filter (· != device) }

/-- How far the only call has come. -/
inductive Stage
  | idle
  | opening (ticket : Ticket) (device : DeviceId)
  | queued (ticket : Ticket) (job : Job)
  | exchanging (ticket : Ticket) (request : Request)
  | closing (ticket : Ticket)
  | leaving (ticket : Ticket)

def Stage.call? : Stage → Option Input
  | .idle => none
  | .opening ticket _ => some (.connect ticket)
  | .queued ticket (.exchange request) => some (.exchange ticket request)
  | .exchanging ticket request => some (.exchange ticket request)
  | .queued ticket .close => some (.close ticket)
  | .closing ticket => some (.close ticket)
  | .leaving ticket => some (.close ticket)

def Stage.openings : Stage → List (Ticket × DeviceId)
  | .opening ticket device => [(ticket, device)]
  | _ => []

def Stage.waits : Stage → List (Ticket × Job)
  | .queued ticket job => [(ticket, job)]
  | _ => []

def Stage.leavers : Stage → List Ticket
  | .leaving ticket => [ticket]
  | _ => []

def Stage.Holds : Stage → Option Holder → Prop
  | .exchanging ticket _, holder =>
    ∃ phase hearing, holder = some ⟨ticket, phase, hearing⟩ ∧ phase ≠ .closing
  | .closing ticket, holder => ∃ hearing, holder = some ⟨ticket, .closing, hearing⟩
  | _, holder => holder = none

/-- The device at a stage. One that is about to open is new, one that is being closed is forgotten,
    and any other one is watched. -/
def Stage.Has : Stage → Port → Prop
  | .opening _ device, port => port.device = some device ∧ port.made = device + 1 ∧
    port.opened = false ∧ device ∈ port.watched
  | .closing _, port => ∀ device, port.device = some device → device ∉ port.watched
  | .leaving _, port => port.device = none ∧ port.opened = false
  | _, port => (∀ device, port.device = some device → device ∈ port.watched) ∧
    (port.opened = true → port.device.isSome = true)

structure Link.At (link : Link) (stage : Stage) : Prop where
  opening : link.opening = stage.openings
  waiting : link.waiting = stage.waits
  promised : link.promised = !stage.waits.isEmpty
  leaving : link.leaving = stage.leavers
  holder : stage.Holds link.holder
  port : stage.Has link.port

def Effect.Quiet : Effect → Prop
  | .make _ | .openDevice _ _ | .shut _ | .finish _ _ => False
  | _ => True

theorem unhandled_quiet (holder : Holder) : ∀ effect ∈ holder.unhandled, effect.Quiet := by
  unfold Holder.unhandled
  split
  · simp [Effect.Quiet]
  · simp [Effect.Quiet]
  · exact nofun

/-- A refusal for the want of a device. -/
def Stale : Except Fault Response → Prop
  | .error (.lost _) => True
  | .error .notOpened => True
  | _ => False

def Input.Answered (link : Link) : Input → Except Fault Response → Prop
  | .connect _, result => link.opened = true ∧ result = .ok .done
  | .close _, result => link.device = none ∧ result = .ok .done
  | _, result => (∃ fault, link.ready = .error fault ∧ result = .error fault) ∨ ¬ Stale result

def Input.Plain (link : Link) : Input → Prop
  | .lost _ _ => False
  | .opened ticket device none => (ticket, device) ∉ link.opening
  | _ => True

/-- What an input does to the device, and to the call that is to return. -/
inductive Deed (link : Link) (input : Input) (call : Option Input) :
    Port → List Effect → Option Input → Prop
  | keeps {effects : List Effect} (plain : input.Plain link)
      (later : ∀ ticket, call = some (.connect ticket) → input.call? = none)
      (quiet : ∀ effect ∈ effects, effect.Quiet) : Deed link input call link.port effects call
  | returns {first : List Effect} {made : Input} {ticket : Ticket}
      {result : Except Fault Response} (plain : input.Plain link)
      (quiet : ∀ effect ∈ first, effect.Quiet)
      (asked : call = some made) (named : made.call? = some ticket)
      (answered : made.Answered link result) :
      Deed link input call link.port (first ++ [.finish ticket result]) none
  | makes {ticket : Ticket} (plain : input.Plain link) (asked : call = some (.connect ticket))
      (shut : link.opened = false) :
      Deed link input call
        { link.port with
          made := link.made + 1, device := some link.made, watched := link.made :: link.watched }
        [.make link.made, .openDevice ticket link.made] call
  | opens {ticket : Ticket} {device : DeviceId} (asked : call = some (.connect ticket))
      (told : input = .opened ticket device none) (listed : (ticket, device) ∈ link.opening)
      (current : link.device = some device) (last : link.made = device + 1)
      (watched : device ∈ link.watched) (line : Text) :
      Deed link input call { link.port with opened := true, loss := none }
        [.log line, .finish ticket (.ok .done)] none
  | fails {ticket : Ticket} {device : DeviceId} {message : Text}
      (asked : call = some (.connect ticket)) (told : input = .opened ticket device (some message))
      (current : link.device = some device) (last : link.made = device + 1) :
      Deed link input call { link.port.forget device with device := none }
        [.finish ticket (.error (.refused message))] none
  | shuts {ticket : Ticket} {device : DeviceId} (plain : input.Plain link)
      (asked : call = some (.close ticket))
      (current : link.device = some device) (watched : device ∈ link.watched)
      (isOpen : link.isOpen = true) :
      Deed link input call (link.port.forget device) [.shut device] call
  | drops {effects : List Effect} {ticket : Ticket} {watched : List DeviceId}
      (plain : input.Plain link) (asked : call = some (.close ticket))
      (kept : ∀ device ∈ watched, device ∈ link.watched)
      (released : link.isOpen = false ∨
        ∀ device, link.device = some device → device ∉ link.watched)
      (quiet : ∀ effect ∈ effects, effect.Quiet) :
      Deed link input call ⟨link.made, none, false, none, watched⟩ effects call
  | loses {device : DeviceId} {loss : Loss} (told : input = .lost device loss) :
      Deed link input call (link.lose device loss).port [] call

theorem Deed.of_answer {link : Link} {input made : Input} {call : Option Input} {ticket : Ticket}
    {result : Except Fault Response} (plain : input.Plain link) (asked : call = some made)
    (named : made.call? = some ticket) (answered : made.Answered link result) :
    Deed link input call link.port [.finish ticket result] none := by
  have deed : Deed link input call link.port ([] ++ [.finish ticket result]) none :=
    .returns plain (by simp) asked named answered
  exact deed

def Leads (link : Link) (input : Input) (call : Option Input) (move : Move) : Prop :=
  ∃ stage, move.1.At stage ∧ Deed link input call move.1.port move.2 stage.call?

namespace Link

variable {link : Link} {stage : Stage} {input : Input}

theorem At.stays_there (there : link.At stage) (plain : input.Plain link)
    (silent : input.call? = none) :
    Leads link input stage.call? (link, []) :=
  ⟨stage, there, .keeps plain (fun _ _ => silent) (by simp)⟩

theorem At.lose (there : link.At stage) (device : DeviceId) (loss : Loss) :
    (link.lose device loss).At stage := by
  unfold Link.lose
  split
  · cases loss with
    | closed =>
      refine ⟨there.opening, there.waiting, there.promised, there.leaving, there.holder, ?_⟩
      have port := there.port
      cases stage with
      | opening ticket own => exact ⟨port.1, port.2.1, rfl, port.2.2.2⟩
      | closing ticket => exact port
      | leaving ticket => exact ⟨port.1, rfl⟩
      | idle => exact ⟨port.1, fun opened => nomatch opened⟩
      | queued ticket job => exact ⟨port.1, fun opened => nomatch opened⟩
      | exchanging ticket request => exact ⟨port.1, fun opened => nomatch opened⟩
    | failed message =>
      refine ⟨there.opening, there.waiting, there.promised, there.leaving, there.holder, ?_⟩
      have port := there.port
      cases stage <;> exact port
  · exact there

theorem connect_leads (idle : link.At .idle) (plain : input.Plain link) (ticket : Ticket) :
    Leads link input (some (.connect ticket)) (link.connect ticket) := by
  unfold Link.connect
  split
  · rename_i opened
    exact ⟨.idle, idle, .of_answer plain rfl rfl ⟨opened, rfl⟩⟩
  · rename_i shut
    have shut := Bool.eq_false_iff.mpr shut
    refine ⟨.opening ticket link.made, ⟨?_, idle.waiting, idle.promised, idle.leaving, idle.holder,
      rfl, rfl, shut, List.mem_cons_self⟩, .makes plain rfl shut⟩
    rw [idle.opening]
    rfl

theorem enqueue_eq (idle : link.At .idle) (ticket : Ticket) (job : Job) :
    link.enqueue ticket job =
      ({ link with waiting := [(ticket, job)], promised := true }, [.later .turn]) := by
  have free : (link.holder.isSome || link.promised) = false := by
    rw [show link.holder = none from idle.holder, idle.promised]
    rfl
  unfold enqueue
  rw [free, if_neg Bool.false_ne_true, idle.waiting]
  rfl

theorem enqueue_leads (idle : link.At .idle) (plain : input.Plain link) (ticket : Ticket)
    (job : Job) (port : Stage.Has (.queued ticket job) link.port) :
    Leads link input (Stage.queued ticket job).call? (link.enqueue ticket job) := by
  rw [enqueue_eq idle]
  exact ⟨.queued ticket job, ⟨idle.opening, rfl, rfl, idle.leaving, idle.holder, port⟩,
    .keeps plain (by cases job <;> nofun) (by simp [Effect.Quiet])⟩

theorem close_leads (idle : link.At .idle) (plain : input.Plain link) (ticket : Ticket) :
    Leads link input (some (.close ticket)) (link.close ticket) := by
  unfold Link.close
  split
  · rename_i absent
    exact ⟨.idle, idle, .of_answer plain rfl rfl ⟨Option.isNone_iff_eq_none.mp absent, rfl⟩⟩
  · exact enqueue_leads idle plain ticket .close idle.port

theorem opened_leads (there : link.At stage) {ticket : Ticket} {device : DeviceId}
    (listed : (ticket, device) ∈ link.opening) (error : Option Text) :
    Leads link (.opened ticket device error) stage.call?
      (connected { link with opening := link.opening.erase (ticket, device) } ticket device
        error) := by
  obtain ⟨opening, waiting, promised, leaving, holder, port⟩ := there
  have member := listed
  rw [opening] at member
  cases stage with
  | opening own made =>
    cases List.mem_singleton.mp member
    have empty : link.opening.erase (ticket, device) = [] := by
      rw [opening]
      simp [Stage.openings]
    rw [empty]
    cases error with
    | none =>
      refine ⟨.idle, ⟨rfl, waiting, promised, leaving, holder, ?_, ?_⟩,
        .opens rfl rfl listed port.1 port.2.1 port.2.2.2 _⟩
      · intro other same
        cases port.1.symm.trans same
        exact port.2.2.2
      · intro _
        exact Option.isSome_iff_exists.mpr ⟨device, port.1⟩
    | some message =>
      refine ⟨.idle, ⟨rfl, waiting, promised, leaving, holder, ⟨?_, ?_⟩⟩,
        .fails rfl rfl port.1 port.2.1⟩
      · intro other same
        cases same
      · intro opened
        exact absurd (port.2.2.1.symm.trans opened) Bool.false_ne_true
  | _ => cases member

/-! Exchanges -/

section Exchange
variable {ticket : Ticket} {request : Request}

def Serves (link : Link) (ticket : Ticket) (request : Request) (move : Move) : Prop :=
  move.1.port = link.port ∧
    ((move.1.At (.exchanging ticket request) ∧ ∀ effect ∈ move.2, effect.Quiet) ∨
      (move.1.At .idle ∧ ∃ first result, move.2 = first ++ [.finish ticket result] ∧
        (∀ effect ∈ first, effect.Quiet) ∧
          ((∃ fault, link.ready = .error fault ∧ result = .error fault) ∨ ¬ Stale result)))

theorem leads_of_serves {move : Move} (plain : input.Plain link)
    (serves : Serves link ticket request move) :
    Leads link input (some (.exchange ticket request)) move := by
  obtain ⟨link', effects⟩ := move
  obtain ⟨same, ⟨there, quiet⟩ | ⟨idle, first, result, rfl, quiet, answered⟩⟩ := serves
  · refine ⟨_, there, ?_⟩
    rw [same]
    exact .keeps plain nofun quiet
  · refine ⟨_, idle, ?_⟩
    rw [same]
    exact .returns plain quiet rfl rfl answered

theorem with_holder (there : link.At (.exchanging ticket request)) {phase : Phase}
    (apart : phase ≠ .closing) (hearing : Hearing) :
    ({ link with holder := some ⟨ticket, phase, hearing⟩ } : Link).At
      (.exchanging ticket request) :=
  ⟨there.opening, there.waiting, there.promised, there.leaving, ⟨phase, hearing, rfl, apart⟩,
    there.port⟩

theorem finish_eq (waiting : link.waiting = []) (ticket : Ticket) (result : Except Fault Response) :
    link.finish ticket result = ({ link with holder := none }, [.finish ticket result]) := by
  unfold Link.finish Link.release
  rw [waiting]
  rfl

theorem finish_serves (there : link.At (.exchanging ticket request))
    {result : Except Fault Response} (proper : ¬ Stale result) :
    Serves link ticket request (link.finish ticket result) := by
  rw [finish_eq there.waiting]
  exact ⟨rfl, .inr ⟨⟨there.opening, there.waiting, there.promised, there.leaving, rfl, there.port⟩,
    [], result, rfl, by simp, .inr proper⟩⟩

theorem rest_serves (there : link.At (.exchanging ticket request)) (phase : Phase)
    (hearing : Hearing) (response : Response) :
    Serves link ticket request (link.rest ⟨ticket, phase, hearing⟩ response) :=
  ⟨rfl, .inl ⟨with_holder there (by simp) hearing, by simp [Link.rest, Effect.Quiet]⟩⟩

theorem await_serves (there : link.At (.exchanging ticket request)) (phase : Phase)
    (hearing : Hearing) (asked : Request) :
    Serves link ticket request (link.await ⟨ticket, phase, hearing⟩ asked) := by
  unfold Link.await
  cases hearing with
  | line t => exact rest_serves there phase _ _
  | expired => exact finish_serves there id
  | nothing => exact ⟨rfl, .inl ⟨with_holder there (by simp) .nothing, by simp⟩⟩

theorem sent_serves (there : link.At (.exchanging ticket request)) (phase : Phase)
    (hearing : Hearing) (asked : Request) :
    Serves link ticket request (link.sent ⟨ticket, phase, hearing⟩ asked) := by
  have answered : Serves link ticket request (if asked.settle > 0 then
      ({ link with holder := some ⟨ticket, .settling asked, hearing⟩ }, [.pause asked.settle])
      else link.await ⟨ticket, phase, hearing⟩ asked) := by
    split
    · exact ⟨rfl, .inl ⟨with_holder there (by simp) hearing, by simp [Effect.Quiet]⟩⟩
    · exact await_serves there phase hearing asked
  unfold Link.sent
  cases asked.kind with
  | write => exact rest_serves there phase hearing .done
  | query => exact answered
  | rawQuery => exact answered

theorem after_cancel (there : link.At (.exchanging ticket request)) :
    (link.cancel ticket).1.At (.exchanging ticket request) :=
  ⟨there.opening, there.waiting, there.promised, there.leaving, there.holder, there.port⟩

theorem serves_after_cancel {move : Move}
    (serves : Serves (link.cancel ticket).1 ticket request move) :
    Serves link ticket request (move.1, (link.cancel ticket).2 ++ move.2) := by
  have quiet {effects : List Effect} (rest : ∀ effect ∈ effects, effect.Quiet) :
      ∀ effect ∈ (link.cancel ticket).2 ++ effects, effect.Quiet :=
    List.forall_mem_cons.mpr ⟨trivial, rest⟩
  obtain ⟨same, ⟨there, rest⟩ | ⟨idle, first, result, whole, before, answered⟩⟩ := serves
  · exact ⟨same, .inl ⟨there, quiet rest⟩⟩
  · exact ⟨same, .inr ⟨idle, _, result, by rw [whole, List.append_assoc], quiet before, answered⟩⟩

theorem unsent_serves (there : link.At (.exchanging ticket request)) (phase : Phase)
    (hearing : Hearing) (asked : Request) (message : Text) :
    Serves link ticket request (link.unsent ⟨ticket, phase, hearing⟩ asked message) := by
  unfold Link.unsent
  cases asked.kind with
  | write => exact finish_serves there id
  | query => exact serves_after_cancel (finish_serves (after_cancel there) id)
  | rawQuery => exact serves_after_cancel (finish_serves (after_cancel there) id)

theorem hear_serves (there : link.At (.exchanging ticket request)) {phase : Phase}
    (apart : phase ≠ .closing) (before hearing : Hearing) :
    Serves link ticket request (link.hear ⟨ticket, phase, before⟩ hearing) := by
  have kept : Serves (link.cancel ticket).1 ticket request
      ({ (link.cancel ticket).1 with holder := some ⟨ticket, phase, hearing⟩ },
        Holder.unhandled ⟨ticket, phase, hearing⟩) :=
    ⟨rfl, .inl ⟨with_holder (after_cancel there) apart hearing, unhandled_quiet _⟩⟩
  cases phase with
  | awaiting asked =>
    exact serves_after_cancel (await_serves (after_cancel there) _ hearing asked)
  | sending asked => exact serves_after_cancel kept
  | settling asked => exact serves_after_cancel kept
  | resting response => exact serves_after_cancel kept
  | closing => exact absurd rfl apart

theorem beginExchange_serves (idle : link.At .idle) (ticket : Ticket) (request : Request) :
    Serves link ticket request (link.beginExchange ticket request) := by
  unfold Link.beginExchange
  cases ready : link.ready with
  | error fault =>
    simp only
    rw [finish_eq idle.waiting]
    exact ⟨rfl, .inr ⟨⟨idle.opening, idle.waiting, idle.promised, idle.leaving, rfl, idle.port⟩,
      [], .error fault, rfl, by simp, .inl ⟨fault, ready, rfl⟩⟩⟩
  | ok device =>
    have sending : ({ link with
        holder := some ⟨ticket, .sending request, .nothing⟩ } : Link).At
          (.exchanging ticket request) :=
      ⟨idle.opening, idle.waiting, idle.promised, idle.leaving, ⟨_, _, rfl, by simp⟩, idle.port⟩
    have listening : ({ link with
        holder := some ⟨ticket, .sending request, .nothing⟩ }.listen ticket device).At
          (.exchanging ticket request) :=
      ⟨idle.opening, idle.waiting, idle.promised, idle.leaving, ⟨_, _, rfl, by simp⟩, idle.port⟩
    cases kind : request.kind with
    | write => exact ⟨rfl, .inl ⟨sending, by simp [Effect.Quiet]⟩⟩
    | query => exact ⟨rfl, .inl ⟨listening, by simp [Effect.Quiet]⟩⟩
    | rawQuery => exact ⟨rfl, .inl ⟨listening, by simp [Effect.Quiet]⟩⟩

end Exchange

/-! Closing -/

theorem closed_leads (waiting : link.waiting = []) (opening : link.opening = [])
    (promised : link.promised = false) (leaving : link.leaving = []) (ticket : Ticket)
    {origin : Link} (plain : input.Plain origin)
    (kept : ∀ device ∈ link.watched, device ∈ origin.watched) (made : link.made = origin.made)
    (released : origin.isOpen = false ∨
      ∀ device, origin.device = some device → device ∉ origin.watched) :
    Leads origin input (some (.close ticket)) (link.closed ticket) := by
  have whole : link.closed ticket =
      ({ link with
          device := none
          opened := false
          loss := none
          leaving := [ticket]
          holder := none }, [.later (.leave ticket)]) := by
    unfold Link.closed Link.release
    rw [leaving]
    simp only [waiting, List.isEmpty_nil, if_true]
    rfl
  rw [whole]
  refine ⟨.leaving ticket, ⟨opening, waiting, promised, rfl, rfl, rfl, rfl⟩, ?_⟩
  show Deed origin input _ ⟨link.made, none, false, none, link.watched⟩ _ _
  rw [made]
  exact .drops plain rfl kept released (by simp [Effect.Quiet])

theorem beginClose_leads {origin : Link} (idle : link.At .idle) (plain : input.Plain origin)
    (same : link.port = origin.port) (ticket : Ticket) :
    Leads origin input (some (.close ticket)) (link.beginClose ticket) := by
  have made : link.made = origin.made := congrArg Port.made same
  have device : link.device = origin.device := congrArg Port.device same
  have watched : link.watched = origin.watched := congrArg Port.watched same
  have inUse : link.isOpen = origin.isOpen :=
    congrArg (fun port : Port => port.opened && port.loss.isNone) same
  unfold Link.beginClose
  split
  · rename_i absent
    exact closed_leads idle.waiting idle.opening idle.promised idle.leaving ticket
      plain (watched ▸ fun _ => id) made (.inr (by simp [← device, absent]))
  · rename_i current found
    dsimp only
    split
    · rename_i isOpen
      refine ⟨.closing ticket, ⟨idle.opening, idle.waiting, idle.promised, idle.leaving,
        ⟨.nothing, rfl⟩, ?_⟩, ?_⟩
      · intro other known
        cases found.symm.trans known
        simp [Link.port, Link.forget]
      · show Deed origin input _ (link.port.forget current) _ _
        rw [same]
        exact .shuts plain rfl (device ▸ found) (watched ▸ idle.port.1 current found)
          (inUse ▸ isOpen)
    · rename_i lost
      have waiting : (link.forget current).waiting = [] := idle.waiting
      exact closed_leads waiting idle.opening idle.promised idle.leaving ticket plain
        (fun other member => watched ▸ (List.mem_filter.mp member).1) made
        (.inl (inUse ▸ Bool.eq_false_iff.mpr lost))

theorem turn_leads {ticket : Ticket} {job : Job} (queued : link.At (.queued ticket job))
    (plain : input.Plain link) :
    Leads link input (Stage.queued ticket job).call? link.turn := by
  have idle : ({ link with promised := false, waiting := [] } : Link).At .idle :=
    ⟨queued.opening, rfl, rfl, queued.leaving, queued.holder, queued.port⟩
  unfold Link.turn
  rw [queued.waiting]
  cases job with
  | exchange request => exact leads_of_serves plain (beginExchange_serves idle ticket request)
  | close =>
    have same : ({ link with promised := false, waiting := [] } : Link).port = link.port := rfl
    exact beginClose_leads idle plain same ticket

theorem leave_leads {ticket : Ticket} (leaving : link.At (.leaving ticket))
    (plain : input.Plain link) :
    Leads link input (some (.close ticket))
      ({ link with leaving := link.leaving.erase ticket },
        [.log (closedLine link.config), .finish ticket (.ok .done)]) := by
  have empty : link.leaving.erase ticket = [] := by
    rw [leaving.leaving]
    simp [Stage.leavers]
  rw [empty]
  have port := leaving.port
  refine ⟨.idle,
    ⟨leaving.opening, leaving.waiting, leaving.promised, rfl, leaving.holder, ?_, ?_⟩, ?_⟩
  · intro device current
    cases port.1.symm.trans current
  · intro opened
    exact absurd (port.2.symm.trans opened) Bool.false_ne_true
  · have deed : Deed link input (some (.close ticket)) link.port
        ([.log (closedLine link.config)] ++ [.finish ticket (.ok .done)]) none :=
      .returns plain (by simp [Effect.Quiet]) rfl rfl ⟨port.1, rfl⟩
    exact deed

/-! Steps -/

theorem At.stage_of_holder (there : link.At stage) {holder : Holder}
    (held : link.holder = some holder) :
    (∃ request, stage = .exchanging holder.ticket request ∧ holder.phase ≠ .closing) ∨
      (stage = .closing holder.ticket ∧ holder.phase = .closing) := by
  have holds := there.holder
  rw [held] at holds
  cases stage with
  | exchanging ticket request =>
    obtain ⟨phase, hearing, same, apart⟩ := holds
    cases same
    exact .inl ⟨request, rfl, apart⟩
  | closing ticket =>
    obtain ⟨hearing, same⟩ := holds
    cases same
    exact .inr ⟨rfl, rfl⟩
  | _ => cases holds

/-- A call that closes the device hears nothing that matters. -/
theorem hear_closing {ticket : Ticket} (closing : link.At (.closing ticket))
    (plain : input.Plain link) (before hearing : Hearing) :
    Leads link input (some (.close ticket)) (link.hear ⟨ticket, .closing, before⟩ hearing) :=
  ⟨.closing ticket, ⟨closing.opening, closing.waiting, closing.promised, closing.leaving,
    ⟨hearing, rfl⟩, closing.port⟩,
    .keeps plain nofun (List.forall_mem_cons.mpr ⟨trivial, unhandled_quiet _⟩)⟩

theorem hear_leads (there : link.At stage) (plain : input.Plain link) {holder : Holder}
    (held : link.holder = some holder) (hearing : Hearing) :
    Leads link input stage.call? (link.hear holder hearing) := by
  obtain ⟨ticket, phase, before⟩ := holder
  rcases there.stage_of_holder held with ⟨request, rfl, apart⟩ | ⟨rfl, closing⟩
  · exact leads_of_serves plain (hear_serves there apart before hearing)
  · cases closing
    exact hear_closing there plain before hearing

theorem written_leads (there : link.At stage) (error : Option Text) :
    Leads link (.written error) stage.call? (link.step (.written error)) := by
  simp only [step]
  cases held : link.holder with
  | none => exact there.stays_there trivial rfl
  | some holder =>
    obtain ⟨ticket, phase, hearing⟩ := holder
    rcases there.stage_of_holder held with ⟨request, rfl, apart⟩ | ⟨rfl, rfl⟩
    · cases phase with
      | sending asked =>
        cases error with
        | none => exact leads_of_serves trivial (sent_serves there _ hearing asked)
        | some message =>
          exact leads_of_serves trivial (unsent_serves there _ hearing asked message)
      | _ => exact there.stays_there trivial rfl
    · exact there.stays_there trivial rfl

theorem rested_leads (there : link.At stage) :
    Leads link .rested stage.call? (link.step .rested) := by
  simp only [step]
  cases held : link.holder with
  | none => exact there.stays_there trivial rfl
  | some holder =>
    obtain ⟨ticket, phase, hearing⟩ := holder
    rcases there.stage_of_holder held with ⟨request, rfl, apart⟩ | ⟨rfl, rfl⟩
    · cases phase with
      | settling asked => exact leads_of_serves trivial (await_serves there _ hearing asked)
      | resting response => exact leads_of_serves trivial (finish_serves there id)
      | _ => exact there.stays_there trivial rfl
    · exact there.stays_there trivial rfl

theorem shut_leads (there : link.At stage) : Leads link .shut stage.call? (link.step .shut) := by
  simp only [step]
  cases held : link.holder with
  | none => exact there.stays_there trivial rfl
  | some holder =>
    simp only
    split
    · rename_i closing
      rcases there.stage_of_holder held with ⟨request, rfl, apart⟩ | ⟨rfl, _⟩
      · exact absurd closing apart
      · exact closed_leads there.waiting there.opening there.promised there.leaving holder.ticket
          trivial (fun _ => id) rfl (.inr there.port)
    · exact there.stays_there trivial rfl

/-- What each input leads to, at any stage of a call; a call is made only when the link is idle. -/
theorem step_leads (there : link.At stage) (alone : input.call?.isSome = true → stage = .idle) :
    Leads link input (if input.call?.isSome then some input else stage.call?)
      (link.step input) := by
  cases input with
  | connect ticket =>
    cases alone rfl
    have plain : Input.Plain link (.connect ticket) := trivial
    exact connect_leads there plain ticket
  | exchange ticket request =>
    cases alone rfl
    have plain : Input.Plain link (.exchange ticket request) := trivial
    exact enqueue_leads there plain ticket (.exchange request) there.port
  | close ticket =>
    cases alone rfl
    have plain : Input.Plain link (.close ticket) := trivial
    exact close_leads there plain ticket
  | opened ticket device error =>
    show Leads link _ stage.call? _
    simp only [step]
    split
    · rename_i listed
      exact opened_leads there (by simpa using listed) error
    · rename_i absent
      cases error with
      | none => exact there.stays_there (by simpa [Input.Plain] using absent) rfl
      | some message => exact there.stays_there trivial rfl
  | turn =>
    show Leads link _ stage.call? _
    simp only [step]
    split
    · rename_i due
      have promised := there.promised
      cases stage with
      | queued ticket job => exact turn_leads there trivial
      | _ =>
        rw [promised] at due
        cases due
    · exact there.stays_there trivial rfl
  | written error => exact written_leads there error
  | rested => exact rested_leads there
  | shut => exact shut_leads there
  | leave ticket =>
    show Leads link _ stage.call? _
    simp only [step]
    split
    · rename_i listed
      rw [there.leaving] at listed
      cases stage with
      | leaving own =>
        have same : ticket = own := by simpa [Stage.leavers] using listed
        cases same
        exact leave_leads there trivial
      | _ => cases listed
    · exact there.stays_there trivial rfl
  | line device t =>
    have plain : Input.Plain link (.line device t) := trivial
    show Leads link _ stage.call? _
    simp only [step]
    cases held : link.holder with
    | none => exact there.stays_there plain rfl
    | some holder =>
      simp only
      split
      · exact hear_leads there plain held _
      · exact there.stays_there plain rfl
  | expired ticket =>
    have plain : Input.Plain link (.expired ticket) := trivial
    show Leads link _ stage.call? _
    simp only [step]
    cases held : link.holder with
    | none => exact there.stays_there plain rfl
    | some holder =>
      simp only
      split
      · exact hear_leads there plain held _
      · exact there.stays_there plain rfl
  | lost device loss => exact ⟨stage, there.lose device loss, .loses rfl⟩

end Link

end VirtualInstrument.Serial
