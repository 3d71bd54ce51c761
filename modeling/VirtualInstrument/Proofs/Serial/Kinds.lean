import VirtualInstrument.Proofs.Conversation
import VirtualInstrument.Serial.Link
/- Kinds on a serial link. Wherever the link keeps a call, and whatever response is on its way,
   stays with the kind that was asked for; a call that sends nothing is answered as a write is. -/
namespace VirtualInstrument.Serial

def Job.kind : Job → Kind
  | .exchange request => request.kind
  | .close => .write

def Asked (kinds : List Kind) (ticket : Ticket) (kind : Kind) : Prop := kinds[ticket]? = some kind

def Owed (kinds : List Kind) (ticket : Ticket) (response : Response) : Prop :=
  ∃ kind, Asked kinds ticket kind ∧ response.Fits kind

def Phase.InKind (kinds : List Kind) (ticket : Ticket) : Phase → Prop
  | .sending request | .settling request | .awaiting request => Asked kinds ticket request.kind
  | .resting response => Owed kinds ticket response
  | .closing => Asked kinds ticket .write

structure Link.InKind (kinds : List Kind) (link : Link) : Prop where
  opening : ∀ ticket device, (ticket, device) ∈ link.opening → Asked kinds ticket .write
  waiting : ∀ ticket job, (ticket, job) ∈ link.waiting → Asked kinds ticket job.kind
  holder : ∀ holder, link.holder = some holder → holder.phase.InKind kinds holder.ticket
  leaving : ∀ ticket ∈ link.leaving, Asked kinds ticket .write

@[simp] def Input.InKind (kinds : List Kind) : Input → Prop
  | .connect ticket | .close ticket => Asked kinds ticket .write
  | .exchange ticket request => Asked kinds ticket request.kind
  | _ => True

@[simp] def Effect.InKind (kinds : List Kind) : Effect → Prop
  | .later input => input.InKind kinds
  | .finish ticket (.ok response) => Owed kinds ticket response
  | _ => True

def MoveInKind (kinds : List Kind) (move : Move) : Prop :=
  move.1.InKind kinds ∧ ∀ effect ∈ move.2, effect.InKind kinds

theorem done_fits : Response.done.Fits .write := ⟨[], rfl⟩

theorem asked_more {kinds : List Kind} {ticket : Ticket} {kind : Kind}
    (asked : Asked kinds ticket kind) (more : List Kind) : Asked (kinds ++ more) ticket kind := by
  have bound := (List.getElem?_eq_some_iff.mp asked).1
  rw [Asked, List.getElem?_append_left bound]
  exact asked

theorem owed_more {kinds : List Kind} {ticket : Ticket} {response : Response}
    (owed : Owed kinds ticket response) (more : List Kind) :
    Owed (kinds ++ more) ticket response := by
  obtain ⟨kind, asked, fits⟩ := owed
  exact ⟨kind, asked_more asked more, fits⟩

namespace Link

variable {kinds : List Kind} {link : Link}

theorem enqueue_in_kind {ticket : Ticket} {job : Job} (inKind : link.InKind kinds)
    (asked : Asked kinds ticket job.kind) : MoveInKind kinds (link.enqueue ticket job) := by
  have waiting : ∀ t j, (t, j) ∈ link.waiting ++ [(ticket, job)] → Asked kinds t j.kind := by
    intro t j member
    rcases List.mem_append.mp member with old | new
    · exact inKind.waiting t j old
    · cases List.mem_singleton.mp new
      exact asked
  unfold enqueue
  split
  · exact ⟨⟨inKind.opening, waiting, inKind.holder, inKind.leaving⟩, by simp⟩
  · exact ⟨⟨inKind.opening, waiting, inKind.holder, inKind.leaving⟩,
      by simp⟩

theorem release_in_kind (inKind : link.InKind kinds) : MoveInKind kinds link.release := by
  unfold release
  split
  · exact ⟨⟨inKind.opening, inKind.waiting, by simp, inKind.leaving⟩, by simp⟩
  · exact ⟨⟨inKind.opening, inKind.waiting, by simp, inKind.leaving⟩,
      by simp⟩

theorem finish_in_kind {ticket : Ticket} {result : Except Fault Response}
    (inKind : link.InKind kinds)
    (owed : ∀ response, result = .ok response → Owed kinds ticket response) :
    MoveInKind kinds (link.finish ticket result) := by
  have released := release_in_kind inKind
  refine ⟨released.1, List.forall_mem_cons.mpr ⟨?_, released.2⟩⟩
  cases result with
  | error fault => trivial
  | ok response => exact owed response rfl

theorem cancel_in_kind (inKind : link.InKind kinds) (ticket : Ticket) :
    MoveInKind kinds (link.cancel ticket) :=
  ⟨⟨inKind.opening, inKind.waiting, inKind.holder, inKind.leaving⟩, by simp [cancel]⟩

theorem held_in_kind (inKind : link.InKind kinds) (holder : Holder)
    (phase : holder.phase.InKind kinds holder.ticket) :
    ({ link with holder := some holder } : Link).InKind kinds := by
  refine ⟨inKind.opening, inKind.waiting, ?_, inKind.leaving⟩
  intro other held
  cases held
  exact phase

theorem beginExchange_in_kind {ticket : Ticket} {request : Request} (inKind : link.InKind kinds)
    (asked : Asked kinds ticket request.kind) :
    MoveInKind kinds (link.beginExchange ticket request) := by
  unfold beginExchange
  cases link.ready with
  | error fault => exact finish_in_kind inKind (by simp)
  | ok device =>
    have held := held_in_kind inKind ⟨ticket, .sending request, .nothing⟩ asked
    have listening : ({ link with
        holder := some ⟨ticket, .sending request, .nothing⟩ }.listen ticket device).InKind kinds :=
      ⟨held.opening, held.waiting, held.holder, held.leaving⟩
    cases kind : request.kind with
    | write => exact ⟨held, by simp⟩
    | query => exact ⟨listening, by simp⟩
    | rawQuery => exact ⟨listening, by simp⟩

theorem rest_in_kind {holder : Holder} {response : Response} (inKind : link.InKind kinds)
    (owed : Owed kinds holder.ticket response) : MoveInKind kinds (link.rest holder response) :=
  ⟨held_in_kind inKind _ owed, by simp [rest]⟩

theorem await_in_kind {holder : Holder} {request : Request} (inKind : link.InKind kinds)
    (asked : Asked kinds holder.ticket request.kind) :
    MoveInKind kinds (link.await holder request) := by
  unfold await
  cases holder.hearing with
  | line t => exact rest_in_kind inKind ⟨request.kind, asked, t, rfl⟩
  | expired => exact finish_in_kind inKind (by simp)
  | nothing => exact ⟨held_in_kind inKind _ asked, by simp⟩

theorem sent_in_kind {holder : Holder} {request : Request} (inKind : link.InKind kinds)
    (asked : Asked kinds holder.ticket request.kind) :
    MoveInKind kinds (link.sent holder request) := by
  have answered : MoveInKind kinds (if request.settle > 0 then
      ({ link with holder := some { holder with phase := .settling request } },
        [.pause request.settle])
      else link.await holder request) := by
    split
    · exact ⟨held_in_kind inKind _ asked, by simp⟩
    · exact await_in_kind inKind asked
  unfold sent
  cases kind : request.kind with
  | write =>
    rw [kind] at asked
    exact rest_in_kind inKind ⟨.write, asked, done_fits⟩
  | query => exact answered
  | rawQuery => exact answered

theorem after_in_kind {first : List Effect} {move : Move}
    (before : ∀ effect ∈ first, effect.InKind kinds) (inKind : MoveInKind kinds move) :
    MoveInKind kinds (move.1, first ++ move.2) := by
  refine ⟨inKind.1, ?_⟩
  intro effect member
  rcases List.mem_append.mp member with early | late
  · exact before effect early
  · exact inKind.2 effect late

theorem unsent_in_kind (inKind : link.InKind kinds) (holder : Holder) (request : Request)
    (message : Text) : MoveInKind kinds (link.unsent holder request message) := by
  have cancelled := cancel_in_kind inKind holder.ticket
  have refused : MoveInKind kinds
      ((link.cancel holder.ticket).1.finish holder.ticket (.error (.refused message))) :=
    finish_in_kind cancelled.1 (by simp)
  unfold unsent
  cases request.kind with
  | write => exact finish_in_kind inKind (by simp)
  | query => exact after_in_kind cancelled.2 refused
  | rawQuery => exact after_in_kind cancelled.2 refused

theorem unhandled_in_kind (holder : Holder) :
    ∀ effect ∈ holder.unhandled, effect.InKind kinds := by
  unfold Holder.unhandled
  split
  · simp
  · simp
  · exact nofun

theorem hear_in_kind {holder : Holder} (inKind : link.InKind kinds)
    (phase : holder.phase.InKind kinds holder.ticket) (hearing : Hearing) :
    MoveInKind kinds (link.hear holder hearing) := by
  have cancelled := cancel_in_kind inKind holder.ticket
  have kept : MoveInKind kinds
      ({ (link.cancel holder.ticket).1 with holder := some { holder with hearing } },
        Holder.unhandled { holder with hearing }) :=
    ⟨held_in_kind cancelled.1 _ phase, unhandled_in_kind _⟩
  obtain ⟨ticket, now, before⟩ := holder
  cases now with
  | awaiting request =>
    have awaited : MoveInKind kinds
        ((link.cancel ticket).1.await ⟨ticket, .awaiting request, hearing⟩ request) :=
      await_in_kind cancelled.1 phase
    exact after_in_kind cancelled.2 awaited
  | sending request => exact after_in_kind cancelled.2 kept
  | settling request => exact after_in_kind cancelled.2 kept
  | resting response => exact after_in_kind cancelled.2 kept
  | closing => exact after_in_kind cancelled.2 kept

theorem connect_in_kind {ticket : Ticket} (inKind : link.InKind kinds)
    (asked : Asked kinds ticket .write) : MoveInKind kinds (link.connect ticket) := by
  unfold connect
  split
  · exact ⟨inKind, by simpa using ⟨.write, asked, done_fits⟩⟩
  · refine ⟨⟨?_, inKind.waiting, inKind.holder, inKind.leaving⟩, by simp⟩
    intro other device member
    rcases List.mem_cons.mp member with new | old
    · cases new
      exact asked
    · exact inKind.opening other device old

theorem connected_in_kind {ticket : Ticket} (inKind : link.InKind kinds)
    (asked : Asked kinds ticket .write) (device : DeviceId) (error : Option Text) :
    MoveInKind kinds (link.connected ticket device error) := by
  have same : ∀ loss watched opened device, ({ link with
      loss := loss, watched := watched, opened := opened, device := device } : Link).InKind kinds :=
    fun _ _ _ _ => ⟨inKind.opening, inKind.waiting, inKind.holder, inKind.leaving⟩
  cases error with
  | none => exact ⟨same .., by simpa [connected] using ⟨.write, asked, done_fits⟩⟩
  | some message => exact ⟨same .., by simp [connected]⟩

theorem close_in_kind {ticket : Ticket} (inKind : link.InKind kinds)
    (asked : Asked kinds ticket .write) : MoveInKind kinds (link.close ticket) := by
  unfold close
  split
  · exact ⟨inKind, by simpa using ⟨.write, asked, done_fits⟩⟩
  · exact enqueue_in_kind inKind asked

theorem closed_in_kind {ticket : Ticket} (inKind : link.InKind kinds)
    (asked : Asked kinds ticket .write) : MoveInKind kinds (link.closed ticket) := by
  have left : ({ link with
      device := none, opened := false, loss := none,
      leaving := ticket :: link.leaving } : Link).InKind kinds :=
    ⟨inKind.opening, inKind.waiting, inKind.holder,
      List.forall_mem_cons.mpr ⟨asked, inKind.leaving⟩⟩
  have released := release_in_kind left
  refine ⟨released.1, ?_⟩
  intro effect member
  rcases List.mem_append.mp member with early | last
  · exact released.2 effect early
  · cases List.mem_singleton.mp last
    trivial

theorem beginClose_in_kind {ticket : Ticket} (inKind : link.InKind kinds)
    (asked : Asked kinds ticket .write) : MoveInKind kinds (link.beginClose ticket) := by
  unfold beginClose
  cases link.device with
  | none => exact closed_in_kind inKind asked
  | some device =>
    have forgotten : (link.forget device).InKind kinds :=
      ⟨inKind.opening, inKind.waiting, inKind.holder, inKind.leaving⟩
    simp only
    split
    · exact ⟨held_in_kind forgotten ⟨ticket, .closing, .nothing⟩ asked,
        by simp⟩
    · exact closed_in_kind forgotten asked

theorem turn_in_kind (inKind : link.InKind kinds) : MoveInKind kinds link.turn := by
  unfold turn
  cases calls : link.waiting with
  | nil =>
    exact ⟨⟨inKind.opening, by simp, inKind.holder, inKind.leaving⟩, by simp⟩
  | cons first rest =>
    obtain ⟨ticket, job⟩ := first
    have waiting := inKind.waiting
    rw [calls] at waiting
    have asked := waiting ticket job List.mem_cons_self
    have next : ({ link with promised := false, waiting := rest } : Link).InKind kinds :=
      ⟨inKind.opening, fun t j member => waiting t j (List.mem_cons_of_mem _ member),
        inKind.holder, inKind.leaving⟩
    cases job with
    | exchange request => exact beginExchange_in_kind next asked
    | close => exact beginClose_in_kind next asked

theorem lose_in_kind (inKind : link.InKind kinds) (device : DeviceId) (loss : Loss) :
    (link.lose device loss).InKind kinds := by
  unfold lose
  split
  · cases loss <;> exact ⟨inKind.opening, inKind.waiting, inKind.holder, inKind.leaving⟩
  · exact inKind

theorem idle_in_kind (inKind : link.InKind kinds) : MoveInKind kinds (link, []) :=
  ⟨inKind, by simp⟩

theorem opened_in_kind (inKind : link.InKind kinds) (ticket : Ticket) (device : DeviceId)
    (error : Option Text) : MoveInKind kinds (link.step (.opened ticket device error)) := by
  simp only [step]
  split
  · rename_i listed
    have asked := inKind.opening ticket device (by simpa using listed)
    have erased : ({ link with
        opening := link.opening.erase (ticket, device) } : Link).InKind kinds :=
      ⟨fun other device member => inKind.opening other device (List.mem_of_mem_erase member),
        inKind.waiting, inKind.holder, inKind.leaving⟩
    exact connected_in_kind erased asked device error
  · exact idle_in_kind inKind

theorem written_in_kind (inKind : link.InKind kinds) (error : Option Text) :
    MoveInKind kinds (link.step (.written error)) := by
  simp only [step]
  cases held : link.holder with
  | none => exact idle_in_kind inKind
  | some holder =>
    have phase := inKind.holder holder held
    obtain ⟨ticket, now, hearing⟩ := holder
    cases now with
    | sending request =>
      cases error with
      | none => exact sent_in_kind inKind phase
      | some message => exact unsent_in_kind inKind _ request message
    | _ => exact idle_in_kind inKind

theorem rested_in_kind (inKind : link.InKind kinds) : MoveInKind kinds (link.step .rested) := by
  simp only [step]
  cases held : link.holder with
  | none => exact idle_in_kind inKind
  | some holder =>
    have phase := inKind.holder holder held
    obtain ⟨ticket, now, hearing⟩ := holder
    cases now with
    | settling request => exact await_in_kind inKind phase
    | resting response =>
      refine finish_in_kind inKind ?_
      rintro other ⟨⟩
      exact phase
    | _ => exact idle_in_kind inKind

theorem shut_in_kind (inKind : link.InKind kinds) : MoveInKind kinds (link.step .shut) := by
  simp only [step]
  cases held : link.holder with
  | none => exact idle_in_kind inKind
  | some holder =>
    have phase := inKind.holder holder held
    simp only
    split
    · rename_i closing
      rw [closing] at phase
      exact closed_in_kind inKind phase
    · exact idle_in_kind inKind

theorem leave_in_kind (inKind : link.InKind kinds) (ticket : Ticket) :
    MoveInKind kinds (link.step (.leave ticket)) := by
  simp only [step]
  split
  · rename_i listed
    have asked := inKind.leaving ticket (by simpa using listed)
    refine ⟨⟨inKind.opening, inKind.waiting, inKind.holder, ?_⟩,
      by simpa using ⟨.write, asked, done_fits⟩⟩
    intro other member
    exact inKind.leaving other (List.mem_of_mem_erase member)
  · exact idle_in_kind inKind

theorem line_in_kind (inKind : link.InKind kinds) (device : DeviceId) (t : Text) :
    MoveInKind kinds (link.step (.line device t)) := by
  simp only [step]
  cases held : link.holder with
  | none => exact idle_in_kind inKind
  | some holder =>
    simp only
    split
    · exact hear_in_kind inKind (inKind.holder holder held) _
    · exact idle_in_kind inKind

theorem expired_in_kind (inKind : link.InKind kinds) (ticket : Ticket) :
    MoveInKind kinds (link.step (.expired ticket)) := by
  simp only [step]
  cases held : link.holder with
  | none => exact idle_in_kind inKind
  | some holder =>
    simp only
    split
    · exact hear_in_kind inKind (inKind.holder holder held) _
    · exact idle_in_kind inKind

/-- What an input leads to stays with the kinds that were asked for. -/
theorem step_in_kind {input : Input} (inKind : link.InKind kinds) (fits : input.InKind kinds) :
    MoveInKind kinds (link.step input) := by
  cases input with
  | connect ticket => exact connect_in_kind inKind fits
  | exchange ticket request => exact enqueue_in_kind inKind fits
  | close ticket => exact close_in_kind inKind fits
  | opened ticket device error => exact opened_in_kind inKind ticket device error
  | turn =>
    simp only [step]
    split
    · exact turn_in_kind inKind
    · exact idle_in_kind inKind
  | written error => exact written_in_kind inKind error
  | rested => exact rested_in_kind inKind
  | shut => exact shut_in_kind inKind
  | leave ticket => exact leave_in_kind inKind ticket
  | line device t => exact line_in_kind inKind device t
  | expired ticket => exact expired_in_kind inKind ticket
  | lost device loss => exact ⟨lose_in_kind inKind device loss, by simp [step]⟩

end Link

end VirtualInstrument.Serial
