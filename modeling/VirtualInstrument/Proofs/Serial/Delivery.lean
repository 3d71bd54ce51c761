import VirtualInstrument.Proofs.Serial.Sections
/- Lines go to one query each. A query listens from the beginning of its section until it hears its
   first line or its time is over, and nothing else listens meanwhile; so a line that has answered a
   query is behind every query that begins later, and no listener and no timer outlives its query. -/
namespace VirtualInstrument.Serial

structure FirstAt (lines : List (DeviceId × Text)) (device : DeviceId) (start index : Nat)
    (t : Text) : Prop where
  later : start ≤ index
  there : lines[index]? = some (device, t)
  first : ∀ place line, start ≤ place → place < index → lines[place]? = some line →
    line.1 ≠ device

def Silent (lines : List (DeviceId × Text)) (device : DeviceId) (start : Nat) : Prop :=
  ∀ place line, start ≤ place → lines[place]? = some line → line.1 ≠ device

/-- A query, where and from when on it listened, and the line that answered it. -/
structure Answer where
  ticket : Ticket
  device : DeviceId
  start : Nat
  index : Nat
  t : Text

structure Answer.Right (answer : Answer) (lines : List (DeviceId × Text))
    (listened : List (Ticket × DeviceId × Nat)) : Prop where
  listened : (answer.ticket, answer.device, answer.start) ∈ listened
  first : FirstAt lines answer.device answer.start answer.index answer.t

def Phase.request? : Phase → Option Request
  | .sending request | .settling request | .awaiting request => some request
  | _ => none

def Phase.Plain : Phase → Prop
  | .sending request | .settling request | .awaiting request => request.kind = .write
  | .resting response => response = .done
  | .closing => True

theorem plain_iff {phase : Phase} {request : Request} (asks : phase.request? = some request) :
    phase.Plain ↔ request.kind = .write := by
  cases phase with
  | sending own =>
    cases asks
    exact Iff.rfl
  | settling own =>
    cases asks
    exact Iff.rfl
  | awaiting own =>
    cases asks
    exact Iff.rfl
  | _ => cases asks

def Quiet (listeners : List (DeviceId × Ticket)) (timers : List Ticket) : Prop :=
  listeners = [] ∧ timers = []

structure Listening (listeners : List (DeviceId × Ticket)) (timers : List Ticket)
    (lines : List (DeviceId × Text)) (listened : List (Ticket × DeviceId × Nat))
    (answers : List Answer) (ticket : Ticket) (device : DeviceId) (start : Nat) : Prop where
  began : (ticket, device, start) ∈ listened
  past : start ≤ lines.length
  later : ∀ answer ∈ answers, answer.index < start
  silent : Silent lines device start
  only : listeners = [(device, ticket)]
  armed : timers = [ticket]

/-- Who listens while a call holds the line, and what a query has heard. -/
inductive Tuned (listeners : List (DeviceId × Ticket)) (timers : List Ticket)
    (lines : List (DeviceId × Text)) (listened : List (Ticket × DeviceId × Nat))
    (answers : List Answer) : Option Holder → Prop
  | free (quiet : Quiet listeners timers) : Tuned listeners timers lines listened answers none
  | plain {holder : Holder} (quiet : Quiet listeners timers) (plain : holder.phase.Plain) :
      Tuned listeners timers lines listened answers (some holder)
  | listens {ticket : Ticket} {phase : Phase} {request : Request} {device : DeviceId} {start : Nat}
      (asks : phase.request? = some request) (query : request.kind ≠ .write)
      (listening : Listening listeners timers lines listened answers ticket device start) :
      Tuned listeners timers lines listened answers (some ⟨ticket, phase, .nothing⟩)
  | heard {phase : Phase} {request : Request} {answer : Answer}
      (asks : phase.request? = some request) (query : request.kind ≠ .write)
      (right : answer.Right lines listened) (later : ∀ other ∈ answers, other.index < answer.index)
      (quiet : Quiet listeners timers) :
      Tuned listeners timers lines listened answers
        (some ⟨answer.ticket, phase, .line (Text.trim answer.t)⟩)
  | expired {ticket : Ticket} {phase : Phase} {request : Request}
      (asks : phase.request? = some request) (query : request.kind ≠ .write)
      (quiet : Quiet listeners timers) :
      Tuned listeners timers lines listened answers (some ⟨ticket, phase, .expired⟩)
  | answered {answer : Answer} {kind : Kind} {hearing : Hearing}
      (right : answer.Right lines listened) (later : ∀ other ∈ answers, other.index < answer.index)
      (quiet : Quiet listeners timers) :
      Tuned listeners timers lines listened answers
        (some ⟨answer.ticket, .resting (.ofText (Text.trim answer.t) kind), hearing⟩)

section Lines
variable {lines more : List (DeviceId × Text)} {device : DeviceId} {start index : Nat} {t : Text}

theorem FirstAt.index_lt (first : FirstAt lines device start index t) : index < lines.length :=
  (List.getElem?_eq_some_iff.mp first.there).1

theorem FirstAt.with_more_lines (first : FirstAt lines device start index t)
    (more : List (DeviceId × Text)) : FirstAt (lines ++ more) device start index t := by
  refine ⟨first.later, ?_, ?_⟩
  · rw [List.getElem?_append_left first.index_lt]
    exact first.there
  · intro place line late early there
    rw [List.getElem?_append_left (Nat.lt_trans early first.index_lt)] at there
    exact first.first place line late early there

theorem Silent.first_line (silent : Silent lines device start) (past : start ≤ lines.length)
    (t : Text) : FirstAt (lines ++ [(device, t)]) device start lines.length t := by
  refine ⟨past, List.getElem?_concat_length, ?_⟩
  intro place line late early there
  rw [List.getElem?_append_left early] at there
  exact silent place line late there

theorem Silent.with_more_lines (silent : Silent lines device start)
    (others : ∀ line ∈ more, line.1 ≠ device) : Silent (lines ++ more) device start := by
  intro place line late there
  by_cases early : place < lines.length
  · rw [List.getElem?_append_left early] at there
    exact silent place line late there
  · rw [List.getElem?_append_right (by omega)] at there
    exact others line (List.mem_of_getElem? there)

end Lines

theorem Answer.Right.with_more_lines {answer : Answer} {lines : List (DeviceId × Text)}
    {listened : List (Ticket × DeviceId × Nat)} (right : answer.Right lines listened)
    (more : List (DeviceId × Text)) (others : List (Ticket × DeviceId × Nat)) :
    answer.Right (lines ++ more) (listened ++ others) :=
  ⟨List.mem_append_left _ right.listened, right.first.with_more_lines more⟩

theorem Orderly.holder_of_reads {config : Config} {link : Link} {queued : List (Ticket × Job)}
    {trace : List Beat} {done : List Section} {current : Option Section} {input : Input}
    (orderly : Orderly config link.calls queued trace done current) {ticket : Ticket}
    {request : Request} {hearing : Hearing} (reads : link.Reads input ticket request hearing) :
    ∃ phase, link.holder = some ⟨ticket, phase, hearing⟩ ∧ phase.request? = some request ∧
      request.kind ≠ .write := by
  obtain ⟨_, query, _⟩ := orderly.reads_at_work reads
  rcases reads with ⟨_, held, _, _⟩ | ⟨_, held⟩
  · exact ⟨_, held, rfl, query⟩
  · exact ⟨_, held, rfl, query⟩

theorem Stands.call_of_asks {config : Config} {ticket : Ticket} {phase : Phase} {hearing : Hearing}
    {s : Section} {request : Request} (stands : Stands config ⟨ticket, phase, hearing⟩ s)
    (asks : phase.request? = some request) : s.call = (ticket, .exchange request) := by
  cases stands with
  | sending own hearing device =>
    cases asks
    rfl
  | settling query positive hearing device =>
    cases asks
    rfl
  | awaiting query device =>
    cases asks
    rfl
  | _ => cases asks

theorem Link.Reads.line?_eq_none {link : Link} {input : Input} {ticket : Ticket} {request : Request}
    {hearing : Hearing} (reads : link.Reads input ticket request hearing) : input.line? = none := by
  rcases reads with ⟨rfl, _⟩ | ⟨rfl, _⟩
  · rfl
  · rfl

namespace Tuned

variable {listeners : List (DeviceId × Ticket)} {timers : List Ticket}
  {lines more : List (DeviceId × Text)} {listened : List (Ticket × DeviceId × Nat)}
  {answers : List Answer} {holder : Option Holder} {ticket : Ticket} {phase next : Phase}
  {request : Request} {hearing : Hearing}

theorem with_more_lines (tuned : Tuned listeners timers lines listened answers holder)
    (others : ∀ line ∈ more, ∀ own, holder = some own → (line.1, own.ticket) ∉ listeners)
    (began : List (Ticket × DeviceId × Nat)) :
    Tuned listeners timers (lines ++ more) (listened ++ began) answers holder := by
  cases tuned with
  | free quiet => exact .free quiet
  | plain quiet plain => exact .plain quiet plain
  | @listens ticket phase request device start asks query listening =>
    refine .listens asks query ⟨List.mem_append_left _ listening.began, ?_, listening.later, ?_,
      listening.only, listening.armed⟩
    · exact Nat.le_trans listening.past (by simp)
    · refine listening.silent.with_more_lines ?_
      rintro line member rfl
      exact others line member _ rfl (by simp [listening.only])
  | heard asks query right later quiet =>
    exact .heard asks query (right.with_more_lines more began) later quiet
  | expired asks query quiet => exact .expired asks query quiet
  | answered right later quiet => exact .answered (right.with_more_lines more began) later quiet

theorem quiet_of_free (tuned : Tuned listeners timers lines listened answers holder)
    (free : holder = none) : Quiet listeners timers := by
  subst free
  cases tuned with
  | free quiet => exact quiet

theorem quiet_or_listening
    (tuned : Tuned listeners timers lines listened answers (some ⟨ticket, phase, hearing⟩)) :
    Quiet listeners timers ∨ hearing = .nothing ∧ ∃ request device start,
      phase.request? = some request ∧ request.kind ≠ .write ∧
        Listening listeners timers lines listened answers ticket device start := by
  cases tuned with
  | listens asks query listening => exact .inr ⟨rfl, _, _, _, asks, query, listening⟩
  | plain quiet plain => exact .inl quiet
  | heard asks query right later quiet => exact .inl quiet
  | expired asks query quiet => exact .inl quiet
  | answered right later quiet => exact .inl quiet

theorem quiet_of_hearing
    (tuned : Tuned listeners timers lines listened answers (some ⟨ticket, phase, hearing⟩))
    (heard : hearing ≠ .nothing) : Quiet listeners timers :=
  tuned.quiet_or_listening.resolve_right fun listening => heard listening.1

theorem quiet_of_past
    (tuned : Tuned listeners timers lines listened answers (some ⟨ticket, phase, hearing⟩))
    (past : ∀ request, phase.request? = some request → request.kind = .write) :
    Quiet listeners timers :=
  tuned.quiet_or_listening.resolve_right fun ⟨_, request, _, _, asks, query, _⟩ =>
    query (past request asks)

theorem quiet_of_cancel
    (tuned : Tuned listeners timers lines listened answers (some ⟨ticket, phase, hearing⟩)) :
    Quiet (listeners.filter (·.2 != ticket)) (timers.filter (· != ticket)) := by
  rcases tuned.quiet_or_listening with ⟨rfl, rfl⟩ | ⟨_, _, _, _, _, _, listening⟩
  · exact ⟨rfl, rfl⟩
  · rw [listening.only, listening.armed]
    simp [Quiet]

theorem keeps_hearing
    (tuned : Tuned listeners timers lines listened answers (some ⟨ticket, phase, hearing⟩))
    (asks : phase.request? = some request) (same : next.request? = some request) :
    Tuned listeners timers lines listened answers (some ⟨ticket, next, hearing⟩) := by
  cases tuned with
  | listens asks' query listening =>
    cases asks.symm.trans asks'
    exact .listens same query listening
  | plain quiet plain =>
    exact .plain quiet ((plain_iff same).mpr ((plain_iff asks).mp plain))
  | heard asks' query right later quiet =>
    cases asks.symm.trans asks'
    exact .heard same query right later quiet
  | expired asks' query quiet =>
    cases asks.symm.trans asks'
    exact .expired same query quiet
  | answered right later quiet => cases asks

theorem answers_heard {t : Text}
    (tuned : Tuned listeners timers lines listened answers (some ⟨ticket, phase, .line t⟩))
    (asks : phase.request? = some request) (query : request.kind ≠ .write) :
    Tuned listeners timers lines listened answers
      (some ⟨ticket, .resting (.ofText t request.kind), .line t⟩) := by
  cases tuned with
  | heard asks' query right later quiet => exact .answered right later quiet
  | plain quiet plain => exact absurd ((plain_iff asks).mp plain) query
  | answered right later quiet => cases asks

theorem with_other_input {input : Input} (silent : input.line? = none)
    (tuned : Tuned listeners timers lines listened answers holder)
    (began : List (Ticket × DeviceId × Nat)) :
    Tuned listeners timers (lines ++ input.line?.toList) (listened ++ began) answers holder := by
  rw [silent]
  refine tuned.with_more_lines ?_ began
  intro line none
  cases none

section Passing
variable {config : Config} {link : Link} {calls : Calls} {queued : List (Ticket × Job)}
  {trace : List Beat} {done : List Section} {current : Option Section} {input : Input}
  {effects : List Effect}

theorem begins_to_listen {device : DeviceId} {job : Job} {rest : List (Ticket × Job)}
    (tuned : Tuned link.listeners link.timers lines listened answers link.holder)
    (bounded : ∀ answer ∈ answers, answer.index < lines.length) (next : link.Next ticket job rest)
    (query : request.kind ≠ .write) :
    Tuned ((device, ticket) :: link.listeners) (ticket :: link.timers) lines
      (listened ++ Serial.listening link.listeners ((device, ticket) :: link.listeners)
        lines.length) answers (some ⟨ticket, .sending request, .nothing⟩) := by
  obtain ⟨nobody, none⟩ := tuned.quiet_of_free next.free
  rw [nobody, none]
  refine .listens rfl query ⟨?_, Nat.le_refl _, bounded, ?_, rfl, rfl⟩
  · exact List.mem_append_right _ (by simp [Serial.listening])
  · intro place line late there
    exact absurd (List.getElem?_eq_some_iff.mp there).1 (Nat.not_lt.mpr late)

theorem stops_listening
    (tuned : Tuned link.listeners link.timers lines listened answers
      (some ⟨ticket, phase, hearing⟩)) {told : Hearing} (hears : link.Hears input ticket told)
    (began : List (Ticket × DeviceId × Nat)) :
    Tuned (link.listeners.filter (·.2 != ticket)) (link.timers.filter (· != ticket))
      (lines ++ input.line?.toList) (listened ++ began) answers (some ⟨ticket, phase, told⟩) := by
  have quiet := tuned.quiet_of_cancel
  rcases tuned.quiet_or_listening with ⟨nobody, none⟩ |
    ⟨_, request, device, start, asks, query, listening⟩
  · rcases hears with ⟨device, t, _, listens, _⟩ | ⟨_, armed, _⟩
    · rw [nobody] at listens
      cases listens
    · rw [none] at armed
      cases armed
  · rcases hears with ⟨own, t, rfl, listens, rfl⟩ | ⟨rfl, _, rfl⟩
    · rw [listening.only] at listens
      cases List.mem_singleton.mp listens
      let answer : Answer := ⟨ticket, device, start, lines.length, t⟩
      have right : answer.Right (lines ++ [(device, t)]) (listened ++ began) :=
        ⟨List.mem_append_left _ listening.began, listening.silent.first_line listening.past t⟩
      refine .heard asks query right ?_ quiet
      intro other member
      exact Nat.lt_of_lt_of_le (listening.later other member) listening.past
    · exact .expired asks query quiet

theorem kept_by_pass (tuned : Tuned link.listeners link.timers lines listened answers link.holder)
    (orderly : Orderly config link.calls queued trace done current)
    (bounded : ∀ answer ∈ answers, answer.index < lines.length)
    (pass : Pass link input calls effects) :
    Tuned calls.listeners calls.timers (lines ++ input.line?.toList)
      (listened ++ Serial.listening link.listeners calls.listeners lines.length) answers
      calls.holder := by
  have dropped {ticket : Ticket} {job : Job} {rest : List (Ticket × Job)}
      {fewer : List (DeviceId × Ticket)} (next : link.Next ticket job rest)
      (kept : ∀ listener ∈ fewer, listener ∈ link.listeners) : Quiet fewer link.timers := by
    obtain ⟨nobody, none⟩ := tuned.quiet_of_free next.free
    refine ⟨List.eq_nil_iff_forall_not_mem.mpr fun listener member => ?_, none⟩
    have listens := kept listener member
    rw [nobody] at listens
    cases listens
  cases pass with
  | aside misses opens leaves apart =>
    refine tuned.with_more_lines ?_ _
    rintro line told own held
    cases input with
    | line device t =>
      cases List.mem_singleton.mp told
      exact misses.unheard device t own rfl held
    | _ => cases told
  | queues asks =>
    have silent : input.line? = none := by
      cases input with
      | line device t => cases asks
      | _ => rfl
    exact tuned.with_other_input silent _
  | refused next fault => exact .free (tuned.quiet_of_free next.free)
  | writes next write device => exact .plain (tuned.quiet_of_free next.free) write
  | @asks ticket request rest next query device ms =>
    rw [show Input.line? .turn = none from rfl, Option.toList_none, List.append_nil]
    exact tuned.begins_to_listen bounded next query
  | shuts next fewer device => exact .plain (dropped next fewer) trivial
  | drops next fewer => exact .free (dropped next fewer)
  | spares free empty => exact tuned.with_other_input rfl _
  | wrote held write =>
    rw [held] at tuned
    exact .plain (tuned.quiet_of_past fun _ same => Option.some.inj same ▸ write) rfl
  | settles held query positive =>
    rw [held] at tuned
    exact (tuned.keeps_hearing rfl rfl).with_other_input rfl _
  | waits reads =>
    obtain ⟨phase, held, asks, query⟩ := orderly.holder_of_reads reads
    rw [held] at tuned
    exact (tuned.keeps_hearing asks rfl).with_other_input reads.line?_eq_none _
  | reads reads =>
    obtain ⟨phase, held, asks, query⟩ := orderly.holder_of_reads reads
    rw [held] at tuned
    exact (tuned.answers_heard asks query).with_other_input reads.line?_eq_none _
  | fails reads =>
    obtain ⟨phase, held, _, _⟩ := orderly.holder_of_reads reads
    rw [held] at tuned
    exact .free (tuned.quiet_of_hearing nofun)
  | hears held early hears =>
    rw [held] at tuned
    exact tuned.stops_listening hears _
  | answered held listens t =>
    obtain ⟨_, s, stands, _⟩ := orderly.holder_at_work held
    rw [held] at tuned
    cases stands with
    | awaiting query device =>
      exact (tuned.stops_listening (.inl ⟨_, t, rfl, listens, rfl⟩) _).answers_heard rfl query
  | unanswered held armed =>
    rw [held] at tuned
    exact .free tuned.quiet_of_cancel
  | unwritten held write message =>
    rw [held] at tuned
    exact .free (tuned.quiet_of_past fun _ same => Option.some.inj same ▸ write)
  | unasked held query message =>
    rw [held] at tuned
    exact .free tuned.quiet_of_cancel
  | returns held =>
    rw [held] at tuned
    exact .free (tuned.quiet_of_past nofun)
  | leaves held =>
    rw [held] at tuned
    exact .free (tuned.quiet_of_past nofun)

end Passing

end Tuned

section Passing
variable {config : Config} {made : List Bench.Call} {link : Link} {calls : Calls}
  {queued : List (Ticket × Job)} {trace : List Beat} {done : List Section}
  {current : Option Section} {input : Input} {effects : List Effect} {owed : List Debt}
  {ticket : Ticket} {response : Response}

theorem return_of_seen {result : Except Fault Response}
    (returned : .returns ticket result ∈ seen made trace input effects) :
    ∃ effect ∈ effects, effect = .finish ticket result ∧
      effect.beat? made = some (.returns ticket result) := by
  rcases List.mem_append.mp returned with rests | shown
  · cases input with
    | rested =>
      simp only [rested] at rests
      split at rests
      · cases List.mem_singleton.mp rests
      · cases rests
    | _ => cases rests
  · obtain ⟨effect, member, beat⟩ := List.mem_filterMap.mp shown
    refine ⟨effect, member, ?_, beat⟩
    cases effect with
    | finish own result =>
      simp only [Effect.beat?] at beat
      split at beat
      · cases beat
        rfl
      · cases beat
    | later input =>
      cases input with
      | _ => cases beat
    | _ => cases beat

theorem Pass.success_of_resting (named : Named made link.calls queued) (fits : Fits made queued input)
    (pass : Pass link input calls effects)
    (returned : .returns ticket (.ok response) ∈ seen made trace input effects) :
    calls.holder = none ∧ ∃ hearing, link.holder = some ⟨ticket, .resting response, hearing⟩ := by
  obtain ⟨effect, member, rfl, beat⟩ := return_of_seen returned
  cases pass with
  | aside misses opens leaves apart =>
    rw [beat?_of_aside named fits (apart _ member)] at beat
    cases beat
  | queues asks =>
    split at member
    · cases member
    · simp at member
  | returns held =>
    rcases List.mem_cons.mp member with same | turn
    · cases same
      exact ⟨rfl, _, held⟩
    · cases (Calls.mem_turns.mp turn).2
  | hears held early hears => simp [Holder.mem_unhandled] at member
  | _ => simp [Calls.mem_turns] at member

theorem alarm_of_account (owes : .alarm ticket ∈ account owed input effects) :
    (.alarm ticket ∈ owed ∧ Effect.disarm ticket ∉ effects) ∨ ∃ ms, .arm ticket ms ∈ effects := by
  rcases List.mem_append.mp owes with old | new
  · obtain ⟨left, kept⟩ := List.mem_filter.mp old
    refine .inl ⟨?_, fun disarmed => ?_⟩
    · split at left
      · exact List.mem_of_mem_erase left
      · exact left
    · have withdrawn : Debt.alarm ticket ∈ effects.filterMap Effect.withdraws? :=
        List.mem_filterMap.mpr ⟨_, disarmed, rfl⟩
      simp [withdrawn] at kept
  · obtain ⟨effect, member, owing⟩ := List.mem_filterMap.mp new
    cases effect with
    | arm own ms =>
      cases owing
      exact .inr ⟨ms, member⟩
    | later input =>
      cases input with
      | _ => cases owing
    | _ => cases owing

theorem Pass.alarm_is_armed (known : ∀ ticket, .alarm ticket ∈ owed → ticket ∈ link.timers)
    (pass : Pass link input calls effects)
    (owes : .alarm ticket ∈ account owed input effects) : ticket ∈ calls.timers := by
  rcases alarm_of_account owes with ⟨old, kept⟩ | ⟨ms, armed⟩
  · have there := known ticket old
    have cancelled {own : Ticket} (disarms : .disarm own ∈ effects) :
        ticket ∈ link.timers.filter (· != own) := by
      refine List.mem_filter.mpr ⟨there, bne_iff_ne.mpr ?_⟩
      rintro rfl
      exact kept disarms
    cases pass with
    | asks next query device ms => exact List.mem_cons_of_mem _ there
    | hears held early hears => exact cancelled List.mem_cons_self
    | answered held listens t => exact cancelled List.mem_cons_self
    | unanswered held armed => exact cancelled List.mem_cons_self
    | unasked held query message => exact cancelled List.mem_cons_self
    | _ => exact there
  · cases pass with
    | aside misses opens leaves apart => exact absurd (apart _ armed) id
    | queues asks =>
      split at armed
      · cases armed
      · simp at armed
    | asks next query device ms =>
      rcases List.mem_cons.mp armed with same | sent
      · cases same
        exact List.mem_cons_self
      · simp at sent
    | hears held early hears => simp [Holder.mem_unhandled] at armed
    | _ => simp [Calls.mem_turns] at armed

/-- What holds of the lines and the queries at any time. -/
structure Delivered (calls : Calls) (lines : List (DeviceId × Text))
    (listened : List (Ticket × DeviceId × Nat)) (owed : List Debt) (trace : List Beat)
    (answers : List Answer) : Prop where
  tuned : Tuned calls.listeners calls.timers lines listened answers calls.holder
  known : ∀ ticket, .alarm ticket ∈ owed → ticket ∈ calls.timers
  right : ∀ answer ∈ answers, answer.Right lines listened
  apart : answers.Pairwise (·.index < ·.index)
  given : ∀ ticket response, .returns ticket (.ok response) ∈ trace →
    response = .done ∨ ∃ answer ∈ answers, ∃ kind,
      answer.ticket = ticket ∧ response = .ofText (Text.trim answer.t) kind

theorem Tuned.answer_of_resting {listeners : List (DeviceId × Ticket)} {timers : List Ticket}
    {lines : List (DeviceId × Text)} {listened : List (Ticket × DeviceId × Nat)}
    {answers : List Answer} {hearing : Hearing}
    (tuned : Tuned listeners timers lines listened answers
      (some ⟨ticket, .resting response, hearing⟩)) :
    response = .done ∨ ∃ answer : Answer, answer.Right lines listened ∧
      (∀ other ∈ answers, other.index < answer.index) ∧
        ∃ kind, answer.ticket = ticket ∧ response = .ofText (Text.trim answer.t) kind := by
  cases tuned with
  | plain quiet plain => exact .inl plain
  | listens asks query listening => cases asks
  | heard asks query right later quiet => cases asks
  | expired asks query quiet => cases asks
  | answered right later quiet => exact .inr ⟨_, right, later, _, rfl, rfl⟩

theorem Delivered.kept_by_pass {lines : List (DeviceId × Text)}
    {listened : List (Ticket × DeviceId × Nat)} {answers : List Answer}
    (delivered : Delivered link.calls lines listened owed trace answers)
    (named : Named made link.calls queued) (fits : Fits made queued input)
    (orderly : Orderly config link.calls queued trace done current)
    (pass : Pass link input calls effects) :
    ∃ answers, Delivered calls (lines ++ input.line?.toList)
      (listened ++ listening link.listeners calls.listeners lines.length)
      (account owed input effects) (trace ++ seen made trace input effects) answers := by
  obtain ⟨tuned, known, right, apart, given⟩ := delivered
  have bounded : ∀ answer ∈ answers, answer.index < lines.length :=
    fun answer member => (right answer member).first.index_lt
  have tuned' := tuned.kept_by_pass orderly bounded pass
  have right' : ∀ answer ∈ answers, answer.Right (lines ++ input.line?.toList)
      (listened ++ listening link.listeners calls.listeners lines.length) :=
    fun answer member => (right answer member).with_more_lines _ _
  have known' : ∀ ticket, .alarm ticket ∈ account owed input effects → ticket ∈ calls.timers :=
    fun ticket => pass.alarm_is_armed known
  -- without a new success the answers stay as they are
  have stays (old : ∀ ticket response, .returns ticket (.ok response) ∈
      seen made trace input effects → response = .done) : ∃ answers,
      Delivered calls (lines ++ input.line?.toList)
        (listened ++ listening link.listeners calls.listeners lines.length)
        (account owed input effects) (trace ++ seen made trace input effects) answers := by
    refine ⟨answers, tuned', known', right', apart, ?_⟩
    intro ticket response returned
    rcases List.mem_append.mp returned with before | new
    · exact given ticket response before
    · exact .inl (old ticket response new)
  by_cases fresh : ∃ ticket response,
      .returns ticket (.ok response) ∈ seen made trace input effects
  · obtain ⟨ticket, response, returned⟩ := fresh
    obtain ⟨free, hearing, held⟩ := pass.success_of_resting named fits returned
    have only : ∀ other answer, .returns other (.ok answer) ∈ seen made trace input effects →
        other = ticket ∧ answer = response := by
      intro other answer also
      obtain ⟨_, _, same⟩ := pass.success_of_resting named fits also
      cases held.symm.trans same
      exact ⟨rfl, rfl⟩
    have holder : link.calls.holder = some ⟨ticket, .resting response, hearing⟩ := held
    rw [holder] at tuned
    rcases tuned.answer_of_resting with done | ⟨answer, own, later, kind, rfl, text⟩
    · exact stays fun other answer also => (only other answer also).2.trans done
    · have quiet := tuned'.quiet_of_free free
      refine ⟨answers ++ [answer], free ▸ .free quiet, known', ?_, ?_, ?_⟩
      · intro other member
        rcases List.mem_append.mp member with old | new
        · exact right' other old
        · exact List.mem_singleton.mp new ▸ own.with_more_lines _ _
      · refine List.pairwise_append.mpr ⟨apart, List.pairwise_singleton _ _, ?_⟩
        intro before old last new
        exact List.mem_singleton.mp new ▸ later before old
      · intro other given' returned'
        rcases List.mem_append.mp returned' with before | new
        · rcases given other given' before with done | ⟨old, member, kind, same⟩
          · exact .inl done
          · exact .inr ⟨old, List.mem_append_left _ member, kind, same⟩
        · obtain ⟨rfl, rfl⟩ := only other given' new
          exact .inr ⟨answer, by simp, kind, rfl, text⟩
  · exact stays fun ticket response returned => absurd ⟨ticket, response, returned⟩ fresh

structure Begun (calls : Calls) (queued : List (Ticket × Job))
    (listened : List (Ticket × DeviceId × Nat)) : Prop where
  once : listened.Pairwise (·.1 < ·.1)
  queued : ∀ entry ∈ listened, ∃ job, (entry.1, job) ∈ queued
  early : ∀ entry ∈ listened, ∀ waiting ∈ calls.waiting, entry.1 < waiting.1

theorem listening_of_kept {before now : List (DeviceId × Ticket)}
    (kept : ∀ listener ∈ now, listener ∈ before) (lines : Nat) :
    listening before now lines = [] := by
  simpa [listening] using kept

theorem listening_of_more (before : List (DeviceId × Ticket)) (listener : DeviceId × Ticket)
    (lines : Nat) :
    listening before (listener :: before) lines = [] ∨
      listening before (listener :: before) lines = [(listener.2, listener.1, lines)] := by
  have rest : before.filter (fun listener => !before.contains listener) = [] := by simp
  unfold listening
  rw [List.filter_cons, rest]
  split
  · exact .inr rfl
  · exact .inl rfl

theorem Pass.waiting_or_queued (pass : Pass link input calls effects) :
    ∀ entry ∈ calls.waiting, entry ∈ link.waiting ∨ link.queues? input = some entry := by
  have turned {own : Ticket} {job : Job} {rest : List (Ticket × Job)}
      (next : link.Next own job rest) :
      ∀ entry ∈ rest, entry ∈ link.waiting ∨ link.queues? input = some entry := by
    intro entry member
    rw [next.first]
    exact .inl (List.mem_cons_of_mem _ member)
  cases pass with
  | queues asks =>
    intro entry member
    rcases List.mem_append.mp member with old | new
    · exact .inl old
    · exact .inr (List.mem_singleton.mp new ▸ asks)
  | refused next fault => exact turned next
  | writes next write device => exact turned next
  | asks next query device ms => exact turned next
  | shuts next fewer device => exact turned next
  | drops next fewer => exact turned next
  | _ => exact fun entry member => .inl member

theorem Pass.listeners_kept_or_more (pass : Pass link input calls effects) :
    (∀ listener ∈ calls.listeners, listener ∈ link.listeners) ∨
      ∃ ticket job device, link.Next ticket job calls.waiting ∧
        calls.listeners = (device, ticket) :: link.listeners := by
  have cancelled (own : Ticket) : ∀ listener ∈ link.listeners.filter (·.2 != own),
      listener ∈ link.listeners := fun _ member => (List.mem_filter.mp member).1
  cases pass with
  | asks next query device ms => exact .inr ⟨_, _, device, next, rfl⟩
  | shuts next fewer device => exact .inl fewer
  | drops next fewer => exact .inl fewer
  | hears held early hears => exact .inl (cancelled _)
  | answered held listens t => exact .inl (cancelled _)
  | unanswered held armed => exact .inl (cancelled _)
  | unasked held query message => exact .inl (cancelled _)
  | _ => exact .inl fun _ => id

theorem Begun.kept_by_pass {listened : List (Ticket × DeviceId × Nat)} {lines : Nat}
    (begun : Begun link.calls queued listened) (named : Named made link.calls queued)
    (fits : Fits made queued input)
    (orderly : Orderly config link.calls queued trace done current)
    (pass : Pass link input calls effects) :
    Begun calls (queued ++ (link.queues? input).toList)
      (listened ++ listening link.listeners calls.listeners lines) := by
  have known : ∀ entry ∈ listened,
      ∃ job, (entry.1, job) ∈ queued ++ (link.queues? input).toList := by
    intro entry member
    obtain ⟨job, there⟩ := begun.queued entry member
    exact ⟨job, List.mem_append_left _ there⟩
  have early : ∀ entry ∈ listened, ∀ waiting ∈ calls.waiting, entry.1 < waiting.1 := by
    intro entry member waiting waits
    rcases pass.waiting_or_queued waiting waits with old | new
    · exact begun.early entry member waiting old
    · obtain ⟨job, there⟩ := begun.queued entry member
      exact (queues?_fits fits new).2 _ there
  have stays (none : listening link.listeners calls.listeners lines = []) :
      Begun calls (queued ++ (link.queues? input).toList)
        (listened ++ listening link.listeners calls.listeners lines) := by
    rw [none, List.append_nil]
    exact ⟨begun.once, known, early⟩
  rcases pass.listeners_kept_or_more with kept | ⟨ticket, job, device, next, more⟩
  · exact stays (listening_of_kept kept lines)
  · rcases listening_of_more link.listeners (device, ticket) lines with none | one
    · exact stays (more ▸ none)
    · have work := orderly.next_at_work next
      have ascending := named.ascending
      rw [work.queued] at ascending
      have first := (List.pairwise_cons.mp (List.pairwise_append.mp ascending).2.1).1
      rw [more, one]
      refine ⟨?_, ?_, ?_⟩
      · refine List.pairwise_append.mpr ⟨begun.once, List.pairwise_singleton _ _, ?_⟩
        intro before old last new
        cases List.mem_singleton.mp new
        exact begun.early before old (ticket, job) (by simp [Link.calls, next.first])
      · intro entry member
        rcases List.mem_append.mp member with old | new
        · exact known entry old
        · cases List.mem_singleton.mp new
          exact ⟨job, by simp [work.queued, Section.call]⟩
      · intro entry member waiting waits
        rcases List.mem_append.mp member with old | new
        · exact early entry old waiting waits
        · cases List.mem_singleton.mp new
          exact first waiting waits

end Passing

namespace Traffic

variable {config : Config} {now : Traffic}

def InFlight (now : Traffic) (ticket : Ticket) : Prop :=
  (∃ kind command delay, now.made[ticket]? = some (.exchange kind command delay) ∧
    kind ≠ .write) ∧ ∀ result, .returns ticket result ∉ now.trace

theorem delivered_kept : Kept config fun now =>
    (∃ answers, Delivered now.link.calls now.lines now.listened now.owed now.trace answers) ∧
      Begun now.link.calls now.queued now.listened where
  more := fun _ _ => id
  retimed := fun now link same holds => by simpa [same] using holds
  feed := by
    rintro now input ⟨named, done, current, orderly⟩ fits ⟨⟨answers, delivered⟩, begun⟩
    have pass := now.link.step_passes input
    exact ⟨delivered.kept_by_pass named fits orderly pass, begun.kept_by_pass named fits orderly pass⟩

theorem run_delivered (config : Config) (incidents : List Incident) :
    let now := run config incidents
    (∃ answers, Delivered now.link.calls now.lines now.listened now.owed now.trace answers) ∧
      Begun now.link.calls now.queued now.listened :=
  (delivered_kept.run ⟨⟨[], .free ⟨rfl, rfl⟩, nofun, nofun, .nil, nofun⟩, .nil, nofun, nofun⟩
    incidents).2

theorem kind_of_text {t t' : Text} {kind kind' : Kind}
    (same : Response.ofText t kind = .ofText t' kind') : kind = kind' := by
  cases kind with
  | write =>
    cases kind' with
    | write => rfl
    | _ => cases same
  | query =>
    cases kind' with
    | query => rfl
    | _ => cases same
  | rawQuery =>
    cases kind' with
    | rawQuery => rfl
    | _ => cases same

theorem Sound.success_in_kind (sound : now.Sound config) {ticket : Ticket} {kind : Kind}
    {command : Text} {delay : Option Float} {response : Response}
    (made : now.made[ticket]? = some (.exchange kind command delay))
    (returned : .returns ticket (.ok response) ∈ now.trace) :
    ∃ t, response = .ofText t kind := by
  obtain ⟨named, done, current, orderly⟩ := sound
  obtain ⟨s, member, rfl, own⟩ := orderly.section_of_return returned
  obtain ⟨_, request, job, fits⟩ := (orderly.whole s member).return_of_section own
  obtain ⟨call, found, wants⟩ := named.jobs s.call (by
    rw [orderly.queued]
    simp only [List.map_append, List.mem_append, List.mem_map]
    exact .inl (.inl ⟨s, member, rfl⟩))
  cases made.symm.trans found
  have same : Job.exchange ⟨kind, command, Bench.settleTime delay⟩ = .exchange request :=
    (Option.some.inj wants).trans job
  cases same
  exact fits response rfl

theorem Sound.listener_in_flight (sound : now.Sound config) {answers : List Answer}
    (delivered : Delivered now.link.calls now.lines now.listened now.owed now.trace answers)
    (loud : ¬ Quiet now.link.listeners now.link.timers) :
    ∃ ticket device, now.InFlight ticket ∧ now.link.listeners = [(device, ticket)] ∧
      now.link.timers = [ticket] := by
  obtain ⟨named, done, current, orderly⟩ := sound
  have tuned := delivered.tuned
  cases held : now.link.holder with
  | none => exact absurd (tuned.quiet_of_free held) loud
  | some holder =>
    obtain ⟨ticket, phase, hearing⟩ := holder
    have holds : now.link.calls.holder = some ⟨ticket, phase, hearing⟩ := held
    rw [holds] at tuned
    rcases tuned.quiet_or_listening with quiet | ⟨_, request, device, start, asks, query, listening⟩
    · exact absurd quiet loud
    · obtain ⟨_, s, stands, work⟩ := orderly.holder_at_work held
      refine ⟨ticket, device, ⟨?_, ?_⟩, listening.only, listening.armed⟩
      · obtain ⟨call, found, wants⟩ := named.jobs s.call (by simp [work.queued])
        rw [stands.call_of_asks asks] at found wants
        cases call with
        | exchange kind command delay =>
          cases wants
          exact ⟨kind, command, delay, found, query⟩
        | _ => cases wants
      · intro result returned
        obtain ⟨before, member, own, _⟩ := orderly.section_of_return returned
        have ascending := named.ascending
        rw [work.queued] at ascending
        have earlier := (List.pairwise_append.mp ascending).2.2 before.call
          (List.mem_map_of_mem member) s.call List.mem_cons_self
        rw [stands.call_of_asks asks] at earlier
        exact Nat.lt_irrefl _ (own ▸ earlier)

/-- Every query listens once, from the beginning of its section on; one that succeeds returns the
    first line of its device since then, trimmed, and no two the same line. Whoever listens, and
    every timer, belongs to a query that has not returned. -/
theorem lines_answer_one_query_each_and_nothing_lingers (config : Config)
    (incidents : List Incident) :
    let now := run config incidents
    now.listened.Pairwise (·.1 < ·.1) ∧
    (∃ answers : List Answer,
      (∀ answer ∈ answers, answer.Right now.lines now.listened) ∧
      answers.Pairwise (·.index < ·.index) ∧
      ∀ ticket kind command delay response,
        now.made[ticket]? = some (.exchange kind command delay) → kind ≠ .write →
          .returns ticket (.ok response) ∈ now.trace →
            ∃ answer ∈ answers, answer.ticket = ticket ∧
              response = .ofText (Text.trim answer.t) kind) ∧
    (∀ listener ∈ now.link.listeners, now.InFlight listener.2) ∧
    (∀ ticket ∈ now.link.timers, now.InFlight ticket) ∧
    (∀ ticket, .alarm ticket ∈ now.owed → now.InFlight ticket) ∧
    ((∀ ticket, ¬ now.InFlight ticket) →
      now.link.listeners = [] ∧ now.link.timers = [] ∧ ∀ ticket, .alarm ticket ∉ now.owed) := by
  intro now
  have sound : now.Sound config := run_sound config incidents
  obtain ⟨⟨answers, delivered⟩, begun⟩ := run_delivered config incidents
  have belongs : ∀ ticket ∈ now.link.timers, now.InFlight ticket := by
    intro ticket armed
    have loud : ¬ Quiet now.link.listeners now.link.timers :=
      fun quiet => List.ne_nil_of_mem armed quiet.2
    obtain ⟨own, _, flies, _, only⟩ := sound.listener_in_flight delivered loud
    rw [only] at armed
    exact List.mem_singleton.mp armed ▸ flies
  have listens : ∀ listener ∈ now.link.listeners, now.InFlight listener.2 := by
    intro listener member
    have loud : ¬ Quiet now.link.listeners now.link.timers :=
      fun quiet => List.ne_nil_of_mem member quiet.1
    obtain ⟨own, _, flies, only, _⟩ := sound.listener_in_flight delivered loud
    rw [only] at member
    exact List.mem_singleton.mp member ▸ flies
  have alarms : ∀ ticket, .alarm ticket ∈ now.owed → now.InFlight ticket :=
    fun ticket owes => belongs ticket (delivered.known ticket owes)
  refine ⟨begun.once, ⟨answers, delivered.right, delivered.apart, ?_⟩, listens, belongs, alarms, ?_⟩
  · intro ticket kind command delay response made query returned
    obtain ⟨t, same⟩ := sound.success_in_kind made returned
    rcases delivered.given ticket response returned with done | ⟨answer, member, other, own, text⟩
    · have write : Response.ofText t kind = .ofText [] .write := same.symm.trans done
      exact absurd (kind_of_text write) query
    · exact ⟨answer, member, own, kind_of_text (text.symm.trans same) ▸ text⟩
  · intro idle
    refine ⟨List.eq_nil_iff_forall_not_mem.mpr fun listener member => idle _ (listens _ member),
      List.eq_nil_iff_forall_not_mem.mpr fun ticket armed => idle _ (belongs _ armed),
      fun ticket owes => idle _ (alarms _ owes)⟩

def twoQueries : List Incident :=
  [.connect, .exchange .query (text "CURR?") none, .exchange .query (text "VOLT?") none].map .call ++
  newsOf [.opened 0 0 none, .turn, .written none, .line 0 (text "1.5\r"), .rested, .turn,
    .line 0 (text " 24"), .written none, .rested] (by decide)

theorem two_queries_hear_a_line_each :
    let now := run (.ofOptions (text "/dev/ttyUSB0") 9600 none none none) twoQueries
    .returns 1 (.ok (.line (text "1.5"))) ∈ now.trace ∧
    .returns 2 (.ok (.line (text "24"))) ∈ now.trace ∧
    (∃ first second : Answer, first.ticket = 1 ∧ first.Right now.lines now.listened ∧
      second.ticket = 2 ∧ second.Right now.lines now.listened) ∧
    (∀ ticket, ¬ now.InFlight ticket) ∧ now.link.listeners = [] ∧ now.link.timers = [] := by
  intro now
  have first : .returns 1 (.ok (.line (text "1.5"))) ∈ now.trace :=
    List.mem_of_getElem? (show now.trace[3]? = _ from rfl)
  have second : .returns 2 (.ok (.line (text "24"))) ∈ now.trace :=
    List.mem_of_getElem? (show now.trace[7]? = _ from rfl)
  have idle : ∀ ticket, ¬ now.InFlight ticket := by
    rintro ticket ⟨⟨kind, command, delay, made, _⟩, unreturned⟩
    rcases ticket with _ | _ | _ | ticket
    · cases made
    · exact unreturned _ first
    · exact unreturned _ second
    · cases made
  obtain ⟨_, ⟨answers, right, _, given⟩, _, _, _, quiet⟩ :=
    lines_answer_one_query_each_and_nothing_lingers
      (.ofOptions (text "/dev/ttyUSB0") 9600 none none none) twoQueries
  obtain ⟨answer, member, own, _⟩ := given 1 .query (text "CURR?") none _ rfl nofun first
  obtain ⟨other, member', own', _⟩ := given 2 .query (text "VOLT?") none _ rfl nofun second
  exact ⟨first, second, ⟨answer, other, own, right answer member, own', right other member'⟩, idle,
    (quiet idle).1, (quiet idle).2.1⟩

end Traffic

end VirtualInstrument.Serial
