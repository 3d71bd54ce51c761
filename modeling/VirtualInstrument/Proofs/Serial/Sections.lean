import VirtualInstrument.Proofs.Serial.Traffic
/- The line is shared in sections. What is seen of overlapping calls is one whole section after the
   other, in the order in which the calls were made, and at most one section that is not over yet. -/
namespace VirtualInstrument.Serial

/-- A call that holds the line or has held it, and what has been seen of it. -/
structure Section where
  ticket : Ticket
  job : Job
  beats : List Beat

def Request.settling (request : Request) : List Beat :=
  if request.settle > 0 then [.pauses request.settle, .rests] else []

def Config.sends (config : Config) (device : DeviceId) (request : Request) : Beat :=
  .sends device (request.command ++ config.terminator)

namespace Section

def call (s : Section) : Ticket × Job := (s.ticket, s.job)

def extend (s : Section) (beats : List Beat) : Section := { s with beats := s.beats ++ beats }

/-- A section from its beginning to its end. A command is sent once and at the beginning, and an
    exchange that succeeds ends with the command delay. -/
inductive Whole (config : Config) : Section → Prop
  | refused {ticket : Ticket} (request : Request) (fault : Fault) :
      Whole config ⟨ticket, .exchange request, [.returns ticket (.error fault)]⟩
  | unsent {ticket : Ticket} (request : Request) (device : DeviceId) (message : Text) :
      Whole config ⟨ticket, .exchange request,
        [config.sends device request, .returns ticket (.error (.refused message))]⟩
  | written {ticket : Ticket} {request : Request} (write : request.kind = .write)
      (device : DeviceId) :
      Whole config ⟨ticket, .exchange request,
        [config.sends device request, .pauses config.commandDelay, .rests,
          .returns ticket (.ok .done)]⟩
  | answered {ticket : Ticket} {request : Request} (query : request.kind ≠ .write)
      (device : DeviceId) (t : Text) :
      Whole config ⟨ticket, .exchange request,
        config.sends device request :: request.settling ++ [.pauses config.commandDelay] ++
          [.rests, .returns ticket (.ok (.ofText t request.kind))]⟩
  | unanswered {ticket : Ticket} {request : Request} (query : request.kind ≠ .write)
      (device : DeviceId) :
      Whole config ⟨ticket, .exchange request,
        config.sends device request :: request.settling ++
          [.returns ticket (.error (.unanswered request.command))]⟩
  | dropped {ticket : Ticket} : Whole config ⟨ticket, .close, [.leaves ticket]⟩
  | closed {ticket : Ticket} (device : DeviceId) :
      Whole config ⟨ticket, .close, [.shuts device, .leaves ticket]⟩

end Section

/-- What has been seen of the call that holds the line, by how far it has come. -/
inductive Stands (config : Config) : Holder → Section → Prop
  | sending {ticket : Ticket} (request : Request) (hearing : Hearing) (device : DeviceId) :
      Stands config ⟨ticket, .sending request, hearing⟩
        ⟨ticket, .exchange request, [config.sends device request]⟩
  | settling {ticket : Ticket} {request : Request} (query : request.kind ≠ .write)
      (positive : request.settle > 0) (hearing : Hearing) (device : DeviceId) :
      Stands config ⟨ticket, .settling request, hearing⟩
        ⟨ticket, .exchange request, [config.sends device request, .pauses request.settle]⟩
  | awaiting {ticket : Ticket} {request : Request} (query : request.kind ≠ .write)
      (device : DeviceId) :
      Stands config ⟨ticket, .awaiting request, .nothing⟩
        ⟨ticket, .exchange request, config.sends device request :: request.settling⟩
  | written {ticket : Ticket} {request : Request} (write : request.kind = .write)
      (hearing : Hearing) (device : DeviceId) :
      Stands config ⟨ticket, .resting .done, hearing⟩
        ⟨ticket, .exchange request,
          [config.sends device request, .pauses config.commandDelay]⟩
  | answered {ticket : Ticket} {request : Request} (query : request.kind ≠ .write)
      (hearing : Hearing) (device : DeviceId) (t : Text) :
      Stands config ⟨ticket, .resting (.ofText t request.kind), hearing⟩
        ⟨ticket, .exchange request,
          config.sends device request :: request.settling ++ [.pauses config.commandDelay]⟩
  | closing {ticket : Ticket} (hearing : Hearing) (device : DeviceId) :
      Stands config ⟨ticket, .closing, hearing⟩ ⟨ticket, .close, [.shuts device]⟩

def Current (config : Config) : Option Holder → Option Section → Prop
  | none, current => current = none
  | some holder, current => ∃ s, current = some s ∧ Stands config holder s

/-- The sections that are over and the one that is not, against what has been written down. -/
structure Orderly (config : Config) (calls : Calls) (queued : List (Ticket × Job))
    (trace : List Beat) (done : List Section) (current : Option Section) : Prop where
  kept : calls.config = config
  whole : ∀ s ∈ done, s.Whole config
  stands : Current config calls.holder current
  queued : queued = (done ++ current.toList).map Section.call ++ calls.waiting
  trace : trace = (done ++ current.toList).flatMap Section.beats
  promised : calls.promised = (calls.holder.isNone && !calls.waiting.isEmpty)

structure AtWork (config : Config) (queued : List (Ticket × Job)) (trace : List Beat)
    (done : List Section) (s : Section) (rest : List (Ticket × Job)) : Prop where
  whole : ∀ s ∈ done, s.Whole config
  queued : queued = done.map Section.call ++ s.call :: rest
  trace : trace = done.flatMap Section.beats ++ s.beats

section Keeping
variable {config : Config} {calls : Calls} {queued : List (Ticket × Job)} {trace : List Beat}
  {done : List Section} {s : Section} {rest : List (Ticket × Job)} {beats : List Beat}

theorem AtWork.goes_on (work : AtWork config queued trace done s rest) {holder : Holder}
    (stands : Stands config holder (s.extend beats)) (kept : calls.config = config)
    (held : calls.holder = some holder) (waiting : calls.waiting = rest)
    (promised : calls.promised = false) :
    Orderly config calls queued (trace ++ beats) done (some (s.extend beats)) := by
  refine ⟨kept, work.whole, ?_, ?_, ?_, ?_⟩
  · rw [held]
    exact ⟨_, rfl, stands⟩
  · rw [work.queued, waiting]
    simp [Section.call, Section.extend]
  · rw [work.trace]
    simp [Section.extend]
  · rw [promised, held]
    rfl

theorem AtWork.orderly_at_end (work : AtWork config queued trace done s rest)
    (whole : (s.extend beats).Whole config) (kept : calls.config = config)
    (free : calls.holder = none) (waiting : calls.waiting = rest)
    (promised : calls.promised = !rest.isEmpty) :
    Orderly config calls queued (trace ++ beats) (done ++ [s.extend beats]) none := by
  refine ⟨kept, ?_, ?_, ?_, ?_, ?_⟩
  · intro other member
    rcases List.mem_append.mp member with old | new
    · exact work.whole other old
    · rw [List.mem_singleton.mp new]
      exact whole
  · rw [free]
    rfl
  · rw [work.queued, waiting]
    simp [Section.call, Section.extend]
  · rw [work.trace]
    simp [Section.extend]
  · rw [promised, free, waiting]
    rfl

variable {link : Link} {current : Option Section} {input : Input}

theorem Orderly.holder_at_work (orderly : Orderly config link.calls queued trace done current)
    {holder : Holder} (held : link.holder = some holder) :
    link.promised = false ∧ ∃ s, Stands config holder s ∧
      AtWork config queued trace done s link.waiting := by
  have stands := orderly.stands
  simp only [Link.calls, held] at stands
  obtain ⟨s, rfl, stands⟩ := stands
  refine ⟨?_, s, stands, orderly.whole, ?_, ?_⟩
  · have promised := orderly.promised
    simpa [Link.calls, held] using promised
  · rw [orderly.queued]
    simp [Link.calls]
  · rw [orderly.trace]
    simp

theorem Orderly.holder_of_current (orderly : Orderly config calls queued trace done current)
    (own : s ∈ current) : ∃ holder, Stands config holder s := by
  have stands := orderly.stands
  cases held : calls.holder with
  | none =>
    rw [held] at stands
    cases stands
    cases own
  | some holder =>
    rw [held] at stands
    obtain ⟨_, rfl, stands⟩ := stands
    cases own
    exact ⟨holder, stands⟩

theorem Orderly.next_at_work (orderly : Orderly config link.calls queued trace done current)
    {ticket : Ticket} {job : Job} (next : link.Next ticket job rest) :
    AtWork config queued trace done ⟨ticket, job, []⟩ rest := by
  have stands := orderly.stands
  simp only [Link.calls, next.free] at stands
  cases stands
  refine ⟨orderly.whole, ?_, ?_⟩
  · rw [orderly.queued]
    simp [Link.calls, next.first, Section.call]
  · rw [orderly.trace]
    simp

/-! What is seen of a pause that is over -/

def Pausing (trace : List Beat) : Prop := ∃ ms, trace.getLast? = some (.pauses ms)

theorem rested_of_pausing (pausing : Pausing trace) : rested trace .rested = [.rests] := by
  obtain ⟨ms, last⟩ := pausing
  simp only [rested, last]

theorem rested_of_not_pausing (calm : ¬ Pausing trace) : rested trace input = [] := by
  cases input with
  | rested =>
    simp only [rested]
    split
    · rename_i ms last
      exact absurd ⟨ms, last⟩ calm
    · rfl
  | _ => rfl

theorem pausing_concat (before : List Beat) (beat : Beat) :
    Pausing (before ++ [beat]) ↔ ∃ ms, beat = .pauses ms := by
  simp [Pausing]

theorem Section.Whole.last_beat (whole : s.Whole config) :
    ∃ before, (∃ result, s.beats = before ++ [.returns s.ticket result]) ∨
      s.beats = before ++ [.leaves s.ticket] := by
  cases whole with
  | refused request fault => exact ⟨[], .inl ⟨_, rfl⟩⟩
  | unsent request device message => exact ⟨[_], .inl ⟨_, rfl⟩⟩
  | written write device => exact ⟨[_, _, _], .inl ⟨_, rfl⟩⟩
  | @answered ticket request query device t =>
    exact ⟨config.sends device request :: request.settling ++
      [.pauses config.commandDelay, .rests], .inl ⟨.ok (.ofText t request.kind), by simp⟩⟩
  | unanswered query device => exact ⟨_, .inl ⟨_, rfl⟩⟩
  | dropped => exact ⟨[], .inr rfl⟩
  | closed device => exact ⟨[_], .inr rfl⟩

theorem not_pausing_concat (before : List Beat) {beat : Beat} (other : ∀ ms, beat ≠ .pauses ms) :
    ¬ Pausing (before ++ [beat]) := by
  rw [pausing_concat]
  rintro ⟨ms, same⟩
  exact other ms same

theorem pausing_append {more : List Beat} (seen : more ≠ []) (before : List Beat) :
    Pausing (before ++ more) ↔ Pausing more := by
  rcases List.eq_nil_or_concat more with rfl | ⟨first, last, rfl⟩
  · exact absurd rfl seen
  · rw [List.concat_eq_append, ← List.append_assoc, pausing_concat, pausing_concat]

theorem Section.Whole.not_pausing (whole : s.Whole config) :
    s.beats ≠ [] ∧ ¬ Pausing s.beats := by
  obtain ⟨before, ⟨result, same⟩ | same⟩ := whole.last_beat
  · rw [same]
    exact ⟨by simp, not_pausing_concat _ nofun⟩
  · rw [same]
    exact ⟨by simp, not_pausing_concat _ nofun⟩

theorem Request.settling_not_pausing (request : Request) (beat : Beat)
    (other : ∀ ms, beat ≠ .pauses ms) : ¬ Pausing (beat :: request.settling) := by
  unfold Request.settling
  split
  · exact not_pausing_concat [beat, _] nofun
  · exact not_pausing_concat [] other

theorem Request.not_mem_settling (request : Request) {beat : Beat}
    (moves : ∀ ms, beat ≠ .pauses ms) (works : beat ≠ .rests) : beat ∉ request.settling := by
  unfold Request.settling
  split
  · simp [moves, works]
  · exact nofun

theorem Section.Whole.return_of_section (whole : s.Whole config) {ticket : Ticket}
    {result : Except Fault Response} (returned : .returns ticket result ∈ s.beats) :
    ticket = s.ticket ∧ ∃ request, s.job = .exchange request ∧
      ∀ response, result = .ok response → ∃ t, response = .ofText t request.kind := by
  cases whole with
  | refused request fault =>
    cases List.mem_singleton.mp returned
    exact ⟨rfl, request, rfl, nofun⟩
  | unsent request device message =>
    simp only [Config.sends, List.mem_cons, List.not_mem_nil, or_false, false_or, reduceCtorEq]
      at returned
    cases returned
    exact ⟨rfl, request, rfl, nofun⟩
  | @written own request write device =>
    simp only [Config.sends, List.mem_cons, List.not_mem_nil, or_false, false_or, reduceCtorEq]
      at returned
    cases returned
    refine ⟨rfl, request, rfl, ?_⟩
    rintro response ⟨⟩
    exact ⟨[], by rw [write]; rfl⟩
  | @answered own request query device t =>
    simp only [Config.sends, List.mem_append, List.mem_cons, List.not_mem_nil, or_false, false_or,
      reduceCtorEq, ne_eq, not_false_eq_true, implies_true, request.not_mem_settling] at returned
    cases returned
    refine ⟨rfl, request, rfl, ?_⟩
    rintro response ⟨⟩
    exact ⟨t, rfl⟩
  | @unanswered own request query device =>
    simp only [Config.sends, List.mem_append, List.mem_cons, List.not_mem_nil, or_false, false_or,
      reduceCtorEq, ne_eq, not_false_eq_true, implies_true, request.not_mem_settling] at returned
    cases returned
    exact ⟨rfl, request, rfl, nofun⟩
  | dropped => simp at returned
  | closed device => simp at returned

theorem Stands.returns_nothing {holder : Holder} (stands : Stands config holder s) (ticket : Ticket)
    (result : Except Fault Response) : .returns ticket result ∉ s.beats := by
  cases stands with
  | awaiting query device => simp [Config.sends, Request.not_mem_settling]
  | answered query hearing device t => simp [Config.sends, Request.not_mem_settling]
  | _ => simp [Config.sends]

theorem Orderly.section_of_return (orderly : Orderly config calls queued trace done current)
    {ticket : Ticket} {result : Except Fault Response} (returned : .returns ticket result ∈ trace) :
    ∃ s ∈ done, s.ticket = ticket ∧ .returns ticket result ∈ s.beats := by
  rw [orderly.trace] at returned
  obtain ⟨s, member, own⟩ := List.mem_flatMap.mp returned
  rcases List.mem_append.mp member with ended | standing
  · exact ⟨s, ended, ((orderly.whole s ended).return_of_section own).1.symm, own⟩
  · obtain ⟨holder, stands⟩ := orderly.holder_of_current (Option.mem_toList.mp standing)
    exact absurd own (stands.returns_nothing ticket result)

theorem Stands.with_hearing {ticket : Ticket} {phase : Phase} {before : Hearing}
    (stands : Stands config ⟨ticket, phase, before⟩ s)
    (early : ∀ request, phase ≠ .awaiting request) (hearing : Hearing) :
    Stands config ⟨ticket, phase, hearing⟩ s := by
  cases stands with
  | sending request _ device => exact .sending request hearing device
  | settling query positive _ device => exact .settling query positive hearing device
  | awaiting query device => exact absurd rfl (early _)
  | written write _ device => exact .written write hearing device
  | answered query _ device t => exact .answered query hearing device t
  | closing _ device => exact .closing hearing device

theorem Stands.not_pausing {holder : Holder} (stands : Stands config holder s)
    (moves : holder.awaits ≠ .rest) : s.beats ≠ [] ∧ ¬ Pausing s.beats := by
  cases stands with
  | sending request hearing device => exact ⟨nofun, not_pausing_concat [] nofun⟩
  | awaiting query device => exact ⟨nofun, Request.settling_not_pausing _ _ nofun⟩
  | closing hearing device => exact ⟨nofun, not_pausing_concat [] nofun⟩
  | _ => exact absurd rfl moves

theorem Stands.pausing_in_rest {holder : Holder} (stands : Stands config holder s)
    (rests : holder.awaits = .rest) : s.beats ≠ [] ∧ Pausing s.beats := by
  cases stands with
  | settling query positive hearing device =>
    exact ⟨nofun, (pausing_concat [_] _).mpr ⟨_, rfl⟩⟩
  | written write hearing device => exact ⟨nofun, (pausing_concat [_] _).mpr ⟨_, rfl⟩⟩
  | answered query hearing device t => exact ⟨nofun, (pausing_concat (_ :: _) _).mpr ⟨_, rfl⟩⟩
  | _ => cases rests

theorem Orderly.pausing_in_rest (orderly : Orderly config link.calls queued trace done current)
    (rests : link.calls.awaits? = some .rest) : Pausing trace := by
  cases held : link.holder with
  | none => cases (Link.awaits?_of_free held rests).1
  | some holder =>
    obtain ⟨_, s, stands, work⟩ := orderly.holder_at_work held
    rw [Link.awaits?_of_held held] at rests
    obtain ⟨seen, pauses⟩ := stands.pausing_in_rest (Option.some.inj rests)
    rw [work.trace, pausing_append seen]
    exact pauses

theorem Orderly.not_pausing (orderly : Orderly config link.calls queued trace done current)
    (moves : link.calls.awaits? ≠ some .rest) : ¬ Pausing trace := by
  cases held : link.holder with
  | some holder =>
    obtain ⟨_, s, stands, work⟩ := orderly.holder_at_work held
    rw [Link.awaits?_of_held held] at moves
    obtain ⟨seen, calm⟩ := stands.not_pausing fun rests => moves (congrArg some rests)
    rw [work.trace, pausing_append seen]
    exact calm
  | none =>
    have stands := orderly.stands
    simp only [Link.calls, held] at stands
    cases stands
    rw [orderly.trace]
    rcases List.eq_nil_or_concat done with rfl | ⟨before, last, rfl⟩
    · rintro ⟨ms, last⟩
      cases last
    · obtain ⟨seen, calm⟩ := (orderly.whole last (by simp)).not_pausing
      simpa [pausing_append seen] using calm

/-! Where in the trace a command is sent -/

end Keeping

structure Named (made : List Bench.Call) (calls : Calls) (queued : List (Ticket × Job)) :
    Prop where
  jobs : ∀ entry ∈ queued, ∃ call, made[entry.1]? = some call ∧ call.job? = some entry.2
  ascending : queued.Pairwise (·.1 < ·.1)
  opening : ∀ entry ∈ calls.opening, made[entry.1]? = some .connect
  leaving : ∀ ticket ∈ calls.leaving, made[ticket]? = some .close

def Fits (made : List Bench.Call) (queued : List (Ticket × Job)) (input : Input) : Prop :=
  ∀ ticket, input.call? = some ticket →
    (∃ call, made[ticket]? = some call ∧ input = call.input ticket) ∧
      ∀ entry ∈ queued, entry.1 < ticket

def LeavesOrderly (config : Config) (made : List Bench.Call) (link : Link)
    (queued : List (Ticket × Job)) (trace : List Beat) (input : Input) (calls : Calls)
    (effects : List Effect) : Prop :=
  ∃ done current, Orderly config calls (queued ++ (link.queues? input).toList)
    (trace ++ seen made trace input effects) done current

section Passing
variable {config : Config} {made : List Bench.Call} {link : Link} {calls : Calls}
  {queued : List (Ticket × Job)} {trace : List Beat} {done : List Section}
  {current : Option Section} {s : Section} {rest : List (Ticket × Job)} {input : Input}
  {effects : List Effect}

theorem AtWork.leaves_on {before : List Beat} (work : AtWork config queued before done s rest)
    {holder : Holder} (beats : List Beat) (unqueued : link.queues? input = none)
    (shown : trace ++ seen made trace input effects = before ++ beats)
    (stands : Stands config holder (s.extend beats)) (kept : calls.config = config)
    (held : calls.holder = some holder) (waiting : calls.waiting = rest)
    (promised : calls.promised = false) :
    LeavesOrderly config made link queued trace input calls effects := by
  unfold LeavesOrderly
  rw [unqueued, shown, Option.toList_none, List.append_nil]
  exact ⟨_, _, work.goes_on stands kept held waiting promised⟩

theorem AtWork.leaves_off {before : List Beat} (work : AtWork config queued before done s rest)
    (beats : List Beat) (unqueued : link.queues? input = none)
    (shown : trace ++ seen made trace input effects = before ++ beats)
    (whole : (s.extend beats).Whole config) (kept : calls.config = config)
    (free : calls.holder = none) (waiting : calls.waiting = rest)
    (promised : calls.promised = !rest.isEmpty) :
    LeavesOrderly config made link queued trace input calls effects := by
  unfold LeavesOrderly
  rw [unqueued, shown, Option.toList_none, List.append_nil]
  exact ⟨_, _, work.orderly_at_end whole kept free waiting promised⟩

theorem beat?_of_aside (named : Named made link.calls queued) (fits : Fits made queued input)
    {effect : Effect} (apart : effect.Aside link input) : effect.beat? made = none := by
  cases effect with
  | finish ticket result =>
    have quiet {call : Bench.Call} (found : made[ticket]? = some call)
        (other : ∀ request, call.job? ≠ some (.exchange request)) :
        Effect.beat? made (.finish ticket result) = none := by
      cases call with
      | exchange kind command delay => exact absurd rfl (other _)
      | _ => simp only [Effect.beat?, found]
    rcases apart with rfl | rfl | ⟨device, opening⟩ | leaving
    · obtain ⟨⟨call, found, same⟩, _⟩ := fits ticket rfl
      cases call with
      | connect => exact quiet found nofun
      | _ => cases same
    · obtain ⟨⟨call, found, same⟩, _⟩ := fits ticket rfl
      cases call with
      | close => exact quiet found nofun
      | _ => cases same
    · exact quiet (named.opening _ opening) nofun
    · exact quiet (named.leaving _ leaving) nofun
  | make device => rfl
  | openDevice ticket device => rfl
  | log line => rfl
  | _ => exact absurd apart id

theorem turns_beats (calls : Calls) : calls.turns.filterMap (Effect.beat? made) = [] := by
  unfold Calls.turns
  split
  · rfl
  · rfl

theorem AtWork.beat?_finish (work : AtWork config queued trace done s rest)
    (named : Named made calls queued) {request : Request} (asks : s.job = .exchange request)
    (result : Except Fault Response) :
    Effect.beat? made (.finish s.ticket result) = some (.returns s.ticket result) := by
  obtain ⟨call, found, job⟩ := named.jobs s.call (by simp [work.queued])
  cases call with
  | exchange kind command delay =>
    have there : made[s.ticket]? = some (.exchange kind command delay) := found
    simp only [Effect.beat?, there]
  | connect => cases job
  | close =>
    have same : Job.close = s.job := Option.some.inj job
    cases same.trans asks

theorem AtWork.beats_of_return (work : AtWork config queued trace done s rest)
    (named : Named made calls queued) {request : Request} (asks : s.job = .exchange request)
    (result : Except Fault Response) (left : Calls) :
    (Effect.finish s.ticket result :: left.turns).filterMap (Effect.beat? made) =
      [.returns s.ticket result] := by
  rw [List.filterMap_cons_some (work.beat?_finish named asks result), turns_beats]

theorem Orderly.passes_aside (orderly : Orderly config link.calls queued trace done current)
    (named : Named made link.calls queued) (fits : Fits made queued input)
    (misses : link.Misses input) (apart : ∀ effect ∈ effects, effect.Aside link input)
    (opening : List (Ticket × DeviceId)) (leaving : List Ticket) :
    LeavesOrderly config made link queued trace input { link.calls with opening, leaving }
      effects := by
  have silent : effects.filterMap (Effect.beat? made) = [] :=
    List.filterMap_eq_nil_iff.mpr fun effect member =>
      beat?_of_aside named fits (apart effect member)
  have calm : rested trace input = [] := by
    by_cases told : input = .rested
    · refine rested_of_not_pausing (orderly.not_pausing fun awaited => ?_)
      rw [told] at misses
      obtain ⟨_, alarm⟩ := misses.unpaid _ awaited rfl
      cases alarm
    · cases input with
      | rested => exact absurd rfl told
      | _ => rfl
  unfold LeavesOrderly
  rw [misses.unqueued, seen, silent, calm, Option.toList_none, List.append_nil, List.append_nil,
    List.append_nil]
  exact ⟨done, current, orderly.kept, orderly.whole, orderly.stands, orderly.queued, orderly.trace,
    orderly.promised⟩

theorem Orderly.queues_job (orderly : Orderly config link.calls queued trace done current)
    {ticket : Ticket} {job : Job} (asks : link.queues? input = some (ticket, job)) :
    LeavesOrderly config made link queued trace input
      { link.calls with
        waiting := link.waiting ++ [(ticket, job)]
        promised := link.promised || link.holder.isNone }
      (if link.holder.isSome || link.promised then [] else [.later .turn]) := by
  have silent : (if link.holder.isSome || link.promised then ([] : List Effect)
      else [.later .turn]).filterMap (Effect.beat? made) = [] := by
    split
    · rfl
    · rfl
  have calm : rested trace input = [] := by
    cases input with
    | rested => cases asks
    | _ => rfl
  unfold LeavesOrderly
  rw [asks, seen, silent, calm, List.append_nil, List.append_nil]
  refine ⟨done, current, orderly.kept, orderly.whole, orderly.stands, ?_, orderly.trace, ?_⟩
  · rw [orderly.queued]
    simp [Link.calls]
  · have promised := orderly.promised
    simp only [Link.calls] at promised ⊢
    rw [promised]
    cases link.holder with
    | none => simp
    | some holder => simp

theorem Orderly.reads_at_work (orderly : Orderly config link.calls queued trace done current)
    {ticket : Ticket} {request : Request} {hearing : Hearing}
    (reads : link.Reads input ticket request hearing) :
    link.promised = false ∧ request.kind ≠ .write ∧ ∃ device,
      AtWork config queued (trace ++ rested trace input) done
        ⟨ticket, .exchange request, config.sends device request :: request.settling⟩
        link.waiting := by
  rcases reads with ⟨rfl, held, query, short⟩ | ⟨rfl, held⟩
  · obtain ⟨promised, s, stands, work⟩ := orderly.holder_at_work held
    cases stands with
    | sending request hearing device =>
      refine ⟨promised, query, device, work.whole, work.queued, ?_⟩
      rw [Request.settling, if_neg short]
      simpa [rested] using work.trace
  · obtain ⟨promised, s, stands, work⟩ := orderly.holder_at_work held
    cases stands with
    | settling query positive hearing device =>
      refine ⟨promised, query, device, work.whole, work.queued, ?_⟩
      have pausing := orderly.pausing_in_rest (Link.awaits?_of_held held)
      rw [rested_of_pausing pausing, work.trace, Request.settling, if_pos positive]
      simp

theorem released_promised (promised : link.promised = false) :
    (link.promised || !link.waiting.isEmpty) = !link.waiting.isEmpty := by
  rw [promised]
  rfl

theorem Orderly.spares_turn (orderly : Orderly config link.calls queued trace done current)
    (free : link.holder = none) (empty : link.waiting = []) :
    LeavesOrderly config made link queued trace .turn { link.calls with promised := false } [] := by
  refine ⟨done, current, orderly.kept, orderly.whole, orderly.stands, ?_, ?_, ?_⟩
  · simpa [Link.queues?] using orderly.queued
  · simpa [seen, rested] using orderly.trace
  · simp [Link.calls, free, empty]

theorem Orderly.waits_for_line (orderly : Orderly config link.calls queued trace done current)
    {ticket : Ticket} {request : Request} (reads : link.Reads input ticket request .nothing) :
    LeavesOrderly config made link queued trace input
      (link.calls.hold ⟨ticket, .awaiting request, .nothing⟩) [] := by
  obtain ⟨promised, query, device, work⟩ := orderly.reads_at_work reads
  refine work.leaves_on [] reads.queues?_eq_none ?_ ?_ orderly.kept rfl rfl promised
  · simp [seen]
  · simpa [Section.extend] using Stands.awaiting query device

theorem Orderly.reads_line (orderly : Orderly config link.calls queued trace done current)
    {ticket : Ticket} {request : Request} {t : Text}
    (reads : link.Reads input ticket request (.line t)) :
    LeavesOrderly config made link queued trace input
      (link.calls.hold ⟨ticket, .resting (.ofText t request.kind), .line t⟩)
      [.pause link.config.commandDelay] := by
  have kept : link.config = config := orderly.kept
  obtain ⟨promised, query, device, work⟩ := orderly.reads_at_work reads
  refine work.leaves_on [.pauses config.commandDelay] reads.queues?_eq_none ?_
    (kept ▸ .answered query _ device _) kept rfl rfl promised
  rw [seen, ← List.append_assoc, ← kept]
  rfl

theorem Orderly.reads_expiry (orderly : Orderly config link.calls queued trace done current)
    (named : Named made link.calls queued) {ticket : Ticket} {request : Request}
    (reads : link.Reads input ticket request .expired) :
    LeavesOrderly config made link queued trace input link.calls.release
      (.finish ticket (.error (.unanswered request.command)) :: link.calls.turns) := by
  obtain ⟨promised, query, device, work⟩ := orderly.reads_at_work reads
  refine work.leaves_off _ reads.queues?_eq_none ?_ (.unanswered query device) orderly.kept rfl rfl
    (released_promised promised)
  rw [seen, ← List.append_assoc]
  exact congrArg _ (work.beats_of_return named rfl _ _)

theorem Orderly.hears_early (orderly : Orderly config link.calls queued trace done current)
    {ticket : Ticket} {phase : Phase} {before hearing : Hearing}
    (held : link.holder = some ⟨ticket, phase, before⟩)
    (early : ∀ request, phase ≠ .awaiting request) (hears : link.Hears input ticket hearing) :
    LeavesOrderly config made link queued trace input
      ((link.calls.cancel ticket).hold ⟨ticket, phase, hearing⟩)
      (.disarm ticket :: Holder.unhandled ⟨ticket, phase, hearing⟩) := by
  obtain ⟨promised, s, stands, work⟩ := orderly.holder_at_work held
  refine work.leaves_on [] hears.queues?_eq_none ?_ ?_ orderly.kept rfl rfl promised
  · rw [seen, List.filterMap_cons_none (by rfl), Holder.unhandled_silent (by rfl)]
    rcases hears with ⟨_, _, rfl, _⟩ | ⟨rfl, _⟩
    · rfl
    · rfl
  · simpa [Section.extend] using stands.with_hearing early _

theorem Orderly.returns_unanswered
    (orderly : Orderly config link.calls queued trace done current)
    (named : Named made link.calls queued) {ticket : Ticket} {request : Request} {before : Hearing}
    (held : link.holder = some ⟨ticket, .awaiting request, before⟩) :
    LeavesOrderly config made link queued trace (.expired ticket)
      (link.calls.cancel ticket).release
      (.disarm ticket :: .finish ticket (.error (.unanswered request.command)) ::
        link.calls.turns) := by
  obtain ⟨promised, s, stands, work⟩ := orderly.holder_at_work held
  cases stands with
  | awaiting query device =>
    exact work.leaves_off _ rfl (congrArg (trace ++ ·) (work.beats_of_return named rfl _ _))
      (.unanswered query device) orderly.kept rfl rfl (released_promised promised)

theorem Orderly.returns_unsent (orderly : Orderly config link.calls queued trace done current)
    (named : Named made link.calls queued) {ticket : Ticket} {request : Request}
    {hearing : Hearing} (held : link.holder = some ⟨ticket, .sending request, hearing⟩)
    (message : Text) :
    LeavesOrderly config made link queued trace (.written (some message)) link.calls.release
        (.finish ticket (.error (.refused message)) :: link.calls.turns) ∧
      LeavesOrderly config made link queued trace (.written (some message))
        (link.calls.cancel ticket).release
        (.disarm ticket :: .finish ticket (.error (.refused message)) :: link.calls.turns) := by
  obtain ⟨promised, s, stands, work⟩ := orderly.holder_at_work held
  cases stands with
  | sending _ _ device =>
    have shown := congrArg (trace ++ ·)
      (work.beats_of_return named rfl (.error (.refused message)) link.calls)
    exact ⟨work.leaves_off _ rfl shown (.unsent _ device message) orderly.kept rfl rfl
        (released_promised promised),
      work.leaves_off _ rfl shown (.unsent _ device message) orderly.kept rfl rfl
        (released_promised promised)⟩

theorem Orderly.returns_rested (orderly : Orderly config link.calls queued trace done current)
    (named : Named made link.calls queued) {ticket : Ticket} {response : Response}
    {hearing : Hearing} (held : link.holder = some ⟨ticket, .resting response, hearing⟩) :
    LeavesOrderly config made link queued trace .rested link.calls.release
      (.finish ticket (.ok response) :: link.calls.turns) := by
  obtain ⟨promised, s, stands, work⟩ := orderly.holder_at_work held
  have pausing := orderly.pausing_in_rest (Link.awaits?_of_held held)
  cases stands with
  | written write _ device =>
    refine work.leaves_off _ rfl ?_ (.written write device) orderly.kept rfl rfl
      (released_promised promised)
    rw [seen, rested_of_pausing pausing, work.beats_of_return named rfl]
    rfl
  | answered query _ device t =>
    refine work.leaves_off _ rfl ?_ (.answered query device t) orderly.kept rfl rfl
      (released_promised promised)
    rw [seen, rested_of_pausing pausing, work.beats_of_return named rfl]
    rfl

theorem Orderly.leaves_closed (orderly : Orderly config link.calls queued trace done current)
    {ticket : Ticket} {hearing : Hearing}
    (held : link.holder = some ⟨ticket, .closing, hearing⟩) :
    LeavesOrderly config made link queued trace .shut
      { link.calls with leaving := ticket :: link.leaving }.release
      (link.calls.turns ++ [.later (.leave ticket)]) := by
  obtain ⟨promised, s, stands, work⟩ := orderly.holder_at_work held
  cases stands with
  | closing _ device =>
    refine work.leaves_off _ rfl ?_ (.closed device) orderly.kept rfl rfl
      (released_promised promised)
    simp [seen, rested, turns_beats, Effect.beat?]

/-- Every pass leaves the calls in order. -/
theorem Orderly.kept_by_pass (orderly : Orderly config link.calls queued trace done current)
    (named : Named made link.calls queued) (fits : Fits made queued input)
    (pass : Pass link input calls effects) :
    LeavesOrderly config made link queued trace input calls effects := by
  have kept : link.config = config := orderly.kept
  cases pass with
  | aside misses opens leaves apart => exact orderly.passes_aside named fits misses apart _ _
  | queues asks => exact orderly.queues_job asks
  | refused next fault =>
    have work := orderly.next_at_work next
    exact work.leaves_off _ rfl (congrArg (trace ++ ·) (work.beats_of_return named rfl _ _))
      (.refused _ fault) kept rfl rfl rfl
  | writes next write device =>
    exact (orderly.next_at_work next).leaves_on _ rfl rfl (kept ▸ .sending _ _ device) kept rfl rfl rfl
  | asks next query device ms =>
    exact (orderly.next_at_work next).leaves_on _ rfl rfl (kept ▸ .sending _ _ device) kept rfl rfl rfl
  | shuts next fewer device =>
    exact (orderly.next_at_work next).leaves_on _ rfl rfl (.closing _ device) kept rfl rfl rfl
  | drops next fewer =>
    refine (orderly.next_at_work next).leaves_off _ rfl ?_ .dropped kept rfl rfl rfl
    simp [seen, rested, turns_beats, Effect.beat?]
  | spares free empty => exact orderly.spares_turn free empty
  | wrote held write =>
    obtain ⟨promised, s, stands, work⟩ := orderly.holder_at_work held
    cases stands with
    | sending _ _ device =>
      exact work.leaves_on _ rfl rfl (kept ▸ .written write _ device) kept rfl rfl promised
  | settles held query positive =>
    obtain ⟨promised, s, stands, work⟩ := orderly.holder_at_work held
    cases stands with
    | sending _ _ device =>
      exact work.leaves_on _ rfl rfl (.settling query positive _ device) kept rfl rfl promised
  | waits reads => exact orderly.waits_for_line reads
  | reads reads => exact orderly.reads_line reads
  | fails reads => exact orderly.reads_expiry named reads
  | hears held early hears => exact orderly.hears_early held early hears
  | answered held listens t =>
    obtain ⟨promised, s, stands, work⟩ := orderly.holder_at_work held
    cases stands with
    | awaiting query device =>
      exact work.leaves_on _ rfl rfl (kept ▸ .answered query _ device _) kept rfl rfl promised
  | unanswered held armed => exact orderly.returns_unanswered named held
  | unwritten held write message => exact (orderly.returns_unsent named held message).1
  | unasked held query message => exact (orderly.returns_unsent named held message).2
  | returns held => exact orderly.returns_rested named held
  | leaves held => exact orderly.leaves_closed held

theorem queues?_fits (fits : Fits made queued input) {ticket : Ticket} {job : Job}
    (asks : link.queues? input = some (ticket, job)) :
    (∃ call, made[ticket]? = some call ∧ call.job? = some job) ∧
      ∀ entry ∈ queued, entry.1 < ticket := by
  cases input with
  | exchange own request =>
    cases asks
    obtain ⟨⟨call, found, same⟩, later⟩ := fits ticket rfl
    cases call with
    | exchange kind command delay =>
      cases same
      exact ⟨⟨_, found, rfl⟩, later⟩
    | _ => cases same
  | close own =>
    simp only [Link.queues?] at asks
    split at asks
    · cases asks
      obtain ⟨⟨call, found, same⟩, later⟩ := fits ticket rfl
      cases call with
      | close => exact ⟨⟨_, found, rfl⟩, later⟩
      | _ => cases same
    · cases asks
  | _ => cases asks

theorem Pass.opening_before (pass : Pass link input calls effects) :
    ∀ entry ∈ calls.opening, entry ∈ link.opening ∨ input = .connect entry.1 := by
  cases pass with
  | aside misses opens leaves apart => exact opens
  | _ => exact fun entry member => .inl member

theorem Orderly.leaving_before (orderly : Orderly config link.calls queued trace done current)
    (pass : Pass link input calls effects) :
    ∀ ticket ∈ calls.leaving, ticket ∈ link.leaving ∨ (ticket, Job.close) ∈ queued := by
  cases pass with
  | aside misses opens leaves apart => exact fun ticket member => .inl (leaves ticket member)
  | drops next fewer =>
    intro ticket member
    rcases List.mem_cons.mp member with rfl | old
    · refine .inr ?_
      simp [(orderly.next_at_work next).queued, Section.call]
    · exact .inl old
  | leaves held =>
    intro ticket member
    obtain ⟨_, s, stands, work⟩ := orderly.holder_at_work held
    rcases List.mem_cons.mp member with rfl | old
    · cases stands with
      | closing _ device =>
        refine .inr ?_
        simp [work.queued, Section.call]
    · exact .inl old
  | _ => exact fun ticket member => .inl member

theorem Named.kept_by_pass (named : Named made link.calls queued)
    (orderly : Orderly config link.calls queued trace done current)
    (fits : Fits made queued input) (pass : Pass link input calls effects) :
    Named made calls (queued ++ (link.queues? input).toList) := by
  refine ⟨?_, ?_, ?_, ?_⟩
  · intro entry member
    rcases List.mem_append.mp member with old | new
    · exact named.jobs entry old
    · exact (queues?_fits fits (Option.mem_toList.mp new)).1
  · refine List.pairwise_append.mpr ⟨named.ascending, ?_, ?_⟩
    · cases link.queues? input with
      | none => exact .nil
      | some entry => exact List.pairwise_singleton _ _
    · intro before old entry new
      exact (queues?_fits fits (Option.mem_toList.mp new)).2 before old
  · intro entry member
    rcases pass.opening_before entry member with old | rfl
    · exact named.opening entry old
    · obtain ⟨⟨call, found, same⟩, _⟩ := fits entry.1 rfl
      cases call with
      | connect => exact found
      | _ => cases same
  · intro ticket member
    rcases orderly.leaving_before pass ticket member with old | closes
    · exact named.leaving ticket old
    · obtain ⟨call, found, job⟩ := named.jobs _ closes
      cases call with
      | close => exact found
      | _ => cases job

end Passing

namespace Traffic

variable {config : Config} {now : Traffic}

structure Sound (config : Config) (now : Traffic) : Prop where
  named : Named now.made now.link.calls now.queued
  orderly : ∃ done current, Orderly config now.link.calls now.queued now.trace done current

theorem sound_start (config : Config) : (start config).Sound config :=
  ⟨⟨nofun, .nil, nofun, nofun⟩, [], none, ⟨rfl, nofun, rfl, rfl, rfl, rfl⟩⟩

theorem Sound.feed (sound : now.Sound config) {input : Input}
    (fits : Fits now.made now.queued input) : (now.feed input).Sound config := by
  obtain ⟨named, done, current, orderly⟩ := sound
  have pass := now.link.step_passes input
  exact ⟨named.kept_by_pass orderly fits pass, orderly.kept_by_pass named fits pass⟩

theorem Sound.with_more_calls (sound : now.Sound config) (call : Bench.Call) :
    (now.more call).Sound config ∧
      Fits (now.more call).made (now.more call).queued (call.input now.made.length) := by
  have kept {ticket : Ticket} {old : Bench.Call} (found : now.made[ticket]? = some old) :
      (now.made ++ [call])[ticket]? = some old := by
    rw [List.getElem?_append_left (List.getElem?_eq_some_iff.mp found).1, found]
  refine ⟨⟨⟨?_, sound.named.ascending, ?_, ?_⟩, sound.orderly⟩, ?_⟩
  · intro entry member
    obtain ⟨old, found, job⟩ := sound.named.jobs entry member
    exact ⟨old, kept found, job⟩
  · exact fun entry member => kept (sound.named.opening entry member)
  · exact fun ticket member => kept (sound.named.leaving ticket member)
  · intro ticket called
    have own : ticket = now.made.length := by
      cases call with
      | _ => exact (Option.some.inj called).symm
    subst own
    refine ⟨⟨call, by simp [Traffic.more], rfl⟩, ?_⟩
    intro entry member
    obtain ⟨old, found, _⟩ := sound.named.jobs entry member
    exact (List.getElem?_eq_some_iff.mp found).1

theorem setTimeout_calls {link next : Link} {ms : Float} (set : link.setTimeout ms = .ok next) :
    next.calls = link.calls := by
  unfold Link.setTimeout at set
  split at set
  · cases set
  · cases set
    rfl

/-- What is kept when a call is made, when the timeout is set and by every input to a sound link. -/
structure Kept (config : Config) (property : Traffic → Prop) : Prop where
  more : ∀ now call, property now → property (now.more call)
  retimed : ∀ now link, link.calls = now.link.calls → property now → property { now with link }
  feed : ∀ now input, now.Sound config → Fits now.made now.queued input → property now →
    property (now.feed input)

theorem Kept.meet {property : Traffic → Prop} (kept : Kept config property)
    (sound : now.Sound config) (holds : property now) (incident : Incident) :
    (now.meet incident).Sound config ∧ property (now.meet incident) := by
  cases incident with
  | call call =>
    obtain ⟨sound, fits⟩ := sound.with_more_calls call
    exact ⟨sound.feed fits, kept.feed _ _ sound fits (kept.more now call holds)⟩
  | news news =>
    have fits : Fits now.made now.queued news := by
      intro ticket called
      rw [news.2] at called
      cases called
    exact ⟨sound.feed fits, kept.feed _ _ sound fits holds⟩
  | timeout ms =>
    simp only [Traffic.meet]
    split
    · rename_i link set
      have same := setTimeout_calls set
      exact ⟨⟨by simpa [same] using sound.named, by simpa [same] using sound.orderly⟩,
        kept.retimed now link same holds⟩
    · exact ⟨sound, holds⟩

theorem Kept.take {property : Traffic → Prop} (kept : Kept config property)
    (sound : now.Sound config) (holds : property now) (incident : Incident) :
    (now.take incident).Sound config ∧ property (now.take incident) := by
  unfold Traffic.take
  split
  · exact ⟨sound, holds⟩
  · exact kept.meet sound holds incident

/-- What holds at the beginning and is kept holds at any time of a run. -/
theorem Kept.run {property : Traffic → Prop} (kept : Kept config property)
    (first : property (start config)) (incidents : List Incident) :
    (run config incidents).Sound config ∧ property (run config incidents) := by
  suffices later : ∀ now : Traffic, now.Sound config ∧ property now →
      (incidents.foldl Traffic.take now).Sound config ∧
        property (incidents.foldl Traffic.take now) from
    later (start config) ⟨sound_start config, first⟩
  induction incidents with
  | nil => exact fun now good => good
  | cons incident rest ih => exact fun now good => ih _ (kept.take good.1 good.2 incident)

theorem run_sound (config : Config) (incidents : List Incident) :
    (run config incidents).Sound config := by
  have kept : Kept config fun _ => True :=
    ⟨fun _ _ => id, fun _ _ _ => id, fun _ _ _ _ => id⟩
  exact (kept.run trivial incidents).1

end Traffic

end VirtualInstrument.Serial
