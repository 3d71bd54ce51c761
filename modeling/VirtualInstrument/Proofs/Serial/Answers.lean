import VirtualInstrument.Proofs.Serial.Kinds
import VirtualInstrument.Serial.Bench
/- Whatever happens on a serial bench, a call returns a response of its own kind. -/
namespace VirtualInstrument.Serial.Bench

def Call.kind : Call → Kind
  | .exchange kind _ _ => kind
  | .connect | .close => .write

structure InKind (kinds : List Kind) (bench : Bench) : Prop where
  counted : bench.calls = kinds.length
  link : bench.link.InKind kinds
  due : ∀ input ∈ bench.due, input.InKind kinds
  timers : ∀ timer ∈ bench.timers, timer.input.InKind kinds
  finished : ∀ ticket response, (ticket, .ok response) ∈ bench.finished →
    Owed kinds ticket response

variable {kinds : List Kind} {bench : Bench}

theorem follow_in_kind {input : Input} (inKind : bench.InKind kinds)
    (fits : input.InKind kinds) : (bench.follow input).InKind kinds := by
  refine ⟨inKind.counted, inKind.link, ?_, inKind.timers, inKind.finished⟩
  intro other member
  rcases List.mem_append.mp member with old | new
  · exact inKind.due other old
  · cases List.mem_singleton.mp new
    exact fits

theorem emit_in_kind (inKind : bench.InKind kinds) (event : Event) :
    (bench.emit event).InKind kinds :=
  ⟨inKind.counted, inKind.link, inKind.due, inKind.timers, inKind.finished⟩

theorem arm_in_kind {input : Input} (inKind : bench.InKind kinds) (fits : input.InKind kinds)
    (ms : Float) : (bench.arm ms input).InKind kinds := by
  refine ⟨inKind.counted, inKind.link, inKind.due, ?_, inKind.finished⟩
  intro timer member
  rcases List.mem_append.mp member with old | new
  · exact inKind.timers timer old
  · cases List.mem_singleton.mp new
    exact fits

theorem send_in_kind (inKind : bench.InKind kinds) (device : DeviceId) (data : Text) :
    (bench.send device data).InKind kinds := by
  have sending := emit_in_kind inKind (.deviceSent data)
  have sent : ((bench.emit (.deviceSent data)).follow (.written none)).InKind kinds :=
    follow_in_kind sending trivial
  unfold send
  cases bench.writeError with
  | some message => exact follow_in_kind sending trivial
  | none =>
    simp only
    split
    · exact ⟨sent.counted, sent.link, List.forall_mem_cons.mpr ⟨trivial, sent.due⟩, sent.timers,
        sent.finished⟩
    · exact ⟨sent.counted, sent.link, sent.due, sent.timers, sent.finished⟩

theorem perform_in_kind {effect : Effect} (inKind : bench.InKind kinds)
    (fits : effect.InKind kinds) : (bench.perform effect).InKind kinds := by
  cases effect with
  | make device => exact emit_in_kind inKind _
  | openDevice ticket device => exact follow_in_kind (emit_in_kind inKind _) trivial
  | send device data => exact send_in_kind inKind device data
  | shut device => exact follow_in_kind (emit_in_kind inKind _) trivial
  | arm ticket ms =>
    have fits : (Input.expired ticket).InKind kinds := trivial
    exact arm_in_kind inKind fits ms
  | disarm ticket =>
    refine ⟨inKind.counted, inKind.link, inKind.due, ?_, inKind.finished⟩
    intro timer member
    exact inKind.timers timer (List.mem_filter.mp member).1
  | pause ms =>
    have fits : Input.rested.InKind kinds := trivial
    simp only [perform]
    split
    · exact follow_in_kind (emit_in_kind inKind _) fits
    · exact arm_in_kind inKind fits ms
  | log line => exact emit_in_kind inKind _
  | later input => exact follow_in_kind inKind fits
  | finish ticket result =>
    refine ⟨inKind.counted, inKind.link, inKind.due, inKind.timers, ?_⟩
    intro other response member
    rcases List.mem_append.mp member with old | new
    · exact inKind.finished other response old
    · cases List.mem_singleton.mp new
      exact fits
  | abort => exact ⟨inKind.counted, inKind.link, inKind.due, inKind.timers, inKind.finished⟩

theorem performAll_in_kind {effects : List Effect} (inKind : bench.InKind kinds)
    (fits : ∀ effect ∈ effects, effect.InKind kinds) :
    (effects.foldl perform bench).InKind kinds := by
  induction effects generalizing bench with
  | nil => exact inKind
  | cons effect rest ih =>
    obtain ⟨first, later⟩ := List.forall_mem_cons.mp fits
    exact ih (perform_in_kind inKind first) later

theorem feed_in_kind {input : Input} (inKind : bench.InKind kinds) (fits : input.InKind kinds) :
    (bench.feed input).InKind kinds := by
  have move := Link.step_in_kind inKind.link fits
  have stepped : ({ bench with link := (bench.link.step input).1 } : Bench).InKind kinds :=
    ⟨inKind.counted, move.1, inKind.due, inKind.timers, inKind.finished⟩
  unfold feed
  split
  · exact inKind
  · exact performAll_in_kind stepped move.2

theorem nextTimer?_mem {timers : List Timer} {timer : Timer}
    (next : nextTimer? timers = some timer) : timer ∈ timers := by
  induction timers with
  | nil => cases next
  | cons first rest ih =>
    rw [nextTimer?] at next
    split at next
    · cases next
      exact List.mem_cons_self
    · rename_i other found
      split at next
      · cases next
        exact List.mem_cons_of_mem _ (ih found)
      · cases next
        exact List.mem_cons_self

theorem advance?_in_kind {next : Bench} (inKind : bench.InKind kinds)
    (advanced : bench.advance? = some next) : next.InKind kinds := by
  unfold advance? at advanced
  split at advanced
  · cases advanced
  split at advanced
  · rename_i input rest due
    cases advanced
    have all := inKind.due
    rw [due] at all
    obtain ⟨fits, later⟩ := List.forall_mem_cons.mp all
    exact feed_in_kind ⟨inKind.counted, inKind.link, later, inKind.timers, inKind.finished⟩ fits
  · cases chosen : nextTimer? bench.timers with
    | none =>
      rw [chosen] at advanced
      cases advanced
    | some timer =>
      rw [chosen] at advanced
      cases advanced
      have fits := inKind.timers timer (nextTimer?_mem chosen)
      exact ⟨inKind.counted, inKind.link, by simpa using fits,
        fun other member => inKind.timers other (List.mem_of_mem_erase member), inKind.finished⟩

theorem advance_in_kind (fuel : Nat) (inKind : bench.InKind kinds) :
    (bench.advance fuel).InKind kinds := by
  induction fuel generalizing bench with
  | zero => exact inKind
  | succ fuel ih =>
    rw [advance]
    cases advanced : bench.advance? with
    | none => exact inKind
    | some next => exact ih (advance?_in_kind inKind advanced)

theorem clear_in_kind (inKind : bench.InKind kinds) : bench.clear.InKind kinds :=
  ⟨inKind.counted, inKind.link, inKind.due, inKind.timers, by simp [clear]⟩

theorem more_in_kind {input : Input} (fits : input.InKind kinds) (more : List Kind) :
    input.InKind (kinds ++ more) := by
  cases input <;> first | exact asked_more fits more | trivial

theorem phase_more {ticket : Ticket} {phase : Phase} (fits : phase.InKind kinds ticket)
    (more : List Kind) : phase.InKind (kinds ++ more) ticket := by
  cases phase <;> first | exact asked_more fits more | exact owed_more fits more

theorem begin_in_kind (inKind : bench.InKind kinds) (call : Call) :
    (bench.begin call).2.InKind (kinds ++ [call.kind]) := by
  have asked : Asked (kinds ++ [call.kind]) bench.calls call.kind := by
    rw [Asked, inKind.counted, List.getElem?_concat_length]
  have fits : (call.input bench.calls).InKind (kinds ++ [call.kind]) := by
    cases call <;> exact asked
  have link : bench.link.InKind (kinds ++ [call.kind]) :=
    ⟨fun ticket device member => asked_more (inKind.link.opening ticket device member) _,
      fun ticket job member => asked_more (inKind.link.waiting ticket job member) _,
      fun holder held => phase_more (inKind.link.holder holder held) _,
      fun ticket member => asked_more (inKind.link.leaving ticket member) _⟩
  refine feed_in_kind ⟨?_, link, ?_, ?_, ?_⟩ fits
  · simp [inKind.counted]
  · exact fun input member => more_in_kind (inKind.due input member) _
  · exact fun timer member => more_in_kind (inKind.timers timer member) _
  · exact fun ticket response member => owed_more (inKind.finished ticket response member) _

theorem call_fits {response : Response} (inKind : bench.InKind kinds) (c : Call)
    (answered : (bench.call c).result = .ok response) : response.Fits c.kind := by
  have settled := advance_in_kind (stepsOfCall * (bench.clear.begin c).2.calls)
    (begin_in_kind (clear_in_kind inKind) c)
  have returned : (bench.clear.begin c).2.settle.result? bench.calls = some (.ok response) := by
    cases result : (bench.clear.begin c).2.settle.result? bench.calls with
    | none =>
      have open_call : (bench.call c).result = .error .notOpened := by
        simp only [call, begin, clear] at result ⊢
        rw [result]
        rfl
      rw [open_call] at answered
      cases answered
    | some outcome =>
      have same : (bench.call c).result = outcome := by
        simp only [call, begin, clear] at result ⊢
        rw [result]
        rfl
      rw [← same, answered]
  obtain ⟨earlier, later, split, _⟩ := List.lookup_eq_some_iff.mp returned
  have listed : (bench.calls, .ok response) ∈ (bench.clear.begin c).2.settle.finished := by
    rw [split]
    exact List.mem_append_right _ List.mem_cons_self
  obtain ⟨kind, asked, fits⟩ := settled.finished _ _ listed
  rw [Asked, inKind.counted, List.getElem?_concat_length] at asked
  cases asked
  exact fits

/-- The benches that a script can come to. Calls may overlap, the device may be lost and lines may
    come in at any time, and the script may change what the device is going to do. -/
inductive Reachable : Bench → Prop
  | start (config : Config) (instant : Bool) : Reachable (.start config instant)
  | begin {bench : Bench} (reachable : Reachable bench) (call : Call) :
      Reachable (bench.begin call).2
  | advance {bench next : Bench} (reachable : Reachable bench)
      (advanced : bench.advance? = some next) : Reachable next
  | clear {bench : Bench} (reachable : Reachable bench) : Reachable bench.clear
  | setTimeout {bench : Bench} (reachable : Reachable bench) (ms : Float) :
      Reachable (bench.setTimeout ms).2
  | lose {bench : Bench} (reachable : Reachable bench) (loss : Loss) :
      Reachable (bench.lose loss).2
  | receive {bench : Bench} (reachable : Reachable bench) (t : Text) :
      Reachable (bench.receive t).2
  | script {bench : Bench} (reachable : Reachable bench) (replies : List (Option Text))
      (openError writeError : Option Text) :
      Reachable { bench with replies, openError, writeError }

theorem reachable_advance (fuel : Nat) (reachable : bench.Reachable) :
    (bench.advance fuel).Reachable := by
  induction fuel generalizing bench with
  | zero => exact reachable
  | succ fuel ih =>
    rw [advance]
    cases advanced : bench.advance? with
    | none => exact reachable
    | some next => exact ih (reachable.advance advanced)

theorem reachable_call (reachable : bench.Reachable) (c : Call) :
    (bench.call c).next.Reachable :=
  (reachable_advance _ (reachable.clear.begin c)).clear

theorem reachable_in_kind (reachable : bench.Reachable) : ∃ kinds, bench.InKind kinds := by
  induction reachable with
  | start config instant =>
    exact ⟨[], rfl, ⟨by simp [start, Link.start], by simp [start, Link.start],
      by simp [start, Link.start], by simp [start, Link.start]⟩, by simp [start], by simp [start],
      by simp [start]⟩
  | begin _ call ih =>
    obtain ⟨kinds, inKind⟩ := ih
    exact ⟨_, begin_in_kind inKind call⟩
  | advance _ advanced ih =>
    obtain ⟨kinds, inKind⟩ := ih
    exact ⟨kinds, advance?_in_kind inKind advanced⟩
  | clear _ ih =>
    obtain ⟨kinds, inKind⟩ := ih
    exact ⟨kinds, clear_in_kind inKind⟩
  | setTimeout _ ms ih =>
    obtain ⟨kinds, inKind⟩ := ih
    refine ⟨kinds, ?_⟩
    unfold setTimeout Link.setTimeout
    split
    · rename_i link timed
      split at timed
      · cases timed
      · cases timed
        have link := inKind.link
        exact ⟨inKind.counted, ⟨link.opening, link.waiting, link.holder, link.leaving⟩,
          inKind.due, inKind.timers, inKind.finished⟩
    · exact inKind
  | @lose bench _ loss ih =>
    obtain ⟨kinds, inKind⟩ := ih
    refine ⟨kinds, ?_⟩
    unfold lose
    cases bench.lastDevice? with
    | none => exact inKind
    | some device =>
      have fits : (Input.lost device loss).InKind kinds := trivial
      exact feed_in_kind inKind fits
  | @receive bench _ t ih =>
    obtain ⟨kinds, inKind⟩ := ih
    refine ⟨kinds, ?_⟩
    unfold receive
    cases bench.lastDevice? with
    | none => exact inKind
    | some device =>
      have fits : (Input.line device t).InKind kinds := trivial
      exact feed_in_kind inKind fits
  | script _ replies openError writeError ih =>
    obtain ⟨kinds, inKind⟩ := ih
    exact ⟨kinds, inKind.counted, inKind.link, inKind.due, inKind.timers, inKind.finished⟩

theorem reachable_call_fits {response : Response} (reachable : bench.Reachable) (c : Call)
    (answered : (bench.call c).result = .ok response) : response.Fits c.kind := by
  obtain ⟨kinds, inKind⟩ := reachable_in_kind reachable
  exact call_fits inKind c answered

end VirtualInstrument.Serial.Bench
