import VirtualInstrument.Equipment
import VirtualInstrument.Proofs.Outcomes
import VirtualInstrument.Proofs.Replay.Strict
import VirtualInstrument.Proofs.Serial.Answers
import VirtualInstrument.Proofs.Text.Trim
import VirtualInstrument.Proofs.Text.Utf8
/- A recording is faithful: a script hears through a recorder what the instrument itself would have
   said, the log is the calls that were answered, and a replay of the log answers them again. -/
namespace VirtualInstrument
open Instrument

def LogEntry.untimed (entry : LogEntry) : Kind × Text × Option Text :=
  (entry.kind, entry.command, entry.response)

def logged (served : Sending × Response) : Kind × Text × Option Text :=
  (served.1.kind, Text.trim served.1.command, served.2.text?)

namespace Recorder

variable {σ ε : Type} [Instrument σ ε]

def around : Turn σ → Turn (Recorder σ)
  | .send call => .send call
  | .outside change => .outside fun recorder => { recorder with inner := change recorder.inner }

theorem readClock_keeps (recorder : Recorder σ) :
    recorder.readClock.2.inner = recorder.inner ∧ recorder.readClock.2.log = recorder.log := by
  unfold readClock
  split <;> exact ⟨rfl, rfl⟩

theorem start_keeps (inner : σ) (stopwatch : Option (Feed Float)) (wall : Feed Float) :
    (start inner stopwatch wall).inner = inner ∧ (start inner stopwatch wall).log = [] :=
  readClock_keeps ⟨inner, 0, [], stopwatch, wall⟩

theorem record_keeps (recorder : Recorder σ) (call : Sending) (response : Response) :
    let recorded := recorder.record call.kind call.command response
    recorded.inner = recorder.inner ∧
      recorded.log.map (·.untimed) = recorder.log.map (·.untimed) ++ [logged (call, response)] := by
  obtain ⟨inner, log⟩ := readClock_keeps recorder
  refine ⟨inner, ?_⟩
  simp only [record, log, List.map_append]
  rfl

theorem send_recorder (recorder : Recorder σ) (call : Sending) :
    (send recorder call).result = (send recorder.inner call).result ∧
      (send recorder call).next.inner = (send recorder.inner call).next ∧
      (send recorder call).next.log.map (·.untimed) = recorder.log.map (·.untimed) ++
        (answered [(call, (send recorder.inner call).result)]).map logged := by
  have unfolded : send recorder call =
      Recorder.exchange recorder call.kind call.command call.delay := rfl
  have inner : send recorder.inner call =
      Instrument.exchange recorder.inner call.kind call.command call.delay := rfl
  rw [unfolded, Recorder.exchange, ← inner]
  cases result : (send recorder.inner call).result with
  | error fault =>
    refine ⟨rfl, rfl, ?_⟩
    rw [answered_cons_error, answered_nil, List.map_nil, List.append_nil]
  | ok response =>
    obtain ⟨kept, grown⟩ :=
      record_keeps { recorder with inner := (send recorder.inner call).next } call response
    exact ⟨rfl, kept, grown⟩

theorem converse_recorder (turns : List (Turn σ)) (recorder : Recorder σ) :
    let heard := (converse recorder.inner turns).1
    let run := converse recorder (turns.map around)
    run.1 = heard ∧ run.2.inner = (converse recorder.inner turns).2 ∧
      run.2.log.map (·.untimed) = recorder.log.map (·.untimed) ++ (answered heard).map logged := by
  induction turns generalizing recorder with
  | nil => simp [converse, answered_nil]
  | cons turn rest ih =>
    cases turn with
    | outside change => exact ih { recorder with inner := change recorder.inner }
    | send call =>
      obtain ⟨result, inner, log⟩ := send_recorder recorder call
      have later := ih (send recorder call).next
      rw [inner, log] at later
      obtain ⟨others, last, whole⟩ := later
      refine ⟨?_, last, ?_⟩
      · simp only [List.map_cons, around, converse, result]
        rw [others]
      · have split : answered (converse recorder.inner (.send call :: rest)).1 =
            answered [(call, (send recorder.inner call).result)] ++
              answered (converse (send recorder.inner call).next rest).1 := by
          rw [← answered_append]
          rfl
        rw [split, List.map_append, ← List.append_assoc]
        exact whole

end Recorder

namespace Replay

/-- A response comes back from the text that is logged of it. The bytes of a text that is not
    well-formed are those of the mended one. -/
theorem ofText_text? {kind : Kind} {response : Response} (fits : response.Fits kind) :
    .ofText (response.text?.getD []) kind = response := by
  obtain ⟨t, rfl⟩ := fits
  cases kind with
  | write => rfl
  | query => rfl
  | rawQuery =>
    have bytes := Text.toUtf8_ofUtf8_toUtf8 t
    simp only [Response.ofText, Response.text?, Option.getD_some, bytes]

theorem send_logged {replay : Replay} {entry : LogEntry} {served : Sending × Response}
    (found : replay.log[replay.cursor]? = some entry) (same : entry.untimed = logged served)
    (fits : served.2.Fits served.1.kind) :
    (send replay served.1).result = .ok served.2 ∧
      (send replay served.1).next = { replay with cursor := replay.cursor + 1 } := by
  have kind : entry.kind = served.1.kind := congrArg (·.1) same
  have command : entry.command = Text.trim served.1.command := congrArg (·.2.1) same
  have response : entry.response = served.2.text? := congrArg (·.2.2) same
  have meets : Meets served.1 entry := by
    refine ⟨?_, ?_⟩
    · rw [kind]
      cases served.1.kind <;> constructor
    · rw [command, Text.trim_trim]
  rcases send_cases replay served.1 with ⟨other, found_other, _, result, next⟩ | ⟨unmet, _⟩
  · rw [found] at found_other
    cases found_other
    rw [response, ofText_text? fits] at result
    exact ⟨result, next⟩
  · exact absurd meets (unmet entry found)

/-- What is ahead in the log of a replay is served, call by call. -/
theorem converse_logged (ahead : List (Sending × Response)) (replay : Replay)
    (same : (replay.log.drop replay.cursor).map (·.untimed) = ahead.map logged)
    (fits : ∀ served ∈ ahead, served.2.Fits served.1.kind) :
    converse replay (ahead.map fun served => .send served.1) =
      (ahead.map fun served => (served.1, .ok served.2),
        { replay with cursor := replay.cursor + ahead.length }) := by
  induction ahead generalizing replay with
  | nil => rfl
  | cons served rest ih =>
    obtain ⟨first, later⟩ := List.forall_mem_cons.mp fits
    cases left : replay.log.drop replay.cursor with
    | nil =>
      rw [left] at same
      cases same
    | cons entry entries =>
      rw [left, List.map_cons, List.map_cons] at same
      obtain ⟨here, behind⟩ := List.cons.inj same
      have found : replay.log[replay.cursor]? = some entry := by
        have head : (replay.log.drop replay.cursor)[0]? = replay.log[replay.cursor + 0]? :=
          List.getElem?_drop
        rw [left] at head
        exact head.symm
      obtain ⟨result, next⟩ := send_logged found here first
      have dropped : replay.log.drop (replay.cursor + 1) = entries := by
        rw [← List.tail_drop, left, List.tail_cons]
      have others := ih { replay with cursor := replay.cursor + 1 }
        (by rw [dropped]; exact behind) later
      have counted : replay.cursor + 1 + rest.length = replay.cursor + (rest.length + 1) := by omega
      rw [List.map_cons, converse, result, next, others]
      simp only [List.map_cons, List.length_cons, counted]

end Replay

/-- What a recorder hears, keeps and logs, beside the conversation with the instrument alone, and
    what becomes of its log: a replay answers the answered calls again, made as they were made
    first, and is complete, and recording that replay gives the same log. -/
structure Faithful {σ ε : Type} [Instrument σ ε] (inner : σ) (turns : List (Turn σ))
    (recorder : Recorder σ) : Prop where
  hears : (converse recorder (turns.map Recorder.around)).1 = (converse inner turns).1
  keeps : (converse recorder (turns.map Recorder.around)).2.inner = (converse inner turns).2
  logs : (converse recorder (turns.map Recorder.around)).2.log.map (·.untimed) =
    (answered (converse inner turns).1).map logged
  replays : ∀ (model : Text) (timeout : Option Float) (debug : Bool),
    let log := (converse recorder (turns.map Recorder.around)).2.log
    let served := answered (converse inner turns).1
    let replay := Replay.start model log timeout debug
    let run := converse replay (served.map fun (call, _) => .send call)
    run.1 = served.map (fun (call, response) => (call, .ok response)) ∧
      run.2.isComplete = true ∧
      ∀ stopwatch wall, (converse (Recorder.start replay stopwatch wall)
        (served.map fun (call, _) => .send call)).2.log.map (·.untimed) = log.map (·.untimed)

theorem answered_all_ok {ε : Type} (served : List (Sending × Response)) :
    answered (served.map fun (call, response) =>
      (call, (.ok response : Except ε Response))) = served := by
  induction served with
  | nil => rfl
  | cons first rest ih =>
    rw [List.map_cons, answered_cons_ok, ih]

theorem recorder_faithful {σ ε : Type} [Instrument σ ε] {property : σ → Prop}
    (answers : AnswersInKind property) {inner : σ} (start : property inner) (turns : List (Turn σ))
    (kept : ∀ turn ∈ turns, turn.Keeps property) (stopwatch : Option (Feed Float))
    (wall : Feed Float) : Faithful inner turns (Recorder.start inner stopwatch wall) := by
  obtain ⟨begun, empty⟩ := Recorder.start_keeps inner stopwatch wall
  obtain ⟨heard, last, log⟩ :=
    Recorder.converse_recorder turns (Recorder.start inner stopwatch wall)
  rw [begun] at heard last log
  rw [empty, List.map_nil, List.nil_append] at log
  refine ⟨heard, last, log, ?_⟩
  intro model timeout debug entries served replay run
  have fits : ∀ call ∈ served, call.2.Fits call.1.kind := answered_fits answers turns start kept
  have whole : run = (served.map fun (call, response) => (call, .ok response),
      { replay with cursor := 0 + served.length }) :=
    Replay.converse_logged served replay log fits
  have lengths : entries.length = served.length := by
    have counted := congrArg List.length log
    simpa using counted
  refine ⟨?_, ?_, ?_⟩
  · rw [whole]
  · rw [whole, Replay.isComplete, decide_eq_true_iff, Nat.zero_add, ← lengths]
    exact Nat.le_refl _
  · intro stopwatch wall
    obtain ⟨inside, fresh⟩ := Recorder.start_keeps replay stopwatch wall
    have again := (Recorder.converse_recorder (served.map fun (call, _) => .send call)
      (Recorder.start replay stopwatch wall)).2.2
    have sends : (served.map fun (call, _) => (.send call : Turn Replay)).map Recorder.around =
        served.map fun (call, _) => .send call := by
      rw [List.map_map]
      rfl
    have outcome : (converse replay (served.map fun (call, _) => .send call)).1 =
        served.map fun (call, response) => (call, .ok response) := by
      have first := congrArg Prod.fst whole
      exact first
    rw [inside, fresh, sends, outcome, answered_all_ok] at again
    exact again.trans log.symm

namespace Equipment

/-- The equipment that a script can have: any simulation, any replay, and a serial line on a bench
    that can be reached. -/
inductive Available : Equipment → Prop
  | simulated (sim : Simulator) : Available (.simulated sim)
  | replayed (replay : Replay) : Available (.replayed replay)
  | serial {bench : Serial.Bench} (reachable : bench.Reachable) : Available (.serial bench)

theorem simulator_fits {sim : Simulator} {call : Sending} {response : Response}
    (returned : (send sim call).result = .ok response) : response.Fits call.kind := by
  have unfolded : send sim call = sim.exchange call.kind call.command call.delay := rfl
  rw [unfolded, Simulator.exchange] at returned
  cases resolved : (sim.resolve call.command).result with
  | error fault =>
    rw [resolved] at returned
    cases returned
  | ok t =>
    rw [resolved] at returned
    cases returned
    exact ⟨t, rfl⟩

theorem replay_fits {replay : Replay} {call : Sending} {response : Response}
    (returned : (send replay call).result = .ok response) : response.Fits call.kind := by
  rcases Replay.send_cases replay call with ⟨entry, _, _, result, _⟩ | ⟨_, fault, result, _⟩
  · rw [result] at returned
    cases returned
    exact ⟨_, rfl⟩
  · rw [result] at returned
    cases returned

theorem available_answers_in_kind : AnswersInKind Available where
  next := by
    intro equipment call available
    cases available with
    | simulated sim => exact .simulated _
    | replayed replay => exact .replayed _
    | serial reachable => exact .serial (Serial.Bench.reachable_call reachable _)
  fits := by
    intro equipment call response available returned
    cases available with
    | simulated sim => exact simulator_fits (ok_of_mapError returned)
    | replayed replay => exact replay_fits (ok_of_mapError returned)
    | @serial bench reachable =>
      exact Serial.Bench.reachable_call_fits reachable
        (.exchange call.kind call.command call.delay) (ok_of_mapError returned)

theorem available_control (call : Control) {equipment : Equipment}
    (available : Available equipment) : Available (Instrument.control equipment call).next := by
  cases available with
  | simulated sim => exact .simulated _
  | replayed replay => exact .replayed _
  | serial reachable =>
    cases call with
    | connect => exact .serial (Serial.Bench.reachable_call reachable _)
    | disconnect => exact .serial (Serial.Bench.reachable_call reachable _)
    | close => exact .serial (Serial.Bench.reachable_call reachable _)
    | setTimeout ms => exact .serial (reachable.setTimeout ms)

end Equipment

/-- Whatever stands behind a recorder, whatever its clocks show and whatever a script sends, the
    recording is faithful. -/
theorem equipment_recording_faithful {equipment : Equipment}
    (available : Equipment.Available equipment) (turns : List (Turn Equipment))
    (kept : ∀ turn ∈ turns, turn.Keeps Equipment.Available) (stopwatch : Option (Feed Float))
    (wall : Feed Float) :
    Faithful equipment turns (Recorder.start equipment stopwatch wall) :=
  recorder_faithful Equipment.available_answers_in_kind available turns kept stopwatch wall

def sessionOfOneQuery : Equipment :=
  .replayed (.start (text "DMM") [⟨.query, text "V?", some (text "5"), 0⟩] none false)

def connectAndQueryTwice : List (Turn Equipment) :=
  [.outside fun equipment => (Instrument.control equipment .connect).next,
    .send ⟨.rawQuery, text " V? ", none⟩, .send ⟨.query, text "V?", none⟩]

theorem one_query_of_two_is_logged :
    (converse (Recorder.start sessionOfOneQuery none (.constant 0))
      (connectAndQueryTwice.map Recorder.around)).2.log.map (·.untimed) =
        [(.rawQuery, text "V?", some (text "5"))] := by
  have available : Equipment.Available sessionOfOneQuery := .replayed _
  have kept : ∀ turn ∈ connectAndQueryTwice, turn.Keeps Equipment.Available :=
    List.forall_mem_cons.mpr ⟨fun _ before => Equipment.available_control .connect before,
      by simp [Turn.Keeps]⟩
  have faithful :=
    equipment_recording_faithful available connectAndQueryTwice kept none (.constant 0)
  rw [faithful.logs]
  decide

end VirtualInstrument
