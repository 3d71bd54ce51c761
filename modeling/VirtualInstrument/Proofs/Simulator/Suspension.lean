import VirtualInstrument.Proofs.Simulator.Observers
import VirtualInstrument.Proofs.Simulator.Separation
/- One transition behind every call. A write, a query and a raw query of one command do the same to a
   simulation and succeed or fail alike; and whatever a call changes it has changed before its first
   pause. -/
namespace VirtualInstrument.Simulator

open Dispatch Expression Instrument

/-- Something that happens in a call, and the simulation as it is then. -/
structure Moment where
  event : Event
  sim : Simulator

def during (sim : Simulator) (events : List Event) : List Moment := events.map (⟨·, sim⟩)

def ruleMoments (sim : Simulator) (command : Text) : List MatchedRule → List Moment
  | [] => []
  | matched :: rest =>
    match sim.drawing (ofEvaluation (scopeOf sim.store matched.captures)
        matched.rule.condition) with
    | (.error _, _) => []
    | (.ok value, next) =>
      if value.isTruthy next.store.heap then
        let queue := next.queue.push ⟨matched.rule.code, matched.rule.message⟩
        next.during (sim.queued matched.rule command) ++
          ruleMoments { next with queue } command rest
      else ruleMoments next command rest

/-- A call up to the last of its rules, moment by moment. -/
def early (sim : Simulator) (call : Sending) : List Moment :=
  let stripped := Text.trim call.command
  let answered := sim.respondTo stripped
  let first := sim.during (sim.note (text " << " ++ stripped) ++ answered.events)
  match answered.result with
  | .error _ => first
  | .ok (_, captures) =>
    first ++ answered.next.ruleMoments stripped (sim.table.matchErrors call.command captures)

def late (sim : Simulator) (call : Sending) : List Moment :=
  let stripped := Text.trim call.command
  let answered := sim.respondTo stripped
  match answered.result with
  | .error _ => []
  | .ok (resolution, captures) =>
    let checked := answered.next.checkRules stripped (sim.table.matchErrors call.command captures)
    match checked.result with
    | .error _ => []
    | .ok () =>
      checked.next.during (sim.busy resolution.delay ++
        sim.note (text " >> " ++ resolution.response) ++ settle call.kind call.delay)

def moments (sim : Simulator) (call : Sending) : List Moment := sim.early call ++ sim.late call

def entryTime : Entry Stored → Float
  | .actions actions => actions.delay
  | _ => 0

def busyTime (sim : Simulator) (command : Text) : Float :=
  match sim.table.match? command with
  | some found => entryTime found.entry
  | none => 0

def pauseFor (seconds : Float) : List Float := if seconds > 0 then [seconds * 1000] else []

def askedPause : Kind → Option Float → List Float
  | .write, _ => []
  | _, delay => delay.toList.flatMap pauseFor

/-- A command that can change the state: its entry has actions that name a key, or it is the common
    command that resets. -/
def CanChange (sim : Simulator) (command : Text) : Prop :=
  (∃ found actions, sim.table.match? command = some found ∧ found.entry = .actions actions ∧
    targets actions ≠ []) ∨ sim.common? command = some .reset

theorem events_during (sim : Simulator) (events : List Event) :
    (sim.during events).map (·.event) = events := by
  rw [during, List.map_map]
  exact List.map_id _

theorem events_ruleMoments (sim : Simulator) (command : Text) (rules : List MatchedRule) :
    (sim.ruleMoments command rules).map (·.event) = (sim.checkRules command rules).events := by
  induction rules generalizing sim with
  | nil => rfl
  | cons matched rest ih =>
    cases run : sim.drawing (ofEvaluation (scopeOf sim.store matched.captures)
        matched.rule.condition) with
    | mk outcome next =>
      cases outcome with
      | error fault => simp only [ruleMoments, checkRules, run, List.map_nil]
      | ok value =>
        by_cases holds : value.isTruthy next.store.heap = true
        · simp only [ruleMoments, checkRules, run, holds, if_true, List.map_append, events_during,
            ih]
        · simp only [ruleMoments, checkRules, run, holds, if_false, ih, Bool.false_eq_true]

theorem events_moments (sim : Simulator) (call : Sending) :
    (sim.moments call).map (·.event) = (send sim call).events := by
  show _ = (exchange sim call.kind call.command call.delay).events
  cases answer : (sim.respondTo (Text.trim call.command)).result with
  | error fault =>
    simp only [moments, early, late, exchange, resolve, answer, List.append_nil, events_during]
  | ok response =>
    obtain ⟨resolution, captures⟩ := response
    cases verdict : ((sim.respondTo (Text.trim call.command)).next.checkRules
        (Text.trim call.command) (sim.table.matchErrors call.command captures)).result with
    | error fault =>
      simp only [moments, early, late, exchange, resolve, answer, respondTo_table, matchErrors_trim,
        verdict, List.append_nil, List.map_append, events_during, events_ruleMoments]
    | ok done =>
      simp only [moments, early, late, exchange, resolve, answer, respondTo_table, matchErrors_trim,
        verdict, List.map_append, events_during, events_ruleMoments, List.append_assoc]

/-- Nothing pauses before the rules have been checked. -/
theorem pauses_early (sim : Simulator) (call : Sending) :
    pauses ((sim.early call).map (·.event)) = [] := by
  cases answer : (sim.respondTo (Text.trim call.command)).result with
  | error fault =>
    simp only [early, answer, events_during, pauses_append, pauses_note, pauses_respondTo,
      List.append_nil]
  | ok response =>
    simp only [early, answer, List.map_append, events_during, events_ruleMoments, pauses_append,
      pauses_note, pauses_respondTo, pauses_checkRules, List.append_nil]

/-- Nothing changes after the rules have been checked. -/
theorem sim_of_late {sim : Simulator} {call : Sending} {moment : Moment}
    (late : moment ∈ sim.late call) : moment.sim = (send sim call).next := by
  unfold Simulator.late at late
  dsimp only at late
  split at late
  · nomatch late
  · rename_i answer
    split at late
    · nomatch late
    · obtain ⟨event, _, rfl⟩ := List.mem_map.mp late
      exact (send_answered answer).1.symm

theorem rests_askedPause (delay : Float) (call : Sending) :
    rests delay call = pauseFor delay ++ askedPause call.kind call.delay := by
  obtain ⟨kind, command, asked⟩ := call
  have settled : pauses (settle kind asked) = askedPause kind asked := by
    cases kind with
    | write => rfl
    | _ =>
      cases asked with
      | none => rfl
      | some seconds =>
        by_cases positive : seconds > 0
        · simp [settle, askedPause, pauseFor, positive, pauses]
        · simp [settle, askedPause, pauseFor, positive, pauses]
  rw [rests, settled, pauseFor]

theorem perform_delay {sim : Simulator} {actions : Actions Stored} {captures : List Text}
    {resolution : Resolution} (done : (sim.perform actions captures).1 = .ok resolution) :
    resolution.delay = actions.delay := by
  unfold perform at done
  split at done
  · cases done
  · rename_i next _
    dsimp only at done
    cases responded : (next.respond actions captures).1 with
    | error fault =>
      rw [responded] at done
      cases done
    | ok t =>
      rw [responded] at done
      cases done
      rfl

theorem execute_delay {sim : Simulator} {entry : Entry Stored} {captures : List Text}
    {resolution : Resolution} (done : (sim.execute entry captures).1 = .ok resolution) :
    resolution.delay = entryTime entry := by
  cases entry with
  | actions actions => exact perform_delay done
  | dynamic expression =>
    have idle : Gives (α := Resolution) (do
        let value ← ofEvaluation (scopeOf sim.store captures) expression
        let t ← liftM (render sim.store.heap value)
        pure ⟨t, 0⟩) (·.delay = 0) :=
      gives_bind (gives_any _) fun _ _ => gives_bind (gives_any _) fun _ _ => gives_pure rfl
    exact idle sim.sources resolution done
  | _ =>
    cases done
    rfl

theorem match?_of_common {sim : Simulator} {command : Text} {common : Common}
    (builtin : sim.common? command = some common) : sim.table.match? command = none := by
  cases matched : sim.table.match? command with
  | none => rfl
  | some found =>
    rw [common?_of_match matched] at builtin
    cases builtin

theorem respondTo_delay {sim : Simulator} {command : Text} {resolution : Resolution}
    {captures : List Text}
    (answered : (sim.respondTo (Text.trim command)).result = .ok (resolution, captures)) :
    resolution.delay = sim.busyTime command := by
  rcases respondTo_cases sim command with
    ⟨found, matched, answer⟩ | ⟨common, builtin, answer⟩ | ⟨unmatched, _, answer⟩
  · rw [answer] at answered
    cases executed : (sim.execute found.entry found.captures).1 with
    | error fault =>
      rw [executed] at answered
      cases answered
    | ok given =>
      rw [executed] at answered
      cases answered
      rw [execute_delay executed, busyTime, matched]
  · rw [answer] at answered
    cases answered
    rw [busyTime, match?_of_common builtin]
  · rw [answer] at answered
    cases answered
    rw [busyTime, unmatched]

theorem mutate_store_of_no_targets {sim : Simulator} {actions : Actions Stored}
    (nothing : targets actions = []) (captures : List Text) :
    (sim.mutate actions captures).2.store = sim.store := by
  obtain ⟨delay, set, inc, dec, get, response⟩ := actions
  simp only [targets, List.map_eq_nil_iff, List.append_eq_nil_iff] at nothing
  obtain ⟨⟨rfl, rfl⟩, rfl⟩ := nothing
  rfl

theorem canChange_of_respondTo {sim : Simulator} {command : Text}
    (changed : (sim.respondTo (Text.trim command)).next.store ≠ sim.store) :
    sim.CanChange command := by
  rcases respondTo_cases sim command with
    ⟨found, matched, answer⟩ | ⟨common, builtin, answer⟩ | ⟨_, _, answer⟩
  · rw [answer] at changed
    cases entry : found.entry with
    | actions actions =>
      refine .inl ⟨found, actions, matched, entry, fun nothing => changed ?_⟩
      rw [entry]
      exact (perform_alike sim actions found.captures).store.trans
        (mutate_store_of_no_targets nothing found.captures)
    | _ =>
      rw [entry] at changed
      exact absurd rfl changed
  · rw [answer] at changed
    cases common with
    | reset => exact .inr builtin
    | _ => exact absurd rfl changed
  · rw [answer] at changed
    exact absurd (ignore_alike sim).store changed

theorem pauses_send (sim : Simulator) (call : Sending) :
    pauses (send sim call).events =
      match (send sim call).result with
      | .error _ => []
      | .ok _ => pauseFor (sim.busyTime call.command) ++ askedPause call.kind call.delay := by
  rw [← events_moments, moments, List.map_append, pauses_append, pauses_early, List.nil_append]
  cases answer : (sim.respondTo (Text.trim call.command)).result with
  | error fault =>
    rw [(send_failed answer).1]
    simp only [late, answer]
    rfl
  | ok response =>
    obtain ⟨resolution, captures⟩ := response
    obtain ⟨_, result⟩ := send_answered answer
    cases verdict : ((sim.respondTo (Text.trim call.command)).next.checkRules
        (Text.trim call.command) (sim.table.matchErrors call.command captures)).result with
    | error fault =>
      rw [verdict] at result
      rw [result]
      simp only [late, answer, verdict]
      rfl
    | ok done =>
      rw [verdict] at result
      rw [result]
      simp only [late, answer, verdict, events_during, pauses_append, pauses_busy, pauses_note,
        List.append_nil]
      rw [← respondTo_delay answer]
      exact rests_askedPause resolution.delay call

theorem send_resolve (sim : Simulator) (kind : Kind) (command : Text) (delay : Option Float) :
    (send sim ⟨kind, command, delay⟩).next = (sim.resolve command).next ∧
      (send sim ⟨kind, command, delay⟩).result =
        (sim.resolve command).result.map (Response.ofText · kind) := by
  show (exchange sim kind command delay).next = _ ∧ (exchange sim kind command delay).result = _
  cases resolved : (sim.resolve command).result with
  | error fault =>
    simp only [exchange, resolved]
    exact ⟨trivial, rfl⟩
  | ok t =>
    simp only [exchange, resolved]
    exact ⟨trivial, rfl⟩

theorem resolve_answered {sim : Simulator} {command : Text} {resolution : Resolution}
    {captures : List Text}
    (answered : (sim.respondTo (Text.trim command)).result = .ok (resolution, captures)) :
    let checked := (sim.respondTo (Text.trim command)).next.checkRules (Text.trim command)
      (sim.table.matchErrors command captures)
    (sim.resolve command).next = checked.next ∧
      (sim.resolve command).result = checked.result.map fun _ => resolution.response := by
  intro checked
  have same : checked = (sim.respondTo (Text.trim command)).next.checkRules (Text.trim command)
      ((sim.respondTo (Text.trim command)).next.table.matchErrors (Text.trim command)
        captures) := by
    rw [respondTo_table, matchErrors_trim]
  simp only [resolve, answered, ← same]
  cases checked.result with
  | error fault => exact ⟨rfl, rfl⟩
  | ok done => exact ⟨rfl, rfl⟩

/-- The rules of a command have been judged once it is answered: in the state that is left, which
    they leave as it is, with their errors put behind what the answer has left in the queue. -/
def RulesJudged (sim : Simulator) (command : Text) (outcome : Except SimulationFault Text)
    (last : Simulator) : Prop :=
  let answered := sim.respondTo (Text.trim command)
  match answered.result with
  | .error fault => outcome = .error fault ∧ last = answered.next
  | .ok (resolution, captures) =>
    let judged := judgements last.store answered.next.sources
      (sim.table.matchErrors command captures)
    last.store = answered.next.store ∧
    last.queue.entries = answered.next.queue.entries ++ raised last.store judged ∧
    outcome = (match failure? judged with
      | some fault => .error fault
      | none => .ok resolution.response)

theorem resolve_judged (sim : Simulator) (command : Text) :
    sim.RulesJudged command (sim.resolve command).result (sim.resolve command).next := by
  have store := (resolve_alike sim command).store
  cases answer : (sim.respondTo (Text.trim command)).result with
  | error fault =>
    simp only [RulesJudged, resolve, answer]
    exact ⟨trivial, trivial⟩
  | ok response =>
    obtain ⟨resolution, captures⟩ := response
    obtain ⟨next, result⟩ := resolve_answered answer
    obtain ⟨queue, verdict⟩ := checkRules_judged (sim.respondTo (Text.trim command)).next
      (Text.trim command) (sim.table.matchErrors command captures)
    simp only [RulesJudged, answer, store]
    refine ⟨trivial, (congrArg (·.queue.entries) next).trans queue, result.trans ?_⟩
    rw [verdict]
    cases failure? (judgements (sim.respondTo (Text.trim command)).next.store
      (sim.respondTo (Text.trim command)).next.sources
      (sim.table.matchErrors command captures)) with
    | none => rfl
    | some fault => rfl

/-- However a command is sent, it leaves the same simulation and succeeds or fails alike. Only a
    command with changes, or the one that resets, changes the state; rules are judged in the state
    that is left; and all changes come before the first pause, if there is one. -/
theorem every_call_is_one_transition_and_then_pauses (sim : Simulator) (command : Text) :
    ∃ (outcome : Except SimulationFault Text) (last : Simulator),
      (∀ kind delay, (send sim ⟨kind, command, delay⟩).next = last) ∧
      (∀ delay, (send sim ⟨.write, command, delay⟩).result = outcome.map fun _ => .done) ∧
      (∀ delay, (send sim ⟨.query, command, delay⟩).result = outcome.map .line) ∧
      (∀ delay, (send sim ⟨.rawQuery, command, delay⟩).result =
        outcome.map fun t => .bytes (Text.toUtf8 t)) ∧
      (last.store ≠ sim.store → sim.CanChange command) ∧
      sim.RulesJudged command outcome last ∧
      ∀ kind delay,
        let call : Sending := ⟨kind, command, delay⟩
        pauses (send sim call).events =
            (match outcome with
              | .error _ => []
              | .ok _ => pauseFor (sim.busyTime command) ++ askedPause kind delay) ∧
          (sim.early call ++ sim.late call).map (·.event) = (send sim call).events ∧
          pauses ((sim.early call).map (·.event)) = [] ∧
          ∀ moment ∈ sim.late call, moment.sim = last := by
  refine ⟨(sim.resolve command).result, (sim.resolve command).next,
    fun kind delay => (send_resolve sim kind command delay).1,
    fun delay => (send_resolve sim .write command delay).2,
    fun delay => (send_resolve sim .query command delay).2,
    fun delay => (send_resolve sim .rawQuery command delay).2,
    fun changed => canChange_of_respondTo ?_, resolve_judged sim command, ?_⟩
  · rwa [← (resolve_alike sim command).store]
  · intro kind delay call
    obtain ⟨next, result⟩ := send_resolve sim kind command delay
    refine ⟨?_, events_moments sim call, pauses_early sim call,
      fun moment late => (sim_of_late late).trans next⟩
    rw [pauses_send, result]
    cases (sim.resolve command).result with
    | error fault => rfl
    | ok t => rfl

end VirtualInstrument.Simulator
