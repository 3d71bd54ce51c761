import VirtualInstrument.Proofs.Expression.Steady
import VirtualInstrument.Proofs.Simulator.Queueing
/- Two simulations side by side. Error rules and strictness only look on: two simulations that
   differ in these alone go through the same states, rest for the same time and answer the same, but
   for what the error query reports. -/
namespace VirtualInstrument.Simulator

open Dispatch Expression Instrument Scpi

variable {chance clock : Float}

/-- Two simulations that agree in all but their error rules, their queues and how they are watched,
    and that both draw on the same chance and the same time for ever. -/
structure Twins (chance clock : Float) (a b : Simulator) : Prop where
  exact' : a.table.exact = b.table.exact
  patterns : a.table.patterns = b.table.patterns
  identification : a.identification = b.identification
  store : a.store = b.store
  first : a.sources.Constant chance clock
  second : b.sources.Constant chance clock

structure Agree {α : Type} (chance clock : Float)
    (x y : Except SimulationFault α × Simulator) : Prop where
  result : x.1 = y.1
  next : Twins chance clock x.2 y.2

section Steadiness

theorem ofEvaluation_steady (scope : Scope) (expression : Expression) :
    Steady chance clock (ofEvaluation scope expression) := by
  have whole : Steady chance clock (evaluate scope expression.tree) := evaluate_steady scope _
  obtain ⟨outcome, same⟩ := whole
  refine ⟨(outcome.mapError (Unevaluated.mk expression.source)).mapError .failed, ?_⟩
  intro sources constant
  obtain ⟨found, kept⟩ := same sources constant
  refine ⟨?_, kept⟩
  rw [← found]
  rfl

theorem sourceValue_steady (scope : Scope) (source : Source Stored) :
    Steady chance clock (sourceValue scope source) := by
  cases source with
  | literal value => exact steady_pure _
  | template t => exact steady_pure _
  | dynamic expression =>
    exact steady_bind (ofEvaluation_steady scope expression) fun _ => steady_lift _

theorem stageSets_steady (scope : Scope) (list : List (Text × Source Stored))
    (staged : Fields Stored) : Steady chance clock (stageSets scope staged list) := by
  induction list generalizing staged with
  | nil => exact steady_pure _
  | cons assignment rest ih =>
    obtain ⟨key, source⟩ := assignment
    exact steady_bind (sourceValue_steady scope source) fun value => ih (staged.put key value)

theorem stageSteps_steady (store : Store) (scope : Scope) (direction : Direction)
    (list : List (Text × Source Stored)) (staged : Fields Stored) :
    Steady chance clock (stageSteps store scope direction staged list) := by
  induction list generalizing staged with
  | nil => exact steady_pure _
  | cons assignment rest ih =>
    obtain ⟨key, source⟩ := assignment
    exact steady_bind (sourceValue_steady scope source) fun amount =>
      steady_bind (steady_lift _) fun next => ih next

theorem stage_steady (store : Store) (captures : List Text) (actions : Actions Stored) :
    Steady chance clock (stage store captures actions) :=
  steady_bind (stageSets_steady _ _ _) fun _ =>
    steady_bind (stageSteps_steady _ _ _ _ _) fun _ => stageSteps_steady _ _ _ _ _

end Steadiness

section Pairs
variable {a b : Simulator} (twins : Twins chance clock a b)
include twins

theorem drawing_agree {α : Type} {computation : Drawn α}
    (steady : Steady chance clock computation) :
    Agree chance clock (a.drawing computation) (b.drawing computation) := by
  obtain ⟨outcome, same⟩ := steady
  obtain ⟨one, kept⟩ := same a.sources twins.first
  obtain ⟨two, kept'⟩ := same b.sources twins.second
  exact ⟨one.trans two.symm, twins.exact', twins.patterns, twins.identification, twins.store, kept,
    kept'⟩

theorem mutate_agree (actions : Actions Stored) (captures : List Text) :
    Agree chance clock (a.mutate actions captures) (b.mutate actions captures) := by
  have drawn := drawing_agree twins (stage_steady a.store captures actions)
  unfold mutate
  rw [← twins.store]
  generalize a.drawing (stage a.store captures actions) = x at drawn ⊢
  generalize b.drawing (stage a.store captures actions) = y at drawn ⊢
  obtain ⟨outcome, next⟩ := x
  obtain ⟨outcome', next'⟩ := y
  obtain ⟨rfl, together⟩ := drawn
  cases outcome with
  | error fault => exact ⟨rfl, together⟩
  | ok staged =>
    have store : next.store = next'.store := together.store
    dsimp only
    rw [← store]
    cases commit next.store staged with
    | mk last stopped =>
      cases stopped with
      | none => exact ⟨rfl, { together with store := rfl }⟩
      | some fault => exact ⟨rfl, { together with store := rfl }⟩

theorem respond_agree (actions : Actions Stored) (captures : List Text) :
    Agree chance clock (a.respond actions captures) (b.respond actions captures) := by
  unfold respond
  rw [← twins.store]
  split
  · exact ⟨rfl, twins⟩
  · exact drawing_agree twins (steady_bind (sourceValue_steady _ _) fun _ => steady_lift _)
  · exact ⟨rfl, twins⟩

theorem perform_agree (actions : Actions Stored) (captures : List Text) :
    Agree chance clock (a.perform actions captures) (b.perform actions captures) := by
  have changed := mutate_agree twins actions captures
  unfold perform
  generalize a.mutate actions captures = x at changed ⊢
  generalize b.mutate actions captures = y at changed ⊢
  obtain ⟨outcome, next⟩ := x
  obtain ⟨outcome', next'⟩ := y
  obtain ⟨rfl, together⟩ := changed
  cases outcome with
  | error fault => exact ⟨rfl, together⟩
  | ok done =>
    obtain ⟨result, last⟩ := respond_agree together actions captures
    exact ⟨congrArg (Except.map _) result, last⟩

theorem execute_agree (entry : Entry Stored) (captures : List Text) :
    Agree chance clock (a.execute entry captures) (b.execute entry captures) := by
  cases entry with
  | literal t => exact ⟨rfl, twins⟩
  | template t => exact ⟨rfl, twins⟩
  | dynamic expression =>
    simp only [execute, ← twins.store]
    exact drawing_agree twins (steady_bind (ofEvaluation_steady _ _) fun _ =>
      steady_bind (steady_lift _) fun _ => steady_pure _)
  | actions actions => exact perform_agree twins actions captures

theorem match?_agree (command : Text) : a.table.match? command = b.table.match? command := by
  simp only [Table.match?, twins.exact', twins.patterns]

theorem answer_agree (common : Common) :
    Twins chance clock (a.answer common).2 (b.answer common).2 ∧
      (common ≠ .nextError → (a.answer common).1 = (b.answer common).1) := by
  cases common with
  | identify => exact ⟨twins, fun _ => twins.identification⟩
  | nextError => exact ⟨{ twins with }, fun other => absurd rfl other⟩
  | reset => exact ⟨{ twins with store := congrArg Store.reset twins.store }, fun _ => rfl⟩
  | _ => exact ⟨{ twins with }, fun _ => rfl⟩

end Pairs

def Observed (chance clock : Float) (sim next : Simulator) : Prop :=
  ∃ queue sources, next = { sim with queue, sources } ∧ sources.Constant chance clock

theorem Twins.after_observed {a b next next' : Simulator} (twins : Twins chance clock a b)
    (one : Observed chance clock a next) (other : Observed chance clock b next') :
    Twins chance clock next next' := by
  obtain ⟨_, _, rfl, first⟩ := one
  obtain ⟨_, _, rfl, second⟩ := other
  exact ⟨twins.exact', twins.patterns, twins.identification, twins.store, first, second⟩

theorem ignore_observed {sim : Simulator} (constant : sim.sources.Constant chance clock) :
    Observed chance clock sim sim.ignore := by
  unfold ignore
  split
  · exact ⟨_, _, rfl, constant⟩
  · exact ⟨_, _, rfl, constant⟩

theorem checkRules_observed {sim : Simulator} (constant : sim.sources.Constant chance clock)
    (command : Text) (rules : List MatchedRule) :
    Observed chance clock sim (sim.checkRules command rules).next := by
  induction rules generalizing sim with
  | nil => exact ⟨sim.queue, sim.sources, rfl, constant⟩
  | cons matched rest ih =>
    have steady : Steady chance clock
        (ofEvaluation (scopeOf sim.store matched.captures) matched.rule.condition) :=
      ofEvaluation_steady _ _
    obtain ⟨_, same⟩ := steady
    have kept := (same sim.sources constant).2
    unfold checkRules
    split
    · rename_i next run
      cases congrArg Prod.snd run
      exact ⟨_, _, rfl, kept⟩
    · rename_i value next run
      cases congrArg Prod.snd run
      dsimp only
      split
      · obtain ⟨queue, sources, after, still⟩ := @ih { sim with
          sources := (ofEvaluation (scopeOf sim.store matched.captures) matched.rule.condition
            sim.sources).2
          queue := sim.queue.push ⟨matched.rule.code, matched.rule.message⟩ } kept
        exact ⟨queue, sources, after, still⟩
      · obtain ⟨queue, sources, after, still⟩ := @ih { sim with
          sources := (ofEvaluation (scopeOf sim.store matched.captures) matched.rule.condition
            sim.sources).2 } kept
        exact ⟨queue, sources, after, still⟩

/-- How a call is answered in two simulations that agree: alike, or both times by the error
    query. -/
theorem respondTo_twins {a b : Simulator} (twins : Twins chance clock a b) (command : Text) :
    Twins chance clock (a.respondTo (Text.trim command)).next
        (b.respondTo (Text.trim command)).next ∧
      (a.common? command ≠ some .nextError →
        (a.respondTo (Text.trim command)).result = (b.respondTo (Text.trim command)).result) ∧
      (a.common? command = some .nextError → ∃ t t',
        (a.respondTo (Text.trim command)).result = .ok (⟨t, 0⟩, []) ∧
          (b.respondTo (Text.trim command)).result = .ok (⟨t', 0⟩, [])) := by
  unfold respondTo
  rw [match?_trim, match?_trim, ← match?_agree twins]
  cases matched : a.table.match? command with
  | some found =>
    obtain ⟨result, next⟩ := execute_agree twins found.entry found.captures
    rw [common?_of_match matched]
    exact ⟨next, fun _ => congrArg (Except.map _) result, fun asks => nomatch asks⟩
  | none =>
    rw [common?_of_none matched]
    cases Common.ofCommand? (Text.trim command) with
    | some common =>
      obtain ⟨next, same⟩ := answer_agree twins common
      refine ⟨next, fun other => ?_, fun _ => ⟨_, _, rfl, rfl⟩⟩
      simp only [same fun asks => other (congrArg some asks)]
    | none =>
      exact ⟨twins.after_observed (ignore_observed twins.first) (ignore_observed twins.second),
        fun _ => rfl, fun asks => nomatch asks⟩

/-- A call keeps the agreement of two simulations, whatever their rules come to. -/
theorem send_twins {a b : Simulator} (twins : Twins chance clock a b) (call : Sending) :
    Twins chance clock (send a call).next (send b call).next := by
  obtain ⟨next, _, _⟩ := respondTo_twins twins call.command
  have settled : ∀ {sim : Simulator},
      (sim.respondTo (Text.trim call.command)).next.sources.Constant chance clock →
        Observed chance clock (sim.respondTo (Text.trim call.command)).next
          (send sim call).next := by
    intro sim constant
    cases answer : (sim.respondTo (Text.trim call.command)).result with
    | error fault =>
      rw [(send_failed answer).2]
      exact ⟨_, _, rfl, constant⟩
    | ok response =>
      rw [(send_answered answer).1]
      exact checkRules_observed constant _ _
  exact next.after_observed (settled next.first) (settled next.second)

theorem sends_twins {a b : Simulator} (twins : Twins chance clock a b) (calls : List Sending) :
    Twins chance clock (a.acts (calls.map .send)) (b.acts (calls.map .send)) := by
  induction calls generalizing a b with
  | nil => exact twins
  | cons call rest ih => exact ih (send_twins twins call)

def pauses (events : List Event) : List Float :=
  events.filterMap fun event =>
    match event with
    | .pause ms => some ms
    | _ => none

theorem pauses_append (first second : List Event) :
    pauses (first ++ second) = pauses first ++ pauses second := List.filterMap_append

theorem pauses_note (sim : Simulator) (t : Text) : pauses (sim.note t) = [] := by
  unfold note
  split
  · rfl
  · rfl

theorem pauses_respondTo (sim : Simulator) (command : Text) :
    pauses (sim.respondTo command).events = [] := by
  unfold respondTo
  split
  · rfl
  · split
    · rfl
    · rfl

theorem pauses_checkRules (sim : Simulator) (command : Text) (rules : List MatchedRule) :
    pauses (sim.checkRules command rules).events = [] := by
  induction rules generalizing sim with
  | nil => rfl
  | cons matched rest ih =>
    unfold checkRules
    split
    · rfl
    · dsimp only
      split
      · rw [pauses_append, ih, queued, pauses_note]
        rfl
      · exact ih _

/-- The rests of a call that is answered, in milliseconds: for as long as the command keeps the
    instrument busy, and for the delay of the call. -/
def rests (delay : Float) (call : Sending) : List Float :=
  (if delay > 0 then [delay * 1000] else []) ++ pauses (settle call.kind call.delay)

theorem pauses_busy (sim : Simulator) (delay : Float) :
    pauses (sim.busy delay) = if delay > 0 then [delay * 1000] else [] := by
  unfold busy
  split
  · rw [pauses_append, pauses_note]
    rfl
  · rfl

theorem send_pauses {sim : Simulator} {call : Sending}
    (untroubled : failure? (sim.judged call) = none) :
    pauses (send sim call).events =
      match (sim.respondTo (Text.trim call.command)).result with
      | .error _ => []
      | .ok (resolution, _) => rests resolution.delay call := by
  show pauses (exchange sim call.kind call.command call.delay).events = _
  cases answer : (sim.respondTo (Text.trim call.command)).result with
  | error fault =>
    simp only [exchange, resolve, answer, pauses_append, pauses_note, pauses_respondTo,
      List.append_nil]
  | ok response =>
    obtain ⟨resolution, captures⟩ := response
    have verdict := (checkRules_judged (sim.respondTo (Text.trim call.command)).next
      (Text.trim call.command) (sim.table.matchErrors call.command captures)).2
    rw [← judged_answered answer, untroubled] at verdict
    simp only [exchange, resolve, answer, respondTo_table, matchErrors_trim, verdict, pauses_append,
      pauses_note, pauses_respondTo, pauses_checkRules, pauses_busy, rests, List.append_nil,
      List.nil_append]

def MadeSteady (profile : Profile) (model : Text) (chance clock : Float) (sim : Simulator) : Prop :=
  ∃ disk settings options sources source loading events,
    Options.load options disk settings = (.ok (profile, source), loading) ∧
      options.modelOf profile = model ∧ sources.Constant chance clock ∧
      create disk settings options sources = (.ok sim, events)

def withErrors (profile : Profile) (errors : List Profile.ErrorSpec) : Profile :=
  { profile with simulation := { profile.simulation with errors } }

theorem made_twins {profile : Profile} {errors : List Profile.ErrorSpec} {model : Text}
    {a b : Simulator} (made : MadeSteady profile model chance clock a)
    (other : MadeSteady (withErrors profile errors) model chance clock b) :
    Twins chance clock a b := by
  obtain ⟨_, _, options, _, _, _, _, load, same, constant, creation⟩ := made
  obtain ⟨_, _, options', _, _, _, _, load', same', constant', creation'⟩ := other
  rw [create, load] at creation
  rw [create, load'] at creation'
  cases built : Table.build profile.simulation with
  | error cause =>
    simp only [built] at creation
    cases creation
  | ok table =>
    cases built' : Table.build (withErrors profile errors).simulation with
    | error cause =>
      simp only [built'] at creation'
      cases creation'
    | ok table' =>
      simp only [built] at creation
      simp only [built'] at creation'
      cases creation
      cases creation'
      -- both tables are that of the commands, and only then come the rules
      obtain ⟨entries, added, finished⟩ := bind_ok built
      obtain ⟨_, _, whole⟩ := bind_ok finished
      obtain ⟨entries', added', finished'⟩ := bind_ok built'
      obtain ⟨_, _, whole'⟩ := bind_ok finished'
      have together : Except.ok entries = Except.ok entries' := added.symm.trans added'
      cases together
      cases whole
      cases whole'
      refine ⟨rfl, rfl, ?_, rfl, constant, constant'⟩
      show identificationOf profile (options.modelOf profile) =
        identificationOf (withErrors profile errors) (options'.modelOf (withErrors profile errors))
      rw [same, same']
      rfl

/-- Two simulations whose profiles differ in the error rules alone, however strict and however
    watched, stay in the same state on constant sources. A call during which no condition fails
    rests as long and returns the same in both, but for the text of the error query. -/
theorem rules_and_strictness_only_observe {profile : Profile} {errors : List Profile.ErrorSpec}
    {model : Text} {first second : Simulator} (made : MadeSteady profile model chance clock first)
    (other : MadeSteady (withErrors profile errors) model chance clock second)
    (calls : List Sending) :
    let a := first.acts (calls.map .send)
    let b := second.acts (calls.map .send)
    a.store = b.store ∧
      ∀ call, failure? (a.judged call) = none → failure? (b.judged call) = none →
        pauses (send a call).events = pauses (send b call).events ∧
        (a.common? call.command ≠ some .nextError → (send a call).result = (send b call).result) ∧
        (a.common? call.command = some .nextError → ∃ t t',
          (send a call).result = .ok (.ofText t call.kind) ∧
            (send b call).result = .ok (.ofText t' call.kind)) := by
  intro a b
  have twins : Twins chance clock a b := sends_twins (made_twins made other) calls
  refine ⟨twins.store, fun call untroubled untroubled' => ?_⟩
  obtain ⟨_, alike, asked⟩ := respondTo_twins twins call.command
  have result := (send_judged a call).2
  have result' := (send_judged b call).2
  rw [untroubled] at result
  rw [untroubled'] at result'
  rw [send_pauses untroubled, send_pauses untroubled']
  by_cases asks : a.common? call.command = some .nextError
  · obtain ⟨t, t', one, two⟩ := asked asks
    rw [one] at result
    rw [two] at result'
    rw [one, two]
    exact ⟨rfl, fun differs => absurd asks differs, fun _ => ⟨t, t', result, result'⟩⟩
  · have same := alike asks
    rw [← same] at result'
    rw [← same]
    exact ⟨rfl, fun _ => result.trans result'.symm, fun query => absurd query asks⟩

def unguardedSimulator : Except ProfileFault Simulator :=
  (create Disk.empty ⟨⟨[], []⟩, defaultTimeout, false, true⟩
    ⟨some (withErrors guardedProfile []), none, none, none, none, none, none, none⟩
    ⟨.constant 0, .constant 0⟩).1

def guardedCalls : List Sending :=
  [⟨.write, text "LOCK", none⟩, ⟨.write, text "MOVE", none⟩, ⟨.write, text "TURN", none⟩]

def asking : Sending := ⟨.query, text "SYST:ERR?", some 2⟩

/-- A rule that has fired, and an unknown command in a strict simulation, show in the error query
    and nowhere else. -/
theorem error_query_tells_guarded_from_unguarded :
    ∃ first second, guardedSimulator = .ok first ∧ unguardedSimulator = .ok second ∧
      MadeSteady guardedProfile (text "SIM") 0 0 first ∧
      MadeSteady (withErrors guardedProfile []) (text "SIM") 0 0 second ∧
      (first.acts (guardedCalls.map .send)).store = (second.acts (guardedCalls.map .send)).store ∧
      pauses (send (first.acts (guardedCalls.map .send)) asking).events =
        pauses (send (second.acts (guardedCalls.map .send)) asking).events ∧
      (send (first.acts (guardedCalls.map .send)) asking).result =
        .ok (.line (text "-203,\"Command protected\"")) ∧
      (send (second.acts (guardedCalls.map .send)) asking).result =
        .ok (.line (text "+0,\"No error\"")) := by
  obtain ⟨first, created⟩ : ∃ sim, guardedSimulator = .ok sim := ⟨_, rfl⟩
  obtain ⟨second, created'⟩ : ∃ sim, unguardedSimulator = .ok sim := ⟨_, rfl⟩
  have constant : Sources.Constant 0 0 ⟨.constant 0, .constant 0⟩ := ⟨fun _ => rfl, fun _ => rfl⟩
  have made : MadeSteady guardedProfile (text "SIM") 0 0 first :=
    ⟨Disk.empty, _, _, _, inlineSource, [], _, rfl, rfl, constant, Prod.ext created rfl⟩
  have made' : MadeSteady (withErrors guardedProfile []) (text "SIM") 0 0 second :=
    ⟨Disk.empty, _, _, _, inlineSource, [], _, rfl, rfl, constant, Prod.ext created' rfl⟩
  obtain ⟨store, both⟩ := rules_and_strictness_only_observe made made' guardedCalls
  have untroubled : failure? ((first.acts (guardedCalls.map .send)).judged asking) = none := by
    cases created
    decide +kernel
  have untroubled' : failure? ((second.acts (guardedCalls.map .send)).judged asking) = none := by
    cases created'
    decide +kernel
  obtain ⟨rests, _, _⟩ := both asking untroubled untroubled'
  refine ⟨first, second, created, created', made, made', store, rests, ?_, ?_⟩
  · cases created
    decide +kernel
  · cases created'
    decide +kernel

end VirtualInstrument.Simulator
