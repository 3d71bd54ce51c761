import VirtualInstrument.Proofs.Dispatch.Declared
import VirtualInstrument.Proofs.Simulator.Run
/- The account of the error queue. A call takes at most the oldest error from the queue, and only as
   the error query; then it puts on its own errors, those of the rules whose conditions hold in the
   state it leaves. So as long as the queue is not cleared, what has been taken and what is still
   there is, in order, what has been put on. -/
namespace VirtualInstrument.Simulator

open Dispatch Expression Scpi Instrument

def common? (sim : Simulator) (command : Text) : Option Common :=
  if (sim.table.match? command).isNone then Common.ofCommand? (Text.trim command) else none

structure Judgement where
  matched : MatchedRule
  outcome : Except SimulationFault Value

def Judgement.fault? (judgement : Judgement) : Option SimulationFault :=
  match judgement.outcome with
  | .ok _ => none
  | .error fault => some fault

def Judgement.error? (store : Store) (judgement : Judgement) : Option ErrorEntry :=
  match judgement.outcome with
  | .ok value =>
    if value.isTruthy store.heap then
      some ⟨judgement.matched.rule.code, judgement.matched.rule.message⟩
    else none
  | .error _ => none

def judgements (store : Store) : Sources → List MatchedRule → List Judgement
  | _, [] => []
  | sources, matched :: rest =>
    let (outcome, later) :=
      ofEvaluation (scopeOf store matched.captures) matched.rule.condition sources
    ⟨matched, outcome⟩ :: judgements store later rest

/-- The errors of the rules whose conditions hold, up to the first condition without a value. -/
def raised (store : Store) (judged : List Judgement) : List ErrorEntry :=
  (judged.takeWhile (·.fault?.isNone)).filterMap (·.error? store)

def failure? (judged : List Judgement) : Option SimulationFault := judged.findSome? (·.fault?)

/-- What the rules of a call come to: none of them, when the command itself fails. -/
def judged (sim : Simulator) (call : Sending) : List Judgement :=
  let answered := sim.respondTo (Text.trim call.command)
  match answered.result with
  | .error _ => []
  | .ok (_, captures) =>
    judgements answered.next.store answered.next.sources
      (sim.table.matchErrors call.command captures)

def header (sim : Simulator) (call : Sending) : List ErrorEntry :=
  if sim.strict ∧ sim.table.match? call.command = none ∧ sim.common? call.command = none then
    [undefinedHeader]
  else []

def pushed (sim : Simulator) (call : Sending) : List ErrorEntry :=
  sim.header call ++ raised (send sim call).next.store (sim.judged call)

def popped (sim : Simulator) (call : Sending) : List ErrorEntry :=
  if sim.common? call.command = some .nextError then sim.queue.entries.take 1 else []

/-- A call that starts a new account. -/
def Clears (sim : Simulator) (call : Sending) : Prop :=
  sim.common? call.command = some .clear ∨ sim.common? call.command = some .reset

instance (sim : Simulator) (call : Sending) : Decidable (sim.Clears call) :=
  inferInstanceAs (Decidable (_ ∨ _))

theorem common?_of_match {sim : Simulator} {command : Text} {found : Match Stored}
    (matched : sim.table.match? command = some found) : sim.common? command = none := by
  rw [common?, matched]
  rfl

theorem common?_of_none {sim : Simulator} {command : Text}
    (unmatched : sim.table.match? command = none) :
    sim.common? command = Common.ofCommand? (Text.trim command) := by
  rw [common?, unmatched]
  rfl

theorem checkRules_judged (sim : Simulator) (command : Text) (rules : List MatchedRule) :
    (sim.checkRules command rules).next.queue.entries =
        sim.queue.entries ++ raised sim.store (judgements sim.store sim.sources rules) ∧
      (sim.checkRules command rules).result =
        (match failure? (judgements sim.store sim.sources rules) with
          | some fault => .error fault
          | none => .ok ()) := by
  induction rules generalizing sim with
  | nil => exact ⟨(List.append_nil _).symm, rfl⟩
  | cons matched rest ih =>
    cases run : ofEvaluation (scopeOf sim.store matched.captures) matched.rule.condition
      sim.sources with
    | mk outcome later =>
      have drawn : sim.drawing (ofEvaluation (scopeOf sim.store matched.captures)
          matched.rule.condition) = (outcome, { sim with sources := later }) := by
        simp only [drawing, ExceptT.run, run]
      cases outcome with
      | error fault =>
        simp [checkRules, judgements, drawn, run, raised, failure?, Judgement.fault?]
      | ok value =>
        by_cases holds : value.isTruthy sim.store.heap = true
        · obtain ⟨queue, result⟩ := ih { sim with
            sources := later
            queue := sim.queue.push ⟨matched.rule.code, matched.rule.message⟩ }
          simp only [checkRules, drawn, judgements, run, holds, if_true]
          refine ⟨queue.trans ?_, result⟩
          simp [raised, Judgement.fault?, Judgement.error?, holds, ErrorQueue.push]
        · obtain ⟨queue, result⟩ := ih { sim with sources := later }
          simp only [checkRules, drawn, judgements, run, holds]
          refine ⟨queue.trans ?_, result⟩
          simp [raised, Judgement.fault?, Judgement.error?, holds]

theorem respondTo_cases (sim : Simulator) (command : Text) :
    (∃ found, sim.table.match? command = some found ∧
      sim.respondTo (Text.trim command) =
        ⟨(sim.execute found.entry found.captures).1.map fun resolution =>
          (resolution, found.captures), [], (sim.execute found.entry found.captures).2⟩) ∨
    (∃ common, sim.common? command = some common ∧
      sim.respondTo (Text.trim command) =
        ⟨.ok (⟨(sim.answer common).1, 0⟩, []), [], (sim.answer common).2⟩) ∨
    sim.table.match? command = none ∧ sim.common? command = none ∧
      sim.respondTo (Text.trim command) =
        ⟨.ok (⟨[], 0⟩, []), [sim.unknown (Text.trim command)], sim.ignore⟩ := by
  unfold respondTo
  rw [match?_trim]
  cases matched : sim.table.match? command with
  | some found => exact .inl ⟨found, rfl, rfl⟩
  | none =>
    have builtin := common?_of_none matched
    cases known : Common.ofCommand? (Text.trim command) with
    | some common => exact .inr (.inl ⟨common, builtin.trans known, rfl⟩)
    | none => exact .inr (.inr ⟨rfl, builtin.trans known, rfl⟩)

theorem send_failed {sim : Simulator} {call : Sending} {fault : SimulationFault}
    (failed : (sim.respondTo (Text.trim call.command)).result = .error fault) :
    (send sim call).result = .error fault ∧
      (send sim call).next = (sim.respondTo (Text.trim call.command)).next := by
  show (exchange sim call.kind call.command call.delay).result = _ ∧
    (exchange sim call.kind call.command call.delay).next = _
  simp only [exchange, resolve, failed, and_self]

theorem respondTo_table (sim : Simulator) (command : Text) :
    (sim.respondTo command).next.table = sim.table := (respondTo_moves sim command).1

theorem matchErrors_trim {ν : Type} (table : Table ν) (command : Text) (captures : List Text) :
    table.matchErrors (Text.trim command) captures = table.matchErrors command captures := by
  rw [Table.matchErrors, Table.matchErrors, Text.trim_trim]

theorem send_answered {sim : Simulator} {call : Sending} {resolution : Resolution}
    {captures : List Text}
    (answered : (sim.respondTo (Text.trim call.command)).result = .ok (resolution, captures)) :
    let checked := (sim.respondTo (Text.trim call.command)).next.checkRules
      (Text.trim call.command) (sim.table.matchErrors call.command captures)
    (send sim call).next = checked.next ∧
      (send sim call).result =
        checked.result.map fun _ => .ofText resolution.response call.kind := by
  intro checked
  have same : checked = (sim.respondTo (Text.trim call.command)).next.checkRules
      (Text.trim call.command) ((sim.respondTo (Text.trim call.command)).next.table.matchErrors
        (Text.trim call.command) captures) := by
    rw [respondTo_table, matchErrors_trim]
  show (exchange sim call.kind call.command call.delay).next = _ ∧
    (exchange sim call.kind call.command call.delay).result = _
  simp only [exchange, resolve, answered, ← same]
  cases ended : checked.result with
  | error fault => exact ⟨rfl, rfl⟩
  | ok done => exact ⟨rfl, rfl⟩

theorem judged_answered {sim : Simulator} {call : Sending} {resolution : Resolution}
    {captures : List Text}
    (answered : (sim.respondTo (Text.trim call.command)).result = .ok (resolution, captures)) :
    sim.judged call = judgements (sim.respondTo (Text.trim call.command)).next.store
      (sim.respondTo (Text.trim call.command)).next.sources
      (sim.table.matchErrors call.command captures) := by
  simp only [judged, answered]

theorem send_judged (sim : Simulator) (call : Sending) :
    (send sim call).next.queue.entries =
        (sim.respondTo (Text.trim call.command)).next.queue.entries ++
          raised (send sim call).next.store (sim.judged call) ∧
      (send sim call).result =
        (match (sim.respondTo (Text.trim call.command)).result with
          | .error fault => .error fault
          | .ok (resolution, _) =>
            match failure? (sim.judged call) with
            | some fault => .error fault
            | none => .ok (.ofText resolution.response call.kind)) := by
  have store := (send_alike sim call).store
  cases answer : (sim.respondTo (Text.trim call.command)).result with
  | error fault =>
    obtain ⟨result, next⟩ := send_failed answer
    have none : sim.judged call = [] := by simp only [judged, answer]
    refine ⟨?_, result⟩
    rw [none, next]
    exact (List.append_nil _).symm
  | ok response =>
    obtain ⟨resolution, captures⟩ := response
    obtain ⟨next, result⟩ := send_answered answer
    obtain ⟨queue, verdict⟩ := checkRules_judged (sim.respondTo (Text.trim call.command)).next
      (Text.trim call.command) (sim.table.matchErrors call.command captures)
    constructor
    · rw [store, judged_answered answer, next, queue]
    · rw [result, verdict, judged_answered answer]
      dsimp only
      split
      · rfl
      · rfl

/-- The answer of the error query to a queue: the code and the message of the oldest error, and a
    text of its own when there is none, or one with the code zero. -/
def reported : List ErrorEntry → Text
  | [] => text "+0,\"No error\""
  | entry :: _ =>
    if entry.code == 0 then text "+0,\"No error\""
    else Decimal.numberText entry.code ++ text ",\"" ++ entry.message ++ text "\""

theorem next_reported (queue : ErrorQueue) :
    queue.next.1 = reported queue.entries ∧
      queue.entries.take 1 ++ queue.next.2.entries = queue.entries := by
  obtain ⟨entries⟩ := queue
  cases entries with
  | nil => exact ⟨rfl, rfl⟩
  | cons entry rest => exact ⟨rfl, rfl⟩

theorem header_of_common {sim : Simulator} {call : Sending} {common : Common}
    (builtin : sim.common? call.command = some common) : sim.header call = [] := by
  simp [header, builtin]

theorem answer_queue (sim : Simulator) (common : Common) :
    (sim.answer common).2.queue =
      match common with
      | .clear | .reset => .empty
      | .nextError => sim.queue.next.2
      | _ => sim.queue := by
  cases common with
  | _ => rfl

theorem respondTo_queue (sim : Simulator) (call : Sending) :
    (¬ sim.Clears call →
      sim.popped call ++ (sim.respondTo (Text.trim call.command)).next.queue.entries =
        sim.queue.entries ++ sim.header call) ∧
    (sim.Clears call →
      (sim.respondTo (Text.trim call.command)).next.queue.entries = [] ∧ sim.header call = []) := by
  rcases respondTo_cases sim call.command with
    ⟨found, matched, answer⟩ | ⟨common, builtin, answer⟩ | ⟨unmatched, unknown, answer⟩
  · have none := common?_of_match matched
    obtain ⟨_, _, same⟩ := execute_works sim found.entry found.captures
    constructor
    · intro _
      rw [answer]
      dsimp only
      rw [same]
      simp [popped, header, none, matched]
    · intro clears
      rcases clears with clear | reset
      · simp [none] at clear
      · simp [none] at reset
  · rw [answer, header_of_common builtin, List.append_nil, answer_queue]
    constructor
    · intro stays
      cases common with
      | clear => exact absurd (.inl builtin) stays
      | reset => exact absurd (.inr builtin) stays
      | nextError =>
        rw [popped, if_pos builtin]
        exact (next_reported sim.queue).2
      | _ => simp [popped, builtin]
    · intro clears
      cases common with
      | clear => exact ⟨rfl, rfl⟩
      | reset => exact ⟨rfl, rfl⟩
      | _ => simp [Clears, builtin] at clears
  · constructor
    · intro _
      rw [answer]
      by_cases strict : sim.strict = true
      · simp [popped, header, ignore, unknown, unmatched, strict, ErrorQueue.push]
      · simp [popped, header, ignore, unknown, strict]
    · intro clears
      simp [Clears, unknown] at clears

/-- A call moves errors from its own end of the queue to the other. -/
theorem send_account (sim : Simulator) (call : Sending) :
    (¬ sim.Clears call →
      sim.popped call ++ (send sim call).next.queue.entries =
        sim.queue.entries ++ sim.pushed call) ∧
    (sim.Clears call → (send sim call).next.queue.entries = sim.pushed call) := by
  obtain ⟨kept, cleared⟩ := respondTo_queue sim call
  rw [(send_judged sim call).1, pushed]
  constructor
  · intro stays
    rw [← List.append_assoc, kept stays, List.append_assoc]
  · intro clears
    obtain ⟨empty, none⟩ := cleared clears
    rw [empty, none]

def calls (sim : Simulator) : List Act → List (Simulator × Sending)
  | [] => []
  | .send call :: rest => (sim, call) :: calls (send sim call).next rest
  | first :: rest => calls (sim.act first) rest

def pushedIn (sim : Simulator) (list : List Act) : List ErrorEntry :=
  (sim.calls list).flatMap fun made => made.1.pushed made.2

def poppedIn (sim : Simulator) (list : List Act) : List ErrorEntry :=
  (sim.calls list).flatMap fun made => made.1.popped made.2

def Uncleared (sim : Simulator) (list : List Act) : Prop :=
  ∀ made ∈ sim.calls list, ¬ made.1.Clears made.2

instance (sim : Simulator) (list : List Act) : Decidable (sim.Uncleared list) :=
  inferInstanceAs (Decidable (∀ made ∈ sim.calls list, _))

theorem setResponse_errors (sim : Simulator) (key : Text) (spec : Profile.EntrySpec) :
    (sim.setResponse key spec).2.queue = sim.queue ∧
      (sim.setResponse key spec).2.table.errors = sim.table.errors := by
  rcases setResponse_cases sim key spec with ⟨entry, table, _, inserted, done⟩ | ⟨fault, failed⟩
  · rw [done]
    exact ⟨rfl, insert_errors inserted⟩
  · rw [failed]
    exact ⟨rfl, rfl⟩

theorem control_queue (sim : Simulator) (call : Control) :
    (Instrument.control sim call).next.queue = sim.queue := by
  cases call with
  | _ => rfl

/-- Nothing is lost on the queue and nothing comes twice, whatever is there at the start. -/
theorem acts_account {sim : Simulator} {list : List Act} (kept : sim.Uncleared list) :
    sim.poppedIn list ++ (sim.acts list).queue.entries =
      sim.queue.entries ++ sim.pushedIn list := by
  induction list generalizing sim with
  | nil => exact (List.append_nil _).symm
  | cons first rest ih =>
    cases first with
    | send call =>
      obtain ⟨here, later⟩ := List.forall_mem_cons.mp kept
      have one := (send_account sim call).1 here
      have others := @ih (send sim call).next later
      calc sim.popped call ++ (send sim call).next.poppedIn rest ++
            ((send sim call).next.acts rest).queue.entries
          = sim.popped call ++ (send sim call).next.queue.entries ++
            (send sim call).next.pushedIn rest := by
            rw [List.append_assoc, others, List.append_assoc]
        _ = sim.queue.entries ++ (sim.pushed call ++ (send sim call).next.pushedIn rest) := by
            rw [one, List.append_assoc]
    | control call =>
      rw [← control_queue sim call]
      exact ih kept
    | define key spec =>
      rw [← (setResponse_errors sim key spec).1]
      exact ih kept

theorem act_errors (sim : Simulator) (act : Act) :
    (sim.act act).table.errors = sim.table.errors := by
  cases act with
  | send call => exact congrArg Table.errors (send_moves sim call).1
  | control call => exact congrArg Table.errors (control_alike sim call).table
  | define key spec => exact (setResponse_errors sim key spec).2

theorem acts_errors (sim : Simulator) (list : List Act) :
    (sim.acts list).table.errors = sim.table.errors := by
  induction list generalizing sim with
  | nil => rfl
  | cons first rest ih => exact (ih (sim.act first)).trans (act_errors sim first)

theorem declared_errors {profile : Profile} {sim : Simulator} (made : MadeFrom profile sim)
    (list : List Act) :
    List.Forall₂ ErrorRule.Declared profile.simulation.errors (sim.acts list).table.errors := by
  obtain ⟨declared, built, table, _, _⟩ := made_cases made
  rw [acts_errors, table]
  exact build_errors built

theorem pushed_of_failed {sim : Simulator} {call : Sending} {found : Match Stored}
    {fault : SimulationFault} (matched : sim.table.match? call.command = some found)
    (failed : (sim.execute found.entry found.captures).1 = .error fault) :
    (send sim call).result = .error fault ∧ sim.pushed call = [] := by
  have answer : (sim.respondTo (Text.trim call.command)).result = .error fault := by
    unfold respondTo
    simp only [match?_trim, matched, failed, Except.map]
  refine ⟨(send_failed answer).1, ?_⟩
  simp [pushed, header, matched, judged, answer, raised]

theorem send_nextError {sim : Simulator} {call : Sending}
    (asks : sim.common? call.command = some .nextError) :
    (send sim call).result =
      match failure? (sim.judged call) with
      | some fault => .error fault
      | none => .ok (.ofText (reported sim.queue.entries) call.kind) := by
  rcases respondTo_cases sim call.command with
    ⟨found, matched, _⟩ | ⟨common, builtin, answer⟩ | ⟨_, unknown, _⟩
  · rw [common?_of_match matched] at asks
    cases asks
  · rw [asks] at builtin
    cases builtin
    rw [(send_judged sim call).2, answer]
    dsimp only
    rw [← (next_reported sim.queue).1]
    rfl
  · rw [asks] at unknown
    cases unknown

/-- Until the queue is cleared, the errors taken from it and those still on it are in order all that
    calls have put on it; clearing starts a new account. The error query answers before its own
    rules are checked, and a command whose entry fails puts on nothing. -/
theorem errors_queued_and_reported_in_order {profile : Profile} {sim : Simulator}
    (made : MadeFrom profile sim) (list : List Act) :
    List.Forall₂ ErrorRule.Declared profile.simulation.errors (sim.acts list).table.errors ∧
    (sim.Uncleared list →
      sim.poppedIn list ++ (sim.acts list).queue.entries = sim.pushedIn list) ∧
    ∀ call,
      ((sim.acts list).Clears call → ∀ later, (send (sim.acts list) call).next.Uncleared later →
        (send (sim.acts list) call).next.poppedIn later ++
            ((send (sim.acts list) call).next.acts later).queue.entries =
          (sim.acts list).pushed call ++ (send (sim.acts list) call).next.pushedIn later) ∧
      (∀ found fault, (sim.acts list).table.match? call.command = some found →
        ((sim.acts list).execute found.entry found.captures).1 = .error fault →
        (send (sim.acts list) call).result = .error fault ∧ (sim.acts list).pushed call = []) ∧
      ((sim.acts list).common? call.command = some .nextError →
        (send (sim.acts list) call).result =
          match failure? ((sim.acts list).judged call) with
          | some fault => .error fault
          | none => .ok (.ofText (reported (sim.acts list).queue.entries) call.kind)) := by
  refine ⟨declared_errors made list, ?_, ?_⟩
  · intro kept
    obtain ⟨_, _, _, _, empty⟩ := made_cases made
    rw [acts_account kept, empty]
    rfl
  · intro call
    refine ⟨?_, fun found fault => pushed_of_failed, send_nextError⟩
    intro clears later kept
    rw [acts_account kept, (send_account _ call).2 clears]

def guardedProfile : Profile :=
  ⟨none, none, ⟨[(text "locked", .string [])],
    [(text "LOCK", .actions ⟨none, some [(text "locked", .string (text "1"))], none, none, none,
      none⟩), (text "MOVE", .plain [])],
    [⟨text "MOVE", text "state.locked", -203, text "Command protected"⟩]⟩⟩

def guardedSimulator : Except ProfileFault Simulator :=
  (create Disk.empty ⟨⟨[], []⟩, defaultTimeout, true, false⟩
    ⟨some guardedProfile, none, none, none, none, none, none, none⟩
    ⟨.constant 0, .constant 0⟩).1

def guardedActs : List Act :=
  [.send ⟨.write, text "LOCK", none⟩, .send ⟨.write, text "MOVE", none⟩,
    .send ⟨.write, text "TURN", none⟩, .send ⟨.query, text "SYST:ERR?", none⟩]

theorem refusal_is_reported_before_unknown_header :
    ∃ sim, guardedSimulator = .ok sim ∧ MadeFrom guardedProfile sim ∧ sim.Uncleared guardedActs ∧
      sim.poppedIn guardedActs = [⟨-203, text "Command protected"⟩] ∧
      (sim.acts guardedActs).queue.entries = [undefinedHeader] ∧
      sim.pushedIn guardedActs = [⟨-203, text "Command protected"⟩, undefinedHeader] := by
  obtain ⟨sim, created⟩ : ∃ sim, guardedSimulator = .ok sim := ⟨_, rfl⟩
  have made : MadeFrom guardedProfile sim :=
    ⟨Disk.empty, _, _, _, inlineSource, [], _, rfl, Prod.ext created rfl⟩
  have kept : sim.Uncleared guardedActs := by
    cases created
    decide +kernel
  have account := (errors_queued_and_reported_in_order made guardedActs).2.1 kept
  have taken : sim.poppedIn guardedActs = [⟨-203, text "Command protected"⟩] := by
    cases created
    decide +kernel
  have left : (sim.acts guardedActs).queue.entries = [undefinedHeader] := by
    cases created
    decide +kernel
  rw [taken, left] at account
  exact ⟨sim, created, made, kept, taken, left, account.symm⟩

end VirtualInstrument.Simulator
