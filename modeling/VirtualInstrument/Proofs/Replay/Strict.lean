import VirtualInstrument.Proofs.Conversation
import VirtualInstrument.Replay
/- A replay is strict: what it has served so far is a beginning of its log, and the next call is
   served exactly when it is the next one of the log. A script may do what it likes with its own
   copy of the log, and may make any other call in between. -/
namespace VirtualInstrument.Replay
open Instrument

/-- What a script does: it sends, it makes a call that sends nothing, or it changes its own log. -/
inductive Act
  | send (call : Sending)
  | control (call : Control)
  | edit (log : List LogEntry)

/-- A replay beside the log that it was made from, which still belongs to the script. -/
structure Desk where
  own : List LogEntry
  replay : Replay

def Desk.start (model : Text) (log : List LogEntry) (timeout : Option Float) (debug : Bool) :
    Desk :=
  ⟨log, .start model log timeout debug⟩

def Desk.act (desk : Desk) : Act → List (Sending × Except ReplayMismatch Response) × Desk
  | .send call =>
    let outcome := Instrument.send desk.replay call
    ([(call, outcome.result)], { desk with replay := outcome.next })
  | .control call => ([], { desk with replay := (Instrument.control desk.replay call).next })
  | .edit log => ([], { desk with own := log })

def Desk.acts (desk : Desk) : List Act → List (Sending × Except ReplayMismatch Response) × Desk
  | [] => ([], desk)
  | first :: rest =>
    let (heard, next) := desk.act first
    let (later, last) := next.acts rest
    (heard ++ later, last)

inductive Agrees : Kind → Kind → Prop
  | write : Agrees .write .write
  | query : Agrees .query .query
  | rawQuery : Agrees .rawQuery .rawQuery
  | bytesOfText : Agrees .rawQuery .query

def Meets (call : Sending) (entry : LogEntry) : Prop :=
  Agrees call.kind entry.kind ∧ Text.trim call.command = Text.trim entry.command

/-- A call is served by an entry: with its response, with the empty text when it has none, and
    with the bytes of that when bytes are asked for. -/
def Serves (entry : LogEntry) (call : Sending) (response : Response) : Prop :=
  Meets call entry ∧ response = .ofText (entry.response.getD []) call.kind

theorem accepts_iff (called recorded : Kind) :
    accepts called recorded = true ↔ Agrees called recorded := by
  constructor
  · intro h
    cases called <;> cases recorded <;> first | constructor | simp [accepts] at h
  · intro h
    cases h <;> rfl

theorem meets_iff (call : Sending) (entry : LogEntry) :
    (accepts call.kind (callOf entry).kind &&
      (callOf entry).command == Text.trim call.command) = true ↔ Meets call entry := by
  simp only [callOf, Bool.and_eq_true, beq_iff_eq, accepts_iff, Meets]
  constructor
  · intro h
    exact ⟨h.1, h.2.symm⟩
  · intro h
    exact ⟨h.1, h.2.symm⟩

structure Reports (replay : Replay) (call : Sending) (fault : ReplayMismatch) : Prop where
  model : fault.model = replay.model
  step : fault.step = replay.cursor
  actual : fault.actual = ⟨call.kind, Text.trim call.command⟩
  ended : fault.expected = none ↔ replay.log.length ≤ replay.cursor
  expected : ∀ entry, replay.log[replay.cursor]? = some entry →
    fault.expected = some ⟨entry.kind, Text.trim entry.command⟩

/-- A call is served by the next entry of the log, or it is refused and nothing changes. -/
theorem send_cases (replay : Replay) (call : Sending) :
    (∃ entry, replay.log[replay.cursor]? = some entry ∧ Meets call entry ∧
      (send replay call).result = .ok (.ofText (entry.response.getD []) call.kind) ∧
      (send replay call).next = { replay with cursor := replay.cursor + 1 }) ∨
    ((∀ entry, replay.log[replay.cursor]? = some entry → ¬ Meets call entry) ∧
      ∃ fault, (send replay call).result = .error fault ∧ Reports replay call fault ∧
        (send replay call).next = replay) := by
  have unfolded : send replay call = exchange replay call.kind call.command call.delay := rfl
  cases found : replay.log[replay.cursor]? with
  | none =>
    refine Or.inr ⟨by simp, ⟨replay.model, replay.cursor, none,
      ⟨call.kind, Text.trim call.command⟩⟩, ?_, ?_, ?_⟩
    · simp only [unfolded, exchange, found, mismatch]
    · have ended := List.getElem?_eq_none_iff.mp found
      exact ⟨rfl, rfl, rfl, by simp [ended], by simp [found]⟩
    · simp only [unfolded, exchange, found, mismatch]
  | some entry =>
    by_cases meets : Meets call entry
    · have accepted := (meets_iff call entry).mpr meets
      refine Or.inl ⟨entry, rfl, meets, ?_, ?_⟩
      · simp only [unfolded, exchange, found, accepted, if_true, LogEntry.answer]
      · simp only [unfolded, exchange, found, accepted, if_true]
    · have refused : ¬ _ := fun h => meets ((meets_iff call entry).mp h)
      have before := (List.getElem?_eq_some_iff.mp found).1
      refine Or.inr ⟨?_, ⟨replay.model, replay.cursor, some (callOf entry),
        ⟨call.kind, Text.trim call.command⟩⟩, ?_, ?_, ?_⟩
      · intro other same
        cases same
        exact meets
      · simp only [unfolded, exchange, found, if_neg refused, mismatch]
      · refine ⟨rfl, rfl, rfl, by simp; omega, ?_⟩
        intro other same
        rw [found] at same
        cases same
        rfl
      · simp only [unfolded, exchange, found, if_neg refused, mismatch]

theorem control_keeps (replay : Replay) (call : Control) :
    let next := (Instrument.control replay call).next
    next.model = replay.model ∧ next.log = replay.log ∧ next.cursor = replay.cursor := by
  cases call <;> exact ⟨rfl, rfl, rfl⟩

/-- What a run has left behind when it began with a log: every entry that is served stands in the
    log at the place of its call, and the log is the one that it began with. -/
structure Follows (model : Text) (log : List LogEntry)
    (heard : List (Sending × Except ReplayMismatch Response)) (replay : Replay) : Prop where
  model_kept : replay.model = model
  log_kept : replay.log = log
  counted : replay.cursor = (answered heard).length
  within : replay.cursor ≤ log.length
  served : ∀ (i : Nat) call response, (answered heard)[i]? = some (call, response) →
    ∃ entry, log[i]? = some entry ∧ Serves entry call response

theorem start_follows (model : Text) (log : List LogEntry) (timeout : Option Float)
    (debug : Bool) : Follows model log [] (start model log timeout debug) :=
  ⟨rfl, rfl, rfl, Nat.zero_le _, by simp [answered_nil]⟩

theorem served_call_follows {model : Text} {log : List LogEntry} {replay next : Replay}
    {heard : List (Sending × Except ReplayMismatch Response)} {call : Sending}
    {response : Response} {entry : LogEntry} (before : Follows model log heard replay)
    (found : log[replay.cursor]? = some entry) (serves : Serves entry call response)
    (moved : next = { replay with cursor := replay.cursor + 1 }) :
    Follows model log (heard ++ [(call, .ok response)]) next := by
  have grown : answered (heard ++ [(call, .ok response)]) =
      answered heard ++ [(call, response)] := by
    rw [answered_append]
    rfl
  subst moved
  refine ⟨before.model_kept, before.log_kept, ?_, ?_, ?_⟩
  · simp [grown, before.counted]
  · exact (List.getElem?_eq_some_iff.mp found).1
  · intro i earlier given at_i
    rw [grown] at at_i
    by_cases old : i < (answered heard).length
    · rw [List.getElem?_append_left old] at at_i
      exact before.served i earlier given at_i
    · have last : i = replay.cursor := by
        have bound := (List.getElem?_eq_some_iff.mp at_i).1
        rw [before.counted]
        simp at bound
        omega
      rw [last, before.counted, List.getElem?_concat_length] at at_i
      cases at_i
      exact ⟨entry, last ▸ found, serves⟩

theorem act_follows {model : Text} {log : List LogEntry} {desk : Desk}
    {heard : List (Sending × Except ReplayMismatch Response)}
    (before : Follows model log heard desk.replay) (act : Act) :
    Follows model log (heard ++ (desk.act act).1) (desk.act act).2.replay := by
  cases act with
  | send call =>
    rcases send_cases desk.replay call with ⟨entry, found, meets, result, next⟩ |
      ⟨_, fault, result, _, next⟩
    · simp only [Desk.act, result]
      rw [before.log_kept] at found
      exact served_call_follows before found ⟨meets, rfl⟩ next
    · have silent : answered (heard ++ [(call, .error fault)]) = answered heard := by
        rw [answered_append, answered_cons_error, answered_nil, List.append_nil]
      simp only [Desk.act, result, next]
      exact ⟨before.model_kept, before.log_kept, silent ▸ before.counted, before.within,
        silent ▸ before.served⟩
  | control call =>
    have ⟨model_same, log_same, cursor_same⟩ := control_keeps desk.replay call
    simp only [Desk.act, List.append_nil]
    refine ⟨model_same.trans before.model_kept, log_same.trans before.log_kept,
      cursor_same.trans before.counted, ?_, before.served⟩
    rw [cursor_same]
    exact before.within
  | edit own =>
    simp only [Desk.act, List.append_nil]
    exact before

theorem acts_follow {model : Text} {log : List LogEntry} (acts : List Act) {desk : Desk}
    {heard : List (Sending × Except ReplayMismatch Response)}
    (before : Follows model log heard desk.replay) :
    Follows model log (heard ++ (desk.acts acts).1) (desk.acts acts).2.replay := by
  induction acts generalizing desk heard with
  | nil => simpa only [Desk.acts, List.append_nil] using before
  | cons first rest ih =>
    have next := ih (act_follows before first)
    simpa only [Desk.acts, List.append_assoc] using next

/-- How a replay that has come some way answers one more call. -/
structure Strict (replay : Replay) (call : Sending) : Prop where
  succeeds : (∃ response, (send replay call).result = .ok response) ↔
    ∃ entry, replay.log[replay.cursor]? = some entry ∧ Meets call entry
  serves : ∀ response, (send replay call).result = .ok response →
    (∃ entry, replay.log[replay.cursor]? = some entry ∧ Serves entry call response) ∧
      (send replay call).next = { replay with cursor := replay.cursor + 1 }
  refuses : ∀ fault, (send replay call).result = .error fault →
    Reports replay call fault ∧ (send replay call).next = replay

theorem send_strict (replay : Replay) (call : Sending) : Strict replay call := by
  rcases send_cases replay call with ⟨entry, found, meets, result, next⟩ |
    ⟨unmet, fault, result, reports, next⟩
  · refine ⟨?_, ?_, ?_⟩
    · exact ⟨fun _ => ⟨entry, found, meets⟩, fun _ => ⟨_, result⟩⟩
    · intro response returned
      rw [result] at returned
      cases returned
      exact ⟨⟨entry, found, meets, rfl⟩, next⟩
    · intro fault returned
      rw [result] at returned
      cases returned
  · refine ⟨?_, ?_, ?_⟩
    · constructor
      · rintro ⟨response, returned⟩
        rw [result] at returned
        cases returned
      · rintro ⟨entry, found, meets⟩
        exact absurd meets (unmet entry found)
    · intro response returned
      rw [result] at returned
      cases returned
    · intro other returned
      rw [result] at returned
      cases returned
      exact ⟨reports, next⟩

theorem act_cursor_le (desk : Desk) (act : Act) :
    desk.replay.cursor ≤ (desk.act act).2.replay.cursor := by
  cases act with
  | send call =>
    rcases send_cases desk.replay call with ⟨_, _, _, _, next⟩ | ⟨_, _, _, _, next⟩
    · simp only [Desk.act, next]
      omega
    · simp only [Desk.act, next, Nat.le_refl]
  | control call =>
    have same := (control_keeps desk.replay call).2.2
    simp only [Desk.act, same, Nat.le_refl]
  | edit own => simp only [Desk.act, Nat.le_refl]

/-- However a script has used a replay: it has served the beginning of its log, call by call, its
    cursor counts those calls and never goes back, and it is strict with whatever comes next. -/
theorem replay_strict_after_any_acts (model : Text) (log : List LogEntry)
    (timeout : Option Float) (debug : Bool) (acts : List Act) :
    let run := (Desk.start model log timeout debug).acts acts
    Follows model log run.1 run.2.replay ∧
      (∀ call, Strict run.2.replay call) ∧
      (∀ act, run.2.replay.cursor ≤ (run.2.act act).2.replay.cursor) ∧
      run.2.replay.remaining = log.length - (answered run.1).length ∧
      (run.2.replay.isComplete = true ↔ log.length ≤ (answered run.1).length) := by
  intro run
  have begun : Follows model log [] (Desk.start model log timeout debug).replay :=
    start_follows model log timeout debug
  have follows : Follows model log run.1 run.2.replay := acts_follow acts begun
  refine ⟨follows, send_strict run.2.replay, act_cursor_le run.2, ?_, ?_⟩
  · rw [remaining, follows.log_kept, follows.counted]
  · rw [isComplete, follows.log_kept, follows.counted, decide_eq_true_iff]

end VirtualInstrument.Replay
