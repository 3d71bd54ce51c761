import VirtualInstrument.Proofs.Simulator.Queueing
import VirtualInstrument.Proofs.Simulator.Staging
/- Calls that do not return. A value to which a map belongs that contains itself cannot be written
   out, and this is the only thing that keeps a call from returning. A simulation comes to hold such
   a value only by setting a key, inside a map, to a value that contains this map. -/
namespace VirtualInstrument.Simulator

open Dispatch Expression Instrument

/-- The value that a call of a command has to write out, and the memory in which it does so: the
    value of an expression; what an amount is added to, or the amount, when it is no number; what a
    key reads; or the value of a response. -/
inductive Displays (sim : Simulator) (found : Match Stored) : Heap → Value → Prop
  | value {expression : Expression} {value : Value}
      (entry : found.entry = .dynamic expression)
      (run : (ofEvaluation (scopeOf sim.store found.captures) expression sim.sources).1 =
        .ok value) :
      Displays sim found sim.store.heap value
  | step {actions : Actions Stored} {direction : Direction} {staged : Fields Stored} {key : Text}
      {amount value : Stored} (entry : found.entry = .actions actions)
      (steps : Steps sim.store found.captures actions sim.sources direction staged key amount)
      (shows : StepShows sim.store staged key amount value) :
      Displays sim found sim.store.heap (.ofStored value)
  | reading {actions : Actions Stored} {next : Simulator} {key : Text} {value : Stored}
      (entry : found.entry = .actions actions)
      (changed : sim.mutate actions found.captures = (.ok (), next))
      (get : actions.get = some key) (holds : next.store.get? key = some value) :
      Displays sim found next.store.heap (.ofStored value)
  | response {actions : Actions Stored} {next : Simulator} {source : Source Stored}
      {value : Stored} (entry : found.entry = .actions actions)
      (changed : sim.mutate actions found.captures = (.ok (), next))
      (none : actions.get = none) (response : actions.response = some source)
      (run : (sourceValue (scopeOf next.store found.captures) source next.sources).1 =
        .ok value) :
      Displays sim found next.store.heap (.ofStored value)

theorem Displays.entry_is_computed {sim : Simulator} {found : Match Stored} {heap : Heap}
    {value : Value} (displays : Displays sim found heap value) :
    (∃ expression, found.entry = .dynamic expression) ∨
      ∃ actions, found.entry = .actions actions := by
  cases displays with
  | value entry => exact .inl ⟨_, entry⟩
  | step entry => exact .inr ⟨_, entry⟩
  | reading entry => exact .inr ⟨_, entry⟩
  | response entry => exact .inr ⟨_, entry⟩

theorem textOf_endless_iff {store : Store} (sound : store.Sound) (key : Text) :
    textOf store key = .error .endless ↔
      ∃ value, store.get? key = some value ∧ ¬ (Value.ofStored value).Ends store.heap := by
  unfold textOf
  cases store.get? key with
  | none => simp
  | some value => simp [render_endless_iff sound]

theorem expression_endless_iff {sim : Simulator} (sound : sim.store.Sound) {entry : Entry Stored}
    {expression : Expression} (same : entry = .dynamic expression) (captures : List Text) :
    (sim.execute entry captures).1 = .error .endless ↔
      ∃ value, (ofEvaluation (scopeOf sim.store captures) expression sim.sources).1 = .ok value ∧
        ¬ value.Ends sim.store.heap := by
  subst same
  refine (bind_endless_iff (ofEvaluation_safe _ _) _ sim.sources).trans ?_
  constructor
  · rintro ⟨value, rest, run, failed⟩
    rcases lift_bind_fails_iff.mp failed with written | ⟨_, _, impossible⟩
    · exact ⟨value, by rw [run], (render_endless_iff sound value).mp written⟩
    · cases impossible
  · rintro ⟨value, run, endless⟩
    have written := (render_endless_iff sound value).mpr endless
    exact ⟨value, _, Prod.ext run rfl, lift_bind_fails_iff.mpr (.inl written)⟩

theorem respond_endless_iff {sim : Simulator} (sound : sim.store.Sound) (actions : Actions Stored)
    (captures : List Text) :
    (sim.respond actions captures).1 = .error .endless ↔
      (∃ key value, actions.get = some key ∧ sim.store.get? key = some value ∧
        ¬ (Value.ofStored value).Ends sim.store.heap) ∨
      ∃ source value, actions.get = none ∧ actions.response = some source ∧
        (sourceValue (scopeOf sim.store captures) source sim.sources).1 = .ok value ∧
          ¬ (Value.ofStored value).Ends sim.store.heap := by
  unfold respond
  split
  · rename_i key get
    simp [textOf_endless_iff sound, get]
  · rename_i source get response
    simp only [get, response, Option.some.injEq, reduceCtorEq, false_and, exists_false, false_or,
      true_and]
    refine (bind_endless_iff (sourceValue_safe _ source) _ sim.sources).trans ?_
    constructor
    · rintro ⟨value, rest, run, failed⟩
      exact ⟨source, value, rfl, by rw [run], (render_endless_iff sound _).mp failed⟩
    · rintro ⟨_, value, rfl, run, endless⟩
      exact ⟨value, _, Prod.ext run rfl, (render_endless_iff sound _).mpr endless⟩
  · rename_i get response
    simp [get, response]

theorem perform_endless_iff (sim : Simulator) (actions : Actions Stored) (captures : List Text) :
    (sim.perform actions captures).1 = .error .endless ↔
      (sim.mutate actions captures).1 = .error .endless ∨
        ∃ next, sim.mutate actions captures = (.ok (), next) ∧
          (next.respond actions captures).1 = .error .endless := by
  unfold perform
  cases changed : sim.mutate actions captures with
  | mk outcome next =>
    cases outcome with
    | error fault => simp
    | ok done =>
      cases answered : (next.respond actions captures).1 with
      | error fault => simp [answered, Except.map]
      | ok t => simp [answered, Except.map]

theorem mutate_sound {sim : Simulator} (sound : sim.Sound) {command : Text} {found : Match Stored}
    {actions : Actions Stored} (matched : sim.table.match? command = some found)
    (entry : found.entry = .actions actions) :
    (sim.mutate actions found.captures).2.store.Sound := by
  have moves := perform_moves matched entry
  rw [(perform_alike sim actions found.captures).store] at moves
  exact (sound.after_moves moves).1

theorem execute_endless_iff {sim : Simulator} (sound : sim.Sound) {command : Text}
    {found : Match Stored} (matched : sim.table.match? command = some found) :
    (sim.execute found.entry found.captures).1 = .error .endless ↔
      ∃ heap value, Displays sim found heap value ∧ ¬ value.Ends heap := by
  cases entry : found.entry with
  | literal t =>
    constructor
    · exact fun failed => nomatch failed
    · rintro ⟨_, _, displays, _⟩
      simpa [entry] using displays.entry_is_computed
  | template t =>
    constructor
    · exact fun failed => nomatch failed
    · rintro ⟨_, _, displays, _⟩
      simpa [entry] using displays.entry_is_computed
  | dynamic expression =>
    rw [expression_endless_iff sound.store rfl]
    constructor
    · rintro ⟨value, run, endless⟩
      exact ⟨_, value, .value entry run, endless⟩
    · rintro ⟨_, value, displays, endless⟩
      cases displays with
      | value same run =>
        rw [entry] at same
        cases same
        exact ⟨value, run, endless⟩
      | step same => simp [entry] at same
      | reading same => simp [entry] at same
      | response same => simp [entry] at same
  | actions actions =>
    show (sim.perform actions found.captures).1 = .error .endless ↔ _
    have after := mutate_sound sound matched entry
    rw [perform_endless_iff, mutate_endless_iff, stage_endless_iff]
    constructor
    · rintro (⟨direction, staged, key, amount, steps, failed⟩ | ⟨next, changed, failed⟩)
      · obtain ⟨value, shows, endless⟩ := (stageStep_endless_iff _ _ _ _ _).mp failed
        exact ⟨_, _, .step entry steps shows, (shown_endless_iff sound.store _).mp endless⟩
      · rw [changed] at after
        rcases (respond_endless_iff after actions found.captures).mp failed with
          ⟨key, value, get, holds, endless⟩ | ⟨source, value, none, response, run, endless⟩
        · exact ⟨_, _, .reading entry changed get holds, endless⟩
        · exact ⟨_, _, .response entry changed none response run, endless⟩
    · rintro ⟨_, _, displays, endless⟩
      cases displays with
      | value same => simp [entry] at same
      | @step _ direction staged key amount value same steps shows =>
        rw [entry] at same
        cases same
        refine .inl ⟨direction, staged, key, amount, steps, ?_⟩
        exact (stageStep_endless_iff _ _ _ _ _).mpr
          ⟨value, shows, (shown_endless_iff sound.store _).mpr endless⟩
      | @reading _ next key value same changed get holds =>
        rw [entry] at same
        cases same
        rw [changed] at after
        refine .inr ⟨next, changed, ?_⟩
        exact (respond_endless_iff after _ _).mpr (.inl ⟨key, value, get, holds, endless⟩)
      | @response _ next source value same changed none response run =>
        rw [entry] at same
        cases same
        rw [changed] at after
        refine .inr ⟨next, changed, ?_⟩
        exact (respond_endless_iff after _ _).mpr
          (.inr ⟨source, value, none, response, run, endless⟩)

theorem failure?_failed (store : Store) (sources : Sources) (rules : List MatchedRule)
    {fault : SimulationFault} (found : failure? (judgements store sources rules) = some fault) :
    ∃ cause, fault = .failed cause := by
  induction rules generalizing sources with
  | nil => cases found
  | cons matched rest ih =>
    cases run : ofEvaluation (scopeOf store matched.captures) matched.rule.condition sources with
    | mk outcome later =>
      cases outcome with
      | error cause =>
        simp only [failure?, judgements, run, List.findSome?_cons, Judgement.fault?] at found
        cases found
        exact ofEvaluation_failed (by rw [run])
      | ok value =>
        simp only [failure?, judgements, run, List.findSome?_cons, Judgement.fault?] at found
        exact ih later found

theorem judged_safe (sim : Simulator) (call : Sending) :
    failure? (sim.judged call) ≠ some .endless := by
  intro found
  unfold judged at found
  dsimp only at found
  split at found
  · cases found
  · obtain ⟨cause, same⟩ := failure?_failed _ _ _ found
    cases same

/-- A call fails to write out a value exactly when its command has to write out one that does not
    end. -/
theorem send_endless_iff {sim : Simulator} (sound : sim.Sound) (call : Sending) :
    (send sim call).result = .error .endless ↔
      ∃ found heap value, sim.table.match? call.command = some found ∧
        Displays sim found heap value ∧ ¬ value.Ends heap := by
  have result := (send_judged sim call).2
  have safe := judged_safe sim call
  have answered : ∀ resolution captures,
      (sim.respondTo (Text.trim call.command)).result = .ok (resolution, captures) →
        (send sim call).result ≠ .error .endless := by
    intro resolution captures answer
    rw [result, answer]
    dsimp only
    split
    · rename_i fault found
      rintro ⟨⟩
      exact safe found
    · exact fun failed => nomatch failed
  rcases respondTo_cases sim call.command with
    ⟨found, matched, answer⟩ | ⟨common, builtin, answer⟩ | ⟨unmatched, _, answer⟩
  · have exactly := execute_endless_iff sound matched
    constructor
    · intro failed
      cases run : (sim.execute found.entry found.captures).1 with
      | error fault =>
        rw [answer, run] at result
        rw [result] at failed
        cases failed
        obtain ⟨heap, value, displays, endless⟩ := exactly.mp run
        exact ⟨found, heap, value, matched, displays, endless⟩
      | ok resolution => exact absurd failed (answered _ _ (by rw [answer, run]; rfl))
    · rintro ⟨other, heap, value, same, displays, endless⟩
      rw [matched] at same
      cases same
      rw [result, answer, exactly.mpr ⟨heap, value, displays, endless⟩]
      rfl
  · constructor
    · exact fun failed => absurd failed (answered _ _ (by rw [answer]))
    · rintro ⟨found, _, _, matched, _⟩
      rw [common?_of_match matched] at builtin
      cases builtin
  · constructor
    · exact fun failed => absurd failed (answered _ _ (by rw [answer]))
    · rintro ⟨found, _, _, matched, _⟩
      rw [matched] at unmatched
      cases unmatched

/-- Settings none of which puts a value into a map that belongs to it. -/
def Straight (store : Store) : Fields Stored → Prop
  | [] => True
  | (key, value) :: rest => (store.set key value).2 = none →
      ¬ store.Winds key value ∧ Straight (store.set key value).1 rest

def StraightCall (sim : Simulator) (call : Sending) : Prop :=
  ∀ found actions values, sim.table.match? call.command = some found →
    found.entry = .actions actions → sim.staged actions found.captures = .ok values →
    Straight sim.store values

def StraightActs (sim : Simulator) : List Act → Prop
  | [] => True
  | first :: rest =>
    (∀ call, first = .send call → sim.StraightCall call) ∧ StraightActs (sim.act first) rest

theorem straight_of_no_targets {sim : Simulator} {call : Sending} {found : Match Stored}
    {actions : Actions Stored} (matched : sim.table.match? call.command = some found)
    (entry : found.entry = .actions actions) (nothing : targets actions = []) :
    sim.StraightCall call := by
  intro other others values same listed staged
  rw [matched] at same
  cases same
  rw [entry] at listed
  cases listed
  obtain ⟨delay, set, inc, dec, get, response⟩ := actions
  simp only [targets, List.map_eq_nil_iff, List.append_eq_nil_iff] at nothing
  obtain ⟨⟨rfl, rfl⟩, rfl⟩ := nothing
  cases staged
  trivial

theorem commit_loopless {store : Store} (sound : store.Sound) (loopless : store.heap.Loopless)
    {staged : Fields Stored} (holds : store.heap.HoldsAll staged)
    (straight : Straight store staged) :
    (commit store staged).1.heap.Loopless := by
  induction staged generalizing store with
  | nil => exact loopless
  | cons entry rest ih =>
    obtain ⟨key, value⟩ := entry
    obtain ⟨here, later⟩ := List.forall_mem_cons.mp holds
    rw [commit]
    split
    · rename_i run
      obtain ⟨apart, others⟩ := straight (by rw [run])
      obtain ⟨kept, grows⟩ := sound.set here key
      have next := Store.set_loopless sound loopless here apart
      rw [run] at kept grows next others
      exact ih kept next (fun entry member => (later entry member).grow grows) others
    · rename_i run
      have refused : (store.set key value).2 ≠ none := by simp [run]
      have unchanged := Store.set_refused_unchanged refused
      rw [run] at unchanged
      exact unchanged ▸ loopless

section Runs
variable {sim : Simulator} (sound : sim.Sound) (loopless : sim.store.heap.Loopless)
include sound loopless

theorem moves_loopless {call : Sending} (straight : sim.StraightCall call) {store : Store}
    (moves : Moves sim call.command store) : store.heap.Loopless := by
  cases moves with
  | stays => exact loopless
  | resets => exact (Heap.load_loopless _ (.map sim.store.seed) ⟨sound.store.heap, loopless⟩).1.2
  | sets matched entry staged =>
    have holds := staged_holds sound.store (sound.entries.entry_of_match matched _ entry) staged
    exact commit_loopless sound.store loopless holds (straight _ _ _ matched entry staged)

theorem act_loopless {act : Act} (straight : ∀ call, act = .send call → sim.StraightCall call) :
    (sim.act act).store.heap.Loopless := by
  cases act with
  | send call => exact moves_loopless sound loopless (straight call rfl) (send_moves sim call).2
  | control call =>
    have same : (sim.act (.control call)).store = sim.store := (control_alike sim call).store
    rwa [same]
  | define key spec =>
    rcases setResponse_cases sim key spec with ⟨entry, table, _, _, done⟩ | ⟨fault, failed⟩
    · rw [Simulator.act, done]
      exact (entry_keeps (fun heap document _ => Heap.load_loopless heap document)
        ⟨sound.store.heap, loopless⟩ entry.fits_any).1.2
    · rw [Simulator.act, failed]
      exact loopless

/-- A memory stays without loops as long as no value is put into a map that belongs to it. -/
theorem acts_loopless {list : List Act} (straight : sim.StraightActs list) :
    (sim.acts list).store.heap.Loopless := by
  induction list generalizing sim with
  | nil => exact loopless
  | cons first rest ih =>
    exact ih (sound.act first) (act_loopless sound loopless straight.1) straight.2

theorem send_returns {call : Sending} (straight : sim.StraightCall call) :
    (send sim call).result ≠ .error .endless := by
  intro failed
  obtain ⟨found, heap, value, matched, displays, endless⟩ := (send_endless_iff sound call).mp failed
  have changed : ∀ actions next, found.entry = .actions actions →
      sim.mutate actions found.captures = (.ok (), next) → next.store.heap.Loopless := by
    intro actions next entry run
    have moves := perform_moves matched entry
    rw [(perform_alike sim actions found.captures).store, run] at moves
    exact moves_loopless sound loopless straight moves
  have without : heap.Loopless := by
    cases displays with
    | value => exact loopless
    | step => exact loopless
    | reading entry run => exact changed _ _ entry run
    | response entry run => exact changed _ _ entry run
  exact endless (Value.only_of_all (fun address => without.not_endless (.map address)) value)

end Runs

theorem made_loopless {profile : Profile} {sim : Simulator} (made : MadeFrom profile sim) :
    sim.store.heap.Loopless := by
  obtain ⟨declared, _, _, store, _⟩ := made_cases made
  have before := table_keeps (fun heap document _ => Heap.load_loopless heap document)
    ⟨Heap.sound_empty, Heap.loopless_empty⟩ declared.fits_any
  rw [store]
  exact (Heap.load_loopless _ (.map profile.simulation.initialState) before).1.2

/-- After any acts, a call returns unless it has to write out a value to which a map belongs that
    contains itself. Only a call that sets a key, inside a map, to a value to which this map belongs
    can make one. -/
theorem fails_to_return_iff_endless {profile : Profile} {sim : Simulator}
    (made : MadeFrom profile sim) (list : List Act) :
    (∀ call, (send (sim.acts list) call).result = .error .endless ↔
      ∃ found heap value, (sim.acts list).table.match? call.command = some found ∧
        Displays (sim.acts list) found heap value ∧ ¬ value.Ends heap) ∧
    (sim.StraightActs list →
      (∀ call, (sim.acts list).StraightCall call →
        (send (sim.acts list) call).result ≠ .error .endless) ∧
      ∀ key value, (sim.acts list).store.heap.Holds value →
        ((sim.acts list).store.set key value).2 = none →
        (((sim.acts list).store.set key value).1.heap.Loopless ↔
          ¬ (sim.acts list).store.Winds key value)) := by
  have sound := acts_sound made list
  refine ⟨send_endless_iff sound, fun straight => ?_⟩
  have loopless := acts_loopless (made_sound made) (made_loopless made) straight
  refine ⟨fun call => send_returns sound loopless, ?_⟩
  intro key value holds taken
  exact Store.set_loopless_iff sound.store loopless holds taken

def windingProfile : Profile :=
  ⟨none, none, ⟨[(text "cfg", .map [(text "x", .string (text "1"))])],
    [(text "LOOP", .actions ⟨none, some [(text "cfg.self", .string (text "expr: state.cfg"))], none,
      none, none, none⟩),
     (text "CFG?", .actions ⟨none, none, none, none, some (text "cfg"), none⟩)], []⟩⟩

def windingSimulator : Except ProfileFault Simulator :=
  (create Disk.empty plainSettings (inlineOptions windingProfile) ⟨.constant 0, .constant 0⟩).1

def reading (command : String) : Sending := ⟨.query, text command, none⟩

/-- Before the map contains itself, it can be read. -/
theorem plain_map_is_written_out :
    ∃ sim, windingSimulator = .ok sim ∧ MadeFrom windingProfile sim ∧
      sim.StraightCall (reading "CFG?") ∧ (send sim (reading "CFG?")).result ≠ .error .endless := by
  obtain ⟨sim, created⟩ : ∃ sim, windingSimulator = .ok sim := ⟨_, rfl⟩
  have made := inline_made created
  obtain ⟨found, actions, matched, entry, nothing⟩ : ∃ found actions,
      sim.table.match? (reading "CFG?").command = some found ∧ found.entry = .actions actions ∧
        targets actions = [] := by
    cases created
    exact ⟨_, _, rfl, rfl, rfl⟩
  have straight := straight_of_no_targets matched entry nothing
  have returns := ((fails_to_return_iff_endless made []).2 trivial).1 (reading "CFG?") straight
  exact ⟨sim, created, made, straight, returns⟩

theorem wound_map_is_not_written_out :
    ∃ sim, windingSimulator = .ok sim ∧ MadeFrom windingProfile sim ∧
      (send (sim.acts [.send (writing "LOOP")]) (reading "CFG?")).result = .error .endless := by
  obtain ⟨sim, created⟩ : ∃ sim, windingSimulator = .ok sim := ⟨_, rfl⟩
  refine ⟨sim, created, inline_made created, ?_⟩
  cases created
  decide +kernel

end VirtualInstrument.Simulator
