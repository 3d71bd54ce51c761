import VirtualInstrument.Proofs.Conversation
import VirtualInstrument.Proofs.Simulator.Atomicity
import VirtualInstrument.Proofs.Text.Trim
/- Simulations in use: how one is made from a profile, what a script can do with it, and which
   parts of it each of these acts can change. -/
namespace VirtualInstrument.Simulator

open Dispatch Instrument

def MadeFrom (profile : Profile) (sim : Simulator) : Prop :=
  ∃ disk settings options sources source loading events,
    Options.load options disk settings = (.ok (profile, source), loading) ∧
      create disk settings options sources = (.ok sim, events)

inductive Act
  | send (call : Sending)
  | control (call : Control)
  | define (key : Text) (spec : Profile.EntrySpec)

def act (sim : Simulator) : Act → Simulator
  | .send call => (send sim call).next
  | .control call => (Instrument.control sim call).next
  | .define key spec => (sim.setResponse key spec).2

def acts (sim : Simulator) (list : List Act) : Simulator := list.foldl act sim

theorem acts_concat (sim : Simulator) (list : List Act) (last : Act) :
    sim.acts (list ++ [last]) = (sim.acts list).act last := by
  simp only [acts, List.foldl_append, List.foldl_cons, List.foldl_nil]

/-- A property that every new simulation has and every act keeps. -/
theorem acts_keep {property : Simulator → Prop}
    (step : ∀ sim act, property sim → property (sim.act act)) {sim : Simulator}
    (start : property sim) (list : List Act) : property (sim.acts list) := by
  induction list generalizing sim with
  | nil => exact start
  | cons first rest ih => exact ih (step sim first start)

theorem made_cases {profile : Profile} {sim : Simulator} (made : MadeFrom profile sim) :
    ∃ table, Table.build profile.simulation = .ok table ∧
      sim.table = (table.load Heap.empty).2 ∧
      sim.store = Store.create (table.load Heap.empty).1 profile.simulation.initialState ∧
      sim.queue = .empty := by
  obtain ⟨disk, settings, options, sources, source, loading, events, load, creation⟩ := made
  rw [create, load] at creation
  cases built : Table.build profile.simulation with
  | error cause =>
    simp only [built] at creation
    cases creation
  | ok table =>
    simp only [built] at creation
    cases creation
    exact ⟨table, rfl, rfl, rfl, rfl⟩

structure Alike (a b : Simulator) : Prop where
  table : a.table = b.table
  store : a.store = b.store

theorem Alike.trans {a b c : Simulator} (first : Alike a b) (second : Alike b c) : Alike a c :=
  ⟨first.table.trans second.table, first.store.trans second.store⟩

theorem drawing_alike {α : Type} (sim : Simulator) (computation : Drawn α) :
    Alike (sim.drawing computation).2 sim := ⟨rfl, rfl⟩

theorem respond_alike (sim : Simulator) (actions : Actions Stored) (captures : List Text) :
    Alike (sim.respond actions captures).2 sim := by
  unfold respond
  split
  · exact ⟨rfl, rfl⟩
  · exact drawing_alike sim _
  · exact ⟨rfl, rfl⟩

theorem checkRules_alike (sim : Simulator) (command : Text) (rules : List MatchedRule) :
    Alike (sim.checkRules command rules).next sim := by
  induction rules generalizing sim with
  | nil => exact ⟨rfl, rfl⟩
  | cons matched rest ih =>
    have drawn := drawing_alike sim
      (ofEvaluation (scopeOf sim.store matched.captures) matched.rule.condition)
    unfold checkRules
    split
    · rename_i run
      rwa [run] at drawn
    · rename_i run
      rw [run] at drawn
      dsimp only
      split
      · exact (ih _).trans ⟨drawn.table, drawn.store⟩
      · exact (ih _).trans drawn

/-- What a command can make of the state: nothing new, the state at the start, or the state with the
    keys set that the actions of the command name. -/
inductive Moves (sim : Simulator) (command : Text) : Store → Prop
  | stays : Moves sim command sim.store
  | resets : Moves sim command sim.store.reset
  | sets {found : Match Stored} {actions : Actions Stored} {values : Fields Stored}
      (matched : sim.table.match? command = some found) (entry : found.entry = .actions actions)
      (staged : sim.staged actions found.captures = .ok values) :
      Moves sim command (commit sim.store values).1

theorem match?_trim {ν : Type} (table : Table ν) (command : Text) :
    table.match? (Text.trim command) = table.match? command := by
  rw [Table.match?, Table.match?, Text.trim_trim]

theorem Moves.of_trimmed {sim : Simulator} {command : Text} {store : Store}
    (moves : Moves sim (Text.trim command) store) : Moves sim command store := by
  cases moves with
  | stays => exact .stays
  | resets => exact .resets
  | sets matched entry staged => exact .sets (match?_trim sim.table command ▸ matched) entry staged

def Works (sim next : Simulator) : Prop := ∃ store sources, next = { sim with store, sources }

theorem Works.trans {a b c : Simulator} (first : Works a b) (second : Works b c) : Works a c := by
  obtain ⟨_, _, rfl⟩ := first
  obtain ⟨store, sources, rfl⟩ := second
  exact ⟨store, sources, rfl⟩

theorem drawing_works {α : Type} (sim : Simulator) (computation : Drawn α) :
    Works sim (sim.drawing computation).2 := ⟨_, _, rfl⟩

theorem mutate_works (sim : Simulator) (actions : Actions Stored) (captures : List Text) :
    Works sim (sim.mutate actions captures).2 := by
  have drawn := drawing_works sim (stage sim.store captures actions)
  unfold mutate
  split
  · rename_i run
    rwa [run] at drawn
  · rename_i run
    rw [run] at drawn
    split
    · exact drawn.trans ⟨_, _, rfl⟩
    · exact drawn.trans ⟨_, _, rfl⟩

theorem respond_works (sim : Simulator) (actions : Actions Stored) (captures : List Text) :
    Works sim (sim.respond actions captures).2 := by
  unfold respond
  split
  · exact ⟨_, _, rfl⟩
  · exact drawing_works sim _
  · exact ⟨_, _, rfl⟩

theorem execute_works (sim : Simulator) (entry : Entry Stored) (captures : List Text) :
    Works sim (sim.execute entry captures).2 := by
  cases entry with
  | literal t => exact ⟨_, _, rfl⟩
  | template t => exact ⟨_, _, rfl⟩
  | dynamic expression => exact drawing_works sim _
  | actions actions =>
    have changed := mutate_works sim actions captures
    show Works sim (sim.perform actions captures).2
    unfold perform
    split
    · rename_i run
      rwa [run] at changed
    · rename_i run
      rw [run] at changed
      exact changed.trans (respond_works _ actions captures)

theorem perform_alike (sim : Simulator) (actions : Actions Stored) (captures : List Text) :
    Alike (sim.perform actions captures).2 (sim.mutate actions captures).2 := by
  unfold perform
  split
  · rename_i run
    rw [run]
    exact ⟨rfl, rfl⟩
  · rename_i run
    rw [run]
    exact respond_alike _ actions captures

theorem perform_moves {sim : Simulator} {command : Text} {found : Match Stored}
    {actions : Actions Stored} (matched : sim.table.match? command = some found)
    (entry : found.entry = .actions actions) :
    Moves sim command (sim.perform actions found.captures).2.store := by
  rw [(perform_alike sim actions found.captures).store]
  cases whole : sim.staged actions found.captures with
  | error cause =>
    rw [mutate_store_of_unstaged whole]
    exact .stays
  | ok values =>
    rw [(mutate_of_staged whole).2]
    exact .sets matched entry whole

theorem execute_moves {sim : Simulator} {command : Text} {found : Match Stored}
    (matched : sim.table.match? command = some found) :
    (sim.execute found.entry found.captures).2.table = sim.table ∧
      Moves sim command (sim.execute found.entry found.captures).2.store := by
  obtain ⟨_, _, same⟩ := execute_works sim found.entry found.captures
  refine ⟨by rw [same], ?_⟩
  cases entry : found.entry with
  | literal t => exact .stays
  | template t => exact .stays
  | dynamic expression => exact .stays
  | actions actions => exact perform_moves matched entry

theorem answer_moves (sim : Simulator) (command : Text) (common : Common) :
    (sim.answer common).2.table = sim.table ∧ Moves sim command (sim.answer common).2.store := by
  cases common with
  | reset => exact ⟨rfl, .resets⟩
  | _ => exact ⟨rfl, .stays⟩

theorem ignore_alike (sim : Simulator) : Alike sim.ignore sim := by
  unfold ignore
  split
  · exact ⟨rfl, rfl⟩
  · exact ⟨rfl, rfl⟩

theorem respondTo_moves (sim : Simulator) (command : Text) :
    (sim.respondTo command).next.table = sim.table ∧
      Moves sim command (sim.respondTo command).next.store := by
  unfold respondTo
  split
  · rename_i matched
    exact execute_moves matched
  · split
    · exact answer_moves sim command _
    · have alike := ignore_alike sim
      exact ⟨alike.table, alike.store ▸ .stays⟩

theorem resolve_alike (sim : Simulator) (command : Text) :
    Alike (sim.resolve command).next (sim.respondTo (Text.trim command)).next := by
  unfold resolve
  dsimp only
  split
  · exact ⟨rfl, rfl⟩
  · split
    · exact checkRules_alike _ _ _
    · exact checkRules_alike _ _ _

theorem send_alike (sim : Simulator) (call : Sending) :
    Alike (send sim call).next (sim.respondTo (Text.trim call.command)).next := by
  refine Alike.trans ?_ (resolve_alike sim call.command)
  show Alike (exchange sim call.kind call.command call.delay).next _
  unfold exchange
  dsimp only
  split
  · exact ⟨rfl, rfl⟩
  · exact ⟨rfl, rfl⟩

/-- A call leaves the entries alone and moves the state in one of the ways there are. -/
theorem send_moves (sim : Simulator) (call : Sending) :
    (send sim call).next.table = sim.table ∧ Moves sim call.command (send sim call).next.store := by
  have alike := send_alike sim call
  obtain ⟨table, moves⟩ := respondTo_moves sim (Text.trim call.command)
  exact ⟨alike.table.trans table, alike.store ▸ moves.of_trimmed⟩

theorem control_alike (sim : Simulator) (call : Control) :
    Alike (Instrument.control sim call).next sim := by
  cases call with
  | _ => exact ⟨rfl, rfl⟩

/-- A new entry is put into memory and into the table, or nothing changes at all. -/
theorem setResponse_cases (sim : Simulator) (key : Text) (spec : Profile.EntrySpec) :
    (∃ entry table, compileEntry spec (Table.placeOf key) = .ok entry ∧
      sim.table.insert key (entry.load sim.store.heap).2 = .ok table ∧
      sim.setResponse key spec =
        (.ok (), { sim with
          table, store := { sim.store with heap := (entry.load sim.store.heap).1 } })) ∨
    ∃ fault, sim.setResponse key spec = (.error fault, sim) := by
  unfold setResponse
  cases compiled : compileEntry spec (Table.placeOf key) with
  | error cause => exact .inr ⟨_, rfl⟩
  | ok entry =>
    cases inserted : sim.table.insert key (entry.load sim.store.heap).2 with
    | error cause =>
      refine .inr ⟨⟨sim.source, cause⟩, ?_⟩
      simp [inserted, bind, Except.bind]
    | ok table =>
      refine .inl ⟨entry, table, rfl, inserted, ?_⟩
      simp [inserted, bind, Except.bind]

end VirtualInstrument.Simulator
