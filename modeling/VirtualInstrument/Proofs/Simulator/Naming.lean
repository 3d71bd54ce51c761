import VirtualInstrument.Proofs.Simulator.Reseeding
import VirtualInstrument.Proofs.State.Names
/- The names in the state of a simulation. If no map of a profile lists a name twice, and no map
   that a script declares does, no map of the state ever does: values are loaded with the names
   they are declared with, and the setting of a key lists a name only where it is missing. -/
namespace VirtualInstrument.Simulator

open Dispatch Instrument

structure NamedOnce (profile : Profile) : Prop where
  state : (Document.map profile.simulation.initialState).Once
  commands : ∀ key spec, (key, spec) ∈ profile.simulation.commands → Declares Document.Once spec

def Act.NamesOnce : Act → Prop
  | .define _ spec => Declares Document.Once spec
  | _ => True

structure Once (sim : Simulator) : Prop where
  heap : sim.store.heap.Once
  seed : (Document.map sim.store.seed).Once

section Runs
variable {sim : Simulator}

theorem commit_once {store : Store} (once : store.heap.Once) (staged : Fields Stored) :
    (commit store staged).1.heap.Once := by
  have step : ∀ store : Store, store.heap.Once → ∀ entry ∈ staged,
      (store.set entry.1 entry.2).1.heap.Once :=
    fun _ kept entry _ => Store.once_set kept entry.1 entry.2
  exact commit_keeps step once

theorem load_once (heap : Heap) (document : Document) (names : document.Once) (once : heap.Once) :
    (heap.load document).1.Once ∧ (heap.load document).2.Only fun _ => True :=
  ⟨once.load names, Heap.only_of_reaches heap _ fun _ _ => trivial⟩

theorem Once.after_moves (once : sim.Once) {command : Text} {store : Store}
    (moves : Moves sim command store) : store.heap.Once := by
  cases moves with
  | stays => exact once.heap
  | resets => exact Store.once_create once.heap once.seed
  | sets => exact commit_once once.heap _

theorem Once.act (once : sim.Once) {act : Act} (names : act.NamesOnce) : (sim.act act).Once := by
  refine ⟨?_, act_seed sim act ▸ once.seed⟩
  cases act with
  | send call => exact once.after_moves (send_moves sim call).2
  | control call =>
    have same : (sim.act (.control call)).store = sim.store := (control_alike sim call).store
    exact same ▸ once.heap
  | define key spec =>
    rcases setResponse_cases sim key spec with
      ⟨entry, table, compiled, _, done⟩ | ⟨fault, failed⟩
    · have declared : entry.Fits Document.Once := compileEntry_fits Document.Once.string names compiled
      rw [Simulator.act, done]
      exact (entry_keeps load_once once.heap declared).1
    · rw [Simulator.act, failed]
      exact once.heap

theorem made_once {profile : Profile} (made : MadeFrom profile sim) (names : NamedOnce profile) :
    sim.Once := by
  obtain ⟨table, built, _, store, _⟩ := made_cases made
  have declared : table.Each (Entry.Fits Document.Once) := by
    refine (build_declared built).mono fun entry ⟨key, spec, listed, compiled⟩ => ?_
    exact compileEntry_fits Document.Once.string (names.commands key spec listed) compiled
  have before : (table.load Heap.empty).1.Once :=
    table_keeps load_once Heap.once_empty declared
  constructor
  · rw [store]
    exact Store.once_create before names.state
  · rw [store]
    exact names.state

theorem Once.acts (once : sim.Once) {list : List Act} (each : ∀ act ∈ list, act.NamesOnce) :
    (sim.acts list).Once := by
  induction list generalizing sim with
  | nil => exact once
  | cons first rest ih =>
    obtain ⟨here, later⟩ := List.forall_mem_cons.mp each
    exact ih (once.act here) later

/-- Whatever a script does, no map of the state lists a name twice. -/
theorem acts_once {profile : Profile} (made : MadeFrom profile sim) (names : NamedOnce profile)
    {list : List Act} (each : ∀ act ∈ list, act.NamesOnce) : (sim.acts list).Once :=
  (made_once made names).acts each

end Runs

end VirtualInstrument.Simulator
