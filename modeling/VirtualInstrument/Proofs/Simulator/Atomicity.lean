import VirtualInstrument.Proofs.State.Refusal
import VirtualInstrument.Simulator.Creation
/- What actions leave behind when they fail. No key is set before every value is found, and a key
   that is refused changes nothing by itself; but the keys that were set before it stay set. So
   failed actions leave the state alone unless such keys have made a difference. -/
namespace VirtualInstrument

/-- Every key reads the same in two states, together with all that lies below it. -/
def Store.ReadsAs (a b : Store) : Prop :=
  ∀ key path, (a.get? key).bind (Store.follow? a.heap · path) =
    (b.get? key).bind (Store.follow? b.heap · path)

inductive Store.Takes : Store → Fields Stored → Store → Prop
  | none (store : Store) : Takes store [] store
  | next {store last : Store} {key : Text} {value : Stored} {rest : Fields Stored}
      (taken : ¬ store.Refuses key) (later : Takes (store.set key value).1 rest last) :
      Takes store ((key, value) :: rest) last

namespace Simulator
open Dispatch

theorem commit_cons_taken {store : Store} {key : Text} (taken : ¬ store.Refuses key)
    (value : Stored) (rest : Fields Stored) :
    commit store ((key, value) :: rest) = commit (store.set key value).1 rest := by
  have whole : (store.set key value).2 = none := by
    by_cases fault : (store.set key value).2 = none
    · exact fault
    · exact absurd ((Store.set_refused_iff store key value).mp fault) taken
  rw [commit]
  split
  · rename_i same
    rw [same]
  · rename_i same
    rw [same] at whole
    cases whole

theorem commit_cons_refused {store : Store} {key : Text} (refused : store.Refuses key)
    (value : Stored) (rest : Fields Stored) :
    ∃ fault, commit store ((key, value) :: rest) = (store, some fault) := by
  have stopped := (Store.set_refused_iff store key value).mpr refused
  have unchanged := Store.set_refused_unchanged stopped
  obtain ⟨fault, found⟩ := Option.ne_none_iff_exists'.mp stopped
  refine ⟨fault, ?_⟩
  have whole : store.set key value = (store, some fault) := Prod.ext unchanged found
  simp only [commit, whole]

theorem commit_taken {store last : Store} {done : Fields Stored} (takes : store.Takes done last)
    (rest : Fields Stored) : commit store (done ++ rest) = commit last rest := by
  induction takes with
  | none store => rfl
  | next taken _ ih => rw [List.cons_append, commit_cons_taken taken, ih]

theorem commit_cases (store : Store) (staged : Fields Stored) :
    (∃ last, store.Takes staged last ∧ commit store staged = (last, none)) ∨
    ∃ done key value rest left fault, staged = done ++ (key, value) :: rest ∧
      store.Takes done left ∧ left.Refuses key ∧ commit store staged = (left, some fault) := by
  induction staged generalizing store with
  | nil => exact Or.inl ⟨store, .none store, rfl⟩
  | cons entry rest ih =>
    obtain ⟨key, value⟩ := entry
    by_cases refused : store.Refuses key
    · obtain ⟨fault, stopped⟩ := commit_cons_refused refused value rest
      exact Or.inr ⟨[], key, value, rest, store, fault, rfl, .none store, refused, stopped⟩
    · rw [commit_cons_taken refused]
      rcases ih (store.set key value).1 with ⟨last, takes, whole⟩ |
        ⟨done, name, held, later, left, fault, rfl, takes, stop, stopped⟩
      · exact Or.inl ⟨last, .next refused takes, whole⟩
      · exact Or.inr ⟨(key, value) :: done, name, held, later, left, fault, rfl,
          .next refused takes, stop, stopped⟩

def staged (sim : Simulator) (actions : Actions Stored) (captures : List Text) :
    Except SimulationFault (Fields Stored) :=
  (sim.drawing (stage sim.store captures actions)).1

theorem mutate_store_of_unstaged {sim : Simulator} {actions : Actions Stored}
    {captures : List Text} {cause : SimulationFault}
    (unstaged : sim.staged actions captures = .error cause) :
    (sim.mutate actions captures).2.store = sim.store := by
  rw [mutate]
  split
  · rename_i run
    have same := congrArg (fun result => result.2.store) run
    exact same.symm
  · rename_i run
    rw [staged, run] at unstaged
    cases unstaged

theorem mutate_of_staged {sim : Simulator} {actions : Actions Stored} {captures : List Text}
    {found : Fields Stored} (whole : sim.staged actions captures = .ok found) :
    (sim.mutate actions captures).1 =
        (match (commit sim.store found).2 with
          | none => .ok ()
          | some fault => .error (.badKey fault)) ∧
      (sim.mutate actions captures).2.store = (commit sim.store found).1 := by
  rw [mutate]
  split
  · rename_i run
    rw [staged, run] at whole
    cases whole
  · rename_i values next run
    rw [staged, run] at whole
    cases whole
    have same : next.store = sim.store := (congrArg (fun result => result.2.store) run).symm
    rw [same]
    split
    · rename_i done
      rw [done]
      exact ⟨rfl, rfl⟩
    · rename_i stopped
      rw [stopped]
      exact ⟨rfl, rfl⟩

/-- Actions are stopped at a key when others are set already. -/
structure StopsAt (sim : Simulator) (actions : Actions Stored) (captures : List Text)
    (done : Fields Stored) (key : Text) (left : Store) : Prop where
  staged : ∃ value rest, sim.staged actions captures = .ok (done ++ (key, value) :: rest)
  taken : sim.store.Takes done left
  refused : left.Refuses key

theorem mutate_of_stop {sim : Simulator} {actions : Actions Stored} {captures : List Text}
    {done : Fields Stored} {key : Text} {left : Store}
    (stop : StopsAt sim actions captures done key left) :
    ∃ fault, (sim.mutate actions captures).1 = .error (.badKey fault) ∧
      (sim.mutate actions captures).2.store = left := by
  obtain ⟨value, rest, whole⟩ := stop.staged
  obtain ⟨fault, stopped⟩ := commit_cons_refused stop.refused value rest
  obtain ⟨result, store⟩ := mutate_of_staged whole
  rw [commit_taken stop.taken, stopped] at result store
  exact ⟨fault, result, store⟩

/-- The two ways to fail: a value is not found, or a key is refused. -/
theorem mutate_failed_cases {sim : Simulator} {actions : Actions Stored} {captures : List Text}
    {fault : SimulationFault} (failed : (sim.mutate actions captures).1 = .error fault) :
    (sim.staged actions captures = .error fault ∧
      (sim.mutate actions captures).2.store = sim.store) ∨
    ∃ done key, StopsAt sim actions captures done key (sim.mutate actions captures).2.store := by
  cases whole : sim.staged actions captures with
  | error cause =>
    refine Or.inl ⟨?_, mutate_store_of_unstaged whole⟩
    rw [mutate] at failed
    split at failed
    · rename_i run
      rw [staged, run] at whole
      cases whole
      exact congrArg _ (Except.error.inj failed)
    · rename_i run
      rw [staged, run] at whole
      cases whole
  | ok found =>
    obtain ⟨result, store⟩ := mutate_of_staged whole
    rcases commit_cases sim.store found with ⟨last, takes, set⟩ |
      ⟨done, key, value, rest, left, cause, rfl, takes, refused, stopped⟩
    · rw [set] at result
      rw [result] at failed
      cases failed
    · rw [stopped] at store
      exact Or.inr ⟨done, key, ⟨value, rest, whole⟩, store ▸ takes, store ▸ refused⟩

def FailsWhole (sim : Simulator) (actions : Actions Stored) (captures : List Text) : Prop :=
  ∀ fault, (sim.mutate actions captures).1 = .error fault →
    (sim.mutate actions captures).2.store.ReadsAs sim.store

/-- Failed actions leave the state as it was exactly when no key is refused behind keys whose
    setting made a difference. A value that is not found, and a key that is refused first, change
    nothing at all. -/
theorem fails_whole_iff (sim : Simulator) (actions : Actions Stored) (captures : List Text) :
    (FailsWhole sim actions captures ↔
      ∀ done key left, StopsAt sim actions captures done key left → left.ReadsAs sim.store) ∧
    (∀ cause, sim.staged actions captures = .error cause →
      sim.mutate actions captures =
        (.error cause, (sim.drawing (stage sim.store captures actions)).2) ∧
      (sim.mutate actions captures).2.store = sim.store) ∧
    (∀ key left, StopsAt sim actions captures [] key left →
      (sim.mutate actions captures).2.store = sim.store) := by
  refine ⟨⟨?_, ?_⟩, ?_, ?_⟩
  · intro whole done key left stop
    obtain ⟨fault, failed, store⟩ := mutate_of_stop stop
    have reads := whole _ failed
    rwa [store] at reads
  · intro harmless fault failed
    rcases mutate_failed_cases failed with ⟨_, same⟩ | ⟨done, key, stop⟩
    · rw [same]
      intro key path
      rfl
    · exact harmless done key _ stop
  · intro cause unstaged
    refine ⟨?_, mutate_store_of_unstaged unstaged⟩
    rw [mutate]
    split
    · rename_i run
      rw [staged, run] at unstaged
      rw [run]
      cases unstaged
      rfl
    · rename_i run
      rw [staged, run] at unstaged
      cases unstaged
  · intro key left stop
    obtain ⟨_, _, store⟩ := mutate_of_stop stop
    cases stop.taken
    exact store

def halfRefusedProfile : Profile :=
  ⟨none, none, ⟨[], [(text "BUMP", .actions ⟨none,
    some [(text "a", .string (text "1")), (text "b..c", .string (text "1"))], none, none, none,
    none⟩)], []⟩⟩

def halfRefusedSimulator : Except ProfileFault Simulator :=
  (create Disk.empty ⟨⟨[], []⟩, defaultTimeout, false, false⟩
    ⟨some halfRefusedProfile, none, none, none, none, none, none, none⟩
    ⟨.constant 0, .constant 0⟩).1

theorem refused_key_leaves_earlier_key_set :
    ∃ sim found actions, halfRefusedSimulator = .ok sim ∧
      sim.table.match? (text "BUMP") = some found ∧ found.entry = .actions actions ∧
      ¬ FailsWhole sim actions found.captures := by
  refine ⟨_, _, _, rfl, rfl, rfl, ?_⟩
  intro whole
  have reads := whole (.badKey (.invalid (text "b..c"))) rfl (text "a") []
  cases reads

end Simulator

end VirtualInstrument
