import VirtualInstrument.Proofs.Expression.Ending
import VirtualInstrument.Proofs.Simulator.Separation
/- When the values of actions cannot be found because a value would have to be written out that does
   not end. Only the step of a key writes something out while the changes are staged: what the key
   holds or the amount, in the message that it is no number. -/
namespace VirtualInstrument

theorem Store.Sound.maps_present {store : Store} (sound : store.Sound) : 0 < store.heap.maps.size :=
  Nat.lt_of_le_of_lt (Nat.zero_le _) sound.root

namespace Simulator

open Dispatch Expression

section Texts
variable {store : Store} (sound : store.Sound)
include sound

theorem render_endless_iff (value : Value) :
    render store.heap value = .error .endless ↔ ¬ value.Ends store.heap := by
  rw [← render?_eq_none_iff sound.heap sound.maps_present]
  unfold render
  cases value.render? store.heap with
  | none => simp
  | some t => simp

theorem shown_endless_iff (value : Stored) :
    shown store.heap value = .error .endless ↔ ¬ (Value.ofStored value).Ends store.heap := by
  rw [← toDocument?_eq_none_iff sound.heap sound.maps_present, toDocument?_ofStored]
  unfold shown
  cases store.heap.unload? value with
  | none => simp
  | some document => simp

end Texts

def Safe {α : Type} (computation : Drawn α) : Prop :=
  ∀ sources, (computation sources).1 ≠ .error .endless

theorem bind_endless_iff {α β : Type} {computation : Drawn α} (safe : Safe computation)
    (next : α → Drawn β) (sources : Sources) :
    ((computation >>= next) sources).1 = .error .endless ↔
      ∃ a rest, computation sources = (.ok a, rest) ∧ (next a rest).1 = .error .endless := by
  rw [bind_fails_iff]
  exact or_iff_right (safe sources)

theorem safe_bind {α β : Type} {computation : Drawn α} {next : α → Drawn β}
    (first : Safe computation) (later : ∀ a, Safe (next a)) : Safe (computation >>= next) := by
  intro sources failed
  obtain ⟨a, rest, _, last⟩ := (bind_endless_iff first next sources).mp failed
  exact later a rest last

theorem ofEvaluation_failed {scope : Scope} {expression : Expression} {sources : Sources}
    {fault : SimulationFault} (failed : (ofEvaluation scope expression sources).1 = .error fault) :
    ∃ cause, fault = .failed cause := by
  unfold ofEvaluation at failed
  cases evaluated : (expression.value scope sources).1 with
  | ok value =>
    simp only [evaluated] at failed
    cases failed
  | error cause =>
    simp only [evaluated] at failed
    cases failed
    exact ⟨cause, rfl⟩

theorem ofEvaluation_safe (scope : Scope) (expression : Expression) :
    Safe (ofEvaluation scope expression) := by
  intro sources failed
  obtain ⟨cause, same⟩ := ofEvaluation_failed failed
  cases same

theorem sourceValue_safe (scope : Scope) (source : Source Stored) :
    Safe (sourceValue scope source) := by
  cases source with
  | literal value => exact fun _ failed => nomatch failed
  | template t => exact fun _ failed => nomatch failed
  | dynamic expression =>
    refine safe_bind (ofEvaluation_safe scope expression) fun value sources => ?_
    show storable value ≠ _
    unfold storable
    cases value.toStored? with
    | none => exact fun failed => nomatch failed
    | some stored => exact fun failed => nomatch failed

theorem stageSets_safe (scope : Scope) (list : List (Text × Source Stored))
    (staged : Fields Stored) : Safe (stageSets scope staged list) := by
  induction list generalizing staged with
  | nil => exact fun _ failed => nomatch failed
  | cons assignment rest ih =>
    obtain ⟨key, source⟩ := assignment
    exact safe_bind (sourceValue_safe scope source) fun value => ih (staged.put key value)

/-- What a step of a key may have to write out, because it is not a number: what the key holds, or
    the amount. -/
inductive StepShows (store : Store) (staged : Fields Stored) (key : Text) (amount : Stored) :
    Stored → Prop
  | base {current : Stored} (found : (staged.get? key).or (store.get? key) = some current)
      (other : amount? current = none) : StepShows store staged key amount current
  | amount {x : Float} (base : baseOf store staged key = .ok x) (other : amount? amount = none) :
      StepShows store staged key amount amount

theorem baseOf_endless_iff (store : Store) (staged : Fields Stored) (key : Text) :
    baseOf store staged key = .error .endless ↔ ∃ current,
      (staged.get? key).or (store.get? key) = some current ∧ amount? current = none ∧
        shown store.heap current = .error .endless := by
  unfold baseOf
  cases (staged.get? key).or (store.get? key) with
  | none => simp
  | some current =>
    cases numeric : amount? current with
    | some x => simp [numeric]
    | none => simp [numeric, bind_error_iff]

theorem deltaOf_endless_iff (store : Store) (key : Text) (amount : Stored) :
    deltaOf store key amount = .error .endless ↔
      amount? amount = none ∧ shown store.heap amount = .error .endless := by
  unfold deltaOf
  cases amount? amount with
  | some x => simp
  | none => simp [bind_error_iff]

theorem stageStep_endless_iff (store : Store) (staged : Fields Stored) (direction : Direction)
    (key : Text) (amount : Stored) :
    stageStep store staged direction key amount = .error .endless ↔ ∃ value,
      StepShows store staged key amount value ∧ shown store.heap value = .error .endless := by
  rw [stageStep, bind_error_iff, baseOf_endless_iff]
  constructor
  · rintro (⟨current, found, other, endless⟩ | ⟨x, start, failed⟩)
    · exact ⟨current, .base found other, endless⟩
    · rcases bind_error_iff.mp failed with change | ⟨_, _, impossible⟩
      · obtain ⟨other, endless⟩ := (deltaOf_endless_iff store key amount).mp change
        exact ⟨amount, .amount start other, endless⟩
      · cases impossible
  · rintro ⟨value, shows, endless⟩
    cases shows with
    | base found other => exact .inl ⟨value, found, other, endless⟩
    | @amount x base other =>
      have change := (deltaOf_endless_iff store key amount).mpr ⟨other, endless⟩
      exact .inr ⟨x, base, bind_error_iff.mpr (.inl change)⟩

inductive Stepping (store : Store) (scope : Scope) (direction : Direction) :
    Fields Stored → List (Text × Source Stored) → Sources → Fields Stored → Text → Stored → Prop
  | here {staged : Fields Stored} {key : Text} {source : Source Stored}
      {rest : List (Text × Source Stored)} {sources : Sources} {amount : Stored}
      (run : (sourceValue scope source sources).1 = .ok amount) :
      Stepping store scope direction staged ((key, source) :: rest) sources staged key amount
  | later {staged next last : Fields Stored} {key name : Text} {source : Source Stored}
      {rest : List (Text × Source Stored)} {sources left : Sources} {amount other : Stored}
      (run : sourceValue scope source sources = (.ok amount, left))
      (step : stageStep store staged direction key amount = .ok next)
      (more : Stepping store scope direction next rest left last name other) :
      Stepping store scope direction staged ((key, source) :: rest) sources last name other

theorem stageSteps_endless_iff (store : Store) (scope : Scope) (direction : Direction)
    (list : List (Text × Source Stored)) (staged : Fields Stored) (sources : Sources) :
    (stageSteps store scope direction staged list sources).1 = .error .endless ↔
      ∃ before key amount, Stepping store scope direction staged list sources before key amount ∧
        stageStep store before direction key amount = .error .endless := by
  induction list generalizing staged sources with
  | nil =>
    constructor
    · exact fun failed => nomatch failed
    · rintro ⟨_, _, _, stepping, _⟩
      cases stepping
  | cons assignment rest ih =>
    obtain ⟨key, source⟩ := assignment
    rw [stageSteps, bind_endless_iff (sourceValue_safe scope source)]
    constructor
    · rintro ⟨amount, left, run, failed⟩
      rcases lift_bind_fails_iff.mp failed with step | ⟨next, step, more⟩
      · exact ⟨staged, key, amount, .here (by rw [run]), step⟩
      · obtain ⟨before, name, other, stepping, last⟩ := (ih next left).mp more
        exact ⟨before, name, other, .later run step stepping, last⟩
    · rintro ⟨before, name, other, stepping, failed⟩
      cases stepping with
      | here run => exact ⟨other, _, Prod.ext run rfl, lift_bind_fails_iff.mpr (.inl failed)⟩
      | @later _ next _ _ _ _ _ _ left amount _ run step more =>
        have last := (ih next left).mpr ⟨before, name, other, more, failed⟩
        exact ⟨amount, left, run, lift_bind_fails_iff.mpr (.inr ⟨next, step, last⟩)⟩

inductive Steps (store : Store) (captures : List Text) (actions : Actions Stored)
    (sources : Sources) : Direction → Fields Stored → Text → Stored → Prop
  | up {sets staged : Fields Stored} {left : Sources} {key : Text} {amount : Stored}
      (set : stageSets (scopeOf store captures) [] actions.set sources = (.ok sets, left))
      (step : Stepping store (scopeOf store captures) .up sets actions.inc left staged key amount) :
      Steps store captures actions sources .up staged key amount
  | down {sets raised staged : Fields Stored} {left last : Sources} {key : Text} {amount : Stored}
      (set : stageSets (scopeOf store captures) [] actions.set sources = (.ok sets, left))
      (inc : stageSteps store (scopeOf store captures) .up sets actions.inc left =
        (.ok raised, last))
      (step : Stepping store (scopeOf store captures) .down raised actions.dec last staged key
        amount) :
      Steps store captures actions sources .down staged key amount

theorem stage_endless_iff (store : Store) (captures : List Text) (actions : Actions Stored)
    (sources : Sources) :
    (stage store captures actions sources).1 = .error .endless ↔
      ∃ direction staged key amount,
        Steps store captures actions sources direction staged key amount ∧
          stageStep store staged direction key amount = .error .endless := by
  rw [stage, bind_endless_iff (stageSets_safe _ actions.set [])]
  constructor
  · rintro ⟨sets, left, set, failed⟩
    rcases bind_fails_iff.mp failed with inc | ⟨raised, last, inc, dec⟩
    · obtain ⟨staged, key, amount, step, stopped⟩ := (stageSteps_endless_iff _ _ _ _ _ _).mp inc
      exact ⟨.up, staged, key, amount, .up set step, stopped⟩
    · obtain ⟨staged, key, amount, step, stopped⟩ := (stageSteps_endless_iff _ _ _ _ _ _).mp dec
      exact ⟨.down, staged, key, amount, .down set inc step, stopped⟩
  · rintro ⟨direction, staged, key, amount, steps, stopped⟩
    cases steps with
    | @up sets _ left _ _ set step =>
      have inc := (stageSteps_endless_iff _ _ _ _ _ _).mpr ⟨staged, key, amount, step, stopped⟩
      exact ⟨sets, left, set, bind_fails_iff.mpr (.inl inc)⟩
    | @down sets raised _ left last _ _ set inc step =>
      have dec := (stageSteps_endless_iff _ _ _ _ _ _).mpr ⟨staged, key, amount, step, stopped⟩
      exact ⟨sets, left, set, bind_fails_iff.mpr (.inr ⟨raised, last, inc, dec⟩)⟩

theorem mutate_endless_iff (sim : Simulator) (actions : Actions Stored) (captures : List Text) :
    (sim.mutate actions captures).1 = .error .endless ↔
      (stage sim.store captures actions sim.sources).1 = .error .endless := by
  show _ ↔ sim.staged actions captures = .error .endless
  cases staged : sim.staged actions captures with
  | ok values =>
    rw [(mutate_of_staged staged).1]
    cases (commit sim.store values).2 with
    | none => simp
    | some fault => simp
  | error cause =>
    unfold mutate
    split
    · rename_i run
      rw [Simulator.staged, run] at staged
      cases staged
      constructor
      · rintro ⟨⟩
        rfl
      · rintro ⟨⟩
        rfl
    · rename_i run
      rw [Simulator.staged, run] at staged
      cases staged

end Simulator

end VirtualInstrument
