import VirtualInstrument.Proofs.Dispatch.Loading
import VirtualInstrument.Proofs.Expression.Provenance
import VirtualInstrument.Proofs.Simulator.Run
/- The memory of a simulation stays sound, whatever is done with it: what actions set is made of
   maps of the state or of their own literals, and these are all there. -/
namespace VirtualInstrument.Simulator

open Dispatch Expression

theorem scope_closed {store : Store} (sound : store.Sound) (captures : List Text) :
    (scopeOf store captures).Closed (· < store.heap.maps.size) :=
  ⟨sound.root, fun address _ entry member => sound.heap address entry member⟩

section Staging
variable {property : Address → Prop}

theorem storable_only {value : Value} (only : value.Only property) :
    Returns (storable value) (Stored.Only property) := by
  unfold storable
  split
  · rename_i found
    exact returns_ok (toStored?_only only found)
  · exact returns_error _

theorem ofEvaluation_only {scope : Scope} (closed : scope.Closed property)
    (expression : Expression) : Gives (ofEvaluation scope expression) (Value.Only property) := by
  intro sources value found
  exact value_only closed expression sources value (ok_of_mapError found)

theorem sourceValue_only {scope : Scope} (closed : scope.Closed property) {source : Source Stored}
    (declared : ∀ value, source = .literal value → value.Only property) :
    Gives (sourceValue scope source) (Stored.Only property) := by
  unfold sourceValue
  split
  · exact gives_pure (declared _ rfl)
  · exact gives_pure (.string _)
  · exact gives_bind (ofEvaluation_only closed _) fun value only =>
      gives_lift (storable_only only)

theorem stageSets_only {scope : Scope} (closed : scope.Closed property)
    (list : List (Text × Source Stored))
    (declared : ∀ assignment ∈ list, ∀ value, assignment.2 = .literal value → value.Only property)
    {staged : Fields Stored} (only : ∀ entry ∈ staged, entry.2.Only property) :
    Gives (stageSets scope staged list) fun values => ∀ entry ∈ values, entry.2.Only property := by
  induction list generalizing staged with
  | nil => exact gives_pure only
  | cons assignment rest ih =>
    obtain ⟨key, source⟩ := assignment
    obtain ⟨here, later⟩ := List.forall_mem_cons.mp declared
    refine gives_bind (sourceValue_only closed here) fun value one => ih later ?_
    intro entry member
    rcases mem_put member with rfl | there
    · exact one
    · exact only entry there

theorem stageStep_only {store : Store} {staged : Fields Stored}
    (only : ∀ entry ∈ staged, entry.2.Only property) (direction : Direction) (key : Text)
    (amount : Stored) :
    Returns (stageStep store staged direction key amount)
      fun values => ∀ entry ∈ values, entry.2.Only property := by
  refine returns_bind (returns_any _) fun base _ => returns_bind (returns_any _) fun delta _ =>
    returns_ok ?_
  intro entry member
  rcases mem_put member with rfl | there
  · exact .number _
  · exact only entry there

theorem stageSteps_only {store : Store} {scope : Scope} (direction : Direction)
    (list : List (Text × Source Stored)) {staged : Fields Stored}
    (only : ∀ entry ∈ staged, entry.2.Only property) :
    Gives (stageSteps store scope direction staged list)
      fun values => ∀ entry ∈ values, entry.2.Only property := by
  induction list generalizing staged with
  | nil => exact gives_pure only
  | cons assignment rest ih =>
    obtain ⟨key, source⟩ := assignment
    exact gives_bind (gives_any _) fun amount _ =>
      gives_bind (gives_lift (stageStep_only only direction key amount)) fun next more =>
        ih more

/-- What actions find for their keys is made of maps that the state leads to, and of maps that the
    actions themselves set as declared. -/
theorem stage_only {store : Store} {captures : List Text}
    (closed : (scopeOf store captures).Closed property) {actions : Actions Stored}
    (declared : ∀ assignment ∈ actions.set, ∀ value, assignment.2 = .literal value →
      value.Only property) :
    Gives (stage store captures actions) fun values => ∀ entry ∈ values, entry.2.Only property := by
  refine gives_bind (stageSets_only closed actions.set declared (by simp)) fun sets one => ?_
  refine gives_bind (stageSteps_only .up actions.inc one) fun raised two => ?_
  exact stageSteps_only .down actions.dec two

end Staging

theorem staged_holds {sim : Simulator} (sound : sim.store.Sound) {actions : Actions Stored}
    (held : actions.Held sim.store.heap) {captures : List Text} {values : Fields Stored}
    (staged : sim.staged actions captures = .ok values) : sim.store.heap.HoldsAll values :=
  stage_only (scope_closed sound captures) held.set sim.sources values staged

theorem commit_keeps {property : Store → Prop} {staged : Fields Stored}
    (step : ∀ store, property store → ∀ entry ∈ staged, property (store.set entry.1 entry.2).1)
    {store : Store} (start : property store) : property (commit store staged).1 := by
  induction staged generalizing store with
  | nil => exact start
  | cons entry rest ih =>
    obtain ⟨key, value⟩ := entry
    have next := step store start (key, value) List.mem_cons_self
    rw [commit]
    split
    · rename_i run
      rw [run] at next
      exact ih (fun store kept entry member =>
        step store kept entry (List.mem_cons_of_mem _ member)) next
    · rename_i run
      rw [run] at next
      exact next

theorem commit_sound {store : Store} (sound : store.Sound) {staged : Fields Stored}
    (holds : store.heap.HoldsAll staged) :
    (commit store staged).1.Sound ∧
      store.heap.maps.size ≤ (commit store staged).1.heap.maps.size := by
  have step : ∀ next : Store, next.Sound ∧ store.heap.maps.size ≤ next.heap.maps.size →
      ∀ entry ∈ staged, (next.set entry.1 entry.2).1.Sound ∧
        store.heap.maps.size ≤ (next.set entry.1 entry.2).1.heap.maps.size := by
    intro next ⟨kept, grown⟩ entry member
    obtain ⟨last, more⟩ := kept.set ((holds entry member).grow grown) entry.1
    exact ⟨last, Nat.le_trans grown more⟩
  exact commit_keeps step ⟨sound, Nat.le_refl _⟩

/-- A simulation whose state and whose entries refer only to maps that are there. -/
structure Sound (sim : Simulator) : Prop where
  store : sim.store.Sound
  entries : sim.table.Each (Entry.Held sim.store.heap)

theorem Sound.after_moves {sim : Simulator} (sound : sim.Sound) {command : Text} {store : Store}
    (moves : Moves sim command store) : store.Sound ∧ sim.store.heap.maps.size ≤ store.heap.maps.size := by
  cases moves with
  | stays => exact ⟨sound.store, Nat.le_refl _⟩
  | resets =>
    have again := (Store.create_extends sim.store.heap sim.store.seed).1
    exact ⟨Store.create_sound sound.store.heap _, again.grows⟩
  | sets matched entry staged =>
    have held := sound.entries.entry_of_match matched _ entry
    exact commit_sound sound.store (staged_holds sound.store held staged)

theorem Sound.of_store {sim next : Simulator} (sound : sim.Sound) (table : next.table = sim.table)
    (kept : next.store.Sound) (grows : sim.store.heap.maps.size ≤ next.store.heap.maps.size) :
    next.Sound :=
  ⟨kept, table ▸ sound.entries.mono fun _ held => held.grow grows⟩

theorem Sound.send {sim : Simulator} (sound : sim.Sound) (call : Sending) :
    (Instrument.send sim call).next.Sound := by
  obtain ⟨table, moves⟩ := send_moves sim call
  obtain ⟨kept, grows⟩ := sound.after_moves moves
  exact sound.of_store table kept grows

theorem Sound.act {sim : Simulator} (sound : sim.Sound) (act : Act) : (sim.act act).Sound := by
  cases act with
  | send call => exact sound.send call
  | control call =>
    obtain ⟨table, store⟩ := control_alike sim call
    show (Instrument.control sim call).next.Sound
    exact sound.of_store table (store ▸ sound.store) (Nat.le_of_eq (by rw [store]))
  | define key spec =>
    rcases setResponse_cases sim key spec with ⟨entry, table, _, inserted, done⟩ | ⟨fault, failed⟩
    · obtain ⟨extended, loaded⟩ := entry_loads sound.store.heap entry
      have kept := sound.entries.mono fun _ held => held.grow extended.grows
      rw [Simulator.act, done]
      exact ⟨⟨extended.sound sound.store.heap, Nat.lt_of_lt_of_le sound.store.root extended.grows⟩,
        kept.insert loaded.held inserted⟩
    · rw [Simulator.act, failed]
      exact sound

theorem made_sound {profile : Profile} {sim : Simulator} (made : MadeFrom profile sim) :
    sim.Sound := by
  obtain ⟨declared, _, table, store, _⟩ := made_cases made
  obtain ⟨extended, loaded⟩ := table_loads Heap.sound_empty declared
  have sound := extended.sound Heap.sound_empty
  obtain ⟨more, _⟩ := Store.create_extends (declared.load Heap.empty).1 profile.simulation.initialState
  refine ⟨store ▸ Store.create_sound sound _, ?_⟩
  rw [table, store]
  exact loaded.held.mono fun _ held => held.grow more.grows

/-- Whatever a script does, the memory stays sound. -/
theorem acts_sound {profile : Profile} {sim : Simulator} (made : MadeFrom profile sim)
    (list : List Act) : (sim.acts list).Sound :=
  acts_keep (fun _ act sound => sound.act act) (made_sound made) list

end VirtualInstrument.Simulator
