import VirtualInstrument.Proofs.Simulator.Queueing
import VirtualInstrument.Proofs.Simulator.Separation
import VirtualInstrument.Proofs.State.Region
/- Going back to the start. A simulation works in the part of its memory that its top map and the
   values of its entries lead to; so the initial entries, which are kept apart from it, are never
   reached and never changed, and a reset finds them as they were when the simulation was made. -/
namespace VirtualInstrument.Simulator

open Dispatch Instrument

section Closed
variable {within : Address → Prop}

structure ClosedIn (within : Address → Prop) (sim : Simulator) : Prop where
  region : sim.store.heap.Region within
  root : within sim.store.root
  entries : sim.table.Each (Entry.Sets (Stored.Only within))

theorem commit_confined {store : Store} (region : store.heap.Region within)
    (root : within store.root) {staged : Fields Stored}
    (only : ∀ entry ∈ staged, entry.2.Only within) :
    Heap.Confined within store.heap (commit store staged).1.heap := by
  have step : ∀ next : Store, Heap.Confined within store.heap next.heap ∧ within next.root →
      ∀ entry ∈ staged,
        Heap.Confined within store.heap (next.set entry.1 entry.2).1.heap ∧
          within (next.set entry.1 entry.2).1.root := by
    intro next ⟨before, inside⟩ entry member
    have kept := Store.set_confined before.region inside (only entry member) entry.1
    exact ⟨before.trans kept, (Store.set_kept next entry.1 entry.2).1 ▸ inside⟩
  exact (commit_keeps step ⟨region.confined, root⟩).1

theorem commit_kept (store : Store) (staged : Fields Stored) :
    (commit store staged).1.root = store.root ∧ (commit store staged).1.seed = store.seed := by
  have step : ∀ next : Store, next.root = store.root ∧ next.seed = store.seed →
      ∀ entry ∈ staged, (next.set entry.1 entry.2).1.root = store.root ∧
        (next.set entry.1 entry.2).1.seed = store.seed := by
    intro next ⟨root, seed⟩ entry _
    obtain ⟨sameRoot, sameSeed⟩ := Store.set_kept next entry.1 entry.2
    exact ⟨sameRoot.trans root, sameSeed.trans seed⟩
  exact commit_keeps step ⟨rfl, rfl⟩

theorem ClosedIn.confined_moves {sim : Simulator} (closed : sim.ClosedIn within) {command : Text}
    {store : Store} (moves : Moves sim command store) :
    Heap.Confined within sim.store.heap store.heap ∧ within store.root := by
  cases moves with
  | stays => exact ⟨closed.region.confined, closed.root⟩
  | resets => exact Store.create_confined closed.region sim.store.seed
  | @sets found actions values matched entry staged =>
    have scope : (scopeOf sim.store found.captures).Closed within :=
      ⟨closed.root, closed.region.entries⟩
    have only := stage_only scope (closed.entries.entry_of_match matched actions entry) sim.sources
      values staged
    exact ⟨commit_confined closed.region closed.root only,
      (commit_kept sim.store values).1 ▸ closed.root⟩

theorem ClosedIn.act {sim : Simulator} (closed : sim.ClosedIn within) (act : Act) :
    (sim.act act).ClosedIn within ∧
      Heap.Confined within sim.store.heap (sim.act act).store.heap := by
  cases act with
  | send call =>
    obtain ⟨table, moves⟩ := send_moves sim call
    obtain ⟨kept, root⟩ := closed.confined_moves moves
    exact ⟨⟨kept.region, root, table ▸ closed.entries⟩, kept⟩
  | control call =>
    have alike : Alike (sim.act (.control call)) sim := control_alike sim call
    refine ⟨⟨?_, ?_, ?_⟩, ?_⟩
    · exact alike.store ▸ closed.region
    · exact alike.store ▸ closed.root
    · exact alike.table ▸ closed.entries
    · exact alike.store ▸ closed.region.confined
  | define key spec =>
    rcases setResponse_cases sim key spec with ⟨entry, table, _, inserted, done⟩ | ⟨fault, failed⟩
    · have step : ∀ heap document, True → Heap.Confined within sim.store.heap heap →
          Heap.Confined within sim.store.heap (heap.load document).1 ∧
            (heap.load document).2.Only within := by
        intro heap document _ before
        obtain ⟨after, only⟩ := before.region.load document
        exact ⟨before.trans after, only⟩
      obtain ⟨kept, sets⟩ := entry_keeps step closed.region.confined entry.fits_any
      rw [Simulator.act, done]
      exact ⟨⟨kept.region, closed.root, closed.entries.insert sets inserted⟩, kept⟩
    · rw [Simulator.act, failed]
      exact ⟨closed, closed.region.confined⟩

theorem ClosedIn.acts {sim : Simulator} (closed : sim.ClosedIn within) (list : List Act) :
    (sim.acts list).ClosedIn within ∧
      Heap.Confined within sim.store.heap (sim.acts list).store.heap := by
  induction list generalizing sim with
  | nil => exact ⟨closed, closed.region.confined⟩
  | cons first rest ih =>
    obtain ⟨next, kept⟩ := closed.act first
    obtain ⟨last, more⟩ := ih next
    exact ⟨last, kept.trans more⟩

end Closed

/-- A simulation with a document in its memory to which nothing refers. -/
def holding (sim : Simulator) (document : Document) : Simulator :=
  { sim with store := { sim.store with heap := (sim.store.heap.load document).1 } }

def held (sim : Simulator) (document : Document) : Stored := (sim.store.heap.load document).2

def Beside (sim : Simulator) (document : Document) (address : Address) : Prop :=
  address < sim.store.heap.maps.size ∨ (sim.holding document).store.heap.maps.size ≤ address

theorem Sound.holding {sim : Simulator} (sound : sim.Sound) (document : Document) :
    (sim.holding document).Sound ∧ (sim.holding document).ClosedIn (sim.Beside document) := by
  obtain ⟨extended, _⟩ := Heap.load_extends sim.store.heap document
  have inside {value : Stored} (holds : sim.store.heap.Holds value) :
      value.Only (sim.Beside document) := holds.mono fun _ => .inl
  refine ⟨⟨⟨extended.sound sound.store.heap, ?_⟩, ?_⟩,
    ⟨fun _ => .inr, ?_⟩, .inl sound.store.root, ?_⟩
  · exact Nat.lt_of_lt_of_le sound.store.root extended.grows
  · exact sound.entries.mono fun _ held => held.grow extended.grows
  · intro address there entry member
    rcases there with old | new
    · have same := extended.old address old
      exact inside (sound.store.heap address entry (same ▸ member))
    · rw [Heap.fields_outside new] at member
      cases member
  · exact sound.entries.mono fun entry held actions same assignment member value literal =>
      inside ((held actions same).set assignment member value literal)

/-- A document that nothing refers to stays as it is, and the state never comes to share a map with
    it, whatever a script does. -/
theorem held_unchanged {sim : Simulator} (sound : sim.Sound) (document : Document)
    (list : List Act) :
    ((sim.holding document).acts list).store.heap.unload? (sim.held document) = some document ∧
      ((sim.holding document).acts list).store.heap.Disjoint (sim.held document)
        (.map ((sim.holding document).acts list).store.root) := by
  obtain ⟨_, holds⟩ := Heap.load_extends sim.store.heap document
  have shows := Heap.load_shows sound.store.heap document
  obtain ⟨_, above⟩ := Heap.load_tree sound.store.heap document
  obtain ⟨sound', closed⟩ := sound.holding document
  obtain ⟨last, kept⟩ := closed.acts list
  have final : ((sim.holding document).acts list).Sound :=
    acts_keep (fun _ act sound => sound.act act) sound' list
  have apart : ∀ address, (sim.holding document).store.heap.Reaches (sim.held document) address →
      ¬ sim.Beside document address := by
    intro address reaches beside
    have least := above address reaches
    have most := sound'.store.heap.reached_inside holds reaches
    rcases beside with old | new
    · exact absurd old (Nat.not_lt.mpr least)
    · exact absurd most (Nat.not_lt.mpr new)
  have agrees : Heap.Agrees (sim.holding document).store.heap
      ((sim.holding document).acts list).store.heap (sim.held document) :=
    fun address reaches => kept.outside address (apart address reaches)
  constructor
  · exact (Heap.unload?_iff final.store.heap (holds.grow kept.grows) document).mpr
      (agrees.shows shows)
  · intro address reaches back
    exact apart address (agrees.reaches_before reaches)
      (last.region.within_of_reaches (.map last.root) back)

theorem Moves.seed_eq {sim : Simulator} {command : Text} {store : Store}
    (moves : Moves sim command store) : store.seed = sim.store.seed := by
  cases moves with
  | stays => rfl
  | resets => rfl
  | sets => exact (commit_kept sim.store _).2

theorem act_seed (sim : Simulator) (act : Act) : (sim.act act).store.seed = sim.store.seed := by
  cases act with
  | send call => exact (send_moves sim call).2.seed_eq
  | control call => exact congrArg Store.seed (control_alike sim call).store
  | define key spec =>
    rcases setResponse_cases sim key spec with ⟨entry, table, _, _, done⟩ | ⟨fault, failed⟩
    · rw [Simulator.act, done]
    · rw [Simulator.act, failed]

theorem acts_seed (sim : Simulator) (list : List Act) :
    (sim.acts list).store.seed = sim.store.seed := by
  induction list generalizing sim with
  | nil => rfl
  | cons first rest ih => exact (ih (sim.act first)).trans (act_seed sim first)

/-- A reset puts the initial entries into new maps, clears the queue, and then the rules are
    checked in the new state. -/
theorem send_reset {sim : Simulator} {call : Sending}
    (resets : sim.common? call.command = some .reset) :
    (send sim call).next.store = sim.store.reset ∧
      sim.judged call = judgements sim.store.reset sim.sources
        (sim.table.matchErrors call.command []) ∧
      (send sim call).next.queue.entries = raised sim.store.reset (sim.judged call) ∧
      (send sim call).result =
        (match failure? (sim.judged call) with
          | some fault => .error fault
          | none => .ok (.ofText [] call.kind)) := by
  rcases respondTo_cases sim call.command with
    ⟨found, matched, _⟩ | ⟨common, builtin, answer⟩ | ⟨_, unknown, _⟩
  · rw [common?_of_match matched] at resets
    cases resets
  · rw [resets] at builtin
    cases builtin
    have store : (send sim call).next.store = sim.store.reset := by
      rw [(send_alike sim call).store, answer]
      rfl
    obtain ⟨queue, result⟩ := send_judged sim call
    rw [answer] at queue result
    refine ⟨store, ?_, ?_, result⟩
    · simp only [judged, answer]
      rfl
    · rw [queue, store]
      rfl
  · rw [resets] at unknown
    cases unknown

theorem reset_shows {store : Store} (sound : store.Sound) :
    store.reset.heap.unload? (.map store.reset.root) = some (.map store.seed) := by
  have shows := Heap.load_shows sound.heap (.map store.seed)
  obtain ⟨extended, holds⟩ := Heap.load_extends store.heap (.map store.seed)
  exact (Heap.unload?_iff (extended.sound sound.heap) holds _).mpr shows

/-- After any acts, a reset that no entry answers leads back to the initial state in new maps, with
    the errors of the rules judged in that state on the queue. The initial entries are never
    changed, and the state never comes to share a part of them. -/
theorem reset_is_full_reseed {profile : Profile} {sim : Simulator} (made : MadeFrom profile sim)
    (list : List Act) :
    (∀ call, (sim.acts list).common? call.command = some .reset →
      let after := (send (sim.acts list) call).next
      let judged := judgements after.store (sim.acts list).sources
        ((sim.acts list).table.matchErrors call.command [])
      after.store.heap.unload? (.map after.store.root) =
          some (.map profile.simulation.initialState) ∧
        after.store.IsTree ∧
        after.store.heap.Above (sim.acts list).store.heap.maps.size (.map after.store.root) ∧
        after.queue.entries = raised after.store judged ∧
        (send (sim.acts list) call).result =
          match failure? judged with
          | some fault => .error fault
          | none => .ok (.ofText [] call.kind)) ∧
    (sim.acts list).store.seed = profile.simulation.initialState ∧
    ∀ later,
      let initial := Document.map profile.simulation.initialState
      let beside := ((sim.acts list).holding initial).acts later
      beside.store.heap.unload? ((sim.acts list).held initial) = some initial ∧
        beside.store.heap.Disjoint ((sim.acts list).held initial) (.map beside.store.root) := by
  have sound := acts_sound made list
  have seed : (sim.acts list).store.seed = profile.simulation.initialState := by
    obtain ⟨_, _, _, store, _⟩ := made_cases made
    rw [acts_seed, store]
    rfl
  refine ⟨?_, seed, fun later => held_unchanged sound _ later⟩
  intro call resets
  obtain ⟨store, judged, queue, result⟩ := send_reset resets
  obtain ⟨tree, above⟩ := Store.create_tree sound.store.heap (sim.acts list).store.seed
  dsimp only
  rw [store, ← judged]
  refine ⟨?_, tree, above, queue, result⟩
  rw [reset_shows sound.store, seed]

def reseededProfile : Profile :=
  ⟨none, none, ⟨[(text "cfg", .map [(text "x", .string (text "1"))]),
      (text "fresh", .string (text "1"))],
    [(text "COPY", .actions ⟨none, some [(text "copy", .string (text "expr: state.cfg"))], none,
      none, none, none⟩),
     (text "PUT", .actions ⟨none, some [(text "cfg", .map [(text "x", .string (text "2"))])], none,
      none, none, none⟩),
     (text "SETX", .actions ⟨none, some [(text "cfg.x", .string (text "3")),
      (text "fresh", .string [])], none, none, none, none⟩)],
    [⟨text "\\*RST", text "state.fresh", -300, text "Device-specific error"⟩]⟩⟩

def reseededSimulator : Except ProfileFault Simulator :=
  (create Disk.empty plainSettings (inlineOptions reseededProfile) ⟨.constant 0, .constant 0⟩).1

def reseededActs : List Act :=
  [.send (writing "COPY"), .send (writing "SETX"), .send (writing "PUT"), .send (writing "SETX")]

/-- The rule whose condition holds in the initial state only is on the queue after a reset. -/
theorem reset_rules_see_initial_state :
    ∃ sim, reseededSimulator = .ok sim ∧ MadeFrom reseededProfile sim ∧
      textOf (sim.acts reseededActs).store (text "copy.x") = .ok (text "3") ∧
      (sim.acts reseededActs).common? (writing "*RST").command = some .reset ∧
      let after := (send (sim.acts reseededActs) (writing "*RST")).next
      after.store.heap.unload? (.map after.store.root) =
          some (.map reseededProfile.simulation.initialState) ∧
        after.queue.entries = [⟨-300, text "Device-specific error"⟩] := by
  obtain ⟨sim, created⟩ : ∃ sim, reseededSimulator = .ok sim := ⟨_, rfl⟩
  have made := inline_made created
  have changed : textOf (sim.acts reseededActs).store (text "copy.x") = .ok (text "3") := by
    cases created
    decide +kernel
  have resets : (sim.acts reseededActs).common? (writing "*RST").command = some .reset := by
    cases created
    decide +kernel
  obtain ⟨state, _, _, queue, _⟩ :=
    (reset_is_full_reseed made reseededActs).1 (writing "*RST") resets
  refine ⟨sim, created, made, changed, resets, state, ?_⟩
  cases created
  decide +kernel

end VirtualInstrument.Simulator
