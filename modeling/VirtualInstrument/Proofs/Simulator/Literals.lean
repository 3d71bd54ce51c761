import VirtualInstrument.Proofs.Simulator.Separation
import VirtualInstrument.Proofs.State.ReadBack
/- The literals of a profile. A literal is loaded once, and whenever its entry runs the key comes to
   hold this very value. What is set below the key afterwards is set in the literal, so that the
   entry hands out what became of the literal and not what was declared. -/
namespace VirtualInstrument

/-- A value that shows a document and can be set under a key without a change to it, or to the way
    of the key. -/
structure Store.Intact (store : Store) (key : Text) (value : Stored) (document : Document) :
    Prop where
  shown : store.heap.unload? value = some document
  apart : ¬ store.heap.Reaches value (store.spot key).holder
  once : ¬ store.Recurs key

/-- A key reads a value, and this value shows a document. -/
def Store.ReadsBack (store : Store) (key : Text) (value : Stored) (document : Document) : Prop :=
  store.get? key = some value ∧ store.heap.unload? value = some document

theorem Store.readsBack_iff {store : Store} (sound : store.Sound) {key : Text} {value : Stored}
    (holds : store.heap.Holds value) (taken : (store.set key value).2 = none)
    (document : Document) :
    (store.set key value).1.ReadsBack key value document ↔ store.Intact key value document := by
  obtain ⟨kept, grows⟩ := sound.set holds key
  have reads := Store.set_reads_iff sound holds taken document
  constructor
  · rintro ⟨found, shown⟩
    have displays := (Heap.unload?_iff kept.heap (holds.grow grows) document).mp shown
    obtain ⟨before, apart, once⟩ := reads.mp ⟨found, displays⟩
    exact ⟨(Heap.unload?_iff sound.heap holds document).mpr before, apart, once⟩
  · rintro ⟨shown, apart, once⟩
    have before := (Heap.unload?_iff sound.heap holds document).mp shown
    obtain ⟨found, displays⟩ := reads.mpr ⟨before, apart, once⟩
    exact ⟨found, (Heap.unload?_iff kept.heap (holds.grow grows) document).mpr displays⟩

def Store.document? (store : Store) (key : Text) : Option Document :=
  (store.get? key).bind store.heap.unload?

theorem Store.document_iff {store : Store} (sound : store.Sound) {key : Text} {value : Stored}
    (holds : store.heap.Holds value) (taken : (store.set key value).2 = none)
    (once : ¬ store.Recurs key) (document : Document) :
    (store.set key value).1.document? key = some document ↔ store.Intact key value document := by
  obtain ⟨root, held, planted⟩ := set_planted sound taken
  have found := get?_planted sound root planted once
  rw [← readsBack_iff sound holds taken document, document?, found, Option.bind_some]
  constructor
  · intro shown
    exact ⟨found, shown⟩
  · intro reads
    exact reads.2

namespace Simulator

open Dispatch Expression

def sends (sim : Simulator) (calls : List Sending) : Simulator := sim.acts (calls.map .send)

theorem sends_grows {sim : Simulator} (sound : sim.Sound) (calls : List Sending) :
    (sim.sends calls).table = sim.table ∧
      sim.store.heap.maps.size ≤ (sim.sends calls).store.heap.maps.size := by
  induction calls generalizing sim with
  | nil => exact ⟨rfl, Nat.le_refl _⟩
  | cons call rest ih =>
    obtain ⟨table, moves⟩ := send_moves sim call
    obtain ⟨same, more⟩ := ih (sound.send call)
    exact ⟨same.trans table, Nat.le_trans (sound.after_moves moves).2 more⟩

structure SetsLiteral {ν : Type} (actions : Actions ν) (key : Text) (value : ν) : Prop where
  set : actions.set = [(key, .literal value)]
  inc : actions.inc = []
  dec : actions.dec = []

theorem SetsLiteral.targets_eq {actions : Actions Stored} {key : Text} {value : Stored}
    (sets : SetsLiteral actions key value) : targets actions = [key] := by
  simp only [Simulator.targets, sets.set, sets.inc, sets.dec]
  rfl

theorem SetsLiteral.staged_eq {actions : Actions Stored} {key : Text} {value : Stored}
    (sets : SetsLiteral actions key value) (sim : Simulator) (captures : List Text) :
    sim.staged actions captures = .ok [(key, value)] := by
  obtain ⟨delay, set, inc, dec, get, response⟩ := actions
  cases sets.set
  cases sets.inc
  cases sets.dec
  rfl

theorem SetsLiteral.loaded_value {heap : Heap} {declared : Actions Document} {stored : Actions Stored}
    {key : Text} {document : Document} (sets : SetsLiteral declared key document)
    (loaded : declared.Loaded heap stored) :
    ∃ value, SetsLiteral stored key value ∧ heap.Holds value ∧ heap.Shows value document := by
  obtain ⟨first, second, third⟩ := loaded
  rw [sets.set] at first
  rw [sets.inc] at second
  rw [sets.dec] at third
  obtain ⟨delay, set, inc, dec, get, response⟩ := stored
  cases second
  cases third
  cases first with
  | cons both others =>
    cases others
    obtain ⟨same, source⟩ := both
    rename_i assignment
    obtain ⟨name, held⟩ := assignment
    cases same
    cases source with
    | literal holds displays => exact ⟨_, ⟨rfl, rfl, rfl⟩, holds, displays⟩

theorem created_intact {heap : Heap} (sound : heap.Sound) {value : Stored} {document : Document}
    (holds : heap.Holds value) (displays : heap.Shows value document) (seed : Fields Document)
    (key : Text) : (Store.create heap seed).Intact key value document := by
  obtain ⟨extended, _⟩ := Store.create_extends heap seed
  obtain ⟨tree, above⟩ := Store.create_tree sound seed
  have agrees := extended.agrees sound holds
  have kept := (Store.create_sound sound seed).heap
  refine ⟨?_, ?_, (tree.solitary key).not_recurs⟩
  · exact (Heap.unload?_iff kept (holds.grow extended.grows) document).mpr (agrees.shows displays)
  · intro reaches
    have old := sound.reached_inside holds (agrees.reaches_before reaches)
    have way := Store.follow?_mapAt (Store.spot_reached (Store.create heap seed) key)
    have new := above _ (Heap.reaches_of_follow? way (.here _))
    exact absurd old (Nat.not_lt.mpr new)

/-- The entry of a new simulation that was loaded from one that sets a key to a literal sets the key
    to an intact value. -/
theorem made_literal {profile : Profile} {sim : Simulator} (made : MadeFrom profile sim)
    {table : Table Document} (built : Table.build profile.simulation = .ok table) {command : Text}
    {found : Match Document} (matched : table.match? command = some found)
    {actions : Actions Document} (entry : found.entry = .actions actions) {key : Text}
    {document : Document} (sets : SetsLiteral actions key document) :
    ∃ stored changes value, sim.table.match? command = some stored ∧
      stored.entry = .actions changes ∧ SetsLiteral changes key value ∧
      sim.store.heap.Holds value ∧ sim.store.Intact key value document := by
  obtain ⟨other, same, inTable, store, _⟩ := made_cases made
  rw [built] at same
  cases same
  obtain ⟨extended, loaded⟩ := table_loads Heap.sound_empty table
  obtain ⟨stored, answers, both⟩ := loaded.stored_match matched
  rw [entry] at both
  cases both with
  | @actions _ changes loadedChanges =>
    obtain ⟨value, setsValue, holds, displays⟩ := sets.loaded_value loadedChanges
    have sound := extended.sound Heap.sound_empty
    have intact := created_intact sound holds displays profile.simulation.initialState key
    have grown := (Store.create_extends (table.load Heap.empty).1 profile.simulation.initialState).1
    rw [inTable, store]
    exact ⟨_, changes, value, answers, rfl, setsValue, holds.grow grown.grows, intact⟩

theorem SetsLiteral.store_after_send {sim : Simulator} {call : Sending} {stored : Match Stored}
    {changes : Actions Stored} (matched : sim.table.match? call.command = some stored)
    (entry : stored.entry = .actions changes) {key : Text} {value : Stored}
    (sets : SetsLiteral changes key value) {response : Response}
    (success : (Instrument.send sim call).result = .ok response) :
    (sim.store.set key value).2 = none ∧
      (Instrument.send sim call).next.store = (sim.store.set key value).1 := by
  obtain ⟨next, done⟩ := send_actions matched entry
  obtain ⟨given, staged, taken, set⟩ := mutate_one sets.targets_eq (done response success)
  rw [sets.staged_eq] at staged
  cases staged
  exact ⟨taken, next.trans set⟩

/-- An entry that sets a key to a literal sets it to one value of memory for ever. It is read back
    as declared exactly when this value still shows what was declared, does not contain the map of
    the key, and the way of the key does not come through its own place. -/
theorem literal_reads_back_iff_intact {profile : Profile} {sim : Simulator}
    (made : MadeFrom profile sim) {table : Table Document}
    (built : Table.build profile.simulation = .ok table) {command : Text} {found : Match Document}
    (matched : table.match? command = some found) {actions : Actions Document}
    (entry : found.entry = .actions actions) {key : Text} {document : Document}
    (sets : SetsLiteral actions key document) :
    (∃ place spec, (place, .actions spec) ∈ profile.simulation.commands ∧
      spec.set = some [(key, document)]) ∧
    ∃ stored changes value, sim.table.match? command = some stored ∧
      stored.entry = .actions changes ∧ SetsLiteral changes key value ∧
      sim.store.Intact key value document ∧
      ∀ calls, (sim.sends calls).table = sim.table ∧
        (Heap.Agrees sim.store.heap (sim.sends calls).store.heap value →
          (sim.sends calls).store.heap.unload? value = some document) ∧
        ∀ call response, call.command = command →
          (Instrument.send (sim.sends calls) call).result = .ok response →
          ((Instrument.send (sim.sends calls) call).next.store.ReadsBack key value document ↔
            (sim.sends calls).store.Intact key value document) ∧
          (¬ (sim.sends calls).store.Recurs key →
            ((Instrument.send (sim.sends calls) call).next.store.document? key = some document ↔
              (sim.sends calls).store.Intact key value document)) := by
  obtain ⟨place, spec, listed, compiled⟩ := (build_declared built).entry_of_match matched
  rw [entry] at compiled
  obtain ⟨declared, rfl, given⟩ := compileEntry_literal compiled sets.set
  refine ⟨⟨place, declared, listed, given⟩, ?_⟩
  obtain ⟨stored, changes, value, answers, both, setsValue, holds, intact⟩ :=
    made_literal made built matched entry sets
  refine ⟨stored, changes, value, answers, both, setsValue, intact, ?_⟩
  intro calls
  obtain ⟨sameTable, grows⟩ := sends_grows (made_sound made) calls
  have later : (sim.sends calls).Sound := acts_sound made (calls.map .send)
  refine ⟨sameTable, ?_, ?_⟩
  · intro agrees
    rw [← intact.shown]
    exact agrees.unload?_eq (made_sound made).store.heap later.store.heap holds grows
  · rintro call response rfl success
    have reached : (sim.sends calls).table.match? call.command = some stored := by
      rw [sameTable]
      exact answers
    obtain ⟨taken, next⟩ := setsValue.store_after_send reached both success
    have inside := holds.grow grows
    rw [next]
    constructor
    · exact Store.readsBack_iff later.store inside taken document
    · exact fun once => Store.document_iff later.store inside taken once document

def bumpingProfile : Profile :=
  ⟨none, none, ⟨[],
    [(text "SET", .actions ⟨none, some [(text "cfg", .map [(text "a", .string (text "1"))])], none,
      none, none, none⟩),
     (text "BUMP", .actions ⟨none, some [(text "cfg.a", .string (text "2"))], none, none, none,
      none⟩),
     (text "A?", .actions ⟨none, none, none, none, some (text "cfg.a"), none⟩)], []⟩⟩

def bumpingSimulator : Except ProfileFault Simulator :=
  (create Disk.empty plainSettings (inlineOptions bumpingProfile) ⟨.constant 0, .constant 0⟩).1

def configuration (a : String) : Document := .map [(text "a", .string (text a))]

theorem bumping_declares :
    ∃ table found actions, Table.build bumpingProfile.simulation = .ok table ∧
      table.match? (text "SET") = some found ∧ found.entry = .actions actions ∧
      SetsLiteral actions (text "cfg") (configuration "1") :=
  ⟨_, _, _, rfl, rfl, rfl, rfl, rfl, rfl⟩

theorem new_literal_reads_back :
    ∃ sim value, bumpingSimulator = .ok sim ∧ MadeFrom bumpingProfile sim ∧
      (Instrument.send sim (writing "SET")).result = .ok .done ∧
      (Instrument.send sim (writing "SET")).next.store.ReadsBack (text "cfg") value
        (configuration "1") := by
  obtain ⟨sim, created⟩ : ∃ sim, bumpingSimulator = .ok sim := ⟨_, rfl⟩
  have made := inline_made created
  obtain ⟨table, found, actions, built, matched, entry, sets⟩ := bumping_declares
  obtain ⟨-, stored, changes, value, -, -, -, intact, runs⟩ :=
    literal_reads_back_iff_intact made built matched entry sets
  have success : (Instrument.send sim (writing "SET")).result = .ok .done := by
    cases created
    decide +kernel
  exact ⟨sim, value, created, made, success,
    ((runs []).2.2 (writing "SET") .done rfl success).1.mpr intact⟩

theorem changed_literal_is_handed_out :
    ∃ sim table found actions, bumpingSimulator = .ok sim ∧
      Table.build bumpingProfile.simulation = .ok table ∧
      table.match? (writing "SET").command = some found ∧ found.entry = .actions actions ∧
      SetsLiteral actions (text "cfg") (configuration "1") ∧
      (Instrument.send (sim.sends [writing "SET", writing "BUMP"]) (writing "SET")).result =
        .ok .done ∧
      (Instrument.send (sim.sends [writing "SET", writing "BUMP"])
        (writing "SET")).next.store.document? (text "cfg") = some (configuration "2") ∧
      configuration "2" ≠ configuration "1" := by
  obtain ⟨sim, created⟩ : ∃ sim, bumpingSimulator = .ok sim := ⟨_, rfl⟩
  obtain ⟨table, found, actions, built, matched, entry, sets⟩ := bumping_declares
  refine ⟨sim, table, found, actions, created, built, matched, entry, sets, ?_⟩
  cases created
  decide +kernel

end Simulator

end VirtualInstrument
