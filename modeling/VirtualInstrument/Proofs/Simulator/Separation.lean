import VirtualInstrument.Proofs.Expression.Ending
import VirtualInstrument.Proofs.Simulator.Soundness
import VirtualInstrument.Proofs.State.Trees
/- Value semantics. A call that changes a single key leaves the readings apart from it alone as long
   as the map in which the key is set is not shared. Maps come to be shared because a key that is
   set to a map holds this very map, and not a copy of it. -/
namespace VirtualInstrument

open Dispatch Expression

theorem Heap.Agrees.unload?_eq {heap next : Heap} {value : Stored} (agrees : Agrees heap next value)
    (sound : heap.Sound) (sound' : next.Sound) (holds : heap.Holds value)
    (grows : heap.maps.size ≤ next.maps.size) : next.unload? value = heap.unload? value := by
  ext document
  rw [unload?_iff sound holds, unload?_iff sound' (holds.grow grows), agrees.shows_iff]

namespace Simulator

theorem textOf_keeps {before after : Store} (sound : before.Sound) (sound' : after.Sound)
    (grows : before.heap.maps.size ≤ after.heap.maps.size) {key : Text}
    (keeps : Store.Keeps before after key) : textOf after key = textOf before key := by
  unfold textOf
  rw [keeps.reading]
  cases found : before.get? key with
  | none => rfl
  | some value =>
    have same := (keeps.agrees value found).unload?_eq sound.heap sound'.heap
      (Store.get?_holds sound found) grows
    rw [← toDocument?_ofStored, ← toDocument?_ofStored] at same
    have text : (Value.ofStored value).render? after.heap =
        (Value.ofStored value).render? before.heap := by
      cases value with
      | list items => exact congrArg (Option.map (·.compact)) same
      | map address => exact congrArg (Option.map (·.compact)) same
      | _ => rfl
    simp only [render, text]

def targets (actions : Actions Stored) : List Text :=
  (actions.set ++ actions.inc ++ actions.dec).map (·.1)

section Single
variable {key : Text}

def One (key : Text) (staged : Fields Stored) : Prop := ∃ value, staged = [(key, value)]

theorem stageSets_one (scope : Scope) (source : Source Stored) :
    Gives (stageSets scope [] [(key, source)]) (One key) :=
  gives_bind (gives_any _) fun value _ => gives_pure ⟨value, rfl⟩

theorem stageStep_one (key : Text) (store : Store) (direction : Direction) (amount : Stored) :
    Returns (stageStep store [] direction key amount) (One key) :=
  returns_bind (returns_any _) fun base _ => returns_bind (returns_any _) fun delta _ =>
    returns_ok ⟨.number (direction.move base delta), rfl⟩

theorem stageSteps_one (store : Store) (scope : Scope) (direction : Direction)
    (source : Source Stored) :
    Gives (stageSteps store scope direction [] [(key, source)]) (One key) := by
  refine gives_bind (gives_any _) ?_
  intro amount _
  refine gives_bind (gives_lift (stageStep_one key store direction amount)) ?_
  intro next one
  exact gives_pure one

theorem stage_one {actions : Actions Stored} (only : targets actions = [key]) (store : Store)
    (captures : List Text) : Gives (stage store captures actions) (One key) := by
  obtain ⟨delay, set, inc, dec, get, response⟩ := actions
  have same (direction : Direction) {staged : Fields Stored} (one : One key staged) :
      Gives (stageSteps store (scopeOf store captures) direction staged []) (One key) :=
    gives_pure one
  simp only [targets, List.map_append] at only
  cases set with
  | cons first rest =>
    obtain ⟨name, source⟩ := first
    simp only [List.map_cons, List.cons_append, List.cons.injEq, List.append_eq_nil_iff,
      List.map_eq_nil_iff] at only
    obtain ⟨rfl, ⟨rfl, rfl⟩, rfl⟩ := only
    refine gives_bind (stageSets_one _ source) ?_
    intro sets one
    exact gives_bind (same .up one) fun raised more => same .down more
  | nil =>
    refine gives_bind (gives_same _) ?_
    rintro sets rfl
    cases inc with
    | cons first rest =>
      obtain ⟨name, source⟩ := first
      simp only [List.map_nil, List.nil_append, List.map_cons, List.cons_append, List.cons.injEq,
        List.append_eq_nil_iff, List.map_eq_nil_iff] at only
      obtain ⟨rfl, rfl, rfl⟩ := only
      refine gives_bind (stageSteps_one store _ .up source) ?_
      intro raised one
      exact same .down one
    | nil =>
      simp only [List.map_nil, List.nil_append] at only
      obtain ⟨⟨name, source⟩, rfl, rfl⟩ := List.map_eq_singleton_iff.mp only
      refine gives_bind (gives_same _) ?_
      rintro raised rfl
      exact stageSteps_one store _ .down source

theorem commit_single (store : Store) (value : Stored) :
    commit store [(key, value)] = store.set key value := by
  rw [commit]
  split
  · rename_i run
    rw [run]
    rfl
  · rename_i run
    rw [run]

theorem mutate_one {sim : Simulator} {actions : Actions Stored} (only : targets actions = [key])
    {captures : List Text} (done : (sim.mutate actions captures).1 = .ok ()) :
    ∃ value, sim.staged actions captures = .ok [(key, value)] ∧
      (sim.store.set key value).2 = none ∧
      (sim.mutate actions captures).2.store = (sim.store.set key value).1 := by
  cases staged : sim.staged actions captures with
  | error cause =>
    rw [mutate] at done
    split at done
    · cases done
    · rename_i run
      rw [Simulator.staged, run] at staged
      cases staged
  | ok values =>
    obtain ⟨value, rfl⟩ := stage_one only sim.store captures sim.sources values staged
    obtain ⟨result, store⟩ := mutate_of_staged staged
    rw [commit_single] at result store
    refine ⟨value, rfl, ?_, store⟩
    rw [done] at result
    cases fault : (sim.store.set key value).2 with
    | none => rfl
    | some cause =>
      rw [fault] at result
      cases result

end Single

theorem send_actions {sim : Simulator} {call : Sending} {found : Match Stored}
    {actions : Actions Stored} (matched : sim.table.match? call.command = some found)
    (entry : found.entry = .actions actions) :
    (Instrument.send sim call).next.store = (sim.mutate actions found.captures).2.store ∧
      ∀ response, (Instrument.send sim call).result = .ok response →
        (sim.mutate actions found.captures).1 = .ok () := by
  have answered : sim.respondTo (Text.trim call.command) =
      ⟨(sim.perform actions found.captures).1.map fun resolution => (resolution, found.captures),
        [], (sim.perform actions found.captures).2⟩ := by
    rw [respondTo, match?_trim, matched]
    simp only [execute, entry]
  constructor
  · rw [(send_alike sim call).store, answered]
    exact (perform_alike sim actions found.captures).store
  · intro response success
    cases changed : (sim.mutate actions found.captures).1 with
    | ok done => rfl
    | error fault =>
      have failed : (sim.perform actions found.captures).1 = .error fault := by
        unfold perform
        split
        · rename_i run
          rw [run] at changed
          exact congrArg _ (Except.error.inj changed)
        · rename_i run
          rw [run] at changed
          cases changed
      have resolved : (sim.resolve call.command).result = .error fault := by
        unfold resolve
        simp only [answered, failed, Except.map]
      have sent : (Instrument.send sim call).result = .error fault := by
        show (exchange sim call.kind call.command call.delay).result = _
        unfold exchange
        simp only [resolved]
      rw [sent] at success
      cases success

def PlainCall (sim : Simulator) (call : Sending) : Prop :=
  ∀ found actions values, sim.table.match? call.command = some found →
    found.entry = .actions actions → sim.staged actions found.captures = .ok values →
    ∀ entry ∈ values, entry.2.Mapless

def Plain (sim : Simulator) : List Act → Prop
  | [] => True
  | first :: rest => (∀ call, first = .send call → sim.PlainCall call) ∧ Plain (sim.act first) rest

theorem commit_tree {store : Store} (tree : store.IsTree) (sound : store.Sound)
    {staged : Fields Stored} (mapless : ∀ entry ∈ staged, entry.2.Mapless) :
    (commit store staged).1.IsTree := by
  have step : ∀ next : Store, next.IsTree ∧ next.Sound → ∀ entry ∈ staged,
      (next.set entry.1 entry.2).1.IsTree ∧ (next.set entry.1 entry.2).1.Sound := by
    intro next ⟨tree, sound⟩ entry member
    have plain := mapless entry member
    exact ⟨tree.set sound plain entry.1, (sound.set (plain.mono fun _ => False.elim) entry.1).1⟩
  exact (commit_keeps step ⟨tree, sound⟩).1

section Trees
variable {sim : Simulator} (sound : sim.Sound) (tree : sim.store.IsTree)
include sound tree

theorem moves_tree {call : Sending} (plain : sim.PlainCall call) {store : Store}
    (moves : Moves sim call.command store) : store.IsTree := by
  cases moves with
  | stays => exact tree
  | resets => exact (Store.create_tree sound.store.heap _).1
  | sets matched entry staged =>
    exact commit_tree tree sound.store (plain _ _ _ matched entry staged)

theorem act_tree {act : Act} (plain : ∀ call, act = .send call → sim.PlainCall call) :
    (sim.act act).store.IsTree := by
  cases act with
  | send call => exact moves_tree sound tree (plain call rfl) (send_moves sim call).2
  | control call =>
    have same : (sim.act (.control call)).store = sim.store := (control_alike sim call).store
    rwa [same]
  | define key spec =>
    rcases setResponse_cases sim key spec with ⟨entry, table, _, _, done⟩ | ⟨fault, failed⟩
    · -- the literals of the entry are loaded behind the state
      obtain ⟨extended, _⟩ := entry_loads sound.store.heap entry
      rw [Simulator.act, done]
      exact (extended.agrees sound.store.heap (.map sound.store.root)).tree tree
    · rw [Simulator.act, failed]
      exact tree

/-- A state stays a tree as long as no key is set to a value with maps. -/
theorem acts_tree {list : List Act} (plain : sim.Plain list) : (sim.acts list).store.IsTree := by
  induction list generalizing sim with
  | nil => exact tree
  | cons first rest ih => exact ih (sound.act first) (act_tree sound tree plain.1) plain.2

end Trees

theorem made_tree {profile : Profile} {sim : Simulator} (made : MadeFrom profile sim) :
    sim.store.IsTree := by
  obtain ⟨declared, _, _, store, _⟩ := made_cases made
  have extended := (table_loads Heap.sound_empty declared).1
  rw [store]
  exact (Store.create_tree (extended.sound Heap.sound_empty) _).1

theorem send_keeps {sim : Simulator} (sound : sim.Sound) {call : Sending} {found : Match Stored}
    {actions : Actions Stored} (matched : sim.table.match? call.command = some found)
    (entry : found.entry = .actions actions) {key : Text} (only : targets actions = [key])
    {response : Response} (success : (Instrument.send sim call).result = .ok response)
    (solitary : sim.store.Solitary key) {other : Text} (apart : Store.Apart key other) :
    Store.Keeps sim.store (Instrument.send sim call).next.store other ∧
      textOf (Instrument.send sim call).next.store other = textOf sim.store other := by
  obtain ⟨store, done⟩ := send_actions matched entry
  obtain ⟨value, staged, taken, same⟩ := mutate_one only (done response success)
  have holds := staged_holds sound.store (sound.entries.entry_of_match matched actions entry) staged
  have one := holds (key, value) List.mem_cons_self
  have grows := (sound.store.set one key).2
  have keeps := solitary.keeps sound.store taken apart
  rw [← same, ← store] at keeps grows
  exact ⟨keeps, textOf_keeps sound.store (sound.send call).store grows keeps⟩

/-- A successful call whose only change is that of one key leaves every key apart from it alone if
    the map of the key is not shared; and, as long as no key has been set to a value with maps, all
    settings do so exactly if no such map is shared. -/
theorem apart_keys_kept_iff_unshared {profile : Profile} {sim : Simulator}
    (made : MadeFrom profile sim) (list : List Act) :
    (∀ call found actions key response,
      (sim.acts list).table.match? call.command = some found → found.entry = .actions actions →
      targets actions = [key] →
      (Instrument.send (sim.acts list) call).result = .ok response →
      (sim.acts list).store.Solitary key → ∀ other, Store.Apart key other →
        Store.Keeps (sim.acts list).store (Instrument.send (sim.acts list) call).next.store other ∧
        textOf (Instrument.send (sim.acts list) call).next.store other =
          textOf (sim.acts list).store other) ∧
    ((sim.acts list).store.KeepsApart ↔ (sim.acts list).store.Unshared) ∧
    (sim.Plain list → (sim.acts list).store.Unshared) := by
  have sound := acts_sound made list
  refine ⟨?_, Store.keepsApart_iff sound.store, ?_⟩
  · intro call found actions key response matched entry only success solitary other apart
    exact send_keeps sound matched entry only success solitary apart
  · intro plain key _
    exact (acts_tree (made_sound made) (made_tree made) plain).solitary key

def copyingProfile : Profile :=
  ⟨none, none, ⟨[(text "cfg", .map [(text "x", .string (text "1"))]),
      (text "gain", .string (text "5"))],
    [(text "COPY", .actions ⟨none, some [(text "copy", .string (text "expr: state.cfg"))], none,
      none, none, none⟩),
     (text "SETX", .actions ⟨none, some [(text "cfg.x", .string (text "2"))], none, none, none,
      none⟩),
     (text "COPY.X?", .actions ⟨none, none, none, none, some (text "copy.x"), none⟩)], []⟩⟩

def inlineOptions (profile : Profile) : Options :=
  ⟨some profile, none, none, none, none, none, none, none⟩

def plainSettings : Settings := ⟨⟨[], []⟩, defaultTimeout, false, false⟩

def copyingSimulator : Except ProfileFault Simulator :=
  (create Disk.empty plainSettings (inlineOptions copyingProfile) ⟨.constant 0, .constant 0⟩).1

theorem inline_made {profile : Profile} {sources : Sources} {sim : Simulator}
    (made : (create Disk.empty plainSettings (inlineOptions profile) sources).1 = .ok sim) :
    MadeFrom profile sim :=
  ⟨Disk.empty, plainSettings, inlineOptions profile, sources, inlineSource, [], _, rfl,
    Prod.ext made rfl⟩

def writing (command : String) : Sending := ⟨.write, text command, none⟩

theorem copying_sets {sim : Simulator} (created : copyingSimulator = .ok sim) :
    ∃ found actions, sim.table.match? (writing "SETX").command = some found ∧
      found.entry = .actions actions ∧ targets actions = [text "cfg.x"] := by
  cases created
  exact ⟨_, _, rfl, rfl, rfl⟩

/-- Before anything is copied, setting a key below the map leaves the other entry alone. -/
theorem original_changes_alone :
    ∃ sim, copyingSimulator = .ok sim ∧ MadeFrom copyingProfile sim ∧
      sim.store.Solitary (text "cfg.x") ∧ Store.Apart (text "cfg.x") (text "gain") ∧
      Store.Keeps sim.store (Instrument.send sim (writing "SETX")).next.store (text "gain") := by
  obtain ⟨sim, created⟩ : ∃ sim, copyingSimulator = .ok sim := ⟨_, rfl⟩
  have made := inline_made created
  obtain ⟨keeps, -, unshared⟩ := apart_keys_kept_iff_unshared made []
  have clear : ¬ sim.store.Refuses (text "cfg.x") := by
    intro refused
    apply (Store.set_refused_iff _ _ .null).mpr refused
    cases created
    rfl
  have solitary := unshared trivial _ clear
  have apart : Store.Apart (text "cfg.x") (text "gain") := ⟨by decide, by decide⟩
  obtain ⟨found, actions, matched, entry, only⟩ := copying_sets created
  have success : (Instrument.send sim (writing "SETX")).result = .ok .done := by
    cases created
    decide +kernel
  have kept := keeps (writing "SETX") found actions _ .done matched entry only success solitary _
    apart
  exact ⟨sim, created, made, solitary, apart, kept.1⟩

def copied (sim : Simulator) : Simulator := sim.acts [.send (writing "COPY")]

theorem copy_changes_with_original :
    ∃ sim found actions, copyingSimulator = .ok sim ∧
      (copied sim).table.match? (writing "SETX").command = some found ∧
      found.entry = .actions actions ∧ targets actions = [text "cfg.x"] ∧
      Store.Apart (text "cfg.x") (text "copy.x") ∧
      (Instrument.send (copied sim) (writing "SETX")).result = .ok .done ∧
      textOf (copied sim).store (text "copy.x") = .ok (text "1") ∧
      textOf (Instrument.send (copied sim) (writing "SETX")).next.store (text "copy.x") =
        .ok (text "2") := by
  obtain ⟨sim, created⟩ : ∃ sim, copyingSimulator = .ok sim := ⟨_, rfl⟩
  have table : (copied sim).table = sim.table := (send_moves sim _).1
  obtain ⟨found, actions, matched, entry, only⟩ := copying_sets created
  refine ⟨sim, found, actions, created, table ▸ matched, entry, only, ⟨by decide, by decide⟩, ?_⟩
  cases created
  decide +kernel

end Simulator

end VirtualInstrument
