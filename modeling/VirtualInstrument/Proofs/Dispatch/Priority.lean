import VirtualInstrument.Proofs.Dispatch.Order
import VirtualInstrument.Proofs.Simulator.Run
/- Runs of additions to a table, when it is built and later, by hand or through a simulation in
   use. Some additions fail; the others keep the table in order, so that at any time the most
   specific rule answers. -/
namespace VirtualInstrument.Dispatch

open Profile

variable {ν : Type}

def newcomers (keys : List Text) : List Text := (keys.filter isPatternKey).eraseDups

theorem newcomers_concat (keys : List Text) (key : Text) :
    newcomers (keys ++ [key]) = comes (newcomers keys) key := by
  unfold newcomers comes
  rw [List.filter_append, List.eraseDups_append]
  by_cases pattern : isPatternKey key = true
  · by_cases there : key ∈ keys
    · simp [pattern, there, List.removeAll]
    · simp [pattern, there, List.removeAll, List.eraseDups_cons]
  · simp [pattern, List.removeAll]

theorem foldl_comes (keys more : List Text) :
    more.foldl comes (newcomers keys) = newcomers (keys ++ more) := by
  induction more generalizing keys with
  | nil => simp
  | cons key rest ih =>
    rw [List.foldl_cons, ← newcomers_concat, ih, List.append_assoc]
    rfl

namespace Table

/-- The table after additions, with the keys of those that did not fail. One that fails leaves
    the table as it was. -/
def takeAll (table : Table Document) : List (Text × EntrySpec) → List Text × Table Document
  | [] => ([], table)
  | (key, spec) :: rest =>
    match table.add key spec with
    | .ok next =>
      let (keys, last) := takeAll next rest
      (key :: keys, last)
    | .error _ => takeAll table rest

theorem InOrder.start : (empty : Table Document).InOrder (newcomers []) := by
  refine ⟨⟨?_, ?_, ?_, ?_, ?_⟩, ?_⟩
  · exact List.nodup_nil
  · exact List.Perm.refl _
  · rfl
  · simp [empty]
  · exact List.Pairwise.nil
  · simp [empty, Fields.names]

theorem InOrder.add {table next : Table Document} {came : List Text} (ordered : table.InOrder came)
    {key : Text} {spec : EntrySpec} (added : table.add key spec = .ok next) :
    next.InOrder (comes came key) := by
  unfold Table.add at added
  cases compiled : compileEntry spec (placeOf key) with
  | error cause =>
    rw [compiled] at added
    cases added
  | ok entry =>
    rw [compiled] at added
    exact ordered.insert added

theorem InOrder.addAll {table next : Table Document} {came : List Text}
    (ordered : table.InOrder came) {commands : List (Text × EntrySpec)}
    (added : table.addAll commands = .ok next) :
    next.InOrder ((commands.map Prod.fst).foldl comes came) := by
  induction commands generalizing table came with
  | nil =>
    cases added
    exact ordered
  | cons command rest ih =>
    obtain ⟨key, spec⟩ := command
    unfold Table.addAll at added
    cases first : table.add key spec with
    | error cause =>
      rw [first] at added
      cases added
    | ok between =>
      rw [first] at added
      exact ih (ordered.add first) added

theorem InOrder.takeAll {table : Table Document} {came : List Text}
    (ordered : table.InOrder came) (additions : List (Text × EntrySpec)) :
    (table.takeAll additions).2.InOrder ((table.takeAll additions).1.foldl comes came) := by
  induction additions generalizing table came with
  | nil => exact ordered
  | cons addition rest ih =>
    obtain ⟨key, spec⟩ := addition
    unfold Table.takeAll
    cases first : table.add key spec with
    | error cause => exact ih ordered
    | ok next => exact ih (ordered.add first)

theorem takeAll_failed {table : Table Document} (additions : List (Text × EntrySpec)) {key : Text}
    {spec : EntrySpec} {cause : ProfileCause}
    (failed : (table.takeAll additions).2.add key spec = .error cause) :
    table.takeAll (additions ++ [(key, spec)]) = table.takeAll additions := by
  induction additions generalizing table with
  | nil =>
    have here : table.add key spec = .error cause := failed
    simp only [List.nil_append, takeAll, here]
  | cons addition rest ih =>
    obtain ⟨name, first⟩ := addition
    cases added : table.add name first with
    | error cause =>
      simp only [takeAll, added] at failed
      simpa only [List.cons_append, takeAll, added] using ih failed
    | ok next =>
      simp only [takeAll, added] at failed
      simp only [List.cons_append, takeAll, added, ih failed]

theorem build_inOrder {simulation : Simulation} {table : Table Document}
    (built : build simulation = .ok table) :
    table.InOrder (newcomers (simulation.commands.map Prod.fst)) := by
  unfold Table.build at built
  cases added : (empty : Table Document).addAll simulation.commands with
  | error cause =>
    rw [added] at built
    cases built
  | ok commands =>
    rw [added] at built
    cases errors : compileErrors 0 simulation.errors with
    | error cause =>
      simp only [errors] at built
      cases built
    | ok rules =>
      simp only [errors] at built
      cases built
      have ordered := InOrder.start.addAll added
      rw [foldl_comes, List.nil_append] at ordered
      exact ⟨ordered.ranked, ordered.exact⟩

theorem loadExact_names (heap : Heap) (exact : Fields (Entry Document)) :
    (loadExact heap exact).2.names = exact.names := by
  induction exact generalizing heap with
  | nil => rfl
  | cons first rest ih => exact congrArg _ (ih _)

theorem loadPatterns_standings (heap : Heap) (rules : List (Rule Document)) :
    (loadPatterns heap rules).2.map Rule.standing = rules.map Rule.standing := by
  induction rules generalizing heap with
  | nil => rfl
  | cons first rest ih => exact congrArg _ (ih _)

theorem InOrder.load {table : Table Document} {came : List Text} (ordered : table.InOrder came)
    (heap : Heap) : (table.load heap).2.InOrder came := by
  refine ⟨?_, ?_⟩
  · show Ranked ((loadPatterns _ table.patterns).2.map Rule.standing) came
    rw [loadPatterns_standings]
    exact ordered.ranked
  · show ∀ key ∈ (loadExact heap table.exact).2.names, exactKey key = key
    rw [loadExact_names]
    exact ordered.exact

end Table

end VirtualInstrument.Dispatch

namespace VirtualInstrument.Simulator

open Dispatch Profile

/-- The keys that scripts gave an entry while the simulation ran; a definition that fails gives
    none. -/
def defined (sim : Simulator) : List Act → List Text
  | [] => []
  | .define key spec :: rest =>
    match sim.setResponse key spec with
    | (.ok (), next) => key :: next.defined rest
    | (.error _, next) => next.defined rest
  | other :: rest => (sim.act other).defined rest

theorem acts_inOrder {sim : Simulator} {came : List Text} (ordered : sim.table.InOrder came)
    (list : List Act) : (sim.acts list).table.InOrder ((sim.defined list).foldl comes came) := by
  induction list generalizing sim came with
  | nil => exact ordered
  | cons first rest ih =>
    cases first with
    | send call =>
      refine ih ?_
      show (Instrument.send sim call).next.table.InOrder came
      rw [(send_moves sim call).1]
      exact ordered
    | control call =>
      refine ih ?_
      show (Instrument.control sim call).next.table.InOrder came
      rw [(control_alike sim call).table]
      exact ordered
    | define key spec =>
      rw [acts, List.foldl_cons, ← acts, defined, act]
      rcases setResponse_cases sim key spec with ⟨entry, table, _, inserted, whole⟩ | ⟨_, whole⟩
      · rw [whole]
        exact ih (ordered.insert inserted)
      · rw [whole]
        exact ih ordered

/-- However a table comes about, by hand or in a simulation, its rules are ranked and the most
    specific one answers; a failing addition leaves the table as it was. -/
theorem most_specific_rule_answers {profile : Profile} {table : Table Document}
    (built : Table.build profile.simulation = .ok table) :
    (∀ additions,
      let keys := profile.simulation.commands.map Prod.fst ++ (table.takeAll additions).1
      (table.takeAll additions).2.InOrder (newcomers keys) ∧
      (∀ command, (table.takeAll additions).2.Answers command) ∧
      ∀ addition, (∃ cause, (table.takeAll additions).2.add addition.1 addition.2 = .error cause) →
        table.takeAll (additions ++ [addition]) = table.takeAll additions) ∧
    ∀ sim, MadeFrom profile sim → ∀ list,
      let keys := profile.simulation.commands.map Prod.fst ++ sim.defined list
      (sim.acts list).table.InOrder (newcomers keys) ∧
      (∀ command, (sim.acts list).table.Answers command) ∧
      ∀ key spec, (∃ fault, ((sim.acts list).setResponse key spec).1 = .error fault) →
        sim.acts (list ++ [.define key spec]) = sim.acts list := by
  have start := Table.build_inOrder built
  constructor
  · intro additions
    have ordered := start.takeAll additions
    rw [foldl_comes] at ordered
    refine ⟨ordered, ordered.answers, ?_⟩
    rintro ⟨key, spec⟩ ⟨cause, failed⟩
    exact Table.takeAll_failed additions failed
  · intro sim made list
    obtain ⟨other, same, loaded, -, -⟩ := made_cases made
    rw [built] at same
    cases same
    have ordered : sim.table.InOrder (newcomers (profile.simulation.commands.map Prod.fst)) := by
      rw [loaded]
      exact start.load Heap.empty
    have later := acts_inOrder ordered list
    rw [foldl_comes] at later
    refine ⟨later, later.answers, ?_⟩
    rintro key spec ⟨fault, failed⟩
    rw [acts_concat, act]
    rcases setResponse_cases (sim.acts list) key spec with ⟨_, _, _, _, whole⟩ | ⟨_, whole⟩
    · rw [whole] at failed
      cases failed
    · rw [whole]

def oneRuleProfile : Profile :=
  ⟨none, none, ⟨[], [(text "VOLT*", .plain (text "3"))], []⟩⟩

def twoAdditions : List (Text × EntrySpec) :=
  [(text "re:(", .plain (text "1")), (text "VOLT?*", .plain (text "2"))]

theorem added_rule_goes_first :
    ∃ table, Table.build oneRuleProfile.simulation = .ok table ∧
      (table.takeAll twoAdditions).2.InOrder [text "VOLT*", text "VOLT?*"] ∧
      (table.takeAll twoAdditions).2.Answers (text "VOLT?") ∧
      ((table.takeAll twoAdditions).2.match? (text "volt? ")).map Match.key =
        some (text "VOLT?*") := by
  obtain ⟨table, built⟩ : ∃ table, Table.build oneRuleProfile.simulation = .ok table := ⟨_, rfl⟩
  obtain ⟨ordered, answers, -⟩ := (most_specific_rule_answers built).1 twoAdditions
  refine ⟨table, built, ?_, answers _, ?_⟩
  · cases built
    exact ordered
  · cases built
    rfl

end VirtualInstrument.Simulator
