import VirtualInstrument.Dispatch.Table
/- The rules of a table. However a table comes about, every rule in it is what its own key is
   compiled to: entries are exchanged, matchers never are. -/
namespace VirtualInstrument.Dispatch

variable {ν : Type}

def Rule.Compiled (rule : Rule ν) : Prop :=
  anchored? (compileKey rule.key).source = some rule.matcher ∧
    rule.wildcards = (compileKey rule.key).wildcards ∧
    rule.literalLength = (compileKey rule.key).literalLength

def Table.Compiled (table : Table ν) : Prop := ∀ rule ∈ table.patterns, rule.Compiled

/-- The tables that simulators have: loaded when one is made, and changed while it runs. -/
inductive Built : Table Stored → Prop
  | loaded {simulation : Profile.Simulation} {table : Table Document} (heap : Heap)
      (build : Table.build simulation = .ok table) : Built (table.load heap).2
  | inserted {table next : Table Stored} {key : Text} {entry : Entry Stored}
      (built : Built table) (insert : table.insert key entry = .ok next) : Built next

theorem mem_insertRule_iff {rule other : Rule ν} {rules : List (Rule ν)} :
    other ∈ insertRule rule rules ↔ other = rule ∨ other ∈ rules := by
  induction rules with
  | nil => simp [insertRule]
  | cons first rest ih =>
    unfold insertRule
    split
    · simp
    · simp only [List.mem_cons, ih]
      constructor
      · rintro (here | here | later)
        · exact .inr (.inl here)
        · exact .inl here
        · exact .inr (.inr later)
      · rintro (here | here | later)
        · exact .inr (.inl here)
        · exact .inl here
        · exact .inr (.inr later)

theorem replaceEntry_keys (key : Text) (entry : Entry ν) (rules : List (Rule ν)) :
    (replaceEntry key entry rules).map Rule.key = rules.map Rule.key := by
  induction rules with
  | nil => rfl
  | cons first rest ih =>
    unfold replaceEntry
    split
    · rfl
    · rw [List.map_cons, List.map_cons, ih]

theorem replaceEntry_compiled {rules : List (Rule ν)} {key : Text} {entry : Entry ν}
    (compiled : ∀ rule ∈ rules, rule.Compiled) :
    ∀ rule ∈ replaceEntry key entry rules, rule.Compiled := by
  induction rules with
  | nil => simp [replaceEntry]
  | cons first rest ih =>
    obtain ⟨here, later⟩ := List.forall_mem_cons.mp compiled
    unfold replaceEntry
    split
    · exact List.forall_mem_cons.mpr ⟨here, later⟩
    · exact List.forall_mem_cons.mpr ⟨here, ih later⟩

theorem insert_compiled {table next : Table ν} {key : Text} {entry : Entry ν}
    (compiled : table.Compiled) (insert : table.insert key entry = .ok next) :
    next.Compiled := by
  unfold Table.insert at insert
  split at insert
  · cases insert
    exact compiled
  · split at insert
    · cases insert
      exact replaceEntry_compiled compiled
    · cases read : anchored? (compileKey key).source with
      | none =>
        simp only [read] at insert
        cases insert
      | some matcher =>
        simp only [read] at insert
        cases insert
        intro rule member
        rcases mem_insertRule_iff.mp member with rfl | old
        · exact ⟨read, rfl, rfl⟩
        · exact compiled rule old

theorem addAll_compiled (commands : List (Text × Profile.EntrySpec)) {table next : Table Document}
    (compiled : table.Compiled) (added : table.addAll commands = .ok next) : next.Compiled := by
  induction commands generalizing table with
  | nil =>
    cases added
    exact compiled
  | cons command rest ih =>
    obtain ⟨key, spec⟩ := command
    rw [Table.addAll] at added
    cases first : table.add key spec with
    | error cause =>
      rw [first] at added
      cases added
    | ok between =>
      rw [first] at added
      refine ih ?_ added
      rw [Table.add] at first
      cases entry : compileEntry spec (Table.placeOf key) with
      | error cause =>
        rw [entry] at first
        cases first
      | ok entry =>
        simp only [entry] at first
        exact insert_compiled compiled first

theorem build_compiled {simulation : Profile.Simulation} {table : Table Document}
    (build : Table.build simulation = .ok table) : table.Compiled := by
  rw [Table.build] at build
  cases added : (Table.empty : Table Document).addAll simulation.commands with
  | error cause =>
    rw [added] at build
    cases build
  | ok commands =>
    rw [added] at build
    cases errors : Table.compileErrors 0 simulation.errors with
    | error cause =>
      simp only [errors] at build
      cases build
    | ok rules =>
      simp only [errors] at build
      cases build
      have none : (Table.empty : Table Document).Compiled := by simp [Table.Compiled, Table.empty]
      have compiled : commands.Compiled := addAll_compiled simulation.commands none added
      exact compiled

theorem loadPatterns_compiled {rules : List (Rule Document)} (heap : Heap)
    (compiled : ∀ rule ∈ rules, rule.Compiled) :
    ∀ rule ∈ (Table.loadPatterns heap rules).2, rule.Compiled := by
  induction rules generalizing heap with
  | nil => simp [Table.loadPatterns]
  | cons first rest ih =>
    obtain ⟨here, later⟩ := List.forall_mem_cons.mp compiled
    rw [Table.loadPatterns]
    exact List.forall_mem_cons.mpr ⟨here, ih _ later⟩

theorem built_compiled {table : Table Stored} (built : Built table) : table.Compiled := by
  induction built with
  | loaded heap build => exact loadPatterns_compiled _ (build_compiled build)
  | inserted built insert ih => exact insert_compiled ih insert

end VirtualInstrument.Dispatch
