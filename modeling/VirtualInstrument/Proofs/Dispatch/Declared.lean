import VirtualInstrument.Proofs.Dispatch.Order
import VirtualInstrument.Proofs.Outcomes
import VirtualInstrument.Proofs.State.Memory
/- Where the entries of a table come from. What holds of every entry that is put into a table holds
   of every entry in it; and the entries of a new table are those that the profile declares, with
   its literals as they stand there. -/
namespace VirtualInstrument.Dispatch

open Profile

section Entries
variable {ν : Type} {property other : Entry ν → Prop}

structure Table.Each (property : Entry ν → Prop) (table : Table ν) : Prop where
  exact' : ∀ listed ∈ table.exact, property listed.2
  patterns : ∀ rule ∈ table.patterns, property rule.entry

theorem Table.Each.mono {table : Table ν} (each : table.Each property)
    (weaker : ∀ entry, property entry → other entry) : table.Each other :=
  ⟨fun listed member => weaker _ (each.exact' listed member),
    fun rule member => weaker _ (each.patterns rule member)⟩

theorem mem_put {α : Type} {fields : Fields α} {name : Text} {value : α} {listed : Text × α}
    (member : listed ∈ fields.put name value) : listed = (name, value) ∨ listed ∈ fields := by
  unfold Fields.put at member
  split at member
  · exact Fields.mem_replace member
  · rcases List.mem_append.mp member with before | last
    · exact .inr before
    · exact .inl (List.mem_singleton.mp last)

theorem mem_replaceEntry {key : Text} {entry : Entry ν} {rules : List (Rule ν)} {rule : Rule ν}
    (member : rule ∈ replaceEntry key entry rules) : rule.entry = entry ∨ rule ∈ rules := by
  induction rules with
  | nil => cases member
  | cons first rest ih =>
    rw [replaceEntry] at member
    split at member
    · rcases List.mem_cons.mp member with rfl | later
      · exact .inl rfl
      · exact .inr (List.mem_cons_of_mem _ later)
    · rcases List.mem_cons.mp member with rfl | later
      · exact .inr List.mem_cons_self
      · rcases ih later with same | there
        · exact .inl same
        · exact .inr (List.mem_cons_of_mem _ there)

theorem Table.Each.insert {table next : Table ν} (each : table.Each property) {key : Text}
    {entry : Entry ν} (new : property entry) (inserted : table.insert key entry = .ok next) :
    next.Each property := by
  unfold Table.insert at inserted
  split at inserted
  · cases inserted
    refine ⟨fun listed member => ?_, each.patterns⟩
    rcases mem_put member with rfl | there
    · exact new
    · exact each.exact' listed there
  · split at inserted
    · cases inserted
      refine ⟨each.exact', fun rule member => ?_⟩
      rcases mem_replaceEntry member with same | there
      · rw [same]
        exact new
      · exact each.patterns rule there
    · dsimp only at inserted
      split at inserted
      · cases inserted
      · cases inserted
        refine ⟨each.exact', fun rule member => ?_⟩
        rcases List.mem_cons.mp ((insertRule_perm _ _).mem_iff.mp member) with rfl | there
        · exact new
        · exact each.patterns rule there

theorem Table.Each.entry_of_match {table : Table ν} (each : table.Each property) {command : Text}
    {found : Match ν} (matched : table.match? command = some found) : property found.entry := by
  unfold Table.match? at matched
  dsimp only at matched
  split at matched
  · rename_i listed
    cases matched
    exact each.exact' _ (Fields.mem_of_get? listed)
  · obtain ⟨before, rule, after, whole, _, _, _, same⟩ := firstMatch?_eq_some matched
    rw [same]
    exact each.patterns rule (by rw [whole]; simp)

end Entries

section Building
variable {property : Entry Document → Prop}

theorem Table.Each.addAll {table next : Table Document} (each : table.Each property)
    (commands : List (Text × EntrySpec))
    (compiled : ∀ key spec entry, (key, spec) ∈ commands →
      compileEntry spec (Table.placeOf key) = .ok entry → property entry)
    (added : table.addAll commands = .ok next) : next.Each property := by
  induction commands generalizing table with
  | nil =>
    cases added
    exact each
  | cons command rest ih =>
    obtain ⟨key, spec⟩ := command
    obtain ⟨more, one, others⟩ := bind_ok added
    obtain ⟨entry, compiles, inserted⟩ := bind_ok one
    have here := compiled key spec entry List.mem_cons_self compiles
    apply ih (each.insert here inserted) _ others
    intro key spec entry member
    exact compiled key spec entry (List.mem_cons_of_mem _ member)

theorem build_declared {simulation : Simulation} {table : Table Document}
    (built : Table.build simulation = .ok table) : table.Each fun entry =>
      ∃ key spec, (key, spec) ∈ simulation.commands ∧
        compileEntry spec (Table.placeOf key) = .ok entry := by
  have start : (Table.empty : Table Document).Each fun entry =>
      ∃ key spec, (key, spec) ∈ simulation.commands ∧
        compileEntry spec (Table.placeOf key) = .ok entry :=
    ⟨by simp [Table.empty], by simp [Table.empty]⟩
  obtain ⟨entries, added, finished⟩ := bind_ok built
  obtain ⟨errors, _, whole⟩ := bind_ok finished
  have each := start.addAll simulation.commands
    (fun key spec entry member compiles => ⟨key, spec, member, compiles⟩) added
  cases whole
  exact ⟨each.exact', each.patterns⟩

structure ErrorRule.Declared (spec : ErrorSpec) (rule : ErrorRule) : Prop where
  matcher : anchored? spec.pattern = some rule.matcher
  condition : Expression.read spec.condition = .ok rule.condition
  code : rule.code = spec.code
  message : rule.message = spec.message

theorem compileErrors_declared {specs : List ErrorSpec} {index : Nat} {rules : List ErrorRule}
    (compiled : Table.compileErrors index specs = .ok rules) :
    List.Forall₂ ErrorRule.Declared specs rules := by
  induction specs generalizing index rules with
  | nil =>
    cases compiled
    exact .nil
  | cons spec rest ih =>
    obtain ⟨rule, one, others⟩ := bind_ok compiled
    obtain ⟨more, later, whole⟩ := bind_ok others
    cases whole
    refine .cons ?_ (ih later)
    unfold Table.compileError at one
    split at one
    · cases one
    · rename_i matcher
      split at one
      · rename_i condition
        cases one
        exact ⟨matcher, condition, rfl, rfl⟩
      · cases one

theorem build_errors {simulation : Simulation} {table : Table Document}
    (built : Table.build simulation = .ok table) :
    List.Forall₂ ErrorRule.Declared simulation.errors table.errors := by
  obtain ⟨entries, _, finished⟩ := bind_ok built
  obtain ⟨errors, compiled, whole⟩ := bind_ok finished
  cases whole
  exact compileErrors_declared compiled

end Building

theorem insert_errors {ν : Type} {table next : Table ν} {key : Text} {entry : Entry ν}
    (inserted : table.insert key entry = .ok next) : next.errors = table.errors := by
  unfold Table.insert at inserted
  split at inserted
  · cases inserted
    rfl
  · split at inserted
    · cases inserted
      rfl
    · dsimp only at inserted
      split at inserted
      · cases inserted
      · cases inserted
        rfl

theorem compileValue_literal {value document : Document} {place : Text}
    (compiled : compileValue value place = .ok (.literal document)) : value = document := by
  cases value with
  | string t =>
    rw [compileValue, compileString] at compiled
    split at compiled
    · split at compiled
      · cases compiled
      · cases compiled
    · split at compiled
      · cases compiled
      · cases compiled
        rfl
  | _ =>
    cases compiled
    rfl

theorem compileAssignments_literal {place key : Text} {document : Document}
    {declared : Fields Document}
    (compiled : compileAssignments place declared = .ok [(key, .literal document)]) :
    declared = [(key, document)] := by
  cases declared with
  | nil => cases compiled
  | cons first rest =>
    obtain ⟨name, value⟩ := first
    obtain ⟨source, one, others⟩ := bind_ok compiled
    obtain ⟨sources, later, whole⟩ := bind_ok others
    cases whole
    cases compileValue_literal one
    cases rest with
    | nil => rfl
    | cons second rest =>
      obtain ⟨other, _, further⟩ := bind_ok later
      obtain ⟨_, _, whole⟩ := bind_ok further
      cases whole

theorem compileEntry_actions {spec : EntrySpec} {place : Text} {actions : Actions Document}
    (compiled : compileEntry spec place = .ok (.actions actions)) :
    ∃ declared, spec = .actions declared ∧ compileActions declared place = .ok actions := by
  cases spec with
  | plain t =>
    rw [compileEntry] at compiled
    cases source : compileString t place with
    | error cause =>
      rw [source] at compiled
      cases compiled
    | ok source' =>
      rw [source] at compiled
      cases source' with
      | _ => cases compiled
  | actions declared =>
    refine ⟨declared, rfl, ?_⟩
    rw [compileEntry] at compiled
    cases all : compileActions declared place with
    | error cause =>
      rw [all] at compiled
      cases compiled
    | ok whole =>
      rw [all] at compiled
      cases compiled
      rfl

theorem compileEntry_literal {spec : EntrySpec} {place key : Text} {actions : Actions Document}
    (compiled : compileEntry spec place = .ok (.actions actions)) {document : Document}
    (set : actions.set = [(key, .literal document)]) :
    ∃ declared, spec = .actions declared ∧ declared.set = some [(key, document)] := by
  obtain ⟨declared, rfl, all⟩ := compileEntry_actions compiled
  refine ⟨declared, rfl, ?_⟩
  obtain ⟨sets, first, later⟩ := bind_ok all
  obtain ⟨incs, _, later⟩ := bind_ok later
  obtain ⟨decs, _, later⟩ := bind_ok later
  obtain ⟨response, _, last⟩ := bind_ok later
  cases last
  have single : sets = [(key, .literal document)] := set
  rw [single] at first
  have listed := compileAssignments_literal first
  cases given : declared.set with
  | none =>
    rw [given] at listed
    cases listed
  | some fields =>
    rw [given] at listed
    exact congrArg some listed

section Values
variable {fits : Document → Prop}

def Source.Fits (fits : Document → Prop) (source : Source Document) : Prop :=
  ∀ document, source = .literal document → fits document

structure Actions.Fits (fits : Document → Prop) (actions : Actions Document) : Prop where
  set : ∀ assignment ∈ actions.set, assignment.2.Fits fits
  inc : ∀ assignment ∈ actions.inc, assignment.2.Fits fits
  dec : ∀ assignment ∈ actions.dec, assignment.2.Fits fits
  response : ∀ source, actions.response = some source → source.Fits fits

def Entry.Fits (fits : Document → Prop) (entry : Entry Document) : Prop :=
  ∀ actions, entry = .actions actions → actions.Fits fits

theorem Entry.fits_any (entry : Entry Document) : entry.Fits fun _ => True :=
  fun _ _ => ⟨fun _ _ _ _ => trivial, fun _ _ _ _ => trivial, fun _ _ _ _ => trivial,
    fun _ _ _ _ => trivial⟩

theorem Table.fits_any (table : Table Document) : table.Each (Entry.Fits fun _ => True) :=
  ⟨fun listed _ => listed.2.fits_any, fun rule _ => rule.entry.fits_any⟩

def Declares (fits : Document → Prop) : EntrySpec → Prop
  | .plain _ => True
  | .actions spec =>
    ∀ entry ∈ spec.set.getD [] ++ spec.inc.getD [] ++ spec.dec.getD [], fits entry.2

theorem compileString_fits (texts : ∀ t, fits (.string t)) {t place : Text}
    {source : Source Document} (compiled : compileString t place = .ok source) :
    source.Fits fits := by
  rintro document rfl
  have same : Document.string t = document := compileValue_literal compiled
  exact same ▸ texts t

theorem compileAssignments_fits {place : Text} {declared : Fields Document}
    (each : ∀ entry ∈ declared, fits entry.2) {list : List (Text × Source Document)}
    (compiled : compileAssignments place declared = .ok list) :
    ∀ assignment ∈ list, assignment.2.Fits fits := by
  induction declared generalizing list with
  | nil =>
    cases compiled
    simp
  | cons first rest ih =>
    obtain ⟨key, value⟩ := first
    obtain ⟨here, later⟩ := List.forall_mem_cons.mp each
    obtain ⟨source, one, others⟩ := bind_ok compiled
    obtain ⟨sources, further, whole⟩ := bind_ok others
    cases whole
    refine List.forall_mem_cons.mpr ⟨?_, ih later further⟩
    rintro document rfl
    exact compileValue_literal one ▸ here

theorem compileActions_fits (texts : ∀ t, fits (.string t)) {spec : ActionSpec} {place : Text}
    (declares : Declares fits (.actions spec)) {actions : Actions Document}
    (compiled : compileActions spec place = .ok actions) : actions.Fits fits := by
  obtain ⟨changes, decs⟩ := List.forall_mem_append.mp declares
  obtain ⟨sets, incs⟩ := List.forall_mem_append.mp changes
  obtain ⟨set, one, later⟩ := bind_ok compiled
  obtain ⟨inc, two, later⟩ := bind_ok later
  obtain ⟨dec, three, later⟩ := bind_ok later
  obtain ⟨response, last, whole⟩ := bind_ok later
  cases whole
  refine ⟨compileAssignments_fits sets one, compileAssignments_fits incs two,
    compileAssignments_fits decs three, fun source same => ?_⟩
  cases declared : spec.response with
  | none =>
    rw [declared] at last
    cases last
    cases same
  | some t =>
    rw [declared] at last
    obtain ⟨found, compiles, whole⟩ := bind_ok last
    cases whole
    cases same
    exact compileString_fits texts compiles

theorem compileEntry_fits (texts : ∀ t, fits (.string t)) {spec : EntrySpec} {place : Text}
    (declares : Declares fits spec) {entry : Entry Document}
    (compiled : compileEntry spec place = .ok entry) : entry.Fits fits := by
  rintro actions rfl
  obtain ⟨declared, rfl, all⟩ := compileEntry_actions compiled
  exact compileActions_fits texts declares all

end Values

end VirtualInstrument.Dispatch
