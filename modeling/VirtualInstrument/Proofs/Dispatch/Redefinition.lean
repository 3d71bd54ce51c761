import VirtualInstrument.Proofs.Dispatch.Order
import VirtualInstrument.Proofs.Document.Listing
import VirtualInstrument.Proofs.Outcomes
/- Defining a key again. An entry that is put into a finished table goes where it would have gone if
   the profile had declared it: a key that is there keeps its place, and what is put into the table
   behind it does not depend on its entry. -/
namespace VirtualInstrument.Fields

variable {α : Type}

theorem replace_same (name : Text) (old new : α) (fields : Fields α) :
    replace name new (replace name old fields) = replace name new fields := by
  induction fields with
  | nil => rfl
  | cons entry rest ih =>
    by_cases same : entry.1 = name
    · simp [replace, same]
    · simp [replace, same, ih]

theorem replace_comm {name other : Text} (apart : other ≠ name) (value : α) (new : α)
    (fields : Fields α) :
    replace other new (replace name value fields) = replace name value (replace other new fields) := by
  induction fields with
  | nil => rfl
  | cons entry rest ih =>
    by_cases here : entry.1 = name
    · simp [replace, here, apart.symm]
    · by_cases there : entry.1 = other
      · simp [replace, there, apart]
      · simp [replace, here, there, ih]

theorem replace_concat {name other : Text} (apart : other ≠ name) (value new : α)
    (fields : Fields α) :
    replace name value (fields ++ [(other, new)]) = replace name value fields ++ [(other, new)] := by
  induction fields with
  | nil => simp [replace, apart]
  | cons entry rest ih =>
    by_cases here : entry.1 = name
    · simp [replace, here]
    · simp [replace, here, ih]

theorem has_replace (name other : Text) (value : α) (fields : Fields α) :
    has (replace name value fields) other = fields.has other := by
  rw [Bool.eq_iff_iff, has_iff, has_iff, names_replace]

theorem put_replace {name other : Text} (apart : other ≠ name) (value new : α)
    (fields : Fields α) :
    (replace name value fields).put other new = replace name value (fields.put other new) := by
  unfold put
  rw [has_replace]
  split
  · exact replace_comm apart value new fields
  · exact (replace_concat apart value new fields).symm

theorem put_again (name : Text) (old new : α) (fields : Fields α) :
    fields.put name new = replace name new (fields.put name old) := by
  unfold put
  split
  · exact (replace_same name old new fields).symm
  · rename_i absent
    have missing : name ∉ fields.names := fun member => absent ((has_iff fields name).mpr member)
    have last (fields : Fields α) (missing : name ∉ fields.names) :
        replace name new (fields ++ [(name, old)]) = fields ++ [(name, new)] := by
      induction fields with
      | nil => simp [replace]
      | cons entry rest ih =>
        obtain ⟨apart, later⟩ := not_or.mp (fun member => missing (List.mem_cons.mpr member))
        rw [List.cons_append, replace, if_neg (Ne.symm apart), ih later, List.cons_append]
    exact (last fields missing).symm

theorem has_put_self (name : Text) (value : α) (fields : Fields α) :
    (fields.put name value).has name = true := by
  unfold put
  split
  · rw [has_replace]
    assumption
  · exact (has_iff _ _).mpr (by simp [names])

theorem has_put {name other : Text} (value : α) {fields : Fields α} (there : fields.has other = true) :
    (fields.put name value).has other = true := by
  unfold put
  split
  · rwa [has_replace]
  · rw [has_iff] at there ⊢
    simp only [names, List.map_append, List.mem_append]
    exact .inl there

theorem replace_split {name : Text} {fields : Fields α} (there : name ∈ fields.names) (value : α) :
    ∃ before old after, fields = before ++ (name, old) :: after ∧
      replace name value fields = before ++ (name, value) :: after := by
  induction fields with
  | nil => cases there
  | cons entry rest ih =>
    by_cases here : entry.1 = name
    · exact ⟨[], entry.2, rest, by rw [← here]; rfl, by rw [replace, if_pos here]; rfl⟩
    · have later : name ∈ names rest := (List.mem_cons.mp there).resolve_left (Ne.symm here)
      obtain ⟨before, old, after, same, replaced⟩ := ih later
      exact ⟨entry :: before, old, after, by rw [same]; rfl,
        by rw [replace, if_neg here, replaced]; rfl⟩

end VirtualInstrument.Fields

namespace VirtualInstrument.Dispatch

open Profile

variable {ν : Type}

theorem replaceEntry_same (key : Text) (old new : Entry ν) (rules : List (Rule ν)) :
    replaceEntry key new (replaceEntry key old rules) = replaceEntry key new rules := by
  induction rules with
  | nil => rfl
  | cons rule rest ih =>
    by_cases same : rule.key = key
    · simp [replaceEntry, same]
    · simp [replaceEntry, same, ih]

theorem replaceEntry_comm {key other : Text} (apart : other ≠ key) (entry new : Entry ν)
    (rules : List (Rule ν)) :
    replaceEntry other new (replaceEntry key entry rules) =
      replaceEntry key entry (replaceEntry other new rules) := by
  induction rules with
  | nil => rfl
  | cons rule rest ih =>
    by_cases here : rule.key = key
    · simp [replaceEntry, here, apart.symm]
    · by_cases there : rule.key = other
      · simp [replaceEntry, there, apart]
      · simp [replaceEntry, here, there, ih]

theorem insertRule_replaceEntry {key : Text} {rule : Rule ν} (apart : rule.key ≠ key)
    (entry : Entry ν) (rules : List (Rule ν)) :
    insertRule rule (replaceEntry key entry rules) = replaceEntry key entry (insertRule rule rules) := by
  induction rules with
  | nil => simp [insertRule, replaceEntry, apart]
  | cons first rest ih =>
    by_cases here : first.key = key
    · subst here
      have alike : rule.precedes { first with entry } = rule.precedes first := rfl
      by_cases goes : rule.precedes first = true
      · simp [insertRule, replaceEntry, apart, alike, goes]
      · simp [insertRule, replaceEntry, alike, goes]
    · by_cases goes : rule.precedes first = true
      · simp [insertRule, replaceEntry, here, apart, goes]
      · simp [insertRule, replaceEntry, here, goes, ih]

theorem insertRule_again (rule : Rule ν) {rules : List (Rule ν)}
    (fresh : ∀ other ∈ rules, other.key ≠ rule.key) (entry : Entry ν) :
    insertRule { rule with entry } rules = replaceEntry rule.key entry (insertRule rule rules) := by
  induction rules with
  | nil => simp [insertRule, replaceEntry]
  | cons first rest ih =>
    obtain ⟨apart, others⟩ := List.forall_mem_cons.mp fresh
    have alike : ({ rule with entry } : Rule ν).precedes first = rule.precedes first := rfl
    by_cases goes : rule.precedes first = true
    · simp [insertRule, replaceEntry, alike, goes]
    · simp [insertRule, replaceEntry, alike, goes, apart, ih others]

theorem length_replaceEntry (key : Text) (entry : Entry ν) (rules : List (Rule ν)) :
    (replaceEntry key entry rules).length = rules.length := by
  have standings := congrArg List.length (replaceEntry_standings key entry rules)
  simpa using standings

theorem any_replaceEntry (key other : Text) (entry : Entry ν) (rules : List (Rule ν)) :
    ((replaceEntry key entry rules).any fun rule => rule.key == other) =
      rules.any fun rule => rule.key == other := by
  induction rules with
  | nil => rfl
  | cons rule rest ih =>
    by_cases same : rule.key = key
    · simp [replaceEntry, same]
    · simp [replaceEntry, same, ih]

theorem any_insertRule (rule : Rule ν) (rules : List (Rule ν)) (test : Rule ν → Bool) :
    (insertRule rule rules).any test = (test rule || rules.any test) :=
  (insertRule_perm rule rules).any_eq

namespace Table

def exchange (key : Text) (entry : Entry ν) (table : Table ν) : Table ν :=
  if isPatternKey key then { table with patterns := replaceEntry key entry table.patterns }
  else { table with exact := Fields.replace (exactKey key) entry table.exact }

def Has (table : Table ν) (key : Text) : Prop :=
  if isPatternKey key then (table.patterns.any fun rule => rule.key == key) = true
  else table.exact.has (exactKey key) = true

theorem insert_exact {key : Text} (plain : isPatternKey key = false) (table : Table ν)
    (entry : Entry ν) : table.insert key entry =
      .ok { table with exact := table.exact.put (exactKey key) entry } := by
  rw [insert, plain]
  rfl

theorem insert_listed {key : Text} {table : Table ν} (pattern : isPatternKey key = true)
    (there : (table.patterns.any fun rule => rule.key == key) = true) (entry : Entry ν) :
    table.insert key entry =
      .ok { table with patterns := replaceEntry key entry table.patterns } := by
  rw [insert, pattern, Bool.not_true, if_neg Bool.false_ne_true, if_pos there]

def newRule (table : Table ν) (key : Text) (entry : Entry ν) (matcher : Pattern) : Rule ν :=
  ⟨key, matcher, entry, (compileKey key).wildcards, (compileKey key).literalLength,
    table.patterns.length⟩

theorem insert_new {key : Text} {table : Table ν} (pattern : isPatternKey key = true)
    (absent : (table.patterns.any fun rule => rule.key == key) = false) (entry : Entry ν) :
    table.insert key entry = match anchored? (compileKey key).source with
      | none => .error (.badPattern (placeOf key))
      | some matcher => .ok { table with
          patterns := insertRule (table.newRule key entry matcher) table.patterns } := by
  rw [insert, pattern, Bool.not_true, if_neg Bool.false_ne_true, absent,
    if_neg Bool.false_ne_true]
  rfl

theorem insert_of_has {table : Table ν} {key : Text} (there : table.Has key) (entry : Entry ν) :
    table.insert key entry = .ok (table.exchange key entry) := by
  unfold Has at there
  unfold exchange
  split at there
  · rename_i pattern
    rw [insert_listed pattern there, if_pos pattern]
  · rename_i plain
    rw [insert_exact (Bool.eq_false_iff.mpr plain), if_neg plain, Fields.put, if_pos there]

/-- Once a key is put into a table, exchanging its entry is as putting the other one there. -/
theorem insert_again {table next : Table ν} {key : Text} {old : Entry ν}
    (inserted : table.insert key old = .ok next) (entry : Entry ν) :
    table.insert key entry = .ok (next.exchange key entry) := by
  unfold exchange
  cases pattern : isPatternKey key with
  | false =>
    rw [insert_exact pattern] at inserted ⊢
    cases inserted
    rw [if_neg Bool.false_ne_true, Fields.put_again]
  | true =>
    rw [if_pos rfl]
    cases there : table.patterns.any fun rule => rule.key == key with
    | true =>
      rw [insert_listed pattern there] at inserted ⊢
      cases inserted
      rw [replaceEntry_same]
    | false =>
      rw [insert_new pattern there] at inserted ⊢
      cases read : anchored? (compileKey key).source with
      | none =>
        rw [read] at inserted
        cases inserted
      | some matcher =>
        rw [read] at inserted
        cases inserted
        have fresh : ∀ other ∈ table.patterns, other.key ≠ key := by
          intro other member
          exact by simpa using List.any_eq_false.mp there other member
        exact congrArg (fun patterns => Except.ok { table with patterns })
          (insertRule_again (table.newRule key old matcher) fresh entry)

theorem has_insert {table next : Table ν} {other : Text} {entry : Entry ν}
    (inserted : table.insert other entry = .ok next) :
    next.Has other ∧ ∀ key, table.Has key → next.Has key := by
  unfold Has
  cases pattern : isPatternKey other with
  | false =>
    rw [insert_exact pattern] at inserted
    cases inserted
    rw [if_neg Bool.false_ne_true]
    refine ⟨Fields.has_put_self _ _ _, ?_⟩
    intro key
    cases isPatternKey key with
    | true => exact id
    | false => exact Fields.has_put entry
  | true =>
    rw [if_pos rfl]
    cases listed : table.patterns.any fun rule => rule.key == other with
    | true =>
      rw [insert_listed pattern listed] at inserted
      cases inserted
      simp only [any_replaceEntry]
      exact ⟨listed, fun key => id⟩
    | false =>
      rw [insert_new pattern listed] at inserted
      cases read : anchored? (compileKey other).source with
      | none =>
        rw [read] at inserted
        cases inserted
      | some matcher =>
        rw [read] at inserted
        cases inserted
        simp only [any_insertRule, newRule, beq_self_eq_true, Bool.true_or, true_and]
        intro key
        cases isPatternKey key with
        | true => exact fun there => by rw [if_pos rfl] at there ⊢; rw [there, Bool.or_true]
        | false => exact id

theorem any_exchange (key other : Text) (entry : Entry ν) (table : Table ν) :
    ((table.exchange key entry).patterns.any fun rule => rule.key == other) =
      table.patterns.any fun rule => rule.key == other := by
  unfold exchange
  split
  · exact any_replaceEntry key other entry table.patterns
  · rfl

/-- What is put into a table under another key does not depend on the entry of this one. -/
theorem exchange_insert {key other : Text} (apart : exactKey other ≠ exactKey key)
    (table : Table ν) (entry new : Entry ν) :
    (table.exchange key entry).insert other new =
      (table.insert other new).map (exchange key entry) := by
  have differ : other ≠ key := fun same => apart (congrArg exactKey same)
  have still := any_exchange key other entry table
  cases pattern : isPatternKey other with
  | false =>
    rw [insert_exact pattern, insert_exact pattern]
    unfold exchange
    split
    · rfl
    · simp only [Fields.put_replace apart, Except.map]
  | true =>
    cases listed : table.patterns.any fun rule => rule.key == other with
    | true =>
      rw [insert_listed pattern (still.trans listed), insert_listed pattern listed]
      unfold exchange
      split
      · simp only [replaceEntry_comm differ, Except.map]
      · rfl
    | false =>
      rw [insert_new pattern (still.trans listed), insert_new pattern listed]
      cases anchored? (compileKey other).source with
      | none => rfl
      | some matcher =>
        have named : (table.newRule other new matcher).key ≠ key := differ
        unfold exchange
        cases isPatternKey key with
        | true =>
          simp only [newRule, length_replaceEntry, Except.map, if_true] at named ⊢
          rw [insertRule_replaceEntry named]
        | false => rfl

theorem insert_withErrors (table : Table ν) (errors : List ErrorRule) (key : Text)
    (entry : Entry ν) : ({ table with errors } : Table ν).insert key entry =
      (table.insert key entry).map ({ · with errors }) := by
  unfold insert
  split
  · rfl
  · split
    · rfl
    · dsimp only
      cases anchored? (compileKey key).source with
      | none => rfl
      | some matcher => rfl

section Declared
variable {key : Text} {entry : Entry Document}

theorem addAll_append (table : Table Document) (before after : List (Text × EntrySpec)) :
    table.addAll (before ++ after) = (table.addAll before).bind (·.addAll after) := by
  induction before generalizing table with
  | nil => rfl
  | cons command rest ih =>
    obtain ⟨key, spec⟩ := command
    rw [List.cons_append, addAll, addAll]
    cases table.add key spec with
    | error cause => rfl
    | ok next => exact ih next

theorem add_compiled {spec : EntrySpec} (compiled : compileEntry spec (placeOf key) = .ok entry)
    (table : Table Document) : table.add key spec = table.insert key entry := by
  rw [add, compiled]
  rfl

theorem has_addAll {table next : Table Document} {commands : List (Text × EntrySpec)}
    (there : table.Has key) (added : table.addAll commands = .ok next) : next.Has key := by
  induction commands generalizing table with
  | nil =>
    cases added
    exact there
  | cons command rest ih =>
    obtain ⟨between, one, others⟩ := bind_ok added
    obtain ⟨entry, _, inserted⟩ := bind_ok one
    exact ih ((has_insert inserted).2 key there) others

/-- Nor does it matter for all that is declared behind a key, when none of it is looked up like
    the key. -/
theorem exchange_addAll {commands : List (Text × EntrySpec)}
    (apart : ∀ other ∈ commands.map Prod.fst, exactKey other ≠ exactKey key)
    (table : Table Document) : (table.exchange key entry).addAll commands =
      (table.addAll commands).map (exchange key entry) := by
  induction commands generalizing table with
  | nil => rfl
  | cons command rest ih =>
    obtain ⟨other, spec⟩ := command
    obtain ⟨here, later⟩ := List.forall_mem_cons.mp apart
    rw [addAll, addAll]
    cases compiled : compileEntry spec (placeOf other) with
    | error cause =>
      rw [add, add, compiled]
      rfl
    | ok new =>
      rw [add_compiled compiled, add_compiled compiled, exchange_insert here]
      cases table.insert other new with
      | error cause => rfl
      | ok next => exact ih later next

end Declared

theorem addAll_redeclared {before after : List (Text × EntrySpec)} {key : Text} {old : EntrySpec}
    {table entries : Table Document}
    (added : table.addAll (before ++ (key, old) :: after) = .ok entries)
    (apart : ∀ other ∈ after.map Prod.fst, exactKey other ≠ exactKey key) (spec : EntrySpec) :
    table.addAll (before ++ (key, spec) :: after) = entries.add key spec := by
  rw [addAll_append] at added ⊢
  obtain ⟨start, first, rest⟩ := bind_ok added
  obtain ⟨next, one, others⟩ := bind_ok rest
  obtain ⟨stored, _, inserted⟩ := bind_ok one
  have whole : (table.addAll before).bind (·.addAll ((key, spec) :: after)) =
      (start.add key spec).bind (·.addAll after) := by
    rw [first]
    rfl
  rw [whole]
  cases compiled : compileEntry spec (placeOf key) with
  | error cause =>
    rw [add, add, compiled]
    rfl
  | ok entry =>
    have there : entries.Has key := has_addAll (has_insert inserted).1 others
    rw [add_compiled compiled, add_compiled compiled, insert_again inserted, insert_of_has there]
    show (next.exchange key entry).addAll after = _
    rw [exchange_addAll apart, others]
    rfl

theorem addAll_put {commands : Fields EntrySpec} {entries : Table Document}
    (added : empty.addAll commands = .ok entries) (distinct : commands.names.Nodup) {key : Text}
    (alone : ∀ other ∈ commands.names, exactKey other = exactKey key → other = key)
    (spec : EntrySpec) : empty.addAll (commands.put key spec) = entries.add key spec := by
  unfold Fields.put
  split
  · rename_i there
    obtain ⟨before, old, after, same, replaced⟩ :=
      Fields.replace_split ((Fields.has_iff _ _).mp there) spec
    rw [same] at added distinct alone
    rw [replaced]
    refine addAll_redeclared added ?_ spec
    intro other member alike
    have listed : other ∈ Fields.names (before ++ (key, old) :: after) := by
      simp only [Fields.names, List.map_append, List.map_cons, List.mem_append, List.mem_cons]
      exact .inr (.inr member)
    rw [alone other listed alike] at member
    simp only [Fields.names, List.map_append, List.map_cons, List.nodup_append,
      List.nodup_cons] at distinct
    exact distinct.2.1.1 member
  · rw [addAll_append, added]
    show (entries.add key spec).bind (fun next => .ok next) = entries.add key spec
    cases entries.add key spec with
    | error cause => rfl
    | ok next => rfl

theorem build_of_errors {simulation : Simulation} {errors : List ErrorRule}
    (compiled : compileErrors 0 simulation.errors = .ok errors) :
    build simulation = (empty.addAll simulation.commands).map ({ · with errors }) := by
  rw [build]
  cases empty.addAll simulation.commands with
  | error cause => rfl
  | ok entries =>
    show (compileErrors 0 simulation.errors).bind _ = _
    rw [compiled]
    rfl

theorem add_withErrors (table : Table Document) (errors : List ErrorRule) (key : Text)
    (spec : EntrySpec) : ({ table with errors } : Table Document).add key spec =
      (table.add key spec).map ({ · with errors }) := by
  rw [add, add]
  cases compileEntry spec (placeOf key) with
  | error cause => rfl
  | ok entry => exact insert_withErrors table errors key entry

end Table

end VirtualInstrument.Dispatch
