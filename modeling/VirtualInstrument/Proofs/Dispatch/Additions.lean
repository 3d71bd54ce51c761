import VirtualInstrument.Proofs.Dispatch.Redefinition
import VirtualInstrument.Proofs.Text.Digits
/- Entries that are added and entries that are declared. A profile that declares one more entry makes
   the table that adding the entry makes; only where the entry comes early in the profile, since its
   key is a list position, the exact keys are listed in another order. -/
namespace VirtualInstrument.Fields

variable {α : Type}

theorem set_eq_put {name : Text} (other : position? name = none) (fields : Fields α) (value : α) :
    fields.set name value = fields.put name value := by
  have last (fields : Fields α) : insertNew name value fields = fields ++ [(name, value)] := by
    induction fields with
    | nil => rfl
    | cons entry rest ih =>
      have stays : precedes name entry.1 = false := by
        rw [precedes, other]
      rw [insertNew, stays, if_neg Bool.false_ne_true, ih]
      rfl
  unfold set put
  rw [last]

theorem get?_put (fields : Fields α) (name : Text) (value : α) (sought : Text) :
    (fields.put name value).get? sought =
      if name = sought then some value else fields.get? sought := by
  unfold put
  split
  · rename_i there
    exact get?_replace there value sought
  · rename_i absent
    induction fields with
    | nil => rfl
    | cons entry rest ih =>
      have apart : entry.1 ≠ name := by
        intro same
        simp [has, get?, same] at absent
      have later : ¬ has rest name = true := by
        simpa [has, get?, apart] using absent
      rw [List.cons_append, get?, get?, ih later]
      by_cases here : entry.1 = sought
      · rw [if_pos here, if_pos here, if_neg (fun same => apart (here.trans same.symm))]
      · rw [if_neg here, if_neg here]

theorem insertNew_split (name : Text) (value : α) (fields : Fields α) :
    ∃ before after, fields = before ++ after ∧
      insertNew name value fields = before ++ (name, value) :: after := by
  induction fields with
  | nil => exact ⟨[], [], rfl, rfl⟩
  | cons entry rest ih =>
    unfold insertNew
    split
    · exact ⟨[], entry :: rest, rfl, rfl⟩
    · obtain ⟨before, after, same, inserted⟩ := ih
      exact ⟨entry :: before, after, by rw [same]; rfl, by rw [inserted]; rfl⟩

theorem digits_of_position {name : Text} {n : Nat} (position : position? name = some n) :
    name.all Text.isDigit = true := by
  unfold position? at position
  dsimp only at position
  split at position
  · rename_i proper
    simp only [Bool.and_eq_true] at proper
    exact proper.1.1
  · cases position

end VirtualInstrument.Fields

namespace VirtualInstrument.Dispatch

open Profile

theorem trim_sublist (t : Text) : (Text.trim t).Sublist t := by
  have behind (t : Text) : (Text.trimEnd t).Sublist t := by
    rw [← List.reverse_sublist, Text.trimEnd, List.reverse_reverse]
    exact List.dropWhile_sublist _
  exact (behind _).trans (List.dropWhile_sublist _)

theorem hasPlaceholder_of_absent {t : Text} (absent : Text.unit '$' ∉ t) :
    hasPlaceholder t = false := by
  induction t with
  | nil => rfl
  | cons u rest ih =>
    obtain ⟨apart, later⟩ := not_or.mp (fun member => absent (List.mem_cons.mpr member))
    rw [hasPlaceholder, ih later, placeholder?, if_neg (fun both => apart both.1.symm)]
    rfl

theorem not_pattern_of_digits {key : Text} (digits : key.all Text.isDigit = true) :
    isPatternKey key = false := by
  have bounds (u : CodeUnit) (member : u ∈ key) : 48 ≤ u.toNat ∧ u.toNat ≤ 57 :=
    (Text.isDigit_iff u).mp (List.all_eq_true.mp digits u member)
  have absent (v : CodeUnit) (other : ¬ (48 ≤ v.toNat ∧ v.toNat ≤ 57)) : v ∉ key :=
    fun member => other (bounds v member)
  have unmarked : patternMark.isPrefixOf key = false := by
    refine Bool.eq_false_iff.mpr ?_
    intro marked
    have listed := (List.isPrefixOf_iff_prefix.mp marked).subset
    exact absent (Text.unit 'r') (by decide) (listed (by decide))
  have starless : hasStar key = false := by
    refine Bool.eq_false_iff.mpr ?_
    intro star
    have member := List.contains_iff_mem.mp star
    have trimmed : Text.unit '*' ∈ Text.trim key := by
      split at member
      · exact List.mem_of_mem_drop member
      · exact member
    exact absent (Text.unit '*') (by decide) ((trim_sublist key).subset trimmed)
  have bare := hasPlaceholder_of_absent (absent (Text.unit '$') (by decide))
  have quiet : key.any isPatternUnit = false := by
    refine List.any_eq_false.mpr ?_
    intro u member pattern
    have range := bounds u member
    simp only [isPatternUnit, Bool.or_eq_true, beq_iff_eq] at pattern
    rcases pattern with ((((((((rfl | rfl) | rfl) | rfl) | rfl) | rfl) | rfl) | rfl) | rfl) | rfl
    all_goals exact absurd range (by decide)
  rw [isPatternKey, unmarked, starless, bare, quiet]
  rfl

namespace Table

variable {ν : Type}

/-- Tables that differ at most in the order in which their exact keys came. -/
structure Alike (a b : Table ν) : Prop where
  exact' : ∀ name, a.exact.get? name = b.exact.get? name
  patterns : a.patterns = b.patterns
  errors : a.errors = b.errors

theorem Alike.match?_eq {a b : Table ν} (alike : a.Alike b) (command : Text) :
    a.match? command = b.match? command := by
  unfold Table.match?
  dsimp only
  rw [alike.exact', alike.patterns]

theorem Alike.matchErrors {a b : Table ν} (alike : a.Alike b) (command : Text)
    (captures : List Text) : a.matchErrors command captures = b.matchErrors command captures := by
  unfold Table.matchErrors
  rw [alike.errors]

inductive SameOutcome : Except ProfileCause (Table ν) → Except ProfileCause (Table ν) → Prop
  | refused (cause : ProfileCause) : SameOutcome (.error cause) (.error cause)
  | made {a b : Table ν} (alike : a.Alike b) : SameOutcome (.ok a) (.ok b)

def withExact (name : Text) (entry : Entry ν) (table : Table ν) : Table ν :=
  { table with exact := table.exact.put name entry }

/-- It makes no difference to what else is put into a table whether an exact key comes early. -/
theorem insert_early {a table : Table ν} {name other : Text} {entry : Entry ν}
    (alike : a.Alike (table.withExact name entry)) (apart : exactKey other ≠ name)
    (new : Entry ν) :
    SameOutcome (a.insert other new) ((table.insert other new).map (withExact name entry)) := by
  have rules : a.patterns = table.patterns := alike.patterns
  have errors : a.errors = table.errors := alike.errors
  cases pattern : isPatternKey other with
  | false =>
    rw [insert_exact pattern, insert_exact pattern]
    refine .made ⟨?_, rules, errors⟩
    intro sought
    simp only [withExact, Fields.get?_put, alike.exact']
    by_cases here : exactKey other = sought
    · rw [if_pos here, if_pos here, if_neg (fun same => apart (here.trans same.symm))]
    · rw [if_neg here, if_neg here]
  | true =>
    cases listed : table.patterns.any fun rule => rule.key == other with
    | true =>
      rw [insert_listed pattern (rules ▸ listed), insert_listed pattern listed, rules]
      exact .made ⟨alike.exact', rfl, errors⟩
    | false =>
      rw [insert_new pattern (rules ▸ listed), insert_new pattern listed]
      cases anchored? (compileKey other).source with
      | none => exact .refused _
      | some matcher =>
        simp only [newRule, rules]
        exact .made ⟨alike.exact', rfl, errors⟩

theorem addAll_early {commands : List (Text × EntrySpec)} {name : Text} {entry : Entry Document}
    (apart : ∀ other ∈ commands.map Prod.fst, exactKey other ≠ name) {a table : Table Document}
    (alike : a.Alike (table.withExact name entry)) :
    SameOutcome (a.addAll commands) ((table.addAll commands).map (withExact name entry)) := by
  induction commands generalizing a table with
  | nil => exact .made alike
  | cons command rest ih =>
    obtain ⟨other, spec⟩ := command
    obtain ⟨here, later⟩ := List.forall_mem_cons.mp apart
    rw [addAll, addAll]
    cases compiled : compileEntry spec (placeOf other) with
    | error cause =>
      rw [add, add, compiled]
      exact .refused cause
    | ok new =>
      rw [add_compiled compiled, add_compiled compiled]
      have step := insert_early alike here new
      cases inserted : table.insert other new with
      | error cause =>
        rw [inserted] at step
        generalize a.insert other new = outcome at step ⊢
        cases step
        exact .refused cause
      | ok next =>
        rw [inserted] at step
        generalize a.insert other new = outcome at step ⊢
        cases step with
        | made closer => exact ih later closer

theorem SameOutcome.refl (outcome : Except ProfileCause (Table ν)) :
    SameOutcome outcome outcome := by
  cases outcome with
  | error cause => exact .refused cause
  | ok table => exact .made ⟨fun _ => rfl, rfl, rfl⟩

theorem SameOutcome.withErrors {one other : Except ProfileCause (Table ν)}
    (same : SameOutcome one other) (errors : List ErrorRule) :
    SameOutcome (one.map ({ · with errors })) (other.map ({ · with errors })) := by
  cases same with
  | refused cause => exact .refused cause
  | made alike => exact .made ⟨alike.exact', alike.patterns, rfl⟩

section Declared
variable {key : Text}

theorem addAll_set {commands : Fields EntrySpec} {entries : Table Document}
    (added : empty.addAll commands = .ok entries) (distinct : commands.names.Nodup)
    (alone : ∀ other ∈ commands.names, exactKey other = exactKey key → other = key)
    (spec : EntrySpec) :
    SameOutcome (empty.addAll (commands.set key spec)) (entries.add key spec) := by
  have declared := addAll_put added distinct alone spec
  cases position : position? key with
  | none =>
    rw [Fields.set_eq_put position, declared]
    exact .refl _
  | some n =>
    by_cases there : commands.has key = true
    · have same : commands.set key spec = commands.put key spec := by
        rw [Fields.set, Fields.put, if_pos there, if_pos there]
      rw [same, declared]
      exact .refl _
    · obtain ⟨before, after, whole, inserted⟩ := Fields.insertNew_split key spec commands
      have apart : ∀ other ∈ after.map Prod.fst, exactKey other ≠ exactKey key := by
        intro other member alike
        have listed : other ∈ commands.names := by
          rw [whole]
          simp only [Fields.names, List.map_append, List.mem_append]
          exact .inr member
        rw [alone other listed alike] at listed
        exact there ((Fields.has_iff _ _).mpr listed)
      rw [whole, addAll_append] at added
      obtain ⟨start, first, others⟩ := bind_ok added
      rw [Fields.set, if_neg there, inserted, addAll_append, first]
      show SameOutcome ((start.add key spec).bind (·.addAll after)) _
      cases compiled : compileEntry spec (placeOf key) with
      | error cause =>
        rw [add, add, compiled]
        exact .refused cause
      | ok entry =>
        have plain := not_pattern_of_digits (Fields.digits_of_position position)
        have early : SameOutcome ((start.withExact (exactKey key) entry).addAll after)
            ((start.addAll after).map (withExact (exactKey key) entry)) :=
          addAll_early apart ⟨fun _ => rfl, rfl, rfl⟩
        rw [others] at early
        rw [add_compiled compiled, add_compiled compiled, insert_exact plain, insert_exact plain]
        exact early

/-- Adding an entry at runtime comes to the same as declaring it: it fails as the profile with this
    entry fails, or makes the table of that profile, at the place of its key or behind all others.
    In a map a new list position comes earlier, and the tables answer alike. -/
theorem added_entry_is_declared {simulation : Simulation} {table : Table Document}
    (built : build simulation = .ok table) (distinct : simulation.commands.names.Nodup)
    (alone : ∀ other ∈ simulation.commands.names, exactKey other = exactKey key → other = key)
    (spec : EntrySpec) :
    table.add key spec = build { simulation with commands := simulation.commands.put key spec } ∧
      let mapped := build { simulation with commands := simulation.commands.set key spec }
      SameOutcome mapped (table.add key spec) ∧
        ∀ next fresh, table.add key spec = .ok next → mapped = .ok fresh → ∀ command,
          fresh.match? command = next.match? command ∧ ∀ captures,
            fresh.matchErrors command captures = next.matchErrors command captures := by
  obtain ⟨entries, added, finished⟩ := bind_ok built
  obtain ⟨errors, rules, whole⟩ := bind_ok finished
  cases whole
  have redeclared (commands : Fields EntrySpec) : build { simulation with commands } =
      (empty.addAll commands).map ({ · with errors }) := build_of_errors rules
  have early := (addAll_set added distinct alone spec).withErrors errors
  rw [add_withErrors, redeclared, redeclared]
  refine ⟨by rw [addAll_put added distinct alone spec], early, ?_⟩
  intro next fresh made mapped command
  rw [made, mapped] at early
  cases early with
  | made alike => exact ⟨alike.match?_eq command, alike.matchErrors command⟩

end Declared

def twoPatterns : Simulation :=
  ⟨[], [(text "VOLT*", .plain (text "1")), (text "CURR*", .plain (text "2")),
    (text "*IDN?", .plain (text "3"))], []⟩

def twoPatternsRedefined : Simulation :=
  { twoPatterns with commands := twoPatterns.commands.put (text "CURR*") (.plain (text "4")) }

theorem redefined_pattern_keeps_place :
    (twoPatterns.commands.names.Nodup ∧ ∀ other ∈ twoPatterns.commands.names,
      exactKey other = exactKey (text "CURR*") → other = text "CURR*") ∧
    ∃ table next, build twoPatterns = .ok table ∧
      table.add (text "CURR*") (.plain (text "4")) = .ok next ∧
      build twoPatternsRedefined = .ok next ∧
      next.patterns.map Rule.key = [text "VOLT*", text "CURR*"] := by
  have apart : twoPatterns.commands.names.Nodup ∧ ∀ other ∈ twoPatterns.commands.names,
      exactKey other = exactKey (text "CURR*") → other = text "CURR*" := by decide
  obtain ⟨table, built⟩ : ∃ table, build twoPatterns = .ok table := ⟨_, rfl⟩
  obtain ⟨next, fresh⟩ : ∃ next, build twoPatternsRedefined = .ok next := ⟨_, rfl⟩
  have same := (added_entry_is_declared built apart.1 apart.2 (.plain (text "4"))).1
  refine ⟨apart, table, next, built, same.trans fresh, fresh, ?_⟩
  cases fresh
  rfl

end Table

end VirtualInstrument.Dispatch
