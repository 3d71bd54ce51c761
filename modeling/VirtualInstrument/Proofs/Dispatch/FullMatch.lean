import VirtualInstrument.Proofs.Dispatch.Anchoring
import VirtualInstrument.Proofs.Dispatch.Loading
import VirtualInstrument.Proofs.Dispatch.Priority
import VirtualInstrument.Proofs.Dispatch.Rules
/- Full matches. The texts that are taken as patterns by themselves are the keys that are regular
   and the patterns of error rules. A text keeps what these promise exactly when it is refused, or
   closes only groups that it opens. -/
namespace VirtualInstrument.Dispatch

open Pattern Profile

/-- A text that is a pattern, with a matcher that takes a command only as a whole. -/
structure FullMatch (t : Text) (matcher : Pattern) : Prop where
  valid : (Pattern.read? t).isSome = true
  whole : ∀ command, (matcher.captures? command).isSome = true →
    matcher.span? command = some (0, command.length)

/-- The matcher that is made from a text fits the text, if the text closes only its own groups. -/
theorem fullMatch_iff {t : Text} {matcher : Pattern} (accepted : anchored? t = some matcher) :
    FullMatch t matcher ↔ ClosesOwnGroups t := by
  constructor
  · rintro ⟨valid, -⟩
    obtain ⟨pattern, read⟩ := Option.isSome_iff_exists.mp valid
    exact closesOwnGroups_of_read read
  · intro own
    rw [anchored?_eq own] at accepted
    obtain ⟨pattern, read, same⟩ := Option.map_eq_some_iff.mp accepted
    refine ⟨by rw [read]; rfl, ?_⟩
    intro command taken
    obtain ⟨captures, found⟩ := Option.isSome_iff_exists.mp taken
    rw [← same] at found ⊢
    rw [span?_enclosed, found]
    rfl

theorem refused_of_invalid {t : Text}
    (own : (anchored? t).isSome = true → ClosesOwnGroups t) (invalid : Pattern.read? t = none) :
    anchored? t = none := by
  cases accepted : anchored? t with
  | none => rfl
  | some matcher =>
    rw [accepted] at own
    rw [anchored?_eq (own rfl), invalid] at accepted
    cases accepted

def regularBody (key : Text) : Text := (Text.after? patternMark key).getD key

theorem compileKey_regular {key : Text} (regular : isRegular key = true) :
    (compileKey key).source = regularBody key := by
  rw [compileKey, if_pos regular]
  rfl

theorem isPatternKey_of_regular {key : Text} (regular : isRegular key = true) :
    isPatternKey key = true := by
  simp only [isRegular, Bool.or_eq_true, Bool.and_eq_true] at regular
  simp only [isPatternKey, Bool.or_eq_true]
  rcases regular with marked | ⟨regular, _⟩
  · exact .inl (.inl (.inl marked))
  · exact .inr regular

/-- What is promised of a regular key, in the tables that simulators have. -/
structure KeyKeeps (key : Text) : Prop where
  accepted : ∀ table : Table Stored, Built table → ∀ rule ∈ table.patterns, rule.key = key →
    FullMatch (regularBody key) rule.matcher
  refusedAdded : Pattern.read? (regularBody key) = none → ∀ table : Table Stored, Built table →
    ∀ entry, table.insert key entry = .error (.badPattern (Table.placeOf key))
  refusedLoaded : Pattern.read? (regularBody key) = none → ∀ simulation : Simulation,
    ∀ spec, (key, spec) ∈ simulation.commands → ∃ cause, Table.build simulation = .error cause

structure PatternKeeps (t : Text) : Prop where
  accepted : ∀ simulation table, Table.build simulation = .ok table →
    List.Forall₂ (fun spec rule => spec.pattern = t → FullMatch t rule.matcher)
      simulation.errors table.errors
  refused : Pattern.read? t = none → ∀ index spec, spec.pattern = t →
    Table.compileError index spec = .error (.badRulePattern (Table.errorPlace index))
  refusedLoaded : Pattern.read? t = none → ∀ simulation : Simulation,
    ∀ spec ∈ simulation.errors, spec.pattern = t → ∃ cause, Table.build simulation = .error cause

theorem rule_of_declared {simulation : Simulation} {table : Table Document}
    (built : Table.build simulation = .ok table) {key : Text} {spec : EntrySpec}
    (declared : (key, spec) ∈ simulation.commands) (pattern : isPatternKey key = true) :
    ∃ rule ∈ table.patterns, rule.key = key := by
  have came : key ∈ newcomers (simulation.commands.map Prod.fst) := by
    simp only [newcomers, List.mem_eraseDups, List.mem_filter]
    exact ⟨List.mem_map_of_mem declared, pattern⟩
  obtain ⟨standing, listed, same⟩ :=
    ((Table.build_inOrder built).ranked.mem_came_iff key).mp came
  obtain ⟨rule, member, rfl⟩ := List.mem_map.mp listed
  exact ⟨rule, member, same⟩

section Keys
variable {key : Text} (regular : isRegular key = true)
include regular

theorem matcher_of_rule {ν : Type} {table : Table ν} (compiled : table.Compiled) {rule : Rule ν}
    (member : rule ∈ table.patterns) (same : rule.key = key) :
    anchored? (regularBody key) = some rule.matcher := by
  have matcher := (compiled rule member).1
  rwa [same, compileKey_regular regular] at matcher

theorem rule_of_accepted {matcher : Pattern} (accepted : anchored? (regularBody key) = some matcher) :
    ∃ table : Table Stored, Built table ∧ ∃ rule ∈ table.patterns,
      rule.key = key ∧ rule.matcher = matcher := by
  have empty : Table.build Simulation.empty = .ok Table.empty := rfl
  have start : Built (Table.empty : Table Stored) := .loaded Heap.empty empty
  have insert : (Table.empty : Table Stored).insert key (.literal []) = .ok ⟨[], [⟨key, matcher,
      .literal [], (compileKey key).wildcards, (compileKey key).literalLength, 0⟩], []⟩ := by
    rw [← compileKey_regular regular] at accepted
    unfold Table.insert
    rw [isPatternKey_of_regular regular, Bool.not_true, if_neg Bool.false_ne_true]
    simp only [accepted]
    rfl
  exact ⟨_, .inserted start insert, _, List.mem_singleton_self _, rfl, rfl⟩

/-- A regular key keeps what is promised of it as long as its text is refused, or closes only groups
    of its own. -/
theorem keyKeeps_iff :
    KeyKeeps key ↔ ((anchored? (regularBody key)).isSome = true →
      ClosesOwnGroups (regularBody key)) := by
  constructor
  · intro keeps accepted
    obtain ⟨matcher, read⟩ := Option.isSome_iff_exists.mp accepted
    obtain ⟨table, built, rule, member, named, same⟩ := rule_of_accepted regular read
    have full := keeps.accepted table built rule member named
    rw [same] at full
    exact (fullMatch_iff read).mp full
  · intro own
    refine ⟨?_, ?_, ?_⟩
    · intro table built rule member named
      have read := matcher_of_rule regular (built_compiled built) member named
      exact (fullMatch_iff read).mpr (own (by rw [read]; rfl))
    · intro invalid table built entry
      have refused := refused_of_invalid own invalid
      have absent : (table.patterns.any fun rule => rule.key == key) = false := by
        refine List.any_eq_false.mpr ?_
        intro rule member named
        have read := matcher_of_rule regular (built_compiled built) member (beq_iff_eq.mp named)
        rw [refused] at read
        cases read
      unfold Table.insert
      rw [isPatternKey_of_regular regular, Bool.not_true, if_neg Bool.false_ne_true, absent,
        if_neg Bool.false_ne_true]
      rw [← compileKey_regular regular] at refused
      simp only [refused]
    · intro invalid simulation spec declared
      have refused := refused_of_invalid own invalid
      cases built : Table.build simulation with
      | error cause => exact ⟨cause, rfl⟩
      | ok table =>
        obtain ⟨rule, member, named⟩ :=
          rule_of_declared built declared (isPatternKey_of_regular regular)
        have read := matcher_of_rule regular (build_compiled built) member named
        rw [refused] at read
        cases read

end Keys

theorem patternKeeps_iff (t : Text) :
    PatternKeeps t ↔ ((anchored? t).isSome = true → ClosesOwnGroups t) := by
  constructor
  · intro keeps accepted
    obtain ⟨matcher, read⟩ := Option.isSome_iff_exists.mp accepted
    obtain ⟨condition, written⟩ : ∃ condition, Expression.read (text "1") = .ok condition :=
      ⟨_, rfl⟩
    have built : Table.build ⟨[], [], [⟨t, text "1", 0, []⟩]⟩ =
        .ok ⟨[], [], [⟨matcher, condition, 0, []⟩]⟩ := by
      simp only [Table.build, Table.addAll, Table.compileErrors, Table.compileError, read, written]
      rfl
    cases keeps.accepted _ _ built with
    | cons full _ => exact (fullMatch_iff read).mp (full rfl)
  · intro own
    have missing (invalid : Pattern.read? t = none) (index : Nat) (spec : ErrorSpec)
        (same : spec.pattern = t) :
        Table.compileError index spec = .error (.badRulePattern (Table.errorPlace index)) := by
      have refused := refused_of_invalid own invalid
      rw [← same] at refused
      simp only [Table.compileError, refused]
    refine ⟨?_, missing, ?_⟩
    · intro simulation table built
      refine (build_errors built).imp ?_
      intro spec rule declared same
      have read := declared.matcher
      rw [same] at read
      exact (fullMatch_iff read).mpr (own (by rw [read]; rfl))
    · intro invalid simulation spec member same
      have refused := refused_of_invalid own invalid
      cases built : Table.build simulation with
      | error cause => exact ⟨cause, rfl⟩
      | ok table =>
        have accepted : ∀ declared ∈ simulation.errors, anchored? declared.pattern ≠ none := by
          refine forall_right (List.Forall₂.flip (build_errors built)) ?_
          intro rule declared made nothing
          rw [made.matcher] at nothing
          cases nothing
        exact absurd (same ▸ refused) (accepted spec member)

/-- The text of a regular key, or of an error rule, is a pattern by itself and takes commands only as
    a whole, exactly as long as it is refused or closes no group that it does not open. -/
theorem regular_text_matches_whole_iff (t : Text) :
    (∀ key, isRegular key = true → regularBody key = t →
      (KeyKeeps key ↔ ((anchored? t).isSome = true → ClosesOwnGroups t))) ∧
    (PatternKeeps t ↔ ((anchored? t).isSome = true → ClosesOwnGroups t)) := by
  refine ⟨?_, patternKeeps_iff t⟩
  intro key regular same
  subst same
  exact keyKeeps_iff regular

/-- A key of two groups of its own: the number of a channel, and what it is scaled by. -/
theorem scaling_key_keeps :
    isRegular (text "re:CH(\\d):SCAL (.+)") = true ∧ KeyKeeps (text "re:CH(\\d):SCAL (.+)") := by
  have regular : isRegular (text "re:CH(\\d):SCAL (.+)") = true := by decide
  have own : ClosesOwnGroups (text "CH(\\d):SCAL (.+)") := by decide
  have promised := (regular_text_matches_whole_iff (text "CH(\\d):SCAL (.+)")).1 _ regular rfl
  exact ⟨regular, promised.mpr fun _ => own⟩

/-- The brackets of this key close and open the group that is put around it: it is no pattern by
    itself, but it is accepted, and then takes the first unit of a command of two. -/
theorem unbalanced_key_matches_part :
    isRegular (text "re:a)|(b") = true ∧ Pattern.read? (text "a)|(b") = none ∧
      ∃ table, Table.build ⟨[], [(text "re:a)|(b", .plain (text "1"))], []⟩ = .ok table ∧
        ∃ rule ∈ table.patterns, rule.key = text "re:a)|(b" ∧
          (table.match? (text "AX")).map Match.key = some rule.key ∧
          rule.matcher.span? (text "AX") = some (0, 1) ∧
      ¬ KeyKeeps (text "re:a)|(b") ∧ ¬ PatternKeeps (text "a)|(b") := by
  have regular : isRegular (text "re:a)|(b") = true := by decide
  refine ⟨regular, by decide, _, rfl, _, List.mem_singleton_self _, rfl, by decide, by decide,
    ?_, ?_⟩
  · intro keeps
    have own := (keyKeeps_iff regular).mp keeps (by decide)
    revert own
    decide
  · intro keeps
    have own := (patternKeeps_iff _).mp keeps (by decide)
    revert own
    decide

end VirtualInstrument.Dispatch
