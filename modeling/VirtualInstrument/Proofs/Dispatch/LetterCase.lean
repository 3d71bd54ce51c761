import VirtualInstrument.Dispatch.Table
import VirtualInstrument.Proofs.Pattern.LetterCase
/- Commands that differ in letter case. A command is looked up by its trimmed form alone, and two
   forms of the same spelling find the same entry and the same error rules, with captures that
   differ in letter case only. -/
namespace VirtualInstrument.Dispatch
open Text

variable {ν : Type}

structure Match.SameChoice (m n : Match ν) : Prop where
  key : m.key = n.key
  entry : m.entry = n.entry
  captures : List.Forall₂ SameSpelling m.captures n.captures

theorem firstMatch?_same {s t : Text} (same : SameSpelling s t) (rules : List (Rule ν)) :
    Option.Rel Match.SameChoice (firstMatch? s rules) (firstMatch? t rules) := by
  induction rules with
  | nil => exact .none
  | cons rule rest ih =>
    have groups := rule.matcher.captures?_same same
    rw [firstMatch?, firstMatch?]
    generalize rule.matcher.captures? s = one at groups
    generalize rule.matcher.captures? t = other at groups
    cases groups with
    | some captures => exact .some ⟨rfl, rfl, captures⟩
    | none => exact ih

theorem Table.match?_same (table : Table ν) {c d : Text} (same : SameSpelling (trim c) (trim d)) :
    Option.Rel Match.SameChoice (table.match? c) (table.match? d) := by
  have key := upper_same same
  simp only [Table.match?, key]
  split
  · exact .some ⟨rfl, rfl, .nil⟩
  · exact firstMatch?_same same table.patterns

structure MatchedRule.SameRule (m n : MatchedRule) : Prop where
  rule : m.rule = n.rule
  captures : List.Forall₂ SameSpelling m.captures n.captures

theorem Table.matchErrors_same (table : Table ν) {c d : Text}
    (same : SameSpelling (trim c) (trim d)) {held held' : List Text}
    (captures : List.Forall₂ SameSpelling held held') :
    List.Forall₂ MatchedRule.SameRule (table.matchErrors c held) (table.matchErrors d held') := by
  rw [Table.matchErrors, Table.matchErrors]
  induction table.errors with
  | nil => exact .nil
  | cons rule rest ih =>
    have groups := rule.matcher.captures?_same same
    rw [List.filterMap_cons, List.filterMap_cons]
    generalize rule.matcher.captures? (trim c) = one at groups
    generalize rule.matcher.captures? (trim d) = other at groups
    cases groups with
    | none => exact ih
    | some own =>
      refine .cons ⟨rfl, ?_⟩ ih
      cases own with
      | nil => exact captures
      | cons first more => exact .cons first more

theorem MatchedRule.rules_same {found found' : List MatchedRule}
    (same : List.Forall₂ MatchedRule.SameRule found found') :
    found.map MatchedRule.rule = found'.map MatchedRule.rule := by
  induction same with
  | nil => rfl
  | cons first _ ih => rw [List.map_cons, List.map_cons, first.rule, ih]

/-- Letter case and the blanks around a command decide nothing: two commands with the same
    spelling choose the same entry or none, and the same error rules. -/
theorem dispatch_ignores_letter_case (table : Table ν) {c d : Text}
    (same : SameSpelling (trim c) (trim d)) :
    Option.Rel Match.SameChoice (table.match? c) (table.match? d) ∧
      ∀ held held' : List Text, List.Forall₂ SameSpelling held held' →
        (table.matchErrors c held).map MatchedRule.rule =
            (table.matchErrors d held').map MatchedRule.rule ∧
          List.Forall₂ MatchedRule.SameRule (table.matchErrors c held)
            (table.matchErrors d held') := by
  refine ⟨table.match?_same same, ?_⟩
  intro held held' captures
  have found := table.matchErrors_same same captures
  exact ⟨MatchedRule.rules_same found, found⟩

def repeatedWord : Profile.Simulation :=
  ⟨[], [(text "re:OUTP (ON|OFF),\\1", .plain (text "$1"))],
    [⟨text "OUTP .*", text "true", 100, text "seen"⟩]⟩

theorem repeated_word_in_both_cases :
    ∃ table, Table.build repeatedWord = .ok table ∧
      SameSpelling (trim (text " OUTP ON,on")) (trim (text "outp oN,ON\n")) ∧
      (table.match? (text " OUTP ON,on")).map Match.captures = some [text "ON"] ∧
      (table.match? (text "outp oN,ON\n")).map Match.captures = some [text "oN"] ∧
      ((table.matchErrors (text " OUTP ON,on") [text "ON"]).map MatchedRule.rule =
        (table.matchErrors (text "outp oN,ON\n") [text "oN"]).map MatchedRule.rule) := by
  obtain ⟨table, built⟩ : ∃ table, Table.build repeatedWord = .ok table := ⟨_, rfl⟩
  have same : SameSpelling (trim (text " OUTP ON,on")) (trim (text "outp oN,ON\n")) := by
    decide
  have captures : List.Forall₂ SameSpelling [text "ON"] [text "oN"] := by decide
  obtain ⟨-, errors⟩ := dispatch_ignores_letter_case table same
  refine ⟨table, built, same, ?_, ?_, (errors _ _ captures).1⟩
  · cases built
    rfl
  · cases built
    rfl

end VirtualInstrument.Dispatch
