import VirtualInstrument.Proofs.Dispatch.GlobReading
import VirtualInstrument.Proofs.Dispatch.Rules
/- What a glob says of a command: the command is split into the fixed texts, in any letter case,
   and a text for each wildcard. Of all splits a match takes the one whose wildcards are as short
   as they can be, the first of them before the next. -/
namespace VirtualInstrument.Dispatch
open Text Pattern Glob

/-- A text of one line, and for a placeholder not the empty one. -/
def Wildcard.Fits (s : Text) : Wildcard → Prop
  | star => ∀ u ∈ s, isLineTerminator u = false
  | placeholder _ => (∀ u ∈ s, isLineTerminator u = false) ∧ s ≠ []

/-- A command is a fixed text, in any letter case, and then for every wildcard the text that it
    stands for and the fixed text behind it. -/
def SplitsBy (literal : Text) : List (Wildcard × Text) → Text → List Text → Prop
  | [], command, [] => SameLetters command literal
  | (wildcard, next) :: rest, command, s :: ss =>
    ∃ m behind, command = m ++ (s ++ behind) ∧ SameLetters m literal ∧ wildcard.Fits s ∧
      SplitsBy next rest behind ss
  | [], _, _ :: _ => False
  | _ :: _, _, [] => False

def Glob.Splits (g : Glob) (command : Text) (ss : List Text) : Prop :=
  SplitsBy g.first g.rest command ss

/-- Of two splits the first has the shorter text where they differ in length first. -/
def Shorter (ss others : List Text) : Prop :=
  List.Lex (· < ·) (ss.map List.length) (others.map List.length)

def ShortestBy (literal : Text) (rest : List (Wildcard × Text)) (command : Text)
    (ss : List Text) : Prop :=
  SplitsBy literal rest command ss ∧
    ∀ others, SplitsBy literal rest command others → others ≠ ss → Shorter ss others

def Glob.ShortestSplit (g : Glob) (command : Text) (ss : List Text) : Prop :=
  ShortestBy g.first g.rest command ss

theorem fits_iff {wildcard : Wildcard} {s : Text} :
    wildcard.Fits s ↔ wildcard.least ≤ s.length ∧ ∀ u ∈ s, isLineTerminator u = false := by
  cases wildcard with
  | star => simp [Wildcard.Fits, Wildcard.least]
  | placeholder digits =>
    have filled : s ≠ [] ↔ 1 ≤ s.length := by rw [← List.length_pos_iff]; rfl
    simp only [Wildcard.Fits, Wildcard.least, filled, and_comm]

theorem splitsBy_length {literal : Text} {rest : List (Wildcard × Text)} {command : Text}
    {ss : List Text} (splits : SplitsBy literal rest command ss) : ss.length = rest.length := by
  induction rest generalizing literal command ss with
  | nil =>
    cases ss with
    | nil => rfl
    | cons s ss => cases splits
  | cons leg rest ih =>
    cases ss with
    | nil => cases splits
    | cons s ss =>
      obtain ⟨_, _, _, _, _, later⟩ := splits
      simp [ih later]

theorem splitsBy_cons_iff {literal next m after s : Text} {wildcard : Wildcard}
    {rest : List (Wildcard × Text)} {ss : List Text} (same : SameLetters m literal) :
    SplitsBy literal ((wildcard, next) :: rest) (m ++ after) (s :: ss) ↔
      ∃ behind, after = s ++ behind ∧ wildcard.Fits s ∧ SplitsBy next rest behind ss := by
  constructor
  · rintro ⟨other, behind, split, alike, fits, later⟩
    have long : m.length = other.length := by
      rw [same_letters_length same, same_letters_length alike]
    exact ⟨behind, (List.append_inj split long).2, fits, later⟩
  · rintro ⟨behind, rfl, fits, later⟩
    exact ⟨m, behind, rfl, same, fits, later⟩

theorem not_splitsBy {literal command : Text} {rest : List (Wildcard × Text)} {ss : List Text}
    (missing : ∀ m after, command = m ++ after → ¬ SameLetters m literal) :
    ¬ SplitsBy literal rest command ss := by
  intro splits
  cases rest with
  | nil =>
    cases ss with
    | nil => exact missing command [] (by simp) splits
    | cons s ss => cases splits
  | cons leg rest =>
    cases ss with
    | nil => cases splits
    | cons s ss =>
      obtain ⟨m, behind, split, same, _⟩ := splits
      exact missing m _ split same

def atEnd : Follow := fun q => if q.after.isEmpty then some q else none

inductive Ends (literal : Text) (rest : List (Wildcard × Text)) (command : Text)
    (done : List Text) : Option Place → Prop
  | shortest (ss : List Text) (q : Place) (least : ShortestBy literal rest command ss)
      (captured : q.captures = (done ++ ss).map some) : Ends literal rest command done (some q)
  | nowhere (unsplit : ∀ ss, ¬ SplitsBy literal rest command ss) :
      Ends literal rest command done none

def Holds (p : Place) (done : List Text) (behind : Nat) : Prop :=
  p.captures = done.map some ++ List.replicate behind none

theorem holds_capture {p : Place} {done : List Text} {behind : Nat}
    (holds : Holds p done (behind + 1)) (s : Text) :
    Holds (p.capture done.length s) (done ++ [s]) behind := by
  unfold Holds at holds ⊢
  simp [Place.capture, holds, List.replicate_succ]

theorem ends_literal {literal : Text} {p : Place} {done : List Text} (holds : Holds p done 0) :
    Ends literal [] p.after done (runAll (literal.map .unit) p atEnd) := by
  rw [← List.append_nil (literal.map Tree.unit)]
  by_cases there : ∃ m after, p.after = m ++ after ∧ SameLetters m literal
  · obtain ⟨m, after, split, same⟩ := there
    have left : (p.ahead literal.length).after = after := by
      rw [Place.ahead, split, ← same_letters_length same, List.drop_left]
    rw [runAll_units_there same split, runAll, atEnd, left]
    cases after with
    | nil =>
      rw [List.append_nil] at split
      refine .shortest [] _ ⟨?_, ?_⟩ ?_
      · rw [split]
        exact same
      · intro others splits other
        have none : others = [] := List.length_eq_zero_iff.mp (splitsBy_length splits)
        exact absurd none other
      · simpa [Holds, Place.ahead] using holds
    | cons u after =>
      refine .nowhere ?_
      intro ss splits
      cases ss with
      | cons s ss => cases splits
      | nil =>
        have long := same_letters_length splits
        rw [split, List.length_append, same_letters_length same, List.length_cons] at long
        omega
  · have missing : ∀ m after, p.after = m ++ after → ¬ SameLetters m literal :=
      fun m after split same => there ⟨m, after, split, same⟩
    rw [runAll_units_missing missing]
    exact .nowhere fun ss => not_splitsBy missing

theorem fits_reaches_iff {wildcard : Wildcard} {p : Place} {s behind : Text}
    (split : p.after = s ++ behind) :
    wildcard.Fits s ↔ wildcard.least ≤ s.length ∧ Reaches p s.length := by
  have bound : s.length ≤ p.after.length := by simp [split]
  have front : p.after.take s.length = s := by simp [split]
  rw [fits_iff, Reaches, front]
  simp [bound]

/-- A text for the first wildcard is the right one when no shorter text leads to a split; at the
    same length the rest of the split decides. -/
theorem shortestBy_cons {wildcard : Wildcard} {literal next m s behind : Text}
    {rest : List (Wildcard × Text)} {ss : List Text} (same : SameLetters m literal)
    (fits : wildcard.Fits s) (least : ShortestBy next rest behind ss)
    (shorter : ∀ t after, s ++ behind = t ++ after → wildcard.Fits t → t.length < s.length →
      ∀ others, ¬ SplitsBy next rest after others) :
    ShortestBy literal ((wildcard, next) :: rest) (m ++ (s ++ behind)) (s :: ss) := by
  refine ⟨(splitsBy_cons_iff same).mpr ⟨behind, rfl, fits, least.1⟩, ?_⟩
  intro others splits different
  cases others with
  | nil => cases splits
  | cons t others =>
    obtain ⟨after, split, fitting, ends⟩ := (splitsBy_cons_iff same).mp splits
    rcases Nat.lt_trichotomy t.length s.length with less | equal | more
    · exact absurd ends (shorter t after split fitting less others)
    · obtain ⟨alike, left⟩ := List.append_inj split equal.symm
      rw [← alike] at different ⊢
      rw [← left] at ends
      have rest_differs : others ≠ ss := by
        intro rest_same
        exact different (by rw [rest_same])
      exact List.Lex.cons (least.2 others ends rest_differs)
    · exact List.Lex.rel more

theorem ends_group {wildcard : Wildcard} {literal next m : Text} {rest : List (Wildcard × Text)}
    {p : Place} {done : List Text} {tail : Follow} {result : Option Place}
    (same : SameLetters m literal)
    (later : ∀ count, Reaches p count →
      Ends next rest (p.after.drop count) (done ++ [p.after.take count]) (tail (p.ahead count)))
    (shortest : Shortest wildcard.least p tail result) :
    Ends literal ((wildcard, next) :: rest) (m ++ p.after) done result := by
  -- where the tail finds no way on, what is left has no split
  have unsplit : ∀ s behind, p.after = s ++ behind → wildcard.Fits s →
      tail (p.ahead s.length) = none → ∀ ss, ¬ SplitsBy next rest behind ss := by
    intro s behind split fits lost
    have outcome := later s.length ((fits_reaches_iff split).mp fits).2
    rw [lost, split, List.drop_left] at outcome
    cases outcome with
    | nowhere unsplit => exact unsplit
  cases shortest with
  | missing nowhere =>
    refine .nowhere ?_
    intro ss splits
    cases ss with
    | nil => cases splits
    | cons s ss =>
      obtain ⟨behind, split, fits, ends⟩ := (splitsBy_cons_iff same).mp splits
      obtain ⟨enough, reached⟩ := (fits_reaches_iff split).mp fits
      exact unsplit s behind split fits (nowhere s.length enough reached) ss ends
  | found count place enough reached shorter way =>
    have outcome := later count reached
    rw [way] at outcome
    cases outcome with
    | shortest ss _ least captured =>
      have whole : p.after = p.after.take count ++ p.after.drop count :=
        (List.take_append_drop count p.after).symm
      have long : (p.after.take count).length = count := by
        rw [List.length_take, Nat.min_eq_left reached.1]
      have fits : wildcard.Fits (p.after.take count) := by
        rw [fits_reaches_iff whole, long]
        exact ⟨enough, reached⟩
      have split : ShortestBy literal ((wildcard, next) :: rest) (m ++ p.after)
          (p.after.take count :: ss) := by
        rw [congrArg (m ++ ·) whole]
        refine shortestBy_cons same fits least ?_
        intro t after ahead fitting less
        rw [← whole] at ahead
        rw [long] at less
        have least_reached := ((fits_reaches_iff ahead).mp fitting).1
        exact unsplit t after ahead fitting (shorter t.length least_reached less)
      exact .shortest _ place split (by simpa using captured)

/-- Trying the trees of a glob one behind the other ends with a shortest split. The induction is
    on the wildcards; what the groups in front hold goes along. -/
theorem ends_rest (rest : List (Wildcard × Text)) {literal : Text} {p : Place}
    {done : List Text} (holds : Holds p done rest.length) :
    Ends literal rest p.after done
      (runAll (literal.map .unit ++ restTrees done.length rest) p atEnd) := by
  induction rest generalizing literal p done with
  | nil =>
    rw [restTrees, List.append_nil]
    exact ends_literal holds
  | cons leg rest ih =>
    obtain ⟨wildcard, next⟩ := leg
    by_cases there : ∃ m after, p.after = m ++ after ∧ SameLetters m literal
    · obtain ⟨m, after, split, same⟩ := there
      have left : (p.ahead literal.length).after = after := by
        rw [Place.ahead, split, ← same_letters_length same, List.drop_left]
      rw [runAll_units_there same split, split, ← left]
      refine ends_group same ?_ (run_lazyGroup done.length wildcard.least _ _)
      intro count reached
      have captured := holds_capture (p := (p.ahead literal.length).ahead count) holds
        ((p.ahead literal.length).after.take count)
      have ends := @ih next _ _ captured
      rw [List.length_append] at ends
      rw [upTo_ahead reached]
      exact ends
    · have missing : ∀ m after, p.after = m ++ after → ¬ SameLetters m literal :=
        fun m after split same => there ⟨m, after, split, same⟩
      rw [runAll_units_missing missing]
      exact .nowhere fun ss => not_splitsBy missing

def globPattern (g : Glob) : Pattern :=
  ⟨.sequence .start (.sequence (sequenceOf (bodyTrees g)) .stop), g.rest.length⟩

theorem ends_glob (g : Glob) (command : Text) :
    Ends g.first g.rest command [] ((globPattern g).searchFrom [] command) := by
  let begin : Place := ⟨[], command, List.replicate g.rest.length none⟩
  have search : (globPattern g).searchFrom [] command = runAll (bodyTrees g) begin atEnd := by
    rw [searchFrom_start rfl, ← run_sequenceOf]
    rfl
  have holds : Holds begin [] g.rest.length := rfl
  rw [search]
  exact ends_rest g.rest holds

theorem shorter_asymm {ss others : List Text} (shorter : Shorter ss others) :
    ¬ Shorter others ss := by
  have below : ∀ {x y : Nat}, x < y → ¬ y < x := by
    intro x y less
    omega
  exact List.lex_asymm below shorter

theorem shortestSplit_unique {g : Glob} {command : Text} {ss others : List Text}
    (one : g.ShortestSplit command ss) (other : g.ShortestSplit command others) :
    others = ss := by
  by_cases same : others = ss
  · exact same
  · have before := one.2 others other.1 same
    have after := other.2 ss one.1 (Ne.symm same)
    exact absurd after (shorter_asymm before)

/-- The captures of a glob are its shortest split. -/
theorem captures?_globPattern (g : Glob) (command : Text) (ss : List Text) :
    (globPattern g).captures? command = some ss ↔ g.ShortestSplit command ss := by
  have ends := ends_glob g command
  rw [Pattern.captures?]
  cases search : (globPattern g).searchFrom [] command with
  | none =>
    rw [search] at ends
    cases ends with
    | nowhere unsplit =>
      constructor
      · intro found
        cases found
      · intro shortest
        exact absurd shortest.1 (unsplit ss)
  | some q =>
    rw [search] at ends
    cases ends with
    | shortest found _ least captured =>
      have texts : q.captures.map (·.getD []) = found := by
        rw [captured, List.map_map]
        exact List.map_id found
      rw [Option.map_some, texts, Option.some.injEq]
      constructor
      · intro same
        rw [← same]
        exact least
      · intro shortest
        exact shortestSplit_unique shortest least

theorem captures?_globPattern_isSome (g : Glob) (command : Text) :
    ((globPattern g).captures? command).isSome = true ↔ ∃ ss, g.Splits command ss := by
  have ends := ends_glob g command
  rw [Pattern.captures?, Option.isSome_map]
  generalize (globPattern g).searchFrom [] command = result at ends ⊢
  cases ends with
  | shortest found _ least _ => exact ⟨fun _ => ⟨found, least.1⟩, fun _ => rfl⟩
  | nowhere unsplit =>
    constructor
    · intro found
      cases found
    · rintro ⟨ss, splits⟩
      exact absurd splits (unsplit ss)

/-- The pattern keys that are globs: without the mark of a regular expression, and with a
    placeholder or without the units that only a regular expression has. -/
structure GlobKey (key : Text) : Prop where
  pattern : isPatternKey key = true
  unmarked : patternMark.isPrefixOf key = false
  loose : hasPlaceholder key = true ∨ ∀ u ∈ key, isPatternUnit u = false

theorem compileKey_glob {key : Text} (glob : GlobKey key) :
    compileKey key = compileGlob (trim key) := by
  have irregular : isRegular key = false := by
    rw [isRegular, glob.unmarked, Bool.false_or]
    rcases glob.loose with placeholder | plain
    · simp [placeholder]
    · have none : key.any isPatternUnit = false := by simpa using plain
      simp [none]
  rw [compileKey, irregular]
  rfl

theorem compiled_glob {key : Text} {g : Glob} (glob : GlobKey key) (writes : g.Writes (trim key)) :
    anchored? (compileKey key).source = some (globPattern g) ∧
      (compileKey key).wildcards = g.rest.length := by
  rw [compileKey_glob glob, compileGlob_written writes]
  exact ⟨read?_glob g, rfl⟩

theorem insert_glob {ν : Type} {key : Text} (glob : GlobKey key) (table : Table ν)
    (entry : Entry ν) :
    ∃ next, table.insert key entry = .ok next ∧ ∃ rule ∈ next.patterns, rule.key = key := by
  obtain ⟨g, writes⟩ := exists_glob_writes (trim key)
  have read := (compiled_glob glob writes).1
  unfold Table.insert
  rw [glob.pattern, Bool.not_true, if_neg Bool.false_ne_true]
  by_cases there : (table.patterns.any fun rule => rule.key == key) = true
  · rw [if_pos there]
    obtain ⟨rule, member, same⟩ := List.any_eq_true.mp there
    have listed : key ∈ (replaceEntry key entry table.patterns).map Rule.key := by
      rw [replaceEntry_keys]
      exact List.mem_map.mpr ⟨rule, member, by simpa using same⟩
    obtain ⟨kept, found, named⟩ := List.mem_map.mp listed
    exact ⟨_, rfl, kept, found, named⟩
  · rw [if_neg there]
    simp only [read]
    exact ⟨_, rfl, _, mem_insertRule_iff.mpr (.inl rfl), rfl⟩

/-- A key that is a glob can always be put into a table, and whatever table a simulator has,
    the rule of the key matches the commands that split by it and captures the shortest split. -/
theorem glob_rule_captures_shortest_split {key : Text} (glob : GlobKey key) :
    (∃ g : Glob, g.Writes (trim key)) ∧
    (∀ (ν : Type) (table : Table ν) (entry : Entry ν), ∃ next,
      table.insert key entry = .ok next ∧ ∃ rule ∈ next.patterns, rule.key = key) ∧
    ∀ table, Built table → ∀ rule ∈ table.patterns, rule.key = key →
      ∀ g : Glob, g.Writes (trim key) → rule.wildcards = g.rest.length ∧ ∀ command,
        ((rule.matcher.captures? command).isSome = true ↔ ∃ ss, g.Splits command ss) ∧
        ∀ ss, (rule.matcher.captures? command = some ss ↔ g.ShortestSplit command ss) ∧
          (rule.matcher.captures? command = some ss → ss.length = g.rest.length) := by
  refine ⟨exists_glob_writes _, fun ν => insert_glob glob, ?_⟩
  intro table built rule member named g writes
  obtain ⟨read, count⟩ := compiled_glob glob writes
  obtain ⟨compiled, wildcards, _⟩ := built_compiled built rule member
  rw [named] at compiled wildcards
  have matcher : rule.matcher = globPattern g := Option.some.inj (compiled.symm.trans read)
  rw [matcher]
  refine ⟨wildcards.trans count, fun command => ⟨captures?_globPattern_isSome g command, ?_⟩⟩
  intro ss
  refine ⟨captures?_globPattern g command ss, ?_⟩
  intro captured
  exact splitsBy_length ((captures?_globPattern g command ss).mp captured).1

theorem volt_rule_matches_lowercase_command :
    GlobKey (text ":VOLT $1") ∧ ∃ table, Built table ∧ ∃ rule ∈ table.patterns,
      rule.key = text ":VOLT $1" ∧
        (rule.matcher.captures? (text ":volt 5")).isSome = true := by
  have glob : GlobKey (text ":VOLT $1") := ⟨by decide, by decide, .inl (by decide)⟩
  obtain ⟨_, inserts, matches_split⟩ := glob_rule_captures_shortest_split glob
  have build : Table.build Profile.Simulation.empty = .ok Table.empty := rfl
  have start : Built (Table.empty.load Heap.empty).2 := .loaded Heap.empty build
  obtain ⟨table, insert, rule, member, named⟩ := inserts Stored _ (.literal [])
  have built := Built.inserted start insert
  let g : Glob := ⟨text ":VOLT ", [(.placeholder (text "1"), [])]⟩
  have first : Plain g.first := ⟨by decide, by decide⟩
  have digits : (text "1").all isDigit = true := by decide
  have proper : (Wildcard.placeholder (text "1")).Proper [] :=
    ⟨by decide, List.all_eq_true.mp digits, by simp⟩
  have writes : g.Writes (trim (text ":VOLT $1")) := by
    refine ⟨by decide, ?_, by simpa [ProperRest, g] using ⟨plain_nil, proper⟩⟩
    rw [if_neg (by decide)]
    exact first
  have line : (text "5").all (fun u => isLineTerminator u = false) = true := by decide
  have fits : (Wildcard.placeholder (text "1")).Fits (text "5") := ⟨by simpa using line, by decide⟩
  have same : (text ":volt ").map fold = (text ":VOLT ").map fold := by decide
  have splits : g.Splits (text ":volt 5") [text "5"] := ⟨text ":volt ", [], rfl, same, fits, rfl⟩
  have rule_matches := (matches_split table built rule member named g writes).2 (text ":volt 5")
  exact ⟨glob, table, built, rule, member, named, rule_matches.1.mpr ⟨[text "5"], splits⟩⟩

end VirtualInstrument.Dispatch
