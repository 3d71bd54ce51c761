import VirtualInstrument.Proofs.Expression.Nesting
import VirtualInstrument.Proofs.Expression.Lexemes
/- The brackets of a text, counted unit by unit. Only what stands in a string is passed over, and
   each token the reader takes off a text moves the count as it moves the count of the brackets
   among the tokens. So the text of an accepted expression has no more brackets open at once than
   its tokens have. -/
namespace VirtualInstrument.Expression

open Text

/-- Where in a text a place lies: outside of strings, in a string up to a quote, or in one behind a
    backslash. -/
inductive Region
  | outside
  | string (quote : CodeUnit)
  | escape (quote : CodeUnit)
deriving DecidableEq, Repr

structure Position where
  region : Region
  opened : Nat
deriving DecidableEq, Repr

def Position.next (position : Position) (u : CodeUnit) : Position :=
  match position.region with
  | .outside =>
    if u = unit '"' ∨ u = unit '\'' then ⟨.string u, position.opened⟩
    else if u = unit '(' ∨ u = unit '[' then ⟨.outside, position.opened + 1⟩
    else if u = unit ')' ∨ u = unit ']' then ⟨.outside, position.opened - 1⟩
    else position
  | .string quote =>
    if u = unit '\\' then ⟨.escape quote, position.opened⟩
    else if u = quote then ⟨.outside, position.opened⟩
    else position
  | .escape quote => ⟨.string quote, position.opened⟩

def Position.behind (t : Text) : Position := t.foldl Position.next ⟨.outside, 0⟩

/-- On the way through a text there are never more than a number of brackets open. -/
abbrev Within (limit : Nat) (position : Position) (t : Text) : Prop :=
  Throughout Position.next (fun position => position.opened ≤ limit) position t

def marks : Text := [unit '"', unit '\'', unit '(', unit ')', unit '[', unit ']']

theorem not_mark {accepts : CodeUnit → Bool} (none : marks.any accepts = false)
    {u : CodeUnit} (accepted : accepts u = true) : u ∉ marks := fun mark =>
  List.any_eq_false.mp none u mark accepted

theorem next_unmarked {u : CodeUnit} (unmarked : u ∉ marks) (opened : Nat) :
    Position.next ⟨.outside, opened⟩ u = ⟨.outside, opened⟩ := by
  have apart : ∀ mark ∈ marks, u ≠ mark := fun mark listed same => unmarked (same ▸ listed)
  have quotes : ¬ (u = unit '"' ∨ u = unit '\'') :=
    not_or.mpr ⟨apart _ (by decide), apart _ (by decide)⟩
  have opening : ¬ (u = unit '(' ∨ u = unit '[') :=
    not_or.mpr ⟨apart _ (by decide), apart _ (by decide)⟩
  have closing : ¬ (u = unit ')' ∨ u = unit ']') :=
    not_or.mpr ⟨apart _ (by decide), apart _ (by decide)⟩
  simp only [Position.next, if_neg quotes, if_neg opening, if_neg closing]

/-- A stretch of text between two places outside of strings, with no more brackets open in it than
    at one of its ends. -/
structure Passes (cut : Text) (change : Nat → Nat) : Prop where
  ends : ∀ opened, cut.foldl Position.next ⟨.outside, opened⟩ = ⟨.outside, change opened⟩
  within : ∀ opened limit, opened ≤ limit → change opened ≤ limit →
    Within limit ⟨.outside, opened⟩ cut

theorem passes_unmarked {cut : Text} (unmarked : ∀ u ∈ cut, u ∉ marks) : Passes cut id := by
  induction cut with
  | nil => exact ⟨fun _ => rfl, fun _ _ le _ => le⟩
  | cons u cut ih =>
    obtain ⟨first, others⟩ := List.forall_mem_cons.mp unmarked
    obtain ⟨ends, within⟩ := ih others
    refine ⟨fun opened => ?_, fun opened limit before behind => ⟨before, ?_⟩⟩
    · rw [List.foldl_cons, next_unmarked first]
      exact ends opened
    · rw [next_unmarked first]
      exact within opened limit before behind

def Drops (t rest : Text) : Prop := ∃ cut, t = cut ++ rest ∧ ∀ u ∈ cut, u ∉ marks

theorem drops_word (t : Text) : Drops t (t.dropWhile isWordUnit) :=
  ⟨t.takeWhile isWordUnit, List.takeWhile_append_dropWhile.symm, fun _ member =>
    not_mark (by decide) (List.mem_takeWhile_imp member)⟩

theorem drops_decimal (t : Text) : Drops t (Decimal.takeDecimal t).2 := by
  obtain ⟨cut, whole, units, _⟩ := lifts_decimal t
  refine ⟨_, whole, fun u member => ?_⟩
  rcases units u member with word | other
  · exact not_mark (by decide) word
  · have apart : marks.any (fun u => u ∈ text ".+-") = false := by decide
    exact not_mark apart (by simpa using other)

section Strings

theorem next_string {quote : CodeUnit} (apart : quote ≠ unit '\\') (opened : Nat) :
    Position.next ⟨.string quote, opened⟩ quote = ⟨.outside, opened⟩ := by
  simp [Position.next, apart]

/-- The text of a string leads out of it again, and no bracket counts on the way. -/
theorem string_passes {quote : CodeUnit} (apart : quote ≠ unit '\\') {t body rest : Text}
    (taken : takeString? quote t = some (body, rest)) : ∃ cut, t = cut ++ rest ∧
      ∀ opened, cut.foldl Position.next ⟨.string quote, opened⟩ = ⟨.outside, opened⟩ ∧
        Within opened ⟨.string quote, opened⟩ cut := by
  induction t using takeString?.induct quote generalizing body with
  | case1 => cases taken
  | case2 =>
    rw [takeString?, if_pos rfl] at taken
    cases taken
    refine ⟨[quote], rfl, fun opened => ?_⟩
    simp [Throughout, next_string apart]
  | case3 u other =>
    rw [takeString?, if_neg other] at taken
    cases taken
  | case4 v others ih =>
    rw [takeString?, if_pos rfl] at taken
    obtain ⟨⟨inside, after⟩, found, same⟩ := Option.map_eq_some_iff.mp taken
    cases same
    obtain ⟨cut, rfl, passes⟩ := ih found
    refine ⟨unit '\\' :: v :: cut, rfl, fun opened => ?_⟩
    obtain ⟨ends, within⟩ := passes opened
    simp [Throughout, Position.next, ends, within]
  | case5 v others =>
    rw [takeString?, if_neg apart, if_pos rfl] at taken
    cases taken
    refine ⟨[quote], rfl, fun opened => ?_⟩
    simp [Throughout, next_string apart]
  | case6 u v others plain other ih =>
    rw [takeString?, if_neg plain, if_neg other] at taken
    obtain ⟨⟨inside, after⟩, found, same⟩ := Option.map_eq_some_iff.mp taken
    cases same
    obtain ⟨cut, whole, passes⟩ := ih found
    refine ⟨u :: cut, by rw [whole]; rfl, fun opened => ?_⟩
    obtain ⟨ends, within⟩ := passes opened
    simp [Throughout, Position.next, plain, other, ends, within]

end Strings

section Tokens
variable {kind : TokenKind} {u : CodeUnit} {rest more : Text}

theorem opened_keyword {kind : TokenKind} (listed : kind ∈ keywords.map Prod.snd)
    (depth place : Nat) : opened depth ⟨kind, place⟩ = depth := by
  have all : ∀ kind ∈ keywords.map Prod.snd, opened depth ⟨kind, place⟩ = depth := by
    simp [keywords, opened]
  exact all kind listed

theorem spelled_bracket : ∀ entry ∈ symbols,
    (entry.2.Plain ∧ entry.1.any (fun u => u ∈ marks) = false) ∨
      entry ∈ [(text "(", Symbol.openParen), (text "[", .openBracket), (text ")", .closeParen),
        (text "]", .closeBracket)] := by
  decide +kernel

theorem passes_still {cut : Text} {change : Nat → Nat} (unmarked : ∀ u ∈ cut, u ∉ marks)
    (still : ∀ opened, change opened = opened) : Passes cut change := by
  obtain rfl : change = id := funext still
  exact passes_unmarked unmarked

theorem passes_dropped {t : Text} {change : Nat → Nat} (drops : Drops t more)
    (still : ∀ opened, change opened = opened) : ∃ cut, t = cut ++ more ∧ Passes cut change := by
  obtain ⟨cut, whole, unmarked⟩ := drops
  exact ⟨cut, whole, passes_still unmarked still⟩

theorem passes_single {u : CodeUnit} {change : Nat → Nat}
    (moves : ∀ opened, Position.next ⟨.outside, opened⟩ u = ⟨.outside, change opened⟩) :
    Passes [u] change := by
  refine ⟨moves, fun opened limit before behind => ⟨before, ?_⟩⟩
  rw [moves]
  exact behind

theorem passes_string {u : CodeUnit} (quote : u = unit '"' ∨ u = unit '\'') {body : Text}
    (found : takeString? u rest = some (body, more)) :
    ∃ cut, u :: rest = cut ++ more ∧ Passes cut id := by
  have apart : u ≠ unit '\\' := by
    rcases quote with rfl | rfl
    · decide
    · decide
  have opens (opened : Nat) : Position.next ⟨.outside, opened⟩ u = ⟨.string u, opened⟩ :=
    if_pos quote
  obtain ⟨cut, rfl, passes⟩ := string_passes apart found
  refine ⟨u :: cut, rfl, fun opened => ?_, fun opened limit before _ => ⟨before, ?_⟩⟩
  · rw [List.foldl_cons, opens]
    exact (passes opened).1
  · rw [opens]
    exact (passes opened).2.imp fun _ le => le.trans before

/-- A token's text moves the count of open brackets as the token does. -/
theorem Taken.passes (taken : Taken u rest kind more) (place : Nat) :
    ∃ cut, u :: rest = cut ++ more ∧ Passes cut fun depth => opened depth ⟨kind, place⟩ := by
  cases taken with
  | number => exact passes_dropped (drops_decimal (u :: rest)) fun _ => rfl
  | keyword listed => exact passes_dropped (drops_word (u :: rest)) (opened_keyword listed · place)
  | name _ => exact passes_dropped (drops_word (u :: rest)) fun _ => rfl
  | string quote found => exact passes_string quote found
  | symbol listed whole =>
    rename_i spelling symbol
    refine ⟨spelling, whole, ?_⟩
    rcases spelled_bracket _ listed with ⟨plain, unmarked⟩ | bracket
    · have none : ∀ u ∈ spelling, u ∉ marks := by simpa using unmarked
      exact passes_still none (opened_plain plain rfl)
    · simp only [List.mem_cons, Prod.mk.injEq, List.not_mem_nil, or_false] at bracket
      rcases bracket with ⟨rfl, rfl⟩ | ⟨rfl, rfl⟩ | ⟨rfl, rfl⟩ | ⟨rfl, rfl⟩
      · exact passes_single fun _ => rfl
      · exact passes_single fun _ => rfl
      · exact passes_single fun _ => rfl
      · exact passes_single fun _ => rfl

theorem not_mark_of_blank (blank : isBlank u = true) : u ∉ marks := not_mark (by decide) blank

/-- What holds of the brackets among the tokens of a text holds of the brackets in the text. -/
theorem Lexed.within {t : Text} {list : List Token} (lexed : Lexed t list) {depth limit : Nat}
    (bounded : Throughout opened (· ≤ limit) depth list) : Within limit ⟨.outside, depth⟩ t := by
  induction lexed generalizing depth with
  | stop place => exact bounded.start
  | blank blank _ ih =>
    refine ⟨bounded.start, ?_⟩
    rw [next_unmarked (not_mark_of_blank blank)]
    exact ih bounded
  | token place taken _ ih =>
    obtain ⟨cut, whole, passes⟩ := taken.passes place
    obtain ⟨start, behind⟩ := bounded
    rw [whole, Within, throughout_append, passes.ends]
    exact ⟨passes.within depth limit start behind.start, ih behind⟩

theorem Lexed.stop_is_last {t : Text} {list cut rest : List Token} {token : Token}
    (lexed : Lexed t list) (whole : list = cut ++ token :: rest) (stop : token.kind = .stop) :
    rest = [] := by
  induction lexed generalizing cut with
  | stop place =>
    have size := congrArg List.length whole
    simp only [List.length_append, List.length_cons, List.length_nil] at size
    exact List.eq_nil_of_length_eq_zero (by omega)
  | blank _ _ ih => exact ih whole
  | token place taken _ ih =>
    cases cut with
    | nil =>
      cases whole
      exact absurd stop taken.not_stop
    | cons first cut => exact ih (List.cons.inj whole).2

end Tokens

theorem opened_next {u : CodeUnit} (unmarked : u ∉ marks) (position : Position) :
    (position.next u).opened = position.opened := by
  obtain ⟨region, depth⟩ := position
  cases region with
  | outside => rw [next_unmarked unmarked]
  | string quote =>
    simp only [Position.next]
    split
    · rfl
    · split
      · rfl
      · rfl
  | escape quote => rfl

theorem within_unmarked {t : Text} (unmarked : ∀ u ∈ t, u ∉ marks) {limit : Nat}
    {position : Position} (start : position.opened ≤ limit) : Within limit position t := by
  induction t generalizing position with
  | nil => exact start
  | cons u t ih =>
    obtain ⟨first, others⟩ := List.forall_mem_cons.mp unmarked
    exact ⟨start, ih others (by rwa [opened_next first])⟩

theorem within_of_trim {t : Text} {limit : Nat}
    (within : Within limit ⟨.outside, 0⟩ (trim t)) : Within limit ⟨.outside, 0⟩ t := by
  obtain ⟨before, behind, whole, front, back⟩ := trim_between t
  have first := passes_unmarked fun u listed => not_mark_of_blank (front u listed)
  have finish : Within limit ((trim t).foldl Position.next ⟨.outside, 0⟩) behind :=
    within_unmarked (fun u listed => not_mark_of_blank (back u listed)) within.finish
  rw [whole, Within, throughout_append, throughout_append, first.ends]
  exact ⟨first.within 0 limit (Nat.zero_le limit) (Nat.zero_le limit), within, finish⟩

/-- The tree of an accepted text fits into the levels, and so do the brackets among its tokens. -/
theorem bounded_of_treeOf {t : Text} {list : List Token} {tree : Tree} (lexed : tokens t = .ok list)
    (parsed : treeOf list = .ok tree) :
    tree.Fits depthLimit ∧ Throughout opened (· ≤ depthLimit) 0 list := by
  obtain ⟨⟨first, rest⟩, read, parsed⟩ := bind_ok parsed
  obtain ⟨fits, taken, whole, enclosed⟩ := (bounded_level depthLimit).expression _ _ _ read
  dsimp only at parsed
  split at parsed
  · cases parsed
  · rename_i token more
    split at parsed
    · rename_i stop
      cases parsed
      obtain rfl := (lexed_of_tokens lexed).stop_is_last whole stop
      have last : opened 0 token = 0 := by rw [opened, stop]
      have bounded : Throughout opened (· ≤ depthLimit) 0 taken :=
        (enclosed.bounded 0).imp fun _ le => by omega
      rw [whole, throughout_append, enclosed.closed]
      exact ⟨fits, bounded, Nat.zero_le _, by rw [last]; exact Nat.zero_le _⟩
    · cases parsed

/-- An accepted expression has bounded nesting: no way from the root of its tree leads into more
    than 63 deeper levels, and at no place of its text are more than 64 brackets open. -/
theorem accepted_nesting_is_bounded {source : Text} {expression : Expression}
    (accepted : read source = .ok expression) :
    (∀ levels, expression.tree.Way levels → levels ≤ 63) ∧
      ∀ place, (Position.behind (source.take place)).opened ≤ 64 := by
  unfold read at accepted
  dsimp only at accepted
  split at accepted
  · cases accepted
  · split at accepted
    · cases accepted
    · obtain ⟨list, lexed, accepted⟩ := bind_ok accepted
      obtain ⟨tree, parsed, accepted⟩ := bind_ok accepted
      cases accepted
      obtain ⟨fits, bounded⟩ := bounded_of_treeOf lexed parsed
      have within : Within depthLimit ⟨.outside, 0⟩ source :=
        within_of_trim ((lexed_of_tokens lexed).within bounded)
      exact ⟨fun levels way => Nat.le_of_lt_succ (fits levels way), within.take⟩

/-- A sign before a call with a list: three levels deep in the tree, two brackets in the text. -/
theorem quoted_brackets_stay_closed :
    read (text "-f(['(('])") = .ok ⟨text "-f(['(('])",
        .signed .minus (.call (.name (text "f")) [.list [.literal (.string (text "(("))]])⟩ ∧
      (∀ levels, (Tree.signed .minus (.call (.name (text "f"))
        [.list [.literal (.string (text "(("))]])).Way levels → levels ≤ 63) ∧
      ∀ place, (Position.behind ((text "-f(['(('])").take place)).opened ≤ 64 := by
  have accepted : read (text "-f(['(('])") = .ok ⟨text "-f(['(('])",
      .signed .minus (.call (.name (text "f")) [.list [.literal (.string (text "(("))]])⟩ := rfl
  exact ⟨accepted, accepted_nesting_is_bounded accepted⟩

end VirtualInstrument.Expression
