import VirtualInstrument.Proofs.Expression.Cursor
import VirtualInstrument.Proofs.Text.Trim
/- Blanks between tokens. However many blanks are put between the tokens of a text, in front of them or
   behind them, its tokens stay the same but for their places, and so does the tree they are read as. -/
namespace VirtualInstrument.Expression

open Text

/-- A text, and the same text with blanks put between its tokens, in front of them or behind them. -/
inductive Spaced : Text → Text → Prop
  | done : Spaced [] []
  | insert {u : CodeUnit} {t wide : Text} (blank : isBlank u = true) (later : Spaced t wide) :
      Spaced t (u :: wide)
  | blank {u : CodeUnit} {t wide : Text} (blank : isBlank u = true) (later : Spaced t wide) :
      Spaced (u :: t) (u :: wide)
  | token {place : Nat} {cut rest wide : Text} {kind : TokenKind} (some : cut ≠ [])
      (taken : takeToken place (cut ++ rest) = .ok (kind, rest)) (later : Spaced rest wide) :
      Spaced (cut ++ rest) (cut ++ wide)

section Spacing
variable {t wide : Text}

theorem Spaced.loosened (spaced : Spaced t wide) : Loosened t wide := by
  induction spaced with
  | done => exact .refl []
  | insert blank _ _ => exact .apart (by simpa using blank)
  | blank _ _ ih => exact .same ih
  | @token _ cut _ _ _ _ _ _ ih => exact ih.append cut

theorem Spaced.trimEnd_nil (spaced : Spaced t wide) : trimEnd t = [] ↔ trimEnd wide = [] := by
  have hidden {u : CodeUnit} (blank : isBlank u = true) (t : Text) :
      trimEnd (u :: t) = [] ↔ trimEnd t = [] := by
    rw [trimEnd_cons_blank blank]
    split
    · rename_i none
      simp [none]
    · rename_i some
      simp [some]
  induction spaced with
  | done => exact Iff.rfl
  | insert blank _ ih => exact ih.trans (hidden blank _).symm
  | blank blank _ ih => exact (hidden blank _).trans (ih.trans (hidden blank _).symm)
  | token some taken _ _ =>
    have last := (lexeme_of_cut some taken).visible.last
    rw [trimEnd_append last, trimEnd_append last]
    simp [some]

theorem Spaced.trimStart (spaced : Spaced t wide) : Spaced (trimStart t) (trimStart wide) := by
  induction spaced with
  | done => exact .done
  | insert blank _ ih => rwa [Text.trimStart, Text.trimStart, List.dropWhile_cons_of_pos blank]
  | blank blank _ ih =>
    rwa [Text.trimStart, Text.trimStart, List.dropWhile_cons_of_pos blank,
      List.dropWhile_cons_of_pos blank]
  | token some taken later _ =>
    have lexeme := lexeme_of_cut some taken
    obtain ⟨u, cut, rfl⟩ := List.exists_cons_of_ne_nil some
    have bare : isBlank u = false := lexeme.visible.first u rfl
    rw [Text.trimStart, Text.trimStart, List.cons_append, List.cons_append,
      List.dropWhile_cons_of_neg (by simp [bare]), List.dropWhile_cons_of_neg (by simp [bare])]
    exact .token some taken later

theorem loosened_trimEnd (t : Text) : Loosened t (trimEnd t) := by
  obtain ⟨blanks, whole⟩ := List.rdropWhile_prefix isBlank t
  have shorter := (@Loosened.apart blanks [] (by simp)).append (trimEnd t)
  rw [List.append_nil] at shorter
  rwa [trimEnd_eq_rdropWhile, whole, ← trimEnd_eq_rdropWhile] at shorter

theorem Spaced.trimEnd (spaced : Spaced t wide) : Spaced (trimEnd t) (trimEnd wide) := by
  induction spaced with
  | done => exact .done
  | insert blank _ ih =>
    rw [trimEnd_cons_blank blank]
    split
    · rename_i none
      rwa [none] at ih
    · exact .insert blank ih
  | @blank _ t _ blank later ih =>
    rw [trimEnd_cons_blank blank, trimEnd_cons_blank blank]
    by_cases none : Text.trimEnd t = []
    · rw [if_pos none, if_pos (later.trimEnd_nil.mp none)]
      exact .done
    · rw [if_neg none, if_neg (fun same => none (later.trimEnd_nil.mpr same))]
      exact .blank blank ih
  | @token place _ rest _ _ some taken _ ih =>
    have lexeme := lexeme_of_cut some taken
    rw [trimEnd_append lexeme.visible.last, trimEnd_append lexeme.visible.last]
    exact .token some (lexeme.taken place _ (loosened_trimEnd rest)) ih

theorem Spaced.trim (spaced : Spaced t wide) : Spaced (trim t) (trim wide) :=
  spaced.trimStart.trimEnd

theorem Spaced.ne_nil (spaced : Spaced t wide) (some : t ≠ []) : wide ≠ [] := by
  cases spaced with
  | done => exact absurd rfl some
  | insert _ _ => exact List.cons_ne_nil _ _
  | blank _ _ => exact List.cons_ne_nil _ _
  | token filled _ _ => exact fun same => filled (List.append_eq_nil_iff.mp same).1

theorem LexedFrom.first_token {place : Nat} {kind : TokenKind} {cut rest : Text} {list : List Token}
    (lexed : LexedFrom place t list) (whole : t = cut ++ rest) (lexeme : IsLexeme kind cut rest) :
    ∃ others, list = ⟨kind, place⟩ :: others ∧ LexedFrom (place + cut.length) rest others := by
  obtain ⟨u, tail, shape⟩ := List.exists_cons_of_ne_nil lexeme.visible.some
  have bare : isBlank u = false := lexeme.visible.first u (by simp [shape])
  cases lexed with
  | stop place => simp [shape] at whole
  | blank blank _ =>
    rw [shape] at whole
    obtain ⟨rfl, _⟩ := List.cons.inj whole
    rw [bare] at blank
    cases blank
  | @token _ other more also list _ taken later =>
    rw [whole, lexeme.taken place rest (.refl rest)] at taken
    cases taken
    obtain rfl := List.append_cancel_right whole
    exact ⟨list, rfl, later⟩

theorem lexedFrom_nil {place : Nat} {list : List Token} (lexed : LexedFrom place [] list) :
    list = [⟨.stop, place⟩] := by
  have found := (tokensWithin_iff (Nat.le_refl 0)).mpr lexed
  cases found
  rfl

theorem LexedFrom.behind_blank {place : Nat} {u : CodeUnit} {list : List Token}
    (lexed : LexedFrom place (u :: t) list) (blank : isBlank u = true) :
    LexedFrom (place + 1) t list := by
  have found := (tokensWithin_iff (Nat.le_refl (t.length + 1))).mpr lexed
  rw [tokensWithin, if_pos blank] at found
  exact (tokensWithin_iff (Nat.le_refl t.length)).mp found

/-- Blanks between the tokens change nothing of the tokens but their places. -/
theorem Spaced.same_kinds (spaced : Spaced t wide) {place : Nat} {list : List Token}
    (lexed : LexedFrom place t list) (away : Nat) :
    ∃ others, LexedFrom away wide others ∧ others.map Token.kind = list.map Token.kind := by
  induction spaced generalizing place away list with
  | done =>
    obtain rfl := lexedFrom_nil lexed
    exact ⟨_, .stop away, rfl⟩
  | insert blank _ ih =>
    obtain ⟨others, found, same⟩ := ih lexed (away + 1)
    exact ⟨others, .blank blank found, same⟩
  | blank blank _ ih =>
    obtain ⟨others, found, same⟩ := ih (lexed.behind_blank blank) (away + 1)
    exact ⟨others, .blank blank found, same⟩
  | @token _ cut rest wide kind some taken later ih =>
    have lexeme := lexeme_of_cut some taken
    obtain ⟨behind, rfl, left⟩ := lexed.first_token rfl lexeme
    obtain ⟨others, found, same⟩ := ih left (away + cut.length)
    refine ⟨⟨kind, away⟩ :: others, .token some (lexeme.taken away wide later.loosened) found, ?_⟩
    rw [List.map_cons, List.map_cons, same]

end Spacing

/-- An expression that is read is read as the same tree, from the same tokens but for their places,
    when blanks are put between its tokens, in front of them or behind them, unless the text gets too
    long. -/
theorem blanks_between_tokens_do_not_matter {source wide : Text} {expression : Expression}
    (accepted : read source = .ok expression) (spaced : Spaced source wide)
    (short : (trim wide).length ≤ lengthLimit) :
    read wide = .ok ⟨trim wide, expression.tree⟩ ∧ ∃ list others,
      tokens (trim source) = .ok list ∧ tokens (trim wide) = .ok others ∧
        others.map Token.kind = list.map Token.kind := by
  rw [read] at accepted
  split at accepted
  · cases accepted
  rename_i some
  split at accepted
  · cases accepted
  obtain ⟨list, found, accepted⟩ := bind_ok accepted
  obtain ⟨tree, read_as, accepted⟩ := bind_ok accepted
  cases accepted
  have lexed := tokens_iff.mp found
  obtain ⟨others, also, same⟩ := spaced.trim.same_kinds lexed 0
  have others_found := tokens_iff.mpr also
  refine ⟨?_, list, others, found, others_found, same⟩
  have filled := spaced.trim.ne_nil (by simpa using some)
  rw [read, if_neg (by simpa using filled), if_neg (by omega), others_found]
  simp only [bind, Except.bind, treeOf_same_kinds lexed also same read_as]

/-- A comparison with a string in which a blank stands, and the same with blanks around its tokens. -/
theorem spaced_comparison_is_read_alike :
    read (text "x=='a b'") = .ok ⟨text "x=='a b'",
        .comparison (.name (text "x")) [(.equal, .literal (.string (text "a b")))]⟩ ∧
      read (text " x == 'a b'") = .ok ⟨trim (text " x == 'a b'"),
        .comparison (.name (text "x")) [(.equal, .literal (.string (text "a b")))]⟩ := by
  have accepted : read (text "x=='a b'") = .ok ⟨text "x=='a b'",
      .comparison (.name (text "x")) [(.equal, .literal (.string (text "a b")))]⟩ := by rfl
  have last : Spaced (text "'a b'" ++ []) (text "'a b'" ++ []) :=
    @Spaced.token 0 (text "'a b'") [] [] (.literal (.string (text "a b"))) (by decide)
      (by decide +kernel) .done
  have middle : Spaced (text "==" ++ text "'a b'") (text "==" ++ text " 'a b'") :=
    @Spaced.token 0 (text "==") (text "'a b'") (text " 'a b'") (.symbol .equal) (by decide)
      (by decide +kernel) (.insert (by decide) last)
  have spaced : Spaced (text "x=='a b'") (text " x == 'a b'") :=
    .insert (by decide) (@Spaced.token 0 (text "x") (text "=='a b'") (text " == 'a b'")
      (.name (text "x")) (by decide) (by decide +kernel) (.insert (by decide) middle))
  exact ⟨accepted, (blanks_between_tokens_do_not_matter accepted spaced (by decide +kernel)).1⟩

end VirtualInstrument.Expression
