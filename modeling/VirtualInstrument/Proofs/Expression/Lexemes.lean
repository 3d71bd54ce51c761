import VirtualInstrument.Proofs.Decimal.Written
import VirtualInstrument.Proofs.Expression.Lexing
import VirtualInstrument.Proofs.Outcomes
/- How a text is cut into tokens. Where a token ends depends on its own text and on what stands right
   behind it: in front of a blank, or of the end of the text, it is taken as it was taken before. Each
   token has a text, so the tokens of a text stand at ever later places, and the mark of its end is the
   last of them. -/
namespace VirtualInstrument.Expression

open Text

/-- A text that begins as another one does. Where it departs from that one it has a blank, or ends. -/
inductive Loosened : Text → Text → Prop
  | same {u : CodeUnit} {t loose : Text} (later : Loosened t loose) : Loosened (u :: t) (u :: loose)
  | apart {t loose : Text} (blank : ∀ u ∈ loose.head?, isBlank u = true) : Loosened t loose

section Loosened
variable {t loose : Text}

theorem Loosened.append (cut : Text) (loosened : Loosened t loose) :
    Loosened (cut ++ t) (cut ++ loose) := by
  induction cut with
  | nil => exact loosened
  | cons u cut ih => exact .same ih

theorem Loosened.refl (t : Text) : Loosened t t := by
  have whole := (@Loosened.apart [] [] (by simp)).append t
  rwa [List.append_nil] at whole

theorem Loosened.head_refused (loosened : Loosened t loose) {accepts : CodeUnit → Bool}
    (bare : ∀ u, isBlank u = true → accepts u = false)
    (stop : ∀ u ∈ t.head?, accepts u = false) : ∀ u ∈ loose.head?, accepts u = false := by
  intro u first
  cases loosened with
  | same _ => exact stop u first
  | apart blank => exact bare u (blank u first)

theorem word_bare (u : CodeUnit) (blank : isBlank u = true) : isWordUnit u = false := by
  cases word : isWordUnit u with
  | false => rfl
  | true => simp [isBlank_of_word word] at blank

theorem digit_bare (u : CodeUnit) (blank : isBlank u = true) : isDigit u = false := by
  have word := word_bare u blank
  simp only [isWordUnit, Bool.or_eq_false_iff] at word
  exact word.1.2

theorem ne_of_blank {u v : CodeUnit} (blank : isBlank u = true) (bare : isBlank v = false) :
    u ≠ v := by
  rintro rfl
  rw [blank] at bare
  cases bare

end Loosened

/-- A reader takes units of which numbers are written off a text, and takes the same off in front of
    whatever is looser than what it leaves. -/
structure Lifts {α : Type} (reader : Text → α × Text) (t cut : Text) : Prop where
  whole : t = cut ++ (reader t).2
  units : Numeric cut
  again : ∀ behind, Loosened (reader t).2 behind → reader (cut ++ behind) = ((reader t).1, behind)

section Numbers

def takeDigits (t : Text) : Text × Text := (t.takeWhile isDigit, t.dropWhile isDigit)

theorem lifts_digits (t : Text) : Lifts takeDigits t (t.takeWhile isDigit) := by
  have digits : ∀ u ∈ t.takeWhile isDigit, isDigit u = true :=
    fun u member => List.mem_takeWhile_imp member
  refine ⟨List.takeWhile_append_dropWhile.symm, numeric_digits digits,
    fun behind loosened => ?_⟩
  obtain ⟨taken, left⟩ := takeWhile_stopped digits
    (loosened.head_refused digit_bare (head_dropWhile isDigit t))
  rw [takeDigits, taken, left]
  rfl

theorem lifts_nothing {α : Type} {reader : Text → α × Text} {t : Text} {value : α}
    (nothing : ∀ behind, Loosened t behind → reader behind = (value, behind)) :
    Lifts reader t [] := by
  have here := nothing t (.refl t)
  refine ⟨by rw [here]; rfl, by decide, fun behind loosened => ?_⟩
  rw [here] at loosened ⊢
  exact nothing behind loosened

def isPoint (u : CodeUnit) : Bool := u == unit '.'

theorem point_bare (u : CodeUnit) (blank : isBlank u = true) : isPoint u = false :=
  beq_eq_false_iff_ne.mpr (ne_of_blank blank (by decide))

theorem takeFraction_none {t : Text} (other : ∀ u ∈ t.head?, isPoint u = false) :
    Decimal.takeFraction t = (none, t) := by
  cases t with
  | nil => rfl
  | cons u t => rw [Decimal.takeFraction, if_neg (beq_eq_false_iff_ne.mp (other u rfl))]

theorem takeFraction_some {u : CodeUnit} (point : isPoint u = true) (t : Text) :
    Decimal.takeFraction (u :: t) = (some (takeDigits t).1, (takeDigits t).2) := by
  rw [Decimal.takeFraction, if_pos (beq_iff_eq.mp point)]
  rfl

theorem lifts_fraction (t : Text) : ∃ cut, Lifts Decimal.takeFraction t cut := by
  rcases head_cases isPoint t with ⟨u, rest, rfl, point⟩ | other
  · obtain ⟨whole, units, again⟩ := lifts_digits rest
    refine ⟨u :: rest.takeWhile isDigit, ?_, ?_, ?_⟩
    · rw [takeFraction_some point, List.cons_append, ← whole]
    · have first : u ∈ text ".+-" := beq_iff_eq.mp point ▸ by decide
      exact List.forall_mem_cons.mpr ⟨.inr first, units⟩
    · intro behind loosened
      rw [takeFraction_some point] at loosened
      rw [List.cons_append, takeFraction_some point, takeFraction_some point,
        again behind loosened]
  · exact ⟨[], lifts_nothing fun behind loosened =>
      takeFraction_none (loosened.head_refused point_bare other)⟩

def isSign (u : CodeUnit) : Bool := u == unit '-' || u == unit '+'

theorem sign_bare (u : CodeUnit) (blank : isBlank u = true) : isSign u = false := by
  have minus : u ≠ unit '-' := ne_of_blank blank (by decide)
  have plus : u ≠ unit '+' := ne_of_blank blank (by decide)
  simp [isSign, minus, plus]

theorem takeSign_none {t : Text} (other : ∀ u ∈ t.head?, isSign u = false) :
    Decimal.takeSign t = (false, t) := by
  cases t with
  | nil => rfl
  | cons u t =>
    have unsigned : u ≠ unit '-' ∧ u ≠ unit '+' := by simpa [isSign] using other u rfl
    rw [Decimal.takeSign, if_neg unsigned.1, if_neg unsigned.2]

theorem isSign_iff {u : CodeUnit} : isSign u = true ↔ u = unit '-' ∨ u = unit '+' := by
  simp [isSign]

theorem takeSign_some {u : CodeUnit} (sign : isSign u = true) (t : Text) :
    Decimal.takeSign (u :: t) = (u == unit '-', t) := by
  unfold Decimal.takeSign
  rcases isSign_iff.mp sign with rfl | rfl
  · rfl
  · rfl

theorem lifts_sign (t : Text) : ∃ cut, Lifts Decimal.takeSign t cut := by
  rcases head_cases isSign t with ⟨u, rest, rfl, sign⟩ | other
  · refine ⟨[u], ?_, ?_, ?_⟩
    · rw [takeSign_some sign]
      rfl
    · refine List.forall_mem_singleton.mpr (.inr ?_)
      rcases isSign_iff.mp sign with rfl | rfl
      · decide
      · decide
    · intro behind _
      rw [List.singleton_append, takeSign_some sign, takeSign_some sign]
  · exact ⟨[], lifts_nothing fun behind loosened =>
      takeSign_none (loosened.head_refused sign_bare other)⟩

def exponentDigits (t : Text) : Text := ((Decimal.takeSign t).2).takeWhile isDigit

theorem exponentDigits_loosened {t loose : Text} (loosened : Loosened t loose)
    (none : exponentDigits t = []) : exponentDigits loose = [] := by
  unfold exponentDigits at none ⊢
  cases loosened with
  | apart blank =>
    rw [takeSign_none fun u first => sign_bare u (blank u first), takeWhile_eq_nil_iff]
    exact fun u first => digit_bare u (blank u first)
  | @same u t loose later =>
    cases sign : isSign u with
    | true =>
      rw [takeSign_some sign, takeWhile_eq_nil_iff] at none ⊢
      exact later.head_refused digit_bare none
    | false =>
      have unsigned (rest : Text) : Decimal.takeSign (u :: rest) = (false, u :: rest) := by
        apply takeSign_none
        intro v first
        cases first
        exact sign
      rw [unsigned, takeWhile_eq_nil_iff] at none ⊢
      exact none

theorem word_of_mark {u : CodeUnit} (mark : u = unit 'e' ∨ u = unit 'E') :
    isWordUnit u = true := by
  rcases mark with rfl | rfl
  · decide
  · decide

theorem takeExponent_none {t : Text}
    (none : ∀ u rest, t = u :: rest → u = unit 'e' ∨ u = unit 'E' → exponentDigits rest = []) :
    Decimal.takeExponent t = (0, t) := by
  cases t with
  | nil => rfl
  | cons u rest =>
    by_cases mark : u = unit 'e' ∨ u = unit 'E'
    · have empty : (((Decimal.takeSign rest).2).takeWhile isDigit).isEmpty = true := by
        rw [List.isEmpty_iff]
        exact none u rest rfl mark
      rw [Decimal.takeExponent, if_pos mark]
      simp only [empty, if_true]
    · rw [Decimal.takeExponent, if_neg mark]

theorem takeExponent_some {u : CodeUnit} (mark : u = unit 'e' ∨ u = unit 'E') {rest : Text}
    (filled : exponentDigits rest ≠ []) : Decimal.takeExponent (u :: rest) =
      ((if (Decimal.takeSign rest).1 then -(digitsValue (exponentDigits rest) : Int)
        else digitsValue (exponentDigits rest)), (takeDigits (Decimal.takeSign rest).2).2) := by
  have some : (((Decimal.takeSign rest).2).takeWhile isDigit).isEmpty = false := by
    rw [← Bool.not_eq_true, List.isEmpty_iff]
    exact filled
  rw [Decimal.takeExponent, if_pos mark]
  simp only [some, Bool.false_eq_true, if_false]
  rfl

theorem lifts_exponent (t : Text) : ∃ cut, Lifts Decimal.takeExponent t cut := by
  by_cases exponent : ∃ u rest, t = u :: rest ∧ (u = unit 'e' ∨ u = unit 'E') ∧
      exponentDigits rest ≠ []
  · obtain ⟨u, rest, rfl, mark, filled⟩ := exponent
    obtain ⟨sign, front, units, again⟩ := lifts_sign rest
    obtain ⟨back, digits, more⟩ := lifts_digits (Decimal.takeSign rest).2
    refine ⟨u :: (sign ++ exponentDigits rest), ?_, ?_, ?_⟩
    · rw [takeExponent_some mark filled, List.cons_append, List.append_assoc]
      exact congrArg (u :: ·) (front.trans (congrArg (sign ++ ·) back))
    · exact List.forall_mem_cons.mpr
        ⟨.inl (word_of_mark mark), List.forall_mem_append.mpr ⟨units, digits⟩⟩
    · intro behind loosened
      rw [takeExponent_some mark filled] at loosened ⊢
      -- the sign is taken off in front of the digits, and these in front of what follows
      have signed : Decimal.takeSign (sign ++ (exponentDigits rest ++ behind)) =
          ((Decimal.takeSign rest).1, exponentDigits rest ++ behind) := by
        apply again
        rw [back]
        exact loosened.append _
      have ended : takeDigits (exponentDigits rest ++ behind) = (exponentDigits rest, behind) :=
        more behind loosened
      have same : exponentDigits (sign ++ (exponentDigits rest ++ behind)) =
          exponentDigits rest := by
        rw [exponentDigits, signed]
        exact congrArg Prod.fst ended
      rw [List.cons_append, List.append_assoc,
        takeExponent_some mark (by rw [same]; exact filled), same, signed, ended]
  · refine ⟨[], lifts_nothing fun behind loosened => takeExponent_none ?_⟩
    rintro u rest rfl mark
    cases loosened with
    | apart blank =>
      have other := word_bare u (blank u rfl)
      rw [word_of_mark mark] at other
      cases other
    | same later =>
      refine exponentDigits_loosened later (Decidable.byContradiction fun filled => ?_)
      exact exponent ⟨u, _, rfl, mark, filled⟩

theorem lifts_decimal (t : Text) :
    ∃ cut, Lifts Decimal.takeDecimal t (t.takeWhile isDigit ++ cut) := by
  obtain ⟨front, digits, first⟩ := lifts_digits t
  obtain ⟨fraction, middle, point, second⟩ := lifts_fraction (t.dropWhile isDigit)
  obtain ⟨exponent, back, power, third⟩ :=
    lifts_exponent (Decimal.takeFraction (t.dropWhile isDigit)).2
  refine ⟨fraction ++ exponent, ?_, ?_, ?_⟩
  · have split : t.dropWhile isDigit = fraction ++ (exponent ++ (Decimal.takeDecimal t).2) :=
      middle.trans (congrArg (fraction ++ ·) back)
    rw [List.append_assoc, List.append_assoc, ← split]
    exact front
  · exact List.forall_mem_append.mpr ⟨digits, List.forall_mem_append.mpr ⟨point, power⟩⟩
  · intro behind loosened
    have exponentLoose : Loosened (Decimal.takeFraction (t.dropWhile isDigit)).2
        (exponent ++ behind) := by
      rw [back]
      exact loosened.append exponent
    have fractionLoose : Loosened (t.dropWhile isDigit) (fraction ++ (exponent ++ behind)) := by
      rw [middle]
      exact exponentLoose.append fraction
    have taken := first _ fractionLoose
    simp only [takeDigits, Prod.mk.injEq] at taken
    rw [List.append_assoc, List.append_assoc]
    simp only [Decimal.takeDecimal, taken.1, taken.2, second _ exponentLoose, third _ loosened]

end Numbers

section Strings

theorem takeString?_plain {quote u : CodeUnit} (plain : u ≠ unit '\\') (other : u ≠ quote)
    {t : Text} (some : t ≠ []) : takeString? quote (u :: t) =
      (takeString? quote t).map fun (body, after) => (u :: body, after) := by
  cases t with
  | nil => exact absurd rfl some
  | cons v t => rw [takeString?, if_neg plain, if_neg other]

theorem takeString?_lifts {quote : CodeUnit} (apart : quote ≠ unit '\\') {t body rest : Text}
    (taken : takeString? quote t = some (body, rest)) : ∃ inside, t = inside ++ quote :: rest ∧
      ∀ behind, takeString? quote (inside ++ quote :: behind) = some (body, behind) := by
  induction t using takeString?.induct quote generalizing body with
  | case1 => cases taken
  | case2 =>
    rw [takeString?, if_pos rfl] at taken
    cases taken
    exact ⟨[], rfl, takeString?_closed quote apart⟩
  | case3 u other =>
    rw [takeString?, if_neg other] at taken
    cases taken
  | case4 v others ih =>
    rw [takeString?, if_pos rfl] at taken
    obtain ⟨⟨inner, after⟩, found, same⟩ := Option.map_eq_some_iff.mp taken
    cases same
    obtain ⟨inside, rfl, again⟩ := ih found
    refine ⟨unit '\\' :: v :: inside, rfl, fun behind => ?_⟩
    rw [List.cons_append, List.cons_append, takeString?, if_pos rfl, again]
    rfl
  | case5 v others =>
    rw [takeString?, if_neg apart, if_pos rfl] at taken
    cases taken
    exact ⟨[], rfl, takeString?_closed quote apart⟩
  | case6 u v others plain other ih =>
    rw [takeString?_plain plain other (List.cons_ne_nil v others)] at taken
    obtain ⟨⟨inner, after⟩, found, same⟩ := Option.map_eq_some_iff.mp taken
    cases same
    obtain ⟨inside, whole, again⟩ := ih found
    refine ⟨u :: inside, by rw [whole]; rfl, fun behind => ?_⟩
    rw [List.cons_append, takeString?_plain plain other (by simp), again]
    rfl

end Strings

section Symbols

theorem Loosened.begins_alike {t loose spelling : Text} (loosened : Loosened t loose)
    (bare : ∀ u ∈ spelling, isBlank u = false) (begins : spelling <+: loose) : spelling <+: t := by
  induction loosened generalizing spelling with
  | apart blank =>
    cases spelling with
    | nil => exact List.nil_prefix
    | cons u spelling =>
      obtain ⟨rest, rfl⟩ := begins
      exact absurd rfl (ne_of_blank (blank u rfl) (bare u List.mem_cons_self))
  | same _ ih =>
    cases spelling with
    | nil => exact List.nil_prefix
    | cons v spelling =>
      obtain ⟨rfl, others⟩ := List.cons_prefix_cons.mp begins
      exact List.cons_prefix_cons.mpr
        ⟨rfl, ih (fun u member => bare u (List.mem_cons_of_mem _ member)) others⟩

theorem symbols_bare : ∀ entry ∈ symbols, entry.1 ≠ [] ∧ ∀ u ∈ entry.1, isBlank u = false := by
  have all : symbols.all (fun entry => !entry.1.isEmpty && entry.1.all fun u => !isBlank u) = true :=
    rfl
  intro entry listed
  simpa using List.all_eq_true.mp all entry listed

def symbolAt? (t : Text) : Option (TokenKind × Text) :=
  symbols.findSome? fun (spelling, symbol) =>
    (after? spelling t).map fun more => (TokenKind.symbol symbol, more)

theorem after?_eq_none_iff {start t : Text} : after? start t = none ↔ ¬ start <+: t := by
  simp [after?, List.isPrefixOf_iff_prefix]

theorem after?_append (start t : Text) : after? start (start ++ t) = some t := by
  simp [after?]

theorem symbolAt?_lifts {t more : Text} {kind : TokenKind} (found : symbolAt? t = some (kind, more)) :
    ∃ cut, t = cut ++ more ∧ cut ≠ [] ∧ (∀ u ∈ cut, isBlank u = false) ∧
      ∀ behind, Loosened more behind → symbolAt? (cut ++ behind) = some (kind, behind) := by
  obtain ⟨before, ⟨spelling, symbol⟩, after, listed, here, missed⟩ :=
    List.findSome?_eq_some_iff.mp found
  obtain ⟨left, cut, pairs⟩ := Option.map_eq_some_iff.mp here
  cases pairs
  have member : (spelling, symbol) ∈ symbols := by simp [listed]
  obtain ⟨some, bare⟩ := symbols_bare _ member
  have whole : t = spelling ++ more := by
    rw [after?] at cut
    split at cut
    · rename_i prefixed
      cases cut
      exact (List.prefix_iff_eq_append.mp (List.isPrefixOf_iff_prefix.mp prefixed)).symm
    · cases cut
  refine ⟨spelling, whole, some, bare, fun behind loosened => ?_⟩
  refine List.findSome?_eq_some_iff.mpr ⟨before, (spelling, symbol), after, listed, ?_, ?_⟩
  · dsimp only
    rw [after?_append]
    rfl
  · -- an earlier symbol that fits now would have fitted before
    intro entry earlier
    have absent := missed entry earlier
    rw [Option.map_eq_none_iff, after?_eq_none_iff, whole] at absent
    rw [Option.map_eq_none_iff, after?_eq_none_iff]
    intro begins
    have known : entry ∈ symbols := by simp [listed, earlier]
    exact absent ((loosened.append spelling).begins_alike (symbols_bare entry known).2 begins)

end Symbols

section Tokens
variable {place : Nat} {u : CodeUnit} {rest more : Text} {kind : TokenKind}

theorem takeToken_digit (digit : isDigit u = true) (place : Nat) (rest : Text) :
    takeToken place (u :: rest) =
      .ok (.literal (.number (Decimal.takeDecimal (u :: rest)).1),
        (Decimal.takeDecimal (u :: rest)).2) := by
  rw [takeToken, if_pos digit]

theorem takeToken_quote (quote : u = unit '"' ∨ u = unit '\'') (place : Nat) (rest : Text) :
    takeToken place (u :: rest) =
      match takeString? u rest with
      | some (body, after) => .ok (.literal (.string body), after)
      | none => .error (.unterminated place) := by
  have notDigit : ¬ isDigit u = true := by
    rcases quote with rfl | rfl
    · decide
    · decide
  exact (if_neg notDigit).trans (if_pos quote)

theorem takeToken_start (start : isNameStart u = true) (place : Nat) (rest : Text) :
    takeToken place (u :: rest) =
      .ok ((keywords.lookup ((u :: rest).takeWhile isWordUnit)).getD
        (.name ((u :: rest).takeWhile isWordUnit)), (u :: rest).dropWhile isWordUnit) := by
  obtain ⟨notDigit, notQuote⟩ := isNameStart_apart start
  rw [takeToken, if_neg (by simp [notDigit]), if_neg notQuote, if_pos start]

theorem takeToken_other (notDigit : isDigit u = false) (notQuote : ¬ (u = unit '"' ∨ u = unit '\''))
    (notStart : isNameStart u = false) (place : Nat) (rest : Text) :
    takeToken place (u :: rest) =
      match symbolAt? (u :: rest) with
      | some found => .ok found
      | none => .error (.strayUnit u place) := by
  have bare : ¬ isDigit u = true ∧ ¬ isNameStart u = true := by simp [notDigit, notStart]
  exact ((if_neg bare.1).trans (if_neg notQuote)).trans (if_neg bare.2)

/-- The text of a token: it has no blank at either end, and is taken as the token in front of whatever
    is looser than what follows it. -/
structure IsLexeme (kind : TokenKind) (cut more : Text) : Prop where
  visible : Visible cut
  taken : ∀ place behind, Loosened more behind → takeToken place (cut ++ behind) = .ok (kind, behind)

theorem numeric_bare {t : Text} (numeric : Numeric t) : ∀ u ∈ t, isBlank u = false := by
  intro u member
  rcases numeric u member with word | other
  · exact isBlank_of_word word
  · have bare : (text ".+-").all (fun u => !isBlank u) = true := by decide
    simpa using List.all_eq_true.mp bare u other

theorem number_lexeme (digit : isDigit u = true) (rest : Text) : ∃ cut,
    u :: rest = cut ++ (Decimal.takeDecimal (u :: rest)).2 ∧
      IsLexeme (.literal (.number (Decimal.takeDecimal (u :: rest)).1)) cut
        (Decimal.takeDecimal (u :: rest)).2 := by
  obtain ⟨cut, whole, units, again⟩ := lifts_decimal (u :: rest)
  rw [List.takeWhile_cons_of_pos digit, List.cons_append] at whole units again
  refine ⟨_, whole, visible_of_forall (List.cons_ne_nil _ _) (numeric_bare units), ?_⟩
  intro place behind loosened
  have number := again behind loosened
  rw [List.cons_append] at number ⊢
  rw [takeToken_digit digit, number]

theorem string_lexeme {body : Text} (quote : u = unit '"' ∨ u = unit '\'')
    (found : takeString? u rest = some (body, more)) : ∃ cut, u :: rest = cut ++ more ∧
      IsLexeme (.literal (.string body)) cut more := by
  have apart : u ≠ unit '\\' ∧ isBlank u = false := by
    rcases quote with rfl | rfl
    · decide
    · decide
  obtain ⟨inside, rfl, again⟩ := takeString?_lifts apart.1 found
  refine ⟨u :: (inside ++ [u]), by simp, ⟨by simp, ?_, ?_⟩, fun place behind _ => ?_⟩
  · simpa using apart.2
  · simpa [List.getLast?_cons] using apart.2
  · rw [List.cons_append, List.append_assoc, List.singleton_append, takeToken_quote quote, again]

theorem word_lexeme (start : isNameStart u = true) (rest : Text) :
    IsLexeme ((keywords.lookup ((u :: rest).takeWhile isWordUnit)).getD
        (.name ((u :: rest).takeWhile isWordUnit)))
      ((u :: rest).takeWhile isWordUnit) ((u :: rest).dropWhile isWordUnit) := by
  have word : isWordUnit u = true := by
    rw [isNameStart, Bool.or_eq_true, beq_iff_eq] at start
    rcases start with letter | rfl
    · simp [isWordUnit, letter]
    · decide
  have all : ∀ v ∈ (u :: rest).takeWhile isWordUnit, isWordUnit v = true :=
    fun v member => List.mem_takeWhile_imp member
  refine ⟨visible_of_forall (by simp [word]) fun v member => isBlank_of_word (all v member), ?_⟩
  intro place behind loosened
  obtain ⟨taken, left⟩ := takeWhile_stopped all
    (loosened.head_refused word_bare (head_dropWhile isWordUnit (u :: rest)))
  rw [List.takeWhile_cons_of_pos word, List.cons_append] at taken left ⊢
  rw [takeToken_start start, taken, left]

theorem symbol_lexeme (notDigit : isDigit u = false) (notQuote : ¬ (u = unit '"' ∨ u = unit '\''))
    (notStart : isNameStart u = false) (found : symbolAt? (u :: rest) = some (kind, more)) :
    ∃ cut, u :: rest = cut ++ more ∧ IsLexeme kind cut more := by
  obtain ⟨cut, whole, some, bare, again⟩ := symbolAt?_lifts found
  obtain ⟨v, cut, rfl⟩ := List.exists_cons_of_ne_nil some
  obtain ⟨rfl, _⟩ := List.cons.inj whole
  refine ⟨_, whole, visible_of_forall some bare, fun place behind loosened => ?_⟩
  have symbol := again behind loosened
  rw [List.cons_append] at symbol ⊢
  rw [takeToken_other notDigit notQuote notStart, symbol]

/-- A text that begins with no blank begins with the text of a token, or with a string that does not
    end, or with a unit that begins no token. -/
theorem takeToken_cases (place : Nat) (u : CodeUnit) (rest : Text) :
    (∃ kind cut more, takeToken place (u :: rest) = .ok (kind, more) ∧ u :: rest = cut ++ more ∧
        IsLexeme kind cut more) ∨
      takeToken place (u :: rest) = .error (.unterminated place) ∨
      takeToken place (u :: rest) = .error (.strayUnit u place) := by
  by_cases digit : isDigit u = true
  · obtain ⟨cut, whole, lexeme⟩ := number_lexeme digit rest
    exact .inl ⟨_, cut, _, takeToken_digit digit place rest, whole, lexeme⟩
  rw [Bool.not_eq_true] at digit
  by_cases quote : u = unit '"' ∨ u = unit '\''
  · rw [takeToken_quote quote]
    cases string : takeString? u rest with
    | none => exact .inr (.inl rfl)
    | some found =>
      obtain ⟨cut, whole, lexeme⟩ := string_lexeme quote string
      exact .inl ⟨_, cut, _, rfl, whole, lexeme⟩
  by_cases start : isNameStart u = true
  · exact .inl ⟨_, _, _, takeToken_start start place rest, List.takeWhile_append_dropWhile.symm,
      word_lexeme start rest⟩
  rw [Bool.not_eq_true] at start
  rw [takeToken_other digit quote start]
  cases symbol : symbolAt? (u :: rest) with
  | none => exact .inr (.inr rfl)
  | some found =>
    obtain ⟨cut, whole, lexeme⟩ := symbol_lexeme digit quote start symbol
    exact .inl ⟨_, cut, _, rfl, whole, lexeme⟩

theorem lexeme_of_takeToken (found : takeToken place (u :: rest) = .ok (kind, more)) :
    ∃ cut, u :: rest = cut ++ more ∧ IsLexeme kind cut more := by
  rcases takeToken_cases place u rest with ⟨_, cut, _, taken, whole, lexeme⟩ | unended | stray
  · rw [taken] at found
    cases found
    exact ⟨cut, whole, lexeme⟩
  · rw [unended] at found
    cases found
  · rw [stray] at found
    cases found

theorem lexeme_of_cut {cut : Text} (some : cut ≠ [])
    (found : takeToken place (cut ++ more) = .ok (kind, more)) : IsLexeme kind cut more := by
  obtain ⟨u, rest, rfl⟩ := List.exists_cons_of_ne_nil some
  obtain ⟨other, whole, lexeme⟩ := lexeme_of_takeToken found
  obtain rfl : u :: rest = other := List.append_cancel_right whole
  exact lexeme

end Tokens

/-- The tokens of a text that starts at a place. Each stands where its own text begins, between them
    are blanks, and behind them stands the mark of the end. -/
inductive LexedFrom : Nat → Text → List Token → Prop
  | stop (place : Nat) : LexedFrom place [] [⟨.stop, place⟩]
  | blank {place : Nat} {u : CodeUnit} {rest : Text} {list : List Token} (blank : isBlank u = true)
      (later : LexedFrom (place + 1) rest list) : LexedFrom place (u :: rest) list
  | token {place : Nat} {cut more : Text} {kind : TokenKind} {list : List Token} (some : cut ≠ [])
      (taken : takeToken place (cut ++ more) = .ok (kind, more))
      (later : LexedFrom (place + cut.length) more list) :
      LexedFrom place (cut ++ more) (⟨kind, place⟩ :: list)

section Cutting
variable {place : Nat} {t : Text} {list : List Token}

theorem tokensWithin_bare {fuel : Nat} {u : CodeUnit} {rest : Text} (bare : isBlank u = false) :
    tokensWithin (fuel + 1) place (u :: rest) = (do
      let (kind, more) ← takeToken place (u :: rest)
      let tokens ← tokensWithin fuel (place + ((u :: rest).length - more.length)) more
      .ok (⟨kind, place⟩ :: tokens)) := by
  rw [tokensWithin, bare]
  rfl

/-- With fuel for every unit, a text is cut into the tokens that are its tokens. -/
theorem tokensWithin_iff {fuel : Nat} (enough : t.length ≤ fuel) :
    tokensWithin fuel place t = .ok list ↔ LexedFrom place t list := by
  constructor
  · intro found
    induction fuel generalizing place t list with
    | zero =>
      obtain rfl : t = [] := List.eq_nil_of_length_eq_zero (by omega)
      cases found
      exact .stop place
    | succ fuel ih =>
      cases t with
      | nil =>
        cases found
        exact .stop place
      | cons u rest =>
        rw [List.length_cons] at enough
        cases blank : isBlank u with
        | true =>
          rw [tokensWithin, if_pos blank] at found
          exact .blank blank (ih (by omega) found)
        | false =>
          rw [tokensWithin_bare blank] at found
          obtain ⟨⟨kind, more⟩, taken, found⟩ := bind_ok found
          obtain ⟨others, later, found⟩ := bind_ok found
          cases found
          obtain ⟨cut, whole, lexeme⟩ := lexeme_of_takeToken taken
          have some := lexeme.visible.some
          have size := congrArg List.length whole
          rw [List.length_cons, List.length_append] at size
          have filled := List.length_pos_iff.mpr some
          have here : place + ((u :: rest).length - more.length) = place + cut.length := by
            rw [List.length_cons]
            omega
          rw [here] at later
          rw [whole] at taken ⊢
          exact .token some taken (ih (by omega) later)
  · intro lexed
    induction lexed generalizing fuel with
    | stop place =>
      cases fuel with
      | _ => rfl
    | blank blank _ ih =>
      rw [List.length_cons] at enough
      cases fuel with
      | zero => omega
      | succ fuel =>
        rw [tokensWithin, if_pos blank]
        exact ih (by omega)
    | @token place cut more kind list some taken _ ih =>
      have lexeme := lexeme_of_cut some taken
      obtain ⟨u, cut, rfl⟩ := List.exists_cons_of_ne_nil some
      rw [List.length_append, List.length_cons] at enough
      cases fuel with
      | zero => omega
      | succ fuel =>
        have bare : isBlank u = false := lexeme.visible.first u rfl
        have here : place + ((u :: cut ++ more).length - more.length) =
            place + (u :: cut).length := by
          rw [List.length_append]
          omega
        have later : tokensWithin fuel (place + (u :: cut).length) more = .ok list := ih (by omega)
        rw [List.cons_append] at taken here ⊢
        rw [tokensWithin_bare bare, taken]
        simp only [bind, Except.bind, here, later]

theorem tokens_iff : tokens t = .ok list ↔ LexedFrom 0 t list := tokensWithin_iff (Nat.le_refl _)

/-- There is fuel enough for every text. -/
theorem tokensWithin_not_exhausted {fuel : Nat} (enough : t.length ≤ fuel) :
    tokensWithin fuel place t ≠ .error .exhausted := by
  induction fuel generalizing place t with
  | zero =>
    obtain rfl : t = [] := List.eq_nil_of_length_eq_zero (by omega)
    simp [tokensWithin]
  | succ fuel ih =>
    cases t with
    | nil => simp [tokensWithin]
    | cons u rest =>
      rw [List.length_cons] at enough
      cases blank : isBlank u with
      | true =>
        rw [tokensWithin, if_pos blank]
        exact ih (by omega)
      | false =>
        rw [tokensWithin_bare blank]
        intro failed
        rcases bind_error_iff.mp failed with first | ⟨⟨kind, more⟩, taken, failed⟩
        · rcases takeToken_cases place u rest with ⟨_, _, _, taken, _⟩ | unended | stray
          · rw [taken] at first
            cases first
          · rw [unended] at first
            cases first
          · rw [stray] at first
            cases first
        · obtain ⟨cut, whole, lexeme⟩ := lexeme_of_takeToken taken
          have size := congrArg List.length whole
          rw [List.length_cons, List.length_append] at size
          have filled := List.length_pos_iff.mpr lexeme.visible.some
          rcases bind_error_iff.mp failed with later | ⟨others, _, last⟩
          · exact ih (by omega) later
          · cases last

theorem LexedFrom.places_ascend (lexed : LexedFrom place t list) :
    list.Pairwise (·.place < ·.place) ∧ ∀ token ∈ list, place ≤ token.place := by
  induction lexed with
  | stop place => simp
  | blank _ _ ih => exact ⟨ih.1, fun token member => (Nat.le_succ _).trans (ih.2 token member)⟩
  | @token place cut _ _ _ some _ _ ih =>
    obtain ⟨ordered, above⟩ := ih
    have filled := List.length_pos_iff.mpr some
    refine ⟨List.pairwise_cons.mpr ⟨fun token member => ?_, ordered⟩, ?_⟩
    · have behind := above token member
      dsimp only
      omega
    · refine List.forall_mem_cons.mpr ⟨Nat.le_refl _, fun token member => ?_⟩
      have behind := above token member
      omega

theorem LexedFrom.ends_with_stop (lexed : LexedFrom place t list) :
    ∃ body, list = body ++ [⟨.stop, place + t.length⟩] ∧ ∀ token ∈ body, token.kind ≠ .stop := by
  induction lexed with
  | stop place => exact ⟨[], rfl, by simp⟩
  | @blank place u rest _ _ _ ih =>
    obtain ⟨body, whole, none⟩ := ih
    have last : place + 1 + rest.length = place + (u :: rest).length := by
      rw [List.length_cons]
      omega
    exact ⟨body, last ▸ whole, none⟩
  | @token place cut more kind _ some taken _ ih =>
    obtain ⟨body, whole, none⟩ := ih
    obtain ⟨u, cut, rfl⟩ := List.exists_cons_of_ne_nil some
    have last : place + (u :: cut).length + more.length = place + (u :: cut ++ more).length := by
      rw [List.length_append]
      omega
    refine ⟨⟨kind, place⟩ :: body, by rw [whole, last]; rfl, ?_⟩
    exact List.forall_mem_cons.mpr ⟨(taken_of_takeToken taken).not_stop, none⟩

theorem LexedFrom.lexed (lexed : LexedFrom place t list) : Lexed t list := by
  induction lexed with
  | stop place => exact .stop place
  | blank blank _ ih => exact .blank blank ih
  | @token place cut _ _ _ some taken _ ih =>
    obtain ⟨u, cut, rfl⟩ := List.exists_cons_of_ne_nil some
    exact .token place (taken_of_takeToken taken) ih

theorem lexed_of_tokens (found : tokens t = .ok list) : Lexed t list :=
  (tokens_iff.mp found).lexed

end Cutting

end VirtualInstrument.Expression
