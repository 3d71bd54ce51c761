import VirtualInstrument.Proofs.Decimal.Whole
import VirtualInstrument.Proofs.Expression.Printer
import VirtualInstrument.Proofs.Text.Digits
import VirtualInstrument.Proofs.Text.Trim
/- Reading printed tokens. The spelling of a token, with a space or nothing behind it, is taken
   as that token, so the tokens of a printed tree are those it was printed from. The other way
   around, each token of a text is of one of five sorts, and the text is cut at its blanks and
   tokens. -/
namespace VirtualInstrument.Expression

open Text

/-- A literal whose number, if it is one, is a natural number that a double holds exactly. -/
def Literal.Natural : Literal → Prop
  | .number x => ∃ n : Nat, n < 2 ^ 53 ∧ x = Float.ofNat n
  | _ => True

structure IsName (name : Text) : Prop where
  start : ∃ u rest, name = u :: rest ∧ isNameStart u = true
  units : ∀ u ∈ name, isWordUnit u = true
  free : keywords.lookup name = none

inductive Written : TokenKind → Prop
  | literal {value : Literal} (natural : value.Natural) : Written (.literal value)
  | name {name : Text} (proper : IsName name) : Written (.name name)
  | symbol (symbol : Symbol) : Written (.symbol symbol)

def Behind (rest : Text) : Prop := rest = [] ∨ ∃ more, rest = unit ' ' :: more

theorem Behind.head_is_blank {rest : Text} (behind : Behind rest) : ∀ u ∈ rest.head?, u = unit ' ' := by
  rcases behind with rfl | ⟨more, rfl⟩
  · simp
  · simp

theorem takeWhile_behind {accepts : CodeUnit → Bool} {t rest : Text}
    (all : ∀ u ∈ t, accepts u = true) (behind : Behind rest) (stop : accepts (unit ' ') = false) :
    (t ++ rest).takeWhile accepts = t ∧ (t ++ rest).dropWhile accepts = rest :=
  takeWhile_stopped all fun u first => behind.head_is_blank u first ▸ stop

theorem takeString?_closed (quote : CodeUnit) (apart : quote ≠ unit '\\') (rest : Text) :
    takeString? quote (quote :: rest) = some ([], rest) := by
  cases rest with
  | nil => simp [takeString?]
  | cons v more => simp [takeString?, apart]

theorem takeString?_escaped (t rest : Text) :
    takeString? (unit '"') ((t.flatMap fun u =>
      if u = unit '"' ∨ u = unit '\\' then [unit '\\', u] else [u]) ++ unit '"' :: rest) =
        some (t, rest) := by
  induction t with
  | nil => exact takeString?_closed _ (by decide) rest
  | cons u t ih =>
    rw [List.flatMap_cons, List.append_assoc]
    by_cases special : u = unit '"' ∨ u = unit '\\'
    · have same : unescape u = u := by
        rcases special with rfl | rfl
        · decide
        · decide
      rw [if_pos special, List.cons_append, List.singleton_append, takeString?, if_pos rfl, ih]
      rw [Option.map_some, same]
    · rw [if_neg special, List.singleton_append]
      obtain ⟨notQuote, notEscape⟩ := not_or.mp special
      -- there is always a unit behind this one, if only the closing quote
      obtain ⟨v, more, behind⟩ : ∃ v more, (t.flatMap fun u =>
          if u = unit '"' ∨ u = unit '\\' then [unit '\\', u] else [u]) ++ unit '"' :: rest =
            v :: more := List.exists_cons_of_ne_nil (by simp)
      rw [behind] at ih ⊢
      rw [takeString?, if_neg notEscape, if_neg notQuote, ih, Option.map_some]

theorem takeToken_number {n : Nat} (small : n < 2 ^ 53) {rest : Text} (behind : Behind rest)
    (place : Nat) : takeToken place (Literal.spelling (.number (Float.ofNat n)) ++ rest) =
      .ok (.literal (.number (Float.ofNat n)), rest) := by
  obtain ⟨some, digits, value⟩ := ofNat_digits n
  have spelled : Literal.spelling (.number (Float.ofNat n)) = ofNat n := by
    simp only [Literal.spelling, wholeOf?_ofNat small]
  obtain ⟨taken, left⟩ := takeWhile_behind digits behind (by decide)
  have fraction : Decimal.takeFraction rest = (none, rest) := by
    rcases behind with rfl | ⟨more, rfl⟩
    · rfl
    · rfl
  have power : Decimal.takeExponent rest = (0, rest) := by
    rcases behind with rfl | ⟨more, rfl⟩
    · rfl
    · rfl
  have decimal : Decimal.takeDecimal (ofNat n ++ rest) = (Float.ofNat n, rest) := by
    simp only [Decimal.takeDecimal, taken, left, fraction, power, Option.getD_none,
      List.append_nil, value, List.length_nil]
    rw [← nearest_ofNat small]
    rfl
  rw [spelled]
  obtain ⟨u, more, whole⟩ := List.exists_cons_of_ne_nil some
  have digit : isDigit u = true := digits u (by simp [whole])
  rw [whole, List.cons_append] at decimal ⊢
  simp only [takeToken, digit, if_true, decimal]

theorem isNameStart_apart {u : CodeUnit} (start : isNameStart u = true) :
    isDigit u = false ∧ ¬ (u = unit '"' ∨ u = unit '\'') := by
  have underscore : u = unit '_' ↔ u.toNat = 95 := UInt16.toNat_inj.symm
  have double : u = unit '"' ↔ u.toNat = 34 := UInt16.toNat_inj.symm
  have single : u = unit '\'' ↔ u.toNat = 39 := UInt16.toNat_inj.symm
  rw [isNameStart, Bool.or_eq_true, isLetter_iff, beq_iff_eq, underscore] at start
  rw [← Bool.not_eq_true, isDigit_iff, double, single]
  omega

theorem takeToken_name {name : Text} (proper : IsName name) {rest : Text} (behind : Behind rest)
    (place : Nat) : takeToken place (name ++ rest) = .ok (.name name, rest) := by
  obtain ⟨⟨u, more, rfl, start⟩, units, free⟩ := proper
  obtain ⟨taken, left⟩ := takeWhile_behind units behind (by decide)
  obtain ⟨notDigit, notQuote⟩ := isNameStart_apart start
  rw [List.cons_append] at taken left ⊢
  simp only [takeToken, notDigit, if_neg notQuote, start, if_true, taken, left, free,
    Option.getD_none]
  rfl

theorem takeToken_string (t : Text) (rest : Text) (place : Nat) :
    takeToken place (quoted t ++ rest) = .ok (.literal (.string t), rest) := by
  have notDigit : isDigit (unit '"') = false := by decide
  rw [quoted, List.cons_append, List.cons_append, List.append_assoc, List.singleton_append]
  simp only [takeToken, notDigit, takeString?_escaped]
  rfl

theorem takeToken_spelling {kind : TokenKind} (written : Written kind) {rest : Text}
    (behind : Behind rest) (place : Nat) :
    takeToken place (kind.spelling ++ rest) = .ok (kind, rest) := by
  cases written with
  | name proper => exact takeToken_name proper behind place
  | symbol symbol =>
    rcases behind with rfl | ⟨more, rfl⟩
    · rw [List.append_nil]
      cases symbol with
      | _ => rfl
    · cases symbol with
      | _ => rfl
  | literal natural =>
    rename_i value
    cases value with
    | null =>
      rcases behind with rfl | ⟨more, rfl⟩
      · rfl
      · rfl
    | boolean b =>
      rcases behind with rfl | ⟨more, rfl⟩
      · cases b with
        | _ => rfl
      · cases b with
        | _ => rfl
    | number x =>
      obtain ⟨n, small, rfl⟩ := natural
      exact takeToken_number small behind place
    | string t => exact takeToken_string t rest place

structure Visible (t : Text) : Prop where
  some : t ≠ []
  first : ∀ u ∈ t.head?, isBlank u = false
  last : ∀ u ∈ t.getLast?, isBlank u = false

theorem visible_of_forall {t : Text} (some : t ≠ []) (all : ∀ u ∈ t, isBlank u = false) :
    Visible t :=
  ⟨some, fun u member => all u (List.mem_of_head? member),
    fun u member => all u (List.mem_of_getLast? member)⟩

theorem visible_of_all {t : Text} (some : t ≠ []) (all : t.all (fun u => !isBlank u) = true) :
    Visible t := by
  refine visible_of_forall some ?_
  intro u member
  simpa using List.all_eq_true.mp all u member

theorem visible_spelling {kind : TokenKind} (written : Written kind) : Visible kind.spelling := by
  cases written with
  | name proper =>
    obtain ⟨⟨u, more, rfl, start⟩, units, free⟩ := proper
    refine visible_of_forall (List.cons_ne_nil u more) ?_
    intro v member
    exact isBlank_of_word (units v member)
  | symbol symbol =>
    apply visible_of_all
    · cases symbol with
      | _ => decide
    · cases symbol with
      | _ => decide
  | literal natural =>
    rename_i value
    cases value with
    | null => exact visible_of_all (by decide) (by decide)
    | boolean b =>
      cases b with
      | _ => exact visible_of_all (by decide) (by decide)
    | number x =>
      obtain ⟨n, small, rfl⟩ := natural
      obtain ⟨some, digits, -⟩ := ofNat_digits n
      simp only [TokenKind.spelling, Literal.spelling, wholeOf?_ofNat small]
      refine visible_of_forall some ?_
      intro u member
      exact isBlank_of_word (by simp [isWordUnit, digits u member])
    | string t =>
      have quote : isBlank (unit '"') = false := by decide
      have spelled : TokenKind.spelling (.literal (.string t)) = quoted t := rfl
      rw [spelled, quoted]
      refine ⟨by simp, ?_, ?_⟩
      · simp [quote]
      · simp [quote, List.getLast?_cons]

theorem spaced_single (kind : TokenKind) : spaced [kind] = kind.spelling := by
  simp [spaced, join]

theorem spaced_cons (kind next : TokenKind) (rest : List TokenKind) :
    spaced (kind :: next :: rest) = kind.spelling ++ unit ' ' :: spaced (next :: rest) := by
  simp [spaced, join, List.intercalate]
  rfl

theorem visible_spaced {kinds : List TokenKind} (some : kinds ≠ [])
    (written : ∀ kind ∈ kinds, Written kind) : Visible (spaced kinds) := by
  induction kinds with
  | nil => exact absurd rfl some
  | cons kind rest ih =>
    obtain ⟨here, later⟩ := List.forall_mem_cons.mp written
    have visible := visible_spelling here
    cases rest with
    | nil =>
      rw [spaced_single]
      exact visible
    | cons next rest =>
      have further := ih (List.cons_ne_nil next rest) later
      obtain ⟨u, more, whole⟩ := List.exists_cons_of_ne_nil visible.some
      obtain ⟨v, others, tail⟩ := List.exists_cons_of_ne_nil further.some
      have first := visible.first
      have last := further.last
      rw [whole] at first
      rw [tail] at last
      rw [spaced_cons, whole, tail]
      refine ⟨by simp, first, ?_⟩
      rw [List.getLast?_append_of_ne_nil _ (by simp), List.getLast?_cons_cons]
      exact last

theorem tokensWithin_token {kind : TokenKind} (written : Written kind) {rest : Text}
    (behind : Behind rest) {fuel : Nat} (place : Nat) (enough : (kind.spelling ++ rest).length ≤ fuel) :
    ∃ less next, rest.length ≤ less ∧ tokensWithin fuel place (kind.spelling ++ rest) =
      (tokensWithin less next rest).map (⟨kind, place⟩ :: ·) := by
  have visible := visible_spelling written
  have taken := takeToken_spelling written behind place
  obtain ⟨u, more, whole⟩ := List.exists_cons_of_ne_nil visible.some
  have bare := visible.first u (by simp [whole])
  rw [whole, List.cons_append] at taken enough ⊢
  cases fuel with
  | zero => simp at enough
  | succ fuel =>
    rw [List.length_cons, List.length_append] at enough
    refine ⟨fuel, place + ((u :: (more ++ rest)).length - rest.length), by omega, ?_⟩
    rw [tokensWithin, bare]
    simp only [Bool.false_eq_true, if_false, taken]
    rfl

theorem tokensWithin_spaced {kinds : List TokenKind} (some : kinds ≠ [])
    (written : ∀ kind ∈ kinds, Written kind) {fuel : Nat} (place : Nat)
    (enough : (spaced kinds).length ≤ fuel) :
    ∃ list, tokensWithin fuel place (spaced kinds) = .ok list ∧
      list.map Token.kind = kinds ++ [.stop] := by
  induction kinds generalizing fuel place with
  | nil => exact absurd rfl some
  | cons kind rest ih =>
    obtain ⟨here, later⟩ := List.forall_mem_cons.mp written
    cases rest with
    | nil =>
      rw [spaced_single, ← List.append_nil kind.spelling] at enough ⊢
      obtain ⟨less, next, _, read⟩ := tokensWithin_token here (.inl rfl) place enough
      have stop : tokensWithin less next [] = .ok [⟨.stop, next⟩] := by
        cases less with
        | _ => rfl
      exact ⟨[⟨kind, place⟩, ⟨.stop, next⟩], by rw [read, stop]; rfl, rfl⟩
    | cons second rest =>
      rw [spaced_cons] at enough ⊢
      obtain ⟨less, next, left, read⟩ :=
        tokensWithin_token here (.inr ⟨_, rfl⟩) place enough
      cases less with
      | zero => simp at left
      | succ less =>
        have blank : isBlank (unit ' ') = true := by decide
        rw [List.length_cons] at left
        obtain ⟨list, others, kinds⟩ :=
          ih (List.cons_ne_nil second rest) later (next + 1) (Nat.le_of_succ_le_succ left)
        refine ⟨⟨kind, place⟩ :: list, ?_, by simp [kinds]⟩
        rw [read, tokensWithin.eq_3, if_pos blank, others]
        rfl

/-- The tokens of a printed list of tokens. -/
theorem tokens_spaced {kinds : List TokenKind} (some : kinds ≠ [])
    (written : ∀ kind ∈ kinds, Written kind) :
    trim (spaced kinds) = spaced kinds ∧ spaced kinds ≠ [] ∧
      ∃ list, tokens (spaced kinds) = .ok list ∧ list.map Token.kind = kinds ++ [.stop] := by
  have visible := visible_spaced some written
  refine ⟨(trim_eq_self_iff _).mpr ⟨visible.first, visible.last⟩, visible.some, ?_⟩
  exact tokensWithin_spaced some written 0 (Nat.le_refl _)

section Cut
variable {kind : TokenKind} {u : CodeUnit} {rest more : Text}

inductive Taken (u : CodeUnit) (rest : Text) : TokenKind → Text → Prop
  | number : Taken u rest (.literal (.number (Decimal.takeDecimal (u :: rest)).1))
      (Decimal.takeDecimal (u :: rest)).2
  | string {body more : Text} (quote : u = unit '"' ∨ u = unit '\'')
      (found : takeString? u rest = some (body, more)) :
      Taken u rest (.literal (.string body)) more
  | keyword {kind : TokenKind} (listed : kind ∈ keywords.map Prod.snd) :
      Taken u rest kind ((u :: rest).dropWhile isWordUnit)
  | name (proper : IsName ((u :: rest).takeWhile isWordUnit)) :
      Taken u rest (.name ((u :: rest).takeWhile isWordUnit)) ((u :: rest).dropWhile isWordUnit)
  | symbol {spelling more : Text} {symbol : Symbol} (listed : (spelling, symbol) ∈ symbols)
      (cut : u :: rest = spelling ++ more) : Taken u rest (.symbol symbol) more

theorem isName_takeWhile (start : isNameStart u = true)
    (free : keywords.lookup ((u :: rest).takeWhile isWordUnit) = none) :
    IsName ((u :: rest).takeWhile isWordUnit) := by
  have word : isWordUnit u = true := by
    rw [isNameStart, Bool.or_eq_true] at start
    rcases start with letter | underscore
    · simp [isWordUnit, letter]
    · rw [beq_iff_eq] at underscore
      subst underscore
      decide
  refine ⟨⟨u, rest.takeWhile isWordUnit, List.takeWhile_cons_of_pos word, start⟩, ?_, free⟩
  intro v member
  exact List.mem_takeWhile_imp member

theorem taken_of_takeToken {place : Nat} (found : takeToken place (u :: rest) = .ok (kind, more)) :
    Taken u rest kind more := by
  rw [takeToken] at found
  split at found
  · cases found
    exact .number
  · split at found
    · rename_i quote
      split at found
      · rename_i body after string
        cases found
        exact .string quote string
      · cases found
    · split at found
      · rename_i start
        dsimp only at found
        cases meaning : keywords.lookup ((u :: rest).takeWhile isWordUnit) with
        | some keyword =>
          rw [meaning] at found
          cases found
          obtain ⟨before, after, listed, _⟩ := List.lookup_eq_some_iff.mp meaning
          exact .keyword (by simp [listed])
        | none =>
          rw [meaning] at found
          cases found
          exact .name (isName_takeWhile start meaning)
      · split at found
        · rename_i pair first
          cases found
          obtain ⟨⟨spelling, symbol⟩, listed, same⟩ := List.exists_of_findSome?_eq_some first
          obtain ⟨after, cut, pairs⟩ := Option.map_eq_some_iff.mp same
          cases pairs
          refine .symbol listed ?_
          rw [after?] at cut
          split at cut
          · rename_i prefixed
            cases cut
            exact (List.prefix_iff_eq_append.mp (List.isPrefixOf_iff_prefix.mp prefixed)).symm
          · cases cut
        · cases found

theorem Taken.not_stop (taken : Taken u rest kind more) : kind ≠ .stop := by
  cases taken with
  | keyword listed =>
    rintro rfl
    simp [keywords] at listed
  | _ => exact TokenKind.noConfusion

theorem Taken.isName {name : Text} (taken : Taken u rest (.name name) more) : IsName name := by
  cases taken with
  | keyword listed => simp [keywords] at listed
  | name proper => exact proper

inductive Lexed : Text → List Token → Prop
  | stop (place : Nat) : Lexed [] [⟨.stop, place⟩]
  | blank {u : CodeUnit} {rest : Text} {list : List Token} (blank : isBlank u = true)
      (later : Lexed rest list) : Lexed (u :: rest) list
  | token {u : CodeUnit} {rest more : Text} {kind : TokenKind} {list : List Token} (place : Nat)
      (taken : Taken u rest kind more) (later : Lexed more list) :
      Lexed (u :: rest) (⟨kind, place⟩ :: list)

end Cut

end VirtualInstrument.Expression
