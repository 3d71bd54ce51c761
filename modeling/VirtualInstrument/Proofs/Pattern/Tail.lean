import VirtualInstrument.Proofs.Pattern.Brackets
/- Reading a text in front of the end of an anchored pattern. A closing round bracket ends whatever
   is read before it, except behind a backslash; so a text is cut into the same tokens there as by
   itself. -/
namespace VirtualInstrument.Pattern

open Text

def tail : Text := [unit ')', unit '$']

/-- What is taken from a text, when the end of an anchored pattern follows it. -/
def followed {α : Type} (taken : α × Text) : α × Text := (taken.1, taken.2 ++ tail)

section Pieces
variable {p : CodeUnit → Bool}

theorem takeWhile_tail (refused : p (unit ')') = false) (t : Text) :
    (t ++ tail).takeWhile p = t.takeWhile p := by
  induction t with
  | nil => exact List.takeWhile_cons_of_neg (by simp [refused])
  | cons u rest ih => simp only [List.cons_append, List.takeWhile_cons, ih]

theorem dropWhile_tail (refused : p (unit ')') = false) (t : Text) :
    (t ++ tail).dropWhile p = t.dropWhile p ++ tail := by
  induction t with
  | nil => exact List.dropWhile_cons_of_neg (by simp [refused])
  | cons u rest ih =>
    simp only [List.cons_append, List.dropWhile_cons, ih]
    split
    · rfl
    · rfl

theorem takeWhile_take_tail (refused : p (unit ')') = false) (count : Nat) (t : Text) :
    ((t ++ tail).take count).takeWhile p = (t.take count).takeWhile p := by
  induction t generalizing count with
  | nil =>
    cases count with
    | zero => rfl
    | succ count => exact List.takeWhile_cons_of_neg (by simp [refused])
  | cons u rest ih =>
    cases count with
    | zero => rfl
    | succ count => simp only [List.cons_append, List.take_succ_cons, List.takeWhile_cons, ih]

end Pieces

theorem after?_cons (u v : CodeUnit) (start t : Text) :
    after? (u :: start) (v :: t) = if u = v then after? start t else none := by
  by_cases same : u = v
  · simp [after?, same]
  · simp [after?, same]

theorem after?_tail {start : Text} (apart : unit ')' ∉ start) (t : Text) :
    after? start (t ++ tail) = (after? start t).map (· ++ tail) := by
  induction start generalizing t with
  | nil => simp [after?]
  | cons u start ih =>
    obtain ⟨first, others⟩ := not_or.mp (List.mem_cons.not.mp apart)
    cases t with
    | nil =>
      have other : u ≠ unit ')' := Ne.symm first
      rw [List.nil_append, tail, after?_cons, if_neg other]
      rfl
    | cons v t =>
      rw [List.cons_append, after?_cons, after?_cons, ih others]
      split
      · rfl
      · rfl

theorem takeOctal_tail (u : CodeUnit) (rest : Text) :
    takeOctal (u :: rest ++ tail) = followed (takeOctal (u :: rest)) := by
  have same (count : Nat) : ((u :: rest ++ tail).take count).takeWhile isOctal =
      ((u :: rest).take count).takeWhile isOctal := takeWhile_take_tail (by decide) count _
  have short (count : Nat) :
      (((u :: rest).take count).takeWhile isOctal).length ≤ (u :: rest).length := by
    have inside := (List.takeWhile_prefix isOctal (l := (u :: rest).take count)).length_le
    have bound := List.length_take_le' count (u :: rest)
    omega
  have left (count : Nat) :
      (u :: rest ++ tail).drop (((u :: rest).take count).takeWhile isOctal).length =
        (u :: rest).drop (((u :: rest).take count).takeWhile isOctal).length ++ tail :=
    List.drop_append_of_le_length (short count)
  simp only [List.cons_append] at same left
  simp only [takeOctal, followed, List.cons_append, same, left]

theorem mapM_hexValue?_tail (digits : Text) (count : Nat) (positive : 0 < count) :
    (digits ++ tail.take count).mapM hexValue? = none := by
  obtain ⟨count, rfl⟩ : ∃ n, count = n + 1 := ⟨count - 1, by omega⟩
  induction digits with
  | nil => rfl
  | cons u digits ih =>
    rw [List.cons_append, List.mapM_cons, ih]
    cases hexValue? u with
    | none => rfl
    | some value => rfl

theorem takeHex?_tail (count : Nat) (t : Text) :
    takeHex? count (t ++ tail) = (takeHex? count t).map followed := by
  by_cases enough : count ≤ t.length
  · simp only [takeHex?, List.take_append_of_le_length enough,
      List.drop_append_of_le_length enough]
    split
    · rfl
    · rw [Option.map_map]
      rfl
  · have whole : t.take count = t := List.take_of_length_le (by omega)
    have more : (t ++ tail).take count = t ++ tail.take (count - t.length) := by
      rw [List.take_append, whole]
    have missing : (t ++ tail.take (count - t.length)).mapM hexValue? = none :=
      mapM_hexValue?_tail t _ (by omega)
    have few : t.length < count := by omega
    simp only [takeHex?, whole, more, missing, few, if_true, Option.map_none, ite_self]

theorem takeEscapedUnit_tail (scope : Scope) (inSet : Bool) (u : CodeUnit) (rest : Text) :
    takeEscapedUnit scope inSet (u :: rest ++ tail) =
      (takeEscapedUnit scope inSet (u :: rest)).map followed := by
  rw [List.cons_append, takeEscapedUnit.eq_def, takeEscapedUnit.eq_def]
  dsimp only
  split
  · exact congrArg some (takeOctal_tail u rest)
  · split
    · cases rest with
      | nil =>
        show (if isLetter (unit ')') || (inSet && isWordUnit (unit ')')) then _ else _) = _
        have letter : isLetter (unit ')') = false := by decide
        have word : isWordUnit (unit ')') = false := by decide
        rw [letter, word, Bool.and_false, Bool.false_or, if_neg Bool.false_ne_true]
        rfl
      | cons v more =>
        simp only [List.cons_append]
        split
        · rfl
        · rfl
    · rw [takeHex?_tail]
      cases takeHex? 2 rest with
      | none => rfl
      | some taken => rfl
    · rw [takeHex?_tail]
      cases takeHex? 4 rest with
      | none => rfl
      | some taken => rfl
    · split
      · rfl
      · rfl
    · rfl

theorem takeName?_tail (t : Text) : takeName? (t ++ tail) = (takeName? t).map followed := by
  have whole := t.takeWhile_append_dropWhile (p := fun u => decide (u ≠ unit '>'))
  unfold takeName?
  rw [List.dropWhile_append, List.takeWhile_append]
  cases left : t.dropWhile (· ≠ unit '>') with
  | nil => rfl
  | cons closing rest =>
    have short : (t.takeWhile (· ≠ unit '>')).length ≠ t.length := by
      rw [left] at whole
      have lengths := congrArg List.length whole
      rw [List.length_append, List.length_cons] at lengths
      omega
    rw [if_neg short, if_neg (by simp), after?_tail (by decide)]
    cases after? (text ">") (closing :: rest) with
    | none => rfl
    | some more =>
      simp only [Option.map_some, Option.bind_eq_bind, Option.bind_some]
      cases namePoints? (t.takeWhile (· ≠ unit '>')).length (t.takeWhile (· ≠ unit '>')) with
      | none => rfl
      | some found =>
        simp only [Option.bind_some]
        split
        · rfl
        · rfl

theorem takeNamedReference?_tail (scope : Scope) (t : Text) :
    takeNamedReference? scope (t ++ tail) = (takeNamedReference? scope t).map followed := by
  unfold takeNamedReference?
  rw [after?_tail (by decide)]
  cases after? (text "<") t with
  | none => rfl
  | some body =>
    simp only [Option.map_some, Option.bind_eq_bind, Option.bind_some, takeName?_tail]
    cases takeName? body with
    | none => rfl
    | some taken =>
      simp only [Option.map_some, Option.bind_some, followed]
      cases scope.names.findIdx? (· == some taken.1) with
      | none => rfl
      | some index => rfl

theorem takeEscape_tail (scope : Scope) (u : CodeUnit) (rest : Text) :
    takeEscape scope (u :: rest ++ tail) = (takeEscape scope (u :: rest)).map followed := by
  have digits : (u :: rest ++ tail).takeWhile isDigit = (u :: rest).takeWhile isDigit :=
    takeWhile_tail (by decide) _
  have left : (u :: rest ++ tail).dropWhile isDigit = (u :: rest).dropWhile isDigit ++ tail :=
    dropWhile_tail (by decide) _
  have unit := takeEscapedUnit_tail scope false u rest
  simp only [List.cons_append] at digits left unit
  simp only [List.cons_append, takeEscape, digits, left, unit, takeNamedReference?_tail]
  split
  · rfl
  · split
    · rfl
    · split
      · rfl
      · split
        · rfl
        · cases setLetter? u with
          | some item => rfl
          | none =>
            cases takeEscapedUnit scope false (u :: rest) with
            | none => rfl
            | some taken => rfl

/-! Sets -/

theorem takeMember_tail (scope : Scope) {t : Text} (filled : t ≠ []) (whole : t ≠ [unit '\\']) :
    takeMember scope (t ++ tail) = (takeMember scope t).map followed := by
  obtain ⟨u, rest, rfl⟩ := List.exists_cons_of_ne_nil filled
  rw [List.cons_append, takeMember.eq_def, takeMember.eq_def]
  dsimp only
  by_cases plain : u ≠ unit '\\'
  · rw [if_pos plain, if_pos plain]
    rfl
  · have slash : u = unit '\\' := not_not.mp plain
    obtain ⟨v, more, rfl⟩ : ∃ v more, rest = v :: more := by
      refine List.exists_cons_of_ne_nil ?_
      intro empty
      exact whole (by rw [slash, empty])
    rw [if_neg plain, if_neg plain]
    have unit := takeEscapedUnit_tail scope true v more
    simp only [List.cons_append] at unit
    simp only [List.cons_append, unit]
    cases setLetter? v with
    | some item => rfl
    | none =>
      simp only
      split
      · rfl
      · cases takeEscapedUnit scope true (v :: more) with
        | none => rfl
        | some taken => rfl

theorem takeMembers_nil (scope : Scope) (fuel : Nat) : takeMembers scope fuel [] = none := by
  cases fuel with
  | zero => rfl
  | succ fuel => rfl

theorem takeMembers_single (scope : Scope) (fuel : Nat) {u : CodeUnit}
    (other : u ≠ unit ']') : takeMembers scope fuel [u] = none := by
  cases fuel with
  | zero => rfl
  | succ fuel =>
    rw [takeMembers_succ, if_neg other]
    cases member : takeMember scope [u] with
    | none => rfl
    | some low =>
      have shorter := (takeMember_passes 0 other member).2
      have left : low.2 = [] := List.length_eq_zero_iff.mp (Nat.le_zero.mp shorter)
      rw [Option.bind_some, left, membersBehind_single _ _ _ (by simp), takeMembers_nil]
      rfl

theorem takeMembers_only_tail (scope : Scope) (fuel : Nat) : takeMembers scope fuel tail = none := by
  cases fuel with
  | zero => rfl
  | succ fuel =>
    have member : takeMember scope tail = some (.span (unit ')') (unit ')'), [unit '$']) := rfl
    rw [tail] at member ⊢
    rw [takeMembers_succ, if_neg (by decide), member, Option.bind_some,
      membersBehind_single _ _ _ (by simp; decide), takeMembers_single _ _ (by decide)]
    rfl

theorem takeMember_slash (scope : Scope) :
    takeMember scope (unit '\\' :: tail) = some (.span (unit ')') (unit ')'), [unit '$']) := rfl

theorem takeMember_bind_tail {α : Type} (scope : Scope) {t : Text} (filled : t ≠ [])
    {onward within : SetItem × Text → Option (α × Text)}
    (same : ∀ taken, takeMember scope t = some taken →
      onward (followed taken) = (within taken).map followed)
    (stops : ∀ item, onward (item, [unit '$']) = none) :
    (takeMember scope (t ++ tail)).bind onward = ((takeMember scope t).bind within).map followed := by
  by_cases slash : t = [unit '\\']
  · rw [slash, List.singleton_append, takeMember_slash, Option.bind_some, stops]
    rfl
  · rw [takeMember_tail scope filled slash]
    cases taken : takeMember scope t with
    | none => rfl
    | some pair => exact same pair taken

theorem membersBehind_tail (scope : Scope) (fuel : Nat) (low : SetItem) {t : Text}
    (later : ∀ more : Text, more.length ≤ t.length →
      takeMembers scope (fuel + 2) (more ++ tail) = (takeMembers scope fuel more).map followed) :
    membersBehind scope (fuel + 2) low (t ++ tail) =
      (membersBehind scope fuel low t).map followed := by
  have dollar : takeMembers scope (fuel + 2) [unit '$'] = none :=
    takeMembers_single scope _ (by decide)
  by_cases hyphened : ∃ more, t = unit '-' :: more
  · obtain ⟨more, rfl⟩ := hyphened
    cases more with
    | nil =>
      have ends : membersBehind scope (fuel + 2) low (unit '-' :: tail) = none := by
        have member : takeMember scope tail = some (.span (unit ')') (unit ')'), [unit '$']) := rfl
        rw [tail] at member ⊢
        have other : unit ')' ≠ unit ']' := by decide
        simp only [membersBehind, ne_eq, not_true_eq_false, if_false, if_neg other, member,
          Option.bind_some, dollar, Option.map_none]
        cases spanOf? low (.span (unit ')') (unit ')')) with
        | none => rfl
        | some span => rfl
      have alone : membersBehind scope fuel low [unit '-'] =
          (takeMembers scope fuel [unit '-']).map fun taken => (low :: taken.1, taken.2) := rfl
      rw [List.singleton_append, ends, alone, takeMembers_single scope _ (by decide)]
      rfl
    | cons next more =>
      simp only [List.cons_append, membersBehind, ne_eq, not_true_eq_false, if_false]
      split
      · rfl
      · rename_i inside
        rw [← List.cons_append]
        refine takeMember_bind_tail scope (List.cons_ne_nil _ _) ?_ ?_
        · intro high member
          have shorter := (takeMember_passes 0 inside member).2
          have rest := later high.2 (by simp; omega)
          simp only [followed, rest, Option.map_map]
          cases spanOf? low high.1 with
          | none => rfl
          | some span =>
            simp only [Option.bind_some, Option.map_map]
            rfl
        · intro item
          rw [dollar]
          cases spanOf? low item with
          | none => rfl
          | some span => rfl
  · have plain : ∀ more, t ≠ unit '-' :: more := fun more same => hyphened ⟨more, same⟩
    have plain' : ∀ more, t ++ tail ≠ unit '-' :: more := by
      intro more same
      cases t with
      | nil =>
        have first : unit ')' = unit '-' := (List.cons.inj same).1
        exact absurd first (by decide)
      | cons u rest => exact plain rest (by rw [(List.cons.inj same).1])
    rw [membersBehind_single _ _ _ plain, membersBehind_single _ _ _ plain', later t (Nat.le_refl _),
      Option.map_map, Option.map_map]
    rfl

theorem takeMembers_tail (scope : Scope) (fuel : Nat) {t : Text} (enough : t.length < fuel) :
    takeMembers scope (fuel + 2) (t ++ tail) = (takeMembers scope fuel t).map followed := by
  induction fuel generalizing t with
  | zero => omega
  | succ fuel ih =>
    cases t with
    | nil =>
      rw [List.nil_append, takeMembers_only_tail, takeMembers_nil]
      rfl
    | cons u rest =>
      rw [List.cons_append, takeMembers_succ, takeMembers_succ, ← List.cons_append]
      split
      · rfl
      · rename_i open'
        refine takeMember_bind_tail scope (List.cons_ne_nil _ _) ?_ ?_
        · intro low member
          have shorter := (takeMember_passes 0 open' member).2
          refine membersBehind_tail scope fuel low.1 ?_
          intro more fewer
          exact ih (by simp at enough; omega)
        · intro item
          rw [membersBehind_single _ _ _ (by simp; decide), takeMembers_single scope _ (by decide)]
          rfl

theorem takeSet_tail (scope : Scope) (t : Text) :
    takeSet scope (t ++ tail) = (takeSet scope t).map followed := by
  have members (negated : Bool) (body : Text) :
      ((takeMembers scope ((body ++ tail).length + 1) (body ++ tail)).map fun taken =>
          (Token.part (.oneOf ⟨negated, taken.1⟩), taken.2)) =
        ((takeMembers scope (body.length + 1) body).map fun taken =>
          (Token.part (.oneOf ⟨negated, taken.1⟩), taken.2)).map followed := by
    have longer : (body ++ tail).length + 1 = body.length + 1 + 2 := by
      rw [List.length_append]
      rfl
    rw [longer, takeMembers_tail scope _ (Nat.lt_succ_self _), Option.map_map, Option.map_map]
    rfl
  unfold takeSet
  rw [after?_tail (by decide)]
  cases after? (text "^") t with
  | none => exact members false t
  | some body => exact members true body

/-! Tokens -/

theorem takeBounds?_tail (t : Text) : takeBounds? (t ++ tail) =
    (takeBounds? t).map fun taken => (taken.1, taken.2.1, taken.2.2 ++ tail) := by
  have digits (t : Text) : (t ++ tail).takeWhile isDigit = t.takeWhile isDigit :=
    takeWhile_tail (by decide) t
  have left (t : Text) : (t ++ tail).dropWhile isDigit = t.dropWhile isDigit ++ tail :=
    dropWhile_tail (by decide) t
  simp only [takeBounds?, digits, left]
  split
  · rfl
  · cases t.dropWhile isDigit with
    | nil => rfl
    | cons u rest =>
      by_cases closes : u = 125
      · rw [closes]
        rfl
      · by_cases comma : u = 44
        · rw [comma, List.cons_append]
          simp only [digits, left]
          cases rest.dropWhile isDigit with
          | nil => rfl
          | cons v more =>
            by_cases last : v = 125
            · rw [last]
              rfl
            · simp [last]
        · simp [closes, comma]

theorem repetition_tail (least : Nat) (most : Option Nat) (t : Text) :
    repetition least most (t ++ tail) = (repetition least most t).map followed := by
  have mark : after? (text "?") (t ++ tail) = (after? (text "?") t).map (· ++ tail) :=
    after?_tail (by decide) t
  unfold repetition
  rw [mark]
  dsimp only
  cases after? (text "?") t with
  | none =>
    rw [apply_ite (Option.map followed)]
    rfl
  | some rest =>
    rw [apply_ite (Option.map followed)]
    rfl

theorem takeGroup_tail (t : Text) : takeGroup (t ++ tail) = (takeGroup t).map followed := by
  have mark (start : Text) (apart : unit ')' ∉ start) (t : Text) :=
    after?_tail apart t
  unfold takeGroup
  rw [mark (text "?") (by decide)]
  cases after? (text "?") t with
  | none => rfl
  | some body =>
    simp only [Option.map_some, mark (text ":") (by decide), mark (text "=") (by decide),
      mark (text "!") (by decide), mark (text "<=") (by decide), mark (text "<!") (by decide),
      mark (text "<") (by decide)]
    cases after? (text ":") body with
    | some rest => rfl
    | none =>
    cases after? (text "=") body with
    | some rest => rfl
    | none =>
    cases after? (text "!") body with
    | some rest => rfl
    | none =>
    cases after? (text "<=") body with
    | some rest => rfl
    | none =>
    cases after? (text "<!") body with
    | some rest => rfl
    | none =>
    cases after? (text "<") body with
    | none => rfl
    | some rest =>
      simp only [Option.map_none, Option.map_some, takeName?_tail, Option.map_map]
      rfl

/-- A text that is not a lone backslash gives the same first token in front of the end of an
    anchored pattern. -/
theorem takeToken_tail (scope : Scope) {t : Text} (filled : t ≠ []) (whole : t ≠ [unit '\\']) :
    takeToken scope (t ++ tail) = (takeToken scope t).map followed := by
  obtain ⟨u, rest, rfl⟩ := List.exists_cons_of_ne_nil filled
  rw [List.cons_append, takeToken.eq_def, takeToken.eq_def]
  dsimp only
  split
  · rfl
  · rfl
  · rfl
  · rfl
  · exact takeGroup_tail rest
  · rfl
  · exact repetition_tail 0 none rest
  · exact repetition_tail 1 none rest
  · exact repetition_tail 0 (some 1) rest
  · rw [takeBounds?_tail]
    cases takeBounds? rest with
    | none => rfl
    | some taken => exact repetition_tail taken.1 taken.2.1 taken.2.2
  · exact takeSet_tail scope rest
  · rename_i shown
    have slash : u = unit '\\' := eq_unit_of_glyph shown (by decide)
    obtain ⟨v, more, rfl⟩ : ∃ v more, rest = v :: more := by
      refine List.exists_cons_of_ne_nil ?_
      intro empty
      exact whole (by rw [slash, empty])
    exact takeEscape_tail scope v more
  · rfl

def tailTokens : List Token := [.closes, .place .stop]

theorem tokensWithin_only_tail (scope : Scope) (fuel : Nat) :
    tokensWithin scope (fuel + 2) tail = some tailTokens := by
  cases fuel <;> rfl

theorem takeToken_slash (scope : Scope) :
    takeToken scope (unit '\\' :: tail) = some (.part (.unit (unit ')')), [unit '$']) := rfl

theorem tokensWithin_dollar (scope : Scope) (fuel : Nat) :
    tokensWithin scope (fuel + 1) [unit '$'] = some [.place .stop] := by
  cases fuel <;> rfl

/-- What a text in front of the end of an anchored pattern is cut into: its own tokens and those of
    the end, unless the text ends behind a backslash, which takes the bracket. -/
inductive CutWithTail (scope : Scope) (t : Text) : Option (List Token) → Prop
  | whole (tokens : List Token) (own : tokens? scope t = some tokens) :
      CutWithTail scope t (some (tokens ++ tailTokens))
  | slashed (tokens : List Token)
      (scan : ∀ depth, scan? (free depth) t =
        (tokens.foldlM Token.depth? depth).map fun last => ⟨false, true, last⟩) :
      CutWithTail scope t (some (tokens ++ [.part (.unit (unit ')')), .place .stop]))
  | broken (missing : ∀ tokens, tokens? scope t ≠ some tokens) : CutWithTail scope t none

theorem tokens?_cons_iff {scope : Scope} {u : CodeUnit} {rest : Text} {tokens : List Token} :
    tokens? scope (u :: rest) = some tokens ↔
      ∃ token more others, takeToken scope (u :: rest) = some (token, more) ∧
        tokens? scope more = some others ∧ tokens = token :: others := by
  rw [tokens?, List.length_cons, tokensWithin_cons_iff]
  constructor
  · rintro ⟨token, more, others, first, later, rfl⟩
    have shorter := (takeToken_cut first).shorter
    rw [tokensWithin_enough (Nat.le_of_lt_succ shorter)] at later
    exact ⟨token, more, others, first, later, rfl⟩
  · rintro ⟨token, more, others, first, later, rfl⟩
    have shorter := (takeToken_cut first).shorter
    rw [← tokensWithin_enough (Nat.le_of_lt_succ shorter)] at later
    exact ⟨token, more, others, first, later, rfl⟩

theorem CutWithTail.cons {scope : Scope} {u : CodeUnit} {rest more : Text} {token : Token}
    {result : Option (List Token)} (first : takeToken scope (u :: rest) = some (token, more))
    (later : CutWithTail scope more result) :
    CutWithTail scope (u :: rest) (result.map (token :: ·)) := by
  cases later with
  | whole tokens own =>
    exact .whole (token :: tokens) (tokens?_cons_iff.mpr ⟨token, more, tokens, first, own, rfl⟩)
  | slashed tokens scan =>
    refine .slashed (token :: tokens) fun depth => ?_
    rw [(takeToken_cut first).scan depth, List.foldlM_cons]
    cases token.depth? depth with
    | none => rfl
    | some next => exact scan next
  | broken missing =>
    refine .broken ?_
    intro tokens taken
    obtain ⟨_, _, others, same, own, _⟩ := tokens?_cons_iff.mp taken
    rw [first] at same
    cases same
    exact missing others own

theorem tokensWithin_tail (scope : Scope) {fuel : Nat} {t : Text} (enough : t.length ≤ fuel) :
    CutWithTail scope t (tokensWithin scope (fuel + 2) (t ++ tail)) := by
  induction fuel generalizing t with
  | zero =>
    cases List.length_eq_zero_iff.mp (Nat.le_zero.mp enough)
    exact .whole [] rfl
  | succ fuel ih =>
    cases t with
    | nil =>
      rw [List.nil_append, tokensWithin_only_tail]
      exact .whole [] rfl
    | cons u rest =>
      by_cases slash : u :: rest = [unit '\\']
      · cases slash
        have tokens : tokensWithin scope (fuel + 1 + 2) (unit '\\' :: tail) =
            some [.part (.unit (unit ')')), .place .stop] := by
          rw [tokensWithin, takeToken_slash]
          simp only [Option.bind_eq_bind, Option.bind_some, tokensWithin_dollar]
        rw [List.singleton_append, tokens]
        exact .slashed [] fun depth => rfl
      · have taken := takeToken_tail scope (List.cons_ne_nil u rest) slash
        have unfolded : tokensWithin scope (fuel + 1 + 2) (u :: rest ++ tail) =
            (takeToken scope (u :: rest)).bind fun pair =>
              (tokensWithin scope (fuel + 2) (pair.2 ++ tail)).map (pair.1 :: ·) := by
          rw [List.cons_append] at taken ⊢
          rw [tokensWithin_cons, taken]
          cases takeToken scope (u :: rest) with
          | none => rfl
          | some pair => rfl
        rw [unfolded]
        cases first : takeToken scope (u :: rest) with
        | none =>
          refine .broken ?_
          intro tokens own
          obtain ⟨_, _, _, same, _⟩ := tokens?_cons_iff.mp own
          rw [first] at same
          cases same
        | some pair =>
          have shorter := (takeToken_cut first).shorter
          exact .cons first (ih (by simp at enough shorter; omega))

end VirtualInstrument.Pattern
