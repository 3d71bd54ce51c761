import VirtualInstrument.Expression.Reader
import VirtualInstrument.Proofs.Expression.Lexemes
/- The reader with a cursor. It goes through the tokens one by one, looks at the token at its cursor
   and notes each look; a look where there is no token ends it, and so does a loop without an end. It
   reads what the parsers of the levels read, and never looks past the mark of the end. -/
namespace VirtualInstrument.Expression

/-- A way through some tokens. How it goes on depends on the kinds of the tokens that it looks at. -/
inductive Scan (α : Type)
  | done (a : α)
  | fail (fault : SyntaxFault)
  /-- A fault at the place of the token at the cursor. -/
  | blame (fault : Nat → SyntaxFault)
  | look (next : TokenKind → Scan α)
  | advance (next : Scan α)

namespace Scan

variable {α β : Type}

def bind : Scan α → (α → Scan β) → Scan β
  | done a, next => next a
  | fail fault, _ => fail fault
  | blame fault, _ => blame fault
  | look scan, next => look fun kind => (scan kind).bind next
  | advance scan, next => advance (scan.bind next)

instance : Monad Scan where
  pure := done
  bind := bind

/-- What a scan does from a cursor on: the cursors at which it looks at a token, and how it ends. -/
def run (tokens : List Token) : Scan α → Nat → List Nat × Except SyntaxFault (α × Nat)
  | done a, cursor => ([], .ok (a, cursor))
  | fail fault, _ => ([], .error fault)
  | blame fault, cursor =>
    match tokens[cursor]? with
    | some token => ([cursor], .error (fault token.place))
    | none => ([cursor], .error .exhausted)
  | look next, cursor =>
    match tokens[cursor]? with
    | some token =>
      let (looks, outcome) := (next token.kind).run tokens cursor
      (cursor :: looks, outcome)
    | none => ([cursor], .error .exhausted)
  | advance next, cursor => next.run tokens (cursor + 1)

def expect (symbol : Symbol) : Scan Unit :=
  look fun kind => if kind = .symbol symbol then advance (done ()) else blame (.expected symbol)

def skip (symbol : Symbol) : Scan Bool :=
  look fun kind => if kind = .symbol symbol then advance (done true) else done false

def operator {ω : Type} (classify : Symbol → Option ω) : Scan (Option ω) :=
  look fun kind =>
    match kind with
    | .symbol symbol =>
      match classify symbol with
      | some operator => advance (done (some operator))
      | none => done none
    | _ => done none

section Loops

-- the rounds that a loop may take
variable (size : Nat)

def chainFrom {ω : Type} (classify : Symbol → Option ω) (build : ω → Tree → Tree → Tree)
    (operand : Scan Tree) : Nat → Tree → Scan Tree
  | 0, _ => fail .exhausted
  | rounds + 1, left => do
    match ← operator classify with
    | none => pure left
    | some operator => do
      let right ← operand
      chainFrom classify build operand rounds (build operator left right)

def chain {ω : Type} (classify : Symbol → Option ω) (build : ω → Tree → Tree → Tree)
    (operand : Scan Tree) : Scan Tree := do
  let first ← operand
  chainFrom classify build operand size first

def itemsFrom (expression : Scan Tree) (closing : Symbol) : Nat → Scan (List Tree)
  | 0 => fail .exhausted
  | rounds + 1 => do
    let item ← expression
    if ← skip .comma then do
      let items ← itemsFrom expression closing rounds
      pure (item :: items)
    else do
      expect closing
      pure [item]

def items (expression : Scan Tree) (closing : Symbol) : Scan (List Tree) := do
  if ← skip closing then pure [] else itemsFrom expression closing size

structure Level where
  expression : Scan Tree
  negation : Scan Tree
  signed : Scan Tree
  listItems : Scan (List Tree)

variable (inner : Level)

def primary : Scan Tree :=
  look fun kind =>
    match kind with
    | .literal value => advance (done (.literal value))
    | .name name => advance (done (.name name))
    | .symbol .openParen => advance do
      let tree ← inner.expression
      expect .closeParen
      pure tree
    | .symbol .openBracket => advance do
      let trees ← inner.listItems
      pure (.list trees)
    | .symbol symbol => blame (.unexpected symbol)
    | .stop => advance (fail .unexpectedEnd)

def propertyName : Scan Text :=
  look fun kind =>
    match kind with
    | .name name => advance (done name)
    | _ => blame .expectedName

def postfixFrom : Nat → Tree → Scan Tree
  | 0, _ => fail .exhausted
  | rounds + 1, tree => do
    if ← skip .dot then do
      let name ← propertyName
      postfixFrom rounds (.member tree name)
    else if ← skip .openBracket then do
      let place ← inner.expression
      expect .closeBracket
      postfixFrom rounds (.index tree place)
    else if ← skip .openParen then do
      let arguments ← items size inner.expression .closeParen
      postfixFrom rounds (.call tree arguments)
    else pure tree

def postfixed : Scan Tree := do
  let tree ← primary inner
  postfixFrom size inner size tree

def signedFrom : Nat → Scan Tree
  | 0 => fail .exhausted
  | rounds + 1 => do
    match ← operator sign? with
    | some sign => do
      let operand ← inner.signed
      pure (.signed sign operand)
    | none => do
      let base ← postfixed size inner
      if ← skip .power then do
        let exponent ← signedFrom rounds
        pure (.arithmetic .power base exponent)
      else pure base

def signed : Scan Tree := signedFrom size inner size

def sum : Scan Tree :=
  chain size sum? .arithmetic (chain size product? .arithmetic (signed size inner))

def comparisonsFrom (operand : Scan Tree) : Nat → Scan (List (Comparison × Tree))
  | 0 => fail .exhausted
  | rounds + 1 => do
    match ← operator comparison? with
    | none => pure []
    | some operator => do
      let tree ← operand
      let others ← comparisonsFrom operand rounds
      pure ((operator, tree) :: others)

def comparison : Scan Tree := do
  let first ← sum size inner
  match ← comparisonsFrom (sum size inner) size with
  | [] => pure first
  | others => pure (.comparison first others)

def negation : Scan Tree := do
  if ← skip .not then do
    let operand ← inner.negation
    pure (.negation operand)
  else comparison size inner

def alternatives : Scan Tree :=
  chain size disjunction? (fun _ => .disjunction)
    (chain size conjunction? (fun _ => .conjunction) (negation size inner))

def expression : Scan Tree := do
  let test ← alternatives size inner
  if ← skip .question then do
    let consequent ← inner.expression
    expect .colon
    let alternate ← inner.expression
    pure (.conditional test consequent alternate)
  else pure test

def level : Nat → Level
  | 0 =>
    { expression := fail .tooDeep
      negation := fail .tooDeep
      signed := fail .tooDeep
      listItems := fail .tooDeep }
  | room + 1 =>
    let inner := level room
    { expression := expression size inner
      negation := negation size inner
      signed := signed size inner
      listItems := items size inner.expression .closeBracket }

def tree : Scan Tree := do
  let tree ← (level size depthLimit).expression
  look fun kind => if kind = .stop then done tree else blame .trailing

end Loops

theorem run_bind (tokens : List Token) (scan : Scan α) (next : α → Scan β) (cursor : Nat) :
    (scan >>= next).run tokens cursor =
      match scan.run tokens cursor with
      | (looks, .ok (a, behind)) =>
        (looks ++ ((next a).run tokens behind).1, ((next a).run tokens behind).2)
      | (looks, .error fault) => (looks, .error fault) := by
  induction scan generalizing cursor with
  | done a => rfl
  | fail fault => rfl
  | blame fault =>
    change (blame fault : Scan β).run tokens cursor = _
    simp only [run]
    cases tokens[cursor]? with
    | none => rfl
    | some token => rfl
  | look scan ih =>
    change (look fun kind => scan kind >>= next).run tokens cursor = _
    simp only [run]
    cases there : tokens[cursor]? with
    | none => rfl
    | some token =>
      simp only [ih]
      cases run tokens (scan token.kind) cursor with
      | mk looks outcome =>
        cases outcome with
        | error fault => rfl
        | ok found => rfl
  | advance scan ih => exact ih (cursor + 1)

/-- A scan sees nothing of the tokens but their kinds: where these are the same, it finds the same. -/
theorem run_kinds {tokens others : List Token} (same : others.map Token.kind = tokens.map Token.kind)
    (scan : Scan α) (cursor : Nat) {a : α} {behind : Nat}
    (found : (scan.run tokens cursor).2 = .ok (a, behind)) :
    (scan.run others cursor).2 = .ok (a, behind) := by
  have kinds (cursor : Nat) :
      others[cursor]?.map Token.kind = tokens[cursor]?.map Token.kind := by
    rw [← List.getElem?_map, ← List.getElem?_map, same]
  induction scan generalizing cursor with
  | done a => exact found
  | fail fault => cases found
  | blame fault =>
    simp only [run] at found
    split at found
    · cases found
    · cases found
  | look scan ih =>
    have here := kinds cursor
    simp only [run] at found ⊢
    cases there : tokens[cursor]? with
    | none =>
      rw [there] at found
      cases found
    | some token =>
      rw [there] at found here
      obtain ⟨other, present, kind⟩ := Option.map_eq_some_iff.mp here
      rw [present]
      dsimp only at found ⊢
      rw [kind]
      exact ih token.kind cursor found
  | advance scan ih => exact ih (cursor + 1) found

def Ended (tokens : List Token) : Prop :=
  ∀ i token, tokens[i]? = some token → token.kind ≠ .stop → i + 1 < tokens.length

/-- A scan ends as a parser does. The tokens that the parser leaves begin at the cursor, and are not
    all used up. -/
inductive Meets (tokens : List Token) (least : Nat) :
    Except SyntaxFault (α × Nat) → Except SyntaxFault (α × List Token) → Prop
  | ok (a : α) {behind : Nat} (far : least ≤ behind) (inside : behind < tokens.length) :
      Meets tokens least (.ok (a, behind)) (.ok (a, tokens.drop behind))
  | error {fault : SyntaxFault} (known : fault ≠ .exhausted) :
      Meets tokens least (.error fault) (.error fault)

structure Keeps (tokens : List Token) (least : Nat) (course : List Nat × Except SyntaxFault (α × Nat))
    (outcome : Except SyntaxFault (α × List Token)) : Prop where
  within : ∀ i ∈ course.1, i < tokens.length
  meets : Meets tokens least course.2 outcome

structure Goes (tokens : List Token) (scan : Scan α) (cursor : Nat) (a : α) (behind : Nat) :
    Prop where
  within : ∀ i ∈ (scan.run tokens cursor).1, i < tokens.length
  found : (scan.run tokens cursor).2 = .ok (a, behind)

/-- From every token on, a scan does what a parser does; both take a token at least. -/
def Follows (tokens : List Token) (scan : Scan α)
    (parser : List Token → Except SyntaxFault (α × List Token)) : Prop :=
  ∀ cursor < tokens.length, Keeps tokens (cursor + 1) (scan.run tokens cursor)
    (parser (tokens.drop cursor))

section Steps
variable {tokens : List Token} {least later cursor behind : Nat}

theorem keeps_done (a : α) (far : least ≤ cursor) (inside : cursor < tokens.length) :
    Keeps tokens least ((pure a : Scan α).run tokens cursor) (.ok (a, tokens.drop cursor)) :=
  ⟨by simp [pure, run], .ok a far inside⟩

theorem keeps_fail (cursor : Nat) {fault : SyntaxFault} (known : fault ≠ .exhausted) :
    Keeps tokens least ((fail fault : Scan α).run tokens cursor) (.error fault) :=
  ⟨by simp [run], .error known⟩

theorem look_keeps {next : TokenKind → Scan α} {token : Token}
    {outcome : Except SyntaxFault (α × List Token)} (there : tokens[cursor]? = some token)
    (rest : Keeps tokens least ((next token.kind).run tokens cursor) outcome) :
    Keeps tokens least ((look next).run tokens cursor) outcome := by
  have inside : cursor < tokens.length := (List.getElem?_eq_some_iff.mp there).1
  rw [run, there]
  exact ⟨List.forall_mem_cons.mpr ⟨inside, rest.within⟩, rest.meets⟩

theorem blame_keeps {fault : Nat → SyntaxFault} {token : Token}
    (there : tokens[cursor]? = some token) (known : fault token.place ≠ .exhausted) :
    Keeps tokens least ((blame fault : Scan α).run tokens cursor) (.error (fault token.place)) := by
  have inside : cursor < tokens.length := (List.getElem?_eq_some_iff.mp there).1
  rw [run, there]
  exact ⟨by simpa using inside, .error known⟩

theorem Goes.keeps {scan : Scan α} {next : α → Scan β} {a : α}
    {outcome : Except SyntaxFault (β × List Token)} (goes : Goes tokens scan cursor a behind)
    (rest : Keeps tokens least ((next a).run tokens behind) outcome) :
    Keeps tokens least ((scan >>= next).run tokens cursor) outcome := by
  have found := goes.found
  rw [run_bind]
  cases course : scan.run tokens cursor with
  | mk looks ending =>
    rw [course] at found
    obtain rfl : ending = .ok (a, behind) := found
    refine ⟨List.forall_mem_append.mpr ⟨?_, rest.within⟩, rest.meets⟩
    have within := goes.within
    rwa [course] at within

theorem Keeps.bind {scan : Scan α} {next : α → Scan β}
    {outcome : Except SyntaxFault (α × List Token)}
    {parser : α × List Token → Except SyntaxFault (β × List Token)}
    (first : Keeps tokens least (scan.run tokens cursor) outcome)
    (rest : ∀ a behind, least ≤ behind → behind < tokens.length →
      Keeps tokens later ((next a).run tokens behind) (parser (a, tokens.drop behind))) :
    Keeps tokens later ((scan >>= next).run tokens cursor) (outcome >>= parser) := by
  obtain ⟨within, meets⟩ := first
  cases course : scan.run tokens cursor with
  | mk looks ending =>
    rw [course] at within meets
    cases meets with
    | @ok a behind far inside =>
      have goes : Goes tokens scan cursor a behind := by
        refine ⟨?_, ?_⟩
        · rw [course]
          exact within
        · rw [course]
      exact goes.keeps (rest a behind far inside)
    | error known =>
      rw [run_bind, course]
      exact ⟨within, .error known⟩

theorem Keeps.mono {course : List Nat × Except SyntaxFault (α × Nat)}
    {outcome : Except SyntaxFault (α × List Token)} (keeps : Keeps tokens later course outcome)
    (le : least ≤ later) : Keeps tokens least course outcome := by
  obtain ⟨looks, ending⟩ := course
  obtain ⟨within, meets⟩ := keeps
  refine ⟨within, ?_⟩
  cases meets with
  | ok a far inside => exact .ok a (le.trans far) inside
  | error known => exact .error known

theorem Keeps.keeps_value {course : List Nat × Except SyntaxFault (α × Nat)}
    {outcome : Except SyntaxFault (α × List Token)} (keeps : Keeps tokens least course outcome) :
    course.2.map Prod.fst = outcome.map Prod.fst ∧ outcome.map Prod.fst ≠ .error .exhausted := by
  obtain ⟨looks, ending⟩ := course
  obtain ⟨_, meets⟩ := keeps
  cases meets with
  | ok a _ _ => exact ⟨rfl, nofun⟩
  | error known => exact ⟨rfl, fun same => known (Except.error.inj same)⟩

theorem exists_token (inside : cursor < tokens.length) :
    ∃ token, tokens[cursor]? = some token ∧ tokens.drop cursor = token :: tokens.drop (cursor + 1) :=
  ⟨tokens[cursor], List.getElem?_eq_getElem inside, List.drop_eq_getElem_cons inside⟩

theorem skip_goes (ended : Ended tokens) (inside : cursor < tokens.length) (symbol : Symbol) :
    (skip? symbol (tokens.drop cursor) = none ∧ Goes tokens (skip symbol) cursor false cursor) ∨
      (skip? symbol (tokens.drop cursor) = some (tokens.drop (cursor + 1)) ∧
        cursor + 1 < tokens.length ∧ Goes tokens (skip symbol) cursor true (cursor + 1)) := by
  obtain ⟨token, there, whole⟩ := exists_token inside
  rw [whole, skip?]
  by_cases kind : token.kind = .symbol symbol
  · have more : cursor + 1 < tokens.length := ended cursor token there (by simp [kind])
    refine .inr ⟨by rw [if_pos kind], more, ?_, ?_⟩
    · simpa [skip, run, there, kind] using inside
    · simp [skip, run, there, kind]
  · refine .inl ⟨by rw [if_neg kind], ?_, ?_⟩
    · simpa [skip, run, there, kind] using inside
    · simp [skip, run, there, kind]

theorem operator_goes {ω : Type} (ended : Ended tokens) (inside : cursor < tokens.length)
    (classify : Symbol → Option ω) :
    (operator? classify (tokens.drop cursor) = none ∧
        Goes tokens (operator classify) cursor none cursor) ∨
      ∃ found, operator? classify (tokens.drop cursor) = some (found, tokens.drop (cursor + 1)) ∧
        cursor + 1 < tokens.length ∧
        Goes tokens (operator classify) cursor (some found) (cursor + 1) := by
  obtain ⟨⟨kind, place⟩, there, whole⟩ := exists_token inside
  rw [whole]
  cases kind with
  | symbol symbol =>
    have more : cursor + 1 < tokens.length := ended cursor _ there (by simp)
    cases named : classify symbol with
    | none =>
      refine .inl ⟨by simp [operator?, named], ?_, ?_⟩
      · simpa [operator, run, there, named] using inside
      · simp [operator, run, there, named]
    | some found =>
      refine .inr ⟨found, by simp [operator?, named], more, ?_, ?_⟩
      · simpa [operator, run, there, named] using inside
      · simp [operator, run, there, named]
  | _ =>
    refine .inl ⟨rfl, ?_, ?_⟩
    · simpa [operator, run, there] using inside
    · simp [operator, run, there]

theorem expect_follows (ended : Ended tokens) (symbol : Symbol) :
    Follows tokens (expect symbol) fun list => ((), ·) <$> Expression.expect symbol list := by
  intro cursor inside
  obtain ⟨token, there, whole⟩ := exists_token inside
  dsimp only
  rw [whole, Expression.expect]
  refine look_keeps there ?_
  by_cases kind : token.kind = .symbol symbol
  · rw [if_pos kind, if_pos kind]
    exact keeps_done () (Nat.le_refl _) (ended cursor token there (by simp [kind]))
  · rw [if_neg kind, if_neg kind]
    exact blame_keeps there nofun

theorem expect_keeps (ended : Ended tokens) (inside : cursor < tokens.length) {symbol : Symbol}
    {next : Unit → Scan α} {parser : List Token → Except SyntaxFault (α × List Token)}
    (rest : ∀ behind, cursor < behind → behind < tokens.length →
      Keeps tokens least ((next ()).run tokens behind) (parser (tokens.drop behind))) :
    Keeps tokens least ((expect symbol >>= next).run tokens cursor)
      (Expression.expect symbol (tokens.drop cursor) >>= parser) := by
  have both : Keeps tokens least ((expect symbol >>= next).run tokens cursor)
      (((), ·) <$> Expression.expect symbol (tokens.drop cursor) >>= fun found => parser found.2) :=
    (expect_follows ended symbol cursor inside).bind fun _ => rest
  cases outcome : Expression.expect symbol (tokens.drop cursor) with
  | error fault =>
    rw [outcome] at both
    exact both
  | ok others =>
    rw [outcome] at both
    exact both

theorem propertyName_follows (ended : Ended tokens) :
    Follows tokens propertyName Expression.propertyName := by
  intro cursor inside
  obtain ⟨⟨kind, place⟩, there, whole⟩ := exists_token inside
  rw [whole]
  refine look_keeps there ?_
  cases kind with
  | name name => exact keeps_done name (Nat.le_refl _) (ended cursor _ there (by simp))
  | _ => exact blame_keeps there nofun

end Steps

section Parsers
variable {tokens : List Token} {size : Nat}

structure Mirrors (tokens : List Token) (inner : Level) (parsers : Expression.Level) : Prop where
  expression : Follows tokens inner.expression parsers.expression
  negation : Follows tokens inner.negation parsers.negation
  signed : Follows tokens inner.signed parsers.signed
  listItems : Follows tokens inner.listItems parsers.listItems

theorem chainFrom_keeps {ω : Type} (ended : Ended tokens) {classify : Symbol → Option ω}
    {build : ω → Tree → Tree → Tree} {operand : Scan Tree} {parser : Parser Tree}
    (follows : Follows tokens operand parser) {rounds fuel cursor : Nat}
    (inside : cursor < tokens.length) (long : tokens.length ≤ cursor + rounds)
    (enough : tokens.length ≤ cursor + fuel) (left : Tree) :
    Keeps tokens cursor ((chainFrom classify build operand rounds left).run tokens cursor)
      (Expression.chainFrom classify build parser fuel left (tokens.drop cursor)) := by
  induction rounds generalizing fuel cursor left with
  | zero => omega
  | succ rounds ih =>
    cases fuel with
    | zero => omega
    | succ fuel =>
      rw [chainFrom, Expression.chainFrom]
      rcases operator_goes ended inside classify with ⟨none, goes⟩ | ⟨found, some, more, goes⟩
      · rw [none]
        exact goes.keeps (keeps_done left (Nat.le_refl _) inside)
      · rw [some]
        refine goes.keeps ((follows _ more).bind fun right behind far inside => ?_)
        exact (ih inside (by omega) (by omega) (build found left right)).mono (by omega)

theorem chain_follows {ω : Type} (ended : Ended tokens) (long : tokens.length ≤ size)
    (classify : Symbol → Option ω) (build : ω → Tree → Tree → Tree) {operand : Scan Tree}
    {parser : Parser Tree} (follows : Follows tokens operand parser) :
    Follows tokens (chain size classify build operand)
      (Expression.chain classify build parser) := by
  intro cursor inside
  refine (follows cursor inside).bind fun first behind far inside => ?_
  exact (chainFrom_keeps ended follows inside (by omega) (by rw [List.length_drop]; omega)
    first).mono far

theorem itemsFrom_follows (ended : Ended tokens) {expression : Scan Tree} {parser : Parser Tree}
    (follows : Follows tokens expression parser) (closing : Symbol) {rounds fuel cursor : Nat}
    (inside : cursor < tokens.length) (long : tokens.length ≤ cursor + rounds)
    (enough : tokens.length ≤ cursor + fuel) :
    Keeps tokens (cursor + 1) ((itemsFrom expression closing rounds).run tokens cursor)
      (Expression.itemsFrom parser closing fuel (tokens.drop cursor)) := by
  induction rounds generalizing fuel cursor with
  | zero => omega
  | succ rounds ih =>
    cases fuel with
    | zero => omega
    | succ fuel =>
      rw [itemsFrom, Expression.itemsFrom]
      refine (follows cursor inside).bind fun item behind far inside => ?_
      dsimp only
      rcases skip_goes ended inside .comma with ⟨none, goes⟩ | ⟨some, more, goes⟩
      · rw [none]
        refine goes.keeps (expect_keeps ended inside fun last beyond inside => ?_)
        exact keeps_done [item] (by omega) inside
      · rw [some]
        refine goes.keeps ((ih more (by omega) (by omega)).bind fun items last beyond inside => ?_)
        exact keeps_done (item :: items) (by omega) inside

theorem items_follows (ended : Ended tokens) (long : tokens.length ≤ size) {expression : Scan Tree}
    {parser : Parser Tree} (follows : Follows tokens expression parser) (closing : Symbol) :
    Follows tokens (items size expression closing) (Expression.items parser closing) := by
  intro cursor inside
  rw [items, Expression.items]
  rcases skip_goes ended inside closing with ⟨none, goes⟩ | ⟨some, more, goes⟩
  · rw [none]
    exact goes.keeps (itemsFrom_follows ended follows closing inside (by omega)
      (by rw [List.length_drop]; omega))
  · rw [some]
    exact goes.keeps (keeps_done [] (Nat.le_refl _) more)

section Levels
variable {inner : Level} {parsers : Expression.Level}

theorem primary_follows (ended : Ended tokens) (mirrors : Mirrors tokens inner parsers) :
    Follows tokens (primary inner) (Expression.primary parsers) := by
  intro cursor inside
  obtain ⟨⟨kind, place⟩, there, whole⟩ := exists_token inside
  rw [whole]
  refine look_keeps there ?_
  have next : kind ≠ .stop → cursor + 1 < tokens.length := ended cursor _ there
  cases kind with
  | literal value => exact keeps_done (Tree.literal value) (Nat.le_refl _) (next nofun)
  | name name => exact keeps_done (Tree.name name) (Nat.le_refl _) (next nofun)
  | stop => exact keeps_fail (cursor + 1) SyntaxFault.noConfusion
  | symbol symbol =>
    cases symbol with
    | openParen =>
      refine (mirrors.expression _ (next nofun)).bind fun tree behind far inside => ?_
      refine expect_keeps ended inside fun last beyond inside => ?_
      exact keeps_done tree (by omega) inside
    | openBracket =>
      refine (mirrors.listItems _ (next nofun)).bind fun trees behind far inside => ?_
      exact keeps_done (Tree.list trees) (by omega) inside
    | _ => exact blame_keeps there nofun

theorem postfixFrom_keeps (ended : Ended tokens) (long : tokens.length ≤ size)
    (mirrors : Mirrors tokens inner parsers) {rounds fuel cursor : Nat}
    (inside : cursor < tokens.length) (enough : tokens.length ≤ cursor + rounds)
    (plenty : tokens.length ≤ cursor + fuel) (tree : Tree) :
    Keeps tokens cursor ((postfixFrom size inner rounds tree).run tokens cursor)
      (Expression.postfixFrom parsers fuel tree (tokens.drop cursor)) := by
  induction rounds generalizing fuel cursor tree with
  | zero => omega
  | succ rounds ih =>
    cases fuel with
    | zero => omega
    | succ fuel =>
      rw [postfixFrom, Expression.postfixFrom]
      have again (tree : Tree) (behind : Nat) (far : cursor < behind)
          (inside : behind < tokens.length) :
          Keeps tokens cursor ((postfixFrom size inner rounds tree).run tokens behind)
            (Expression.postfixFrom parsers fuel tree (tokens.drop behind)) :=
        (ih inside (by omega) (by omega) tree).mono (by omega)
      rcases skip_goes ended inside .dot with ⟨noDot, passes⟩ | ⟨dot, more, goes⟩
      · rw [noDot]
        refine passes.keeps ?_
        rcases skip_goes ended inside .openBracket with ⟨noBracket, passes⟩ | ⟨bracket, more, goes⟩
        · rw [noBracket]
          refine passes.keeps ?_
          rcases skip_goes ended inside .openParen with ⟨noParen, passes⟩ | ⟨paren, more, goes⟩
          · rw [noParen]
            exact passes.keeps (keeps_done tree (Nat.le_refl _) inside)
          · rw [paren]
            refine goes.keeps ((items_follows ended long mirrors.expression .closeParen _ more).bind
              fun arguments behind far inside => ?_)
            exact again _ behind (by omega) inside
        · rw [bracket]
          refine goes.keeps ((mirrors.expression _ more).bind fun place behind far inside => ?_)
          refine expect_keeps ended inside fun last beyond inside => ?_
          exact again _ last (by omega) inside
      · rw [dot]
        refine goes.keeps ((propertyName_follows ended _ more).bind
          fun name behind far inside => ?_)
        exact again _ behind (by omega) inside

theorem postfixed_follows (ended : Ended tokens) (long : tokens.length ≤ size)
    (mirrors : Mirrors tokens inner parsers) :
    Follows tokens (postfixed size inner) (Expression.postfixed parsers) := by
  intro cursor inside
  refine (primary_follows ended mirrors cursor inside).bind fun tree behind far inside => ?_
  exact (postfixFrom_keeps ended long mirrors inside (by omega) (by rw [List.length_drop]; omega)
    tree).mono far

theorem signedFrom_keeps (ended : Ended tokens) (long : tokens.length ≤ size)
    (mirrors : Mirrors tokens inner parsers) {rounds fuel cursor : Nat}
    (inside : cursor < tokens.length) (enough : tokens.length ≤ cursor + rounds)
    (plenty : tokens.length ≤ cursor + fuel) :
    Keeps tokens (cursor + 1) ((signedFrom size inner rounds).run tokens cursor)
      (Expression.signedFrom parsers fuel (tokens.drop cursor)) := by
  induction rounds generalizing fuel cursor with
  | zero => omega
  | succ rounds ih =>
    cases fuel with
    | zero => omega
    | succ fuel =>
      rw [signedFrom, Expression.signedFrom]
      rcases operator_goes ended inside sign? with ⟨none, goes⟩ | ⟨sign, some, more, goes⟩
      · rw [none]
        refine goes.keeps ((postfixed_follows ended long mirrors cursor inside).bind
          fun base behind far inside => ?_)
        dsimp only
        rcases skip_goes ended inside .power with ⟨none, goes⟩ | ⟨power, more, goes⟩
        · rw [none]
          exact goes.keeps (keeps_done base far inside)
        · rw [power]
          refine goes.keeps ((ih more (by omega) (by omega)).bind
            fun exponent last beyond inside => ?_)
          exact keeps_done _ (by omega) inside
      · rw [some]
        refine goes.keeps ((mirrors.signed _ more).bind fun operand behind far inside => ?_)
        exact keeps_done _ (by omega) inside

theorem signed_follows (ended : Ended tokens) (long : tokens.length ≤ size)
    (mirrors : Mirrors tokens inner parsers) :
    Follows tokens (signed size inner) (Expression.signed parsers) := by
  intro cursor inside
  exact signedFrom_keeps ended long mirrors inside (by omega) (by rw [List.length_drop]; omega)

theorem sum_follows (ended : Ended tokens) (long : tokens.length ≤ size)
    (mirrors : Mirrors tokens inner parsers) :
    Follows tokens (sum size inner) (Expression.sum parsers) :=
  chain_follows ended long _ _ (chain_follows ended long _ _ (signed_follows ended long mirrors))

theorem comparisonsFrom_keeps (ended : Ended tokens) {operand : Scan Tree} {parser : Parser Tree}
    (follows : Follows tokens operand parser) {rounds fuel cursor : Nat}
    (inside : cursor < tokens.length) (long : tokens.length ≤ cursor + rounds)
    (enough : tokens.length ≤ cursor + fuel) :
    Keeps tokens cursor ((comparisonsFrom operand rounds).run tokens cursor)
      (Expression.comparisonsFrom parser fuel (tokens.drop cursor)) := by
  induction rounds generalizing fuel cursor with
  | zero => omega
  | succ rounds ih =>
    cases fuel with
    | zero => omega
    | succ fuel =>
      rw [comparisonsFrom, Expression.comparisonsFrom]
      rcases operator_goes ended inside comparison? with ⟨none, goes⟩ | ⟨found, some, more, goes⟩
      · rw [none]
        exact goes.keeps (keeps_done [] (Nat.le_refl _) inside)
      · rw [some]
        refine goes.keeps ((follows _ more).bind fun tree behind far inside => ?_)
        refine (ih inside (by omega) (by omega)).bind fun others last beyond inside => ?_
        exact keeps_done _ (by omega) inside

theorem comparison_follows (ended : Ended tokens) (long : tokens.length ≤ size)
    (mirrors : Mirrors tokens inner parsers) :
    Follows tokens (comparison size inner) (Expression.comparison parsers) := by
  have operand := sum_follows ended long mirrors
  intro cursor inside
  refine (operand cursor inside).bind fun first behind far inside => ?_
  refine (comparisonsFrom_keeps ended operand inside (by omega)
    (by rw [List.length_drop]; omega)).bind fun others last beyond inside => ?_
  cases others with
  | nil => exact keeps_done first (by omega) inside
  | cons link others => exact keeps_done _ (by omega) inside

theorem negation_follows (ended : Ended tokens) (long : tokens.length ≤ size)
    (mirrors : Mirrors tokens inner parsers) :
    Follows tokens (negation size inner) (Expression.negation parsers) := by
  intro cursor inside
  rw [negation, Expression.negation]
  rcases skip_goes ended inside .not with ⟨none, goes⟩ | ⟨some, more, goes⟩
  · rw [none]
    exact goes.keeps (comparison_follows ended long mirrors cursor inside)
  · rw [some]
    refine goes.keeps ((mirrors.negation _ more).bind fun operand behind far inside => ?_)
    exact keeps_done _ (by omega) inside

theorem alternatives_follows (ended : Ended tokens) (long : tokens.length ≤ size)
    (mirrors : Mirrors tokens inner parsers) :
    Follows tokens (alternatives size inner) (Expression.alternatives parsers) :=
  chain_follows ended long _ _ (chain_follows ended long _ _ (negation_follows ended long mirrors))

theorem expression_follows (ended : Ended tokens) (long : tokens.length ≤ size)
    (mirrors : Mirrors tokens inner parsers) :
    Follows tokens (expression size inner) (Expression.expression parsers) := by
  intro cursor inside
  refine (alternatives_follows ended long mirrors cursor inside).bind
    fun test behind far inside => ?_
  dsimp only
  rcases skip_goes ended inside .question with ⟨none, goes⟩ | ⟨some, more, goes⟩
  · rw [none]
    exact goes.keeps (keeps_done test far inside)
  · rw [some]
    refine goes.keeps ((mirrors.expression _ more).bind fun consequent middle beyond inside => ?_)
    refine expect_keeps ended inside fun colon next inside => ?_
    refine (mirrors.expression colon inside).bind fun alternate last further inside => ?_
    exact keeps_done _ (by omega) inside

end Levels

theorem level_mirrors (ended : Ended tokens) (long : tokens.length ≤ size) (room : Nat) :
    Mirrors tokens (level size room) (Expression.level room) := by
  induction room with
  | zero =>
    have deep {α : Type} : Follows tokens (fail .tooDeep : Scan α) fun _ => .error .tooDeep :=
      fun cursor _ => keeps_fail cursor SyntaxFault.noConfusion
    exact ⟨deep, deep, deep, deep⟩
  | succ room ih =>
    exact ⟨expression_follows ended long ih, negation_follows ended long ih,
      signed_follows ended long ih, items_follows ended long ih.expression .closeBracket⟩

def finish : Tree × List Token → Except SyntaxFault (Tree × List Token)
  | (_, []) => .error .exhausted
  | (tree, token :: rest) =>
    if token.kind = .stop then .ok (tree, token :: rest) else .error (.trailing token.place)

theorem treeOf_eq (list : List Token) : treeOf list =
    Prod.fst <$> ((Expression.level depthLimit).expression list >>= finish) := by
  rw [treeOf]
  cases (Expression.level depthLimit).expression list with
  | error fault => rfl
  | ok found =>
    obtain ⟨tree, rest⟩ := found
    cases rest with
    | nil => rfl
    | cons token rest =>
      simp only [Bind.bind, Except.bind, finish]
      split
      · rfl
      · rfl

theorem tree_keeps (ended : Ended tokens) (some : tokens ≠ []) :
    Keeps tokens 0 ((tree tokens.length).run tokens 0)
      ((Expression.level depthLimit).expression tokens >>= finish) := by
  have whole := (level_mirrors ended (Nat.le_refl tokens.length) depthLimit).expression 0
    (List.length_pos_iff.mpr some)
  refine whole.bind fun tree behind far inside => ?_
  obtain ⟨token, there, left⟩ := exists_token inside
  refine look_keeps there ?_
  rw [left, finish]
  by_cases kind : token.kind = .stop
  · rw [if_pos kind, if_pos kind, ← left]
    exact keeps_done tree (Nat.zero_le _) inside
  · rw [if_neg kind, if_neg kind]
    exact blame_keeps there nofun

end Parsers

end Scan

/-- The cursors at which the reader of some tokens looks at one, and the tree that it reads. -/
def walk (tokens : List Token) : List Nat × Except SyntaxFault Tree :=
  let course := (Scan.tree tokens.length).run tokens 0
  (course.1, course.2.map Prod.fst)

/-- The reader with a cursor reads what the parsers read, and looks at tokens only. -/
theorem walk_keeps {list : List Token} (ended : Scan.Ended list) (some : list ≠ []) :
    (walk list).2 = treeOf list ∧ treeOf list ≠ .error .exhausted ∧
      ∀ i ∈ (walk list).1, i < list.length := by
  have keeps := Scan.tree_keeps ended some
  obtain ⟨value, known⟩ := keeps.keeps_value
  rw [Scan.treeOf_eq]
  exact ⟨value, known, keeps.within⟩

theorem LexedFrom.ended_and_filled {place : Nat} {t : Text} {list : List Token}
    (lexed : LexedFrom place t list) : Scan.Ended list ∧ list ≠ [] := by
  obtain ⟨body, rfl, none⟩ := lexed.ends_with_stop
  refine ⟨fun i token there kind => ?_, by simp⟩
  rw [List.length_append, List.length_singleton]
  by_cases before : i < body.length
  · omega
  · rw [List.getElem?_append_right (by omega)] at there
    obtain rfl := List.mem_singleton.mp (List.mem_of_getElem? there)
    exact absurd rfl kind

/-- The kinds of the tokens of a text decide which tree they are read as. -/
theorem treeOf_same_kinds {place away : Nat} {t other : Text} {list others : List Token}
    (lexed : LexedFrom place t list) (also : LexedFrom away other others)
    (same : others.map Token.kind = list.map Token.kind) {tree : Tree}
    (found : treeOf list = .ok tree) : treeOf others = .ok tree := by
  have size : others.length = list.length := by simpa using congrArg List.length same
  rw [← (walk_keeps lexed.ended_and_filled.1 lexed.ended_and_filled.2).1, walk] at found
  rw [← (walk_keeps also.ended_and_filled.1 also.ended_and_filled.2).1, walk, size]
  dsimp only at found ⊢
  cases outcome : ((Scan.tree list.length).run list 0).2 with
  | error fault =>
    rw [outcome] at found
    cases found
  | ok read =>
    rw [outcome] at found
    cases found
    rw [Scan.run_kinds same _ 0 outcome]
    rfl

/-- Reading ends, whatever the source. The tokens are parts of the text and stand at ever later
    places, the mark of the end last; the reader with a cursor reads what the parsers read, and
    never looks behind that mark. -/
theorem reading_ends_within_the_tokens (source : Text) :
    read source ≠ .error .exhausted ∧ tokens (Text.trim source) ≠ .error .exhausted ∧
      (∀ place u rest kind more, takeToken place (u :: rest) = .ok (kind, more) →
        ∃ cut, cut ≠ [] ∧ u :: rest = cut ++ more) ∧
      ∀ list, tokens (Text.trim source) = .ok list →
        list.Pairwise (·.place < ·.place) ∧
        (∃ body, list = body ++ [⟨.stop, (Text.trim source).length⟩] ∧
          ∀ token ∈ body, token.kind ≠ .stop) ∧
        (walk list).2 = treeOf list ∧ treeOf list ≠ .error .exhausted ∧
        ∀ i ∈ (walk list).1, i < list.length := by
  have cuts : tokens (Text.trim source) ≠ .error .exhausted :=
    tokensWithin_not_exhausted (Nat.le_refl _)
  have within (list : List Token) (found : tokens (Text.trim source) = .ok list) :=
    walk_keeps (tokens_iff.mp found).ended_and_filled.1 (tokens_iff.mp found).ended_and_filled.2
  refine ⟨fun failed => ?_, cuts, fun place u rest kind more taken => ?_, fun list found => ?_⟩
  · rw [read] at failed
    split at failed
    · cases failed
    split at failed
    · cases failed
    rcases bind_error_iff.mp failed with lexing | ⟨list, found, failed⟩
    · exact cuts lexing
    rcases bind_error_iff.mp failed with parsing | ⟨tree, _, done⟩
    · exact (within list found).2.1 parsing
    · cases done
  · obtain ⟨cut, whole, lexeme⟩ := lexeme_of_takeToken taken
    exact ⟨cut, lexeme.visible.some, whole⟩
  · have lexed := tokens_iff.mp found
    obtain ⟨body, whole, none⟩ := lexed.ends_with_stop
    rw [Nat.zero_add] at whole
    exact ⟨lexed.places_ascend.1, ⟨body, whole, none⟩, within list found⟩

def openCall : List Token := [⟨.name (text "f"), 0⟩, ⟨.symbol .openParen, 1⟩, ⟨.stop, 2⟩]

/-- The mark of the end is looked at and taken, and no token is looked at behind it. -/
theorem open_call_is_read_to_its_end :
    tokens (Text.trim (text "f(")) = .ok openCall ∧ (walk openCall).2 = .error .unexpectedEnd ∧
      2 ∈ (walk openCall).1 ∧ ∀ i ∈ (walk openCall).1, i < openCall.length := by
  obtain ⟨_, _, _, each⟩ := reading_ends_within_the_tokens (text "f(")
  have found : tokens (Text.trim (text "f(")) = .ok openCall := by decide +kernel
  obtain ⟨_, _, _, _, within⟩ := each openCall found
  exact ⟨found, by rfl, by decide +kernel, within⟩

end VirtualInstrument.Expression
