import VirtualInstrument.Expression.Reader
import VirtualInstrument.Proofs.Expression.Printer
/- Reading the tokens of a printed tree. Each place of the precedence order has a parser, and what
   is said of it is fit to be carried from one place to the next looser one: a chain of operators
   is described by where it stands when its first operands are read, the other parsers by what
   they return. -/
namespace VirtualInstrument.Expression

/-- A result that is the expected one, unless the reader has been in too deep for it. -/
def Comes {α : Type} (deep : Prop) (result expected : Except SyntaxFault α) : Prop :=
  result = expected ∨ deep ∧ result = .error .tooDeep

theorem Comes.bind_ok {α β : Type} {deep : Prop} {result : Except SyntaxFault α} {value : α}
    {next : α → Except SyntaxFault β} {expected : Except SyntaxFault β}
    (here : Comes deep result (.ok value)) (there : Comes deep (next value) expected) :
    Comes deep (result >>= next) expected := by
  rcases here with rfl | ⟨deep, rfl⟩
  · exact there
  · exact .inr ⟨deep, rfl⟩

theorem Comes.trans {α : Type} {deep : Prop} {a b c : Except SyntaxFault α}
    (first : Comes deep a b) (second : Comes deep b c) : Comes deep a c := by
  rcases first with rfl | fails
  · exact second
  · exact .inr fails

theorem Comes.imp {α : Type} {deep deeper : Prop} {result expected : Except SyntaxFault α}
    (comes : Comes deep result expected) (more : deep → deeper) : Comes deeper result expected :=
  Or.imp_right (And.imp_left more) comes

/-- The place whose parser goes on at a symbol that stands behind an operand. -/
def Symbol.level? : Symbol → Option Nat
  | .question => some 0
  | .or => some 1
  | .and => some 2
  | .equal => some 4
  | .unequal => some 4
  | .less => some 4
  | .atMost => some 4
  | .greater => some 4
  | .atLeast => some 4
  | .plus => some 5
  | .minus => some 5
  | .times => some 6
  | .over => some 6
  | .floorOver => some 6
  | .modulo => some 6
  | .power => some 7
  | .openParen => some 8
  | .openBracket => some 8
  | .dot => some 8
  | _ => none

/-- What stands next lets the parsers from some place on come to an end. -/
def Closed (place : Nat) (rest : List Token) : Prop :=
  ∀ token ∈ rest.head?, ∀ symbol, token.kind = .symbol symbol →
    ∀ level, symbol.level? = some level → level < place

theorem Closed.mono {place other : Nat} {rest : List Token} (closed : Closed place rest)
    (le : place ≤ other) : Closed other rest := by
  intro token first symbol kind level found
  exact Nat.lt_of_lt_of_le (closed token first symbol kind level found) le

theorem closed_cons {place : Nat} {symbol : Symbol} {token : Token} {rest : List Token}
    (kind : token.kind = .symbol symbol)
    (below : ∀ level, symbol.level? = some level → level < place) : Closed place (token :: rest) := by
  intro first same other named
  cases same
  rw [kind] at named
  cases named
  exact below

theorem Closed.skip?_eq_none {place level : Nat} {rest : List Token} (closed : Closed place rest)
    (symbol : Symbol) (known : symbol.level? = some level) (le : place ≤ level) :
    skip? symbol rest = none := by
  cases rest with
  | nil => rfl
  | cons token rest =>
    rw [skip?, if_neg]
    intro kind
    have below := closed token rfl symbol kind level known
    omega

theorem Closed.operator?_eq_none {ω : Type} {place level : Nat} {rest : List Token}
    (closed : Closed place rest) {classify : Symbol → Option ω}
    (known : ∀ symbol operator, classify symbol = some operator → symbol.level? = some level)
    (le : place ≤ level) : operator? classify rest = none := by
  cases rest with
  | nil => rfl
  | cons token rest =>
    obtain ⟨kind, at_place⟩ := token
    cases kind with
    | symbol symbol =>
      cases found : classify symbol with
      | none => simp [operator?, found]
      | some operator =>
        have below :=
          closed ⟨.symbol symbol, at_place⟩ rfl symbol rfl level (known symbol operator found)
        omega
    | _ => rfl

section Chains
variable {ω : Type} {classify : Symbol → Option ω} {build : ω → Tree → Tree → Tree}
  {operand : Parser Tree} {place : Nat} {deep deeper : Prop}

/-- A parser reads a tree when it is printed as some tokens and what follows closes the place. -/
def Finishes (deep : Prop) (parser : Parser Tree) (place : Nat) (kinds : List TokenKind)
    (tree : Tree) : Prop :=
  ∀ list rest, list.map Token.kind = kinds → Closed place rest →
    Comes deep (parser (list ++ rest)) (.ok (tree, rest))

def Begins (deep : Prop) (classify : Symbol → Option ω) (build : ω → Tree → Tree → Tree)
    (operand : Parser Tree) (place : Nat) (kinds : List TokenKind) (tree : Tree) : Prop :=
  ∀ list rest, list.map Token.kind = kinds → Closed (place + 1) rest →
    ∃ fuel, rest.length ≤ fuel ∧ Comes deep (chain classify build operand (list ++ rest))
      (chainFrom classify build operand fuel tree rest)

theorem Finishes.imp {parser : Parser Tree} {kinds : List TokenKind} {tree : Tree}
    (read : Finishes deep parser place kinds tree) (more : deep → deeper) :
    Finishes deeper parser place kinds tree :=
  fun list rest spelled closed => (read list rest spelled closed).imp more

theorem Begins.imp {kinds : List TokenKind} {tree : Tree}
    (begun : Begins deep classify build operand place kinds tree) (more : deep → deeper) :
    Begins deeper classify build operand place kinds tree := by
  intro list rest spelled closed
  obtain ⟨fuel, enough, comes⟩ := begun list rest spelled closed
  exact ⟨fuel, enough, comes.imp more⟩

theorem begins_operand {kinds : List TokenKind} {tree : Tree}
    (read : Finishes deep operand (place + 1) kinds tree) :
    Begins deep classify build operand place kinds tree := by
  intro list rest spelled closed
  exact ⟨rest.length, Nat.le_refl _, (read list rest spelled closed).bind_ok (.inl rfl)⟩

theorem begins_operator
    (known : ∀ symbol operator, classify symbol = some operator → symbol.level? = some place)
    {symbol : Symbol} (operator : ω) (named : classify symbol = some operator)
    {leftKinds rightKinds : List TokenKind} {left right : Tree}
    (first : Begins deep classify build operand place leftKinds left)
    (second : Finishes deep operand (place + 1) rightKinds right) :
    Begins deep classify build operand place (leftKinds ++ .symbol symbol :: rightKinds)
      (build operator left right) := by
  intro list rest spelled closed
  obtain ⟨before, behind, rfl, here, there⟩ := List.map_eq_append_iff.mp spelled
  obtain ⟨token, after, rfl, kind, others⟩ := List.map_eq_cons_iff.mp there
  rw [List.append_assoc, List.cons_append]
  have next : Closed (place + 1) (token :: (after ++ rest)) := by
    refine closed_cons kind ?_
    intro level found
    rw [known symbol operator named] at found
    cases found
    exact Nat.lt_succ_self place
  obtain ⟨fuel, enough, begun⟩ := first before (token :: (after ++ rest)) here next
  cases fuel with
  | zero => simp at enough
  | succ fuel =>
    rw [List.length_cons, List.length_append] at enough
    refine ⟨fuel, by omega, begun.trans ?_⟩
    have taken :
        operator? classify (token :: (after ++ rest)) = some (operator, after ++ rest) := by
      obtain ⟨_, at_place⟩ := token
      cases kind
      simp [operator?, named]
    rw [chainFrom, taken]
    exact (second after rest others closed).bind_ok (.inl rfl)

theorem Begins.finishes
    (known : ∀ symbol operator, classify symbol = some operator → symbol.level? = some place)
    {kinds : List TokenKind} {tree : Tree}
    (begins : Begins deep classify build operand place kinds tree) :
    Finishes deep (chain classify build operand) place kinds tree := by
  intro list rest spelled closed
  obtain ⟨fuel, _, begun⟩ := begins list rest spelled (closed.mono (Nat.le_succ place))
  refine begun.trans (.inl ?_)
  have stop := closed.operator?_eq_none known (Nat.le_refl place)
  cases fuel with
  | zero => rfl
  | succ fuel => rw [chainFrom, stop]

end Chains

def Opens (rank : Nat) : TokenKind → Prop
  | .symbol .openParen => True
  | .symbol .openBracket => True
  | .symbol .minus => rank ≤ 7
  | .symbol .plus => rank ≤ 7
  | .symbol .not => rank ≤ 3
  | .symbol _ => False
  | _ => True

theorem Opens.mono {rank lower : Nat} {kind : TokenKind} (opens : Opens rank kind)
    (le : lower ≤ rank) : Opens lower kind := by
  cases kind with
  | symbol symbol =>
    cases symbol with
    | not => exact Nat.le_trans le opens
    | minus => exact Nat.le_trans le opens
    | plus => exact Nat.le_trans le opens
    | _ => exact opens
  | _ => exact opens

def Headed (rank : Nat) (kinds : List TokenKind) : Prop :=
  ∃ kind rest, kinds = kind :: rest ∧ Opens rank kind

theorem Headed.mono {rank lower : Nat} {kinds : List TokenKind} (headed : Headed rank kinds)
    (le : lower ≤ rank) : Headed lower kinds := by
  obtain ⟨kind, rest, same, opens⟩ := headed
  exact ⟨kind, rest, same, opens.mono le⟩

theorem Headed.append {rank : Nat} {kinds : List TokenKind} (headed : Headed rank kinds)
    (more : List TokenKind) : Headed rank (kinds ++ more) := by
  obtain ⟨kind, rest, rfl, opens⟩ := headed
  exact ⟨kind, rest ++ more, rfl, opens⟩

theorem Headed.enclosed {rank : Nat} {kinds : List TokenKind} (headed : Headed rank kinds)
    (place : Nat) : Headed place (enclosed place rank kinds) := by
  unfold Expression.enclosed
  split
  · exact ⟨_, _, rfl, trivial⟩
  · exact headed.mono (by omega)

theorem Headed.skip?_eq_none {rank : Nat} {kinds : List TokenKind} (headed : Headed rank kinds)
    (symbol : Symbol) (shut : ¬ Opens rank (.symbol symbol)) {list : List Token}
    (spelled : list.map Token.kind = kinds) (rest : List Token) :
    skip? symbol (list ++ rest) = none := by
  obtain ⟨kind, others, rfl, opens⟩ := headed
  obtain ⟨token, more, rfl, rfl, _⟩ := List.map_eq_cons_iff.mp spelled
  rw [List.cons_append, skip?, if_neg]
  intro same
  exact shut (same ▸ opens)

theorem Headed.sign?_eq_none {kinds : List TokenKind} (headed : Headed 8 kinds) {list : List Token}
    (spelled : list.map Token.kind = kinds) (rest : List Token) :
    operator? sign? (list ++ rest) = none := by
  obtain ⟨kind, others, rfl, opens⟩ := headed
  obtain ⟨⟨kind, place⟩, more, rfl, rfl, _⟩ := List.map_eq_cons_iff.mp spelled
  cases kind with
  | symbol symbol =>
    cases symbol with
    | minus => exact absurd opens (by simp [Opens])
    | plus => exact absurd opens (by simp [Opens])
    | _ => rfl
  | _ => rfl

section Places
variable {inner : Level} {kinds : List TokenKind} {tree : Tree} {deep deeper : Prop}

/-- A piece has been read, and what follows may go on with it. -/
def Follows (deep : Prop) (inner : Level) (kinds : List TokenKind) (tree : Tree) : Prop :=
  ∀ list rest, list.map Token.kind = kinds →
    ∃ fuel, rest.length ≤ fuel ∧
      Comes deep (postfixed inner (list ++ rest)) (postfixFrom inner fuel tree rest)

/-- A signed operand or a power is read, whatever fuel there is beyond its own tokens. -/
def Raises (deep : Prop) (inner : Level) (kinds : List TokenKind) (tree : Tree) : Prop :=
  ∀ list rest, list.map Token.kind = kinds → Closed 7 rest → ∀ fuel, kinds.length < fuel →
    Comes deep (signedFrom inner fuel (list ++ rest)) (.ok (tree, rest))

def ReadsAt (deep : Prop) (inner : Level) : Nat → List TokenKind → Tree → Prop
  | 0 => Finishes deep (expression inner) 0
  | 1 => Begins deep disjunction? (fun _ => .disjunction)
      (chain conjunction? (fun _ => .conjunction) (negation inner)) 1
  | 2 => Begins deep conjunction? (fun _ => .conjunction) (negation inner) 2
  | 3 => Finishes deep (negation inner) 3
  | 4 => Finishes deep (comparison inner) 4
  | 5 => Begins deep sum? .arithmetic (chain product? .arithmetic (signed inner)) 5
  | 6 => Begins deep product? .arithmetic (signed inner) 6
  | 7 => Raises deep inner
  | _ => Follows deep inner

theorem Follows.imp (read : Follows deep inner kinds tree) (more : deep → deeper) :
    Follows deeper inner kinds tree := by
  intro list rest spelled
  obtain ⟨fuel, enough, comes⟩ := read list rest spelled
  exact ⟨fuel, enough, comes.imp more⟩

theorem Raises.imp (read : Raises deep inner kinds tree) (more : deep → deeper) :
    Raises deeper inner kinds tree :=
  fun list rest spelled closed fuel enough => (read list rest spelled closed fuel enough).imp more

theorem ReadsAt.imp {place : Nat} (read : ReadsAt deep inner place kinds tree)
    (more : deep → deeper) : ReadsAt deeper inner place kinds tree := by
  match place, read with
  | 0, read => exact Finishes.imp read more
  | 1, read => exact Begins.imp read more
  | 2, read => exact Begins.imp read more
  | 3, read => exact Finishes.imp read more
  | 4, read => exact Finishes.imp read more
  | 5, read => exact Begins.imp read more
  | 6, read => exact Begins.imp read more
  | 7, read => exact Raises.imp read more
  | _ + 8, read => exact Follows.imp read more

theorem disjunction_level (symbol : Symbol) (operator : Unit)
    (found : disjunction? symbol = some operator) : symbol.level? = some 1 := by
  cases symbol with
  | or => rfl
  | _ => cases found

theorem conjunction_level (symbol : Symbol) (operator : Unit)
    (found : conjunction? symbol = some operator) : symbol.level? = some 2 := by
  cases symbol with
  | and => rfl
  | _ => cases found

theorem comparison_level (symbol : Symbol) (operator : Comparison)
    (found : comparison? symbol = some operator) : symbol.level? = some 4 := by
  cases symbol with
  | equal | unequal | less | atMost | greater | atLeast => rfl
  | _ => cases found

theorem sum_level (symbol : Symbol) (operator : Arithmetic)
    (found : sum? symbol = some operator) : symbol.level? = some 5 := by
  cases symbol with
  | plus | minus => rfl
  | _ => cases found

theorem product_level (symbol : Symbol) (operator : Arithmetic)
    (found : product? symbol = some operator) : symbol.level? = some 6 := by
  cases symbol with
  | times | «over» | floorOver | modulo => rfl
  | _ => cases found

theorem postfixFrom_closed {place : Nat} (le : place ≤ 8) {rest : List Token}
    (closed : Closed place rest) (fuel : Nat) :
    postfixFrom inner fuel tree rest = .ok (tree, rest) := by
  cases fuel with
  | zero => rfl
  | succ fuel =>
    rw [postfixFrom, closed.skip?_eq_none .dot rfl le, closed.skip?_eq_none .openBracket rfl le,
      closed.skip?_eq_none .openParen rfl le]

/-- A piece is an operand that no sign stands before. -/
theorem raises_of_follows (headed : Headed 8 kinds) (read : Follows deep inner kinds tree) :
    Raises deep inner kinds tree := by
  intro list rest spelled closed fuel enough
  cases fuel with
  | zero => exact absurd enough (Nat.not_lt_zero _)
  | succ fuel =>
    rw [signedFrom, headed.sign?_eq_none spelled rest]
    obtain ⟨more, _, followed⟩ := read list rest spelled
    rw [postfixFrom_closed (by decide) closed] at followed
    refine followed.bind_ok (.inl ?_)
    have stop := closed.skip?_eq_none .power rfl (Nat.le_refl 7)
    simp only [stop]

theorem Raises.finishes (read : Raises deep inner kinds tree) :
    Finishes deep (signed inner) 7 kinds tree := by
  intro list rest spelled closed
  refine read list rest spelled closed ((list ++ rest).length + 1) ?_
  have size := congrArg List.length spelled
  rw [List.length_map] at size
  rw [List.length_append]
  omega

theorem comparison_of_sum (read : Finishes deep (sum inner) 5 kinds tree) :
    Finishes deep (comparison inner) 4 kinds tree := by
  intro list rest spelled closed
  refine (read list rest spelled (closed.mono (by decide))).bind_ok (.inl ?_)
  have stop := closed.operator?_eq_none comparison_level (Nat.le_refl 4)
  have none : comparisonsFrom (sum inner) rest.length rest = .ok ([], rest) := by
    cases rest with
    | nil => rfl
    | cons token rest => rw [List.length_cons, comparisonsFrom, stop]
  simp only [none]
  rfl

theorem negation_of_comparison (headed : Headed 4 kinds)
    (read : Finishes deep (comparison inner) 4 kinds tree) :
    Finishes deep (negation inner) 3 kinds tree := by
  intro list rest spelled closed
  have plain := headed.skip?_eq_none .not (by simp [Opens]) spelled rest
  rw [negation, plain]
  exact read list rest spelled (closed.mono (by decide))

theorem expression_of_alternatives (read : Finishes deep (alternatives inner) 1 kinds tree) :
    Finishes deep (expression inner) 0 kinds tree := by
  intro list rest spelled closed
  refine (read list rest spelled (closed.mono (by decide))).bind_ok (.inl ?_)
  have stop := closed.skip?_eq_none .question rfl (Nat.le_refl 0)
  simp only [stop]

/-- What is read at a place is read at the next looser one. -/
theorem ReadsAt.one_place_down {place : Nat} (below : place < 8) (headed : Headed (place + 1) kinds)
    (read : ReadsAt deep inner (place + 1) kinds tree) : ReadsAt deep inner place kinds tree := by
  match place, below with
  | 0, _ => exact expression_of_alternatives (Begins.finishes disjunction_level read)
  | 1, _ => exact begins_operand (Begins.finishes conjunction_level read)
  | 2, _ => exact begins_operand read
  | 3, _ => exact negation_of_comparison headed read
  | 4, _ => exact comparison_of_sum (Begins.finishes sum_level read)
  | 5, _ => exact begins_operand (Begins.finishes product_level read)
  | 6, _ => exact begins_operand (Raises.finishes read)
  | 7, _ => exact raises_of_follows headed read

theorem ReadsAt.places_down {rank place : Nat} (le : place ≤ rank) (bound : rank ≤ 8)
    (headed : Headed rank kinds) (read : ReadsAt deep inner rank kinds tree) :
    ReadsAt deep inner place kinds tree := by
  induction rank with
  | zero =>
    obtain rfl := Nat.le_zero.mp le
    exact read
  | succ rank ih =>
    rcases Nat.lt_or_eq_of_le le with below | rfl
    · exact ih (Nat.le_of_lt_succ below) (Nat.le_of_succ_le bound) (headed.mono (Nat.le_succ rank))
        (read.one_place_down bound headed)
    · exact read

end Places

end VirtualInstrument.Expression
