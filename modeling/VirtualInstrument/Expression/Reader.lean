import VirtualInstrument.Expression.Token
/- Reading an expression. From the loosest binding to the tightest: the conditional, `or`,
   `and`, `not`, chains of comparisons, sums, products, signs, powers, and members, indices
   and calls. A part in brackets, a branch of a conditional and the operand of `not` or of a
   sign lie one level deeper; there are sixty-four levels, and the parsers of one level are
   built from those of the next. -/
namespace VirtualInstrument.Expression

abbrev Parser (α : Type) := List Token → Except SyntaxFault (α × List Token)

def expect (symbol : Symbol) : List Token → Except SyntaxFault (List Token)
  | [] => .error .exhausted
  | token :: rest =>
    if token.kind = .symbol symbol then .ok rest else .error (.expected symbol token.place)

def skip? (symbol : Symbol) : List Token → Option (List Token)
  | [] => none
  | token :: rest => if token.kind = .symbol symbol then some rest else none

def operator? {ω : Type} (classify : Symbol → Option ω) : List Token → Option (ω × List Token)
  | ⟨.symbol symbol, _⟩ :: rest => (classify symbol).map fun operator => (operator, rest)
  | _ => none

def chainFrom {ω : Type} (classify : Symbol → Option ω) (build : ω → Tree → Tree → Tree)
    (operand : Parser Tree) : Nat → Tree → Parser Tree
  | 0, left, tokens => .ok (left, tokens)
  | fuel + 1, left, tokens =>
    match operator? classify tokens with
    | none => .ok (left, tokens)
    | some (operator, rest) => do
      let (right, more) ← operand rest
      chainFrom classify build operand fuel (build operator left right) more

def chain {ω : Type} (classify : Symbol → Option ω) (build : ω → Tree → Tree → Tree)
    (operand : Parser Tree) : Parser Tree := fun tokens => do
  let (first, rest) ← operand tokens
  chainFrom classify build operand rest.length first rest

def disjunction? : Symbol → Option Unit
  | .or => some ()
  | _ => none

def conjunction? : Symbol → Option Unit
  | .and => some ()
  | _ => none

def sum? : Symbol → Option Arithmetic
  | .plus => some .add
  | .minus => some .subtract
  | _ => none

def product? : Symbol → Option Arithmetic
  | .times => some .multiply
  | .over => some .divide
  | .floorOver => some .floorDivide
  | .modulo => some .modulo
  | _ => none

def comparison? : Symbol → Option Comparison
  | .equal => some .equal
  | .unequal => some .unequal
  | .less => some .less
  | .atMost => some .atMost
  | .greater => some .greater
  | .atLeast => some .atLeast
  | _ => none

def sign? : Symbol → Option Sign
  | .minus => some .minus
  | .plus => some .plus
  | _ => none

def itemsFrom (expression : Parser Tree) (closing : Symbol) : Nat → Parser (List Tree)
  | 0, _ => .error .exhausted
  | fuel + 1, tokens => do
    let (item, rest) ← expression tokens
    match skip? .comma rest with
    | some more => do
      let (items, last) ← itemsFrom expression closing fuel more
      .ok (item :: items, last)
    | none => do
      let more ← expect closing rest
      .ok ([item], more)

def items (expression : Parser Tree) (closing : Symbol) : Parser (List Tree) := fun tokens =>
  match skip? closing tokens with
  | some rest => .ok ([], rest)
  | none => itemsFrom expression closing tokens.length tokens

structure Level where
  expression : Parser Tree
  negation : Parser Tree
  signed : Parser Tree
  listItems : Parser (List Tree)

def primary (inner : Level) : Parser Tree
  | [] => .error .exhausted
  | ⟨.literal value, _⟩ :: rest => .ok (.literal value, rest)
  | ⟨.name name, _⟩ :: rest => .ok (.name name, rest)
  | ⟨.symbol .openParen, _⟩ :: rest => do
    let (tree, more) ← inner.expression rest
    let last ← expect .closeParen more
    .ok (tree, last)
  | ⟨.symbol .openBracket, _⟩ :: rest => do
    let (trees, more) ← inner.listItems rest
    .ok (.list trees, more)
  | ⟨.symbol symbol, place⟩ :: _ => .error (.unexpected symbol place)
  | ⟨.stop, _⟩ :: _ => .error .unexpectedEnd

def propertyName : List Token → Except SyntaxFault (Text × List Token)
  | [] => .error .exhausted
  | ⟨.name name, _⟩ :: rest => .ok (name, rest)
  | token :: _ => .error (.expectedName token.place)

def postfixFrom (inner : Level) : Nat → Tree → Parser Tree
  | 0, tree, tokens => .ok (tree, tokens)
  | fuel + 1, tree, tokens =>
    match skip? .dot tokens, skip? .openBracket tokens, skip? .openParen tokens with
    | some rest, _, _ => do
      let (name, more) ← propertyName rest
      postfixFrom inner fuel (.member tree name) more
    | none, some rest, _ => do
      let (place, more) ← inner.expression rest
      let last ← expect .closeBracket more
      postfixFrom inner fuel (.index tree place) last
    | none, none, some rest => do
      let (arguments, more) ← items inner.expression .closeParen rest
      postfixFrom inner fuel (.call tree arguments) more
    | none, none, none => .ok (tree, tokens)

def postfixed (inner : Level) : Parser Tree := fun tokens => do
  let (tree, rest) ← primary inner tokens
  postfixFrom inner rest.length tree rest

/-- A sign and its operand, or a power. The exponent is read as an operand that may have a
    sign of its own, so powers group to the right. -/
def signedFrom (inner : Level) : Nat → Parser Tree
  | 0, _ => .error .exhausted
  | fuel + 1, tokens =>
    match operator? sign? tokens with
    | some (sign, rest) => do
      let (operand, more) ← inner.signed rest
      .ok (.signed sign operand, more)
    | none => do
      let (base, rest) ← postfixed inner tokens
      match skip? .power rest with
      | some more => do
        let (exponent, last) ← signedFrom inner fuel more
        .ok (.arithmetic .power base exponent, last)
      | none => .ok (base, rest)

def signed (inner : Level) : Parser Tree := fun tokens =>
  signedFrom inner (tokens.length + 1) tokens

def sum (inner : Level) : Parser Tree :=
  chain sum? .arithmetic (chain product? .arithmetic (signed inner))

def comparisonsFrom (operand : Parser Tree) : Nat → Parser (List (Comparison × Tree))
  | 0, tokens => .ok ([], tokens)
  | fuel + 1, tokens =>
    match operator? comparison? tokens with
    | none => .ok ([], tokens)
    | some (operator, rest) => do
      let (tree, more) ← operand rest
      let (others, last) ← comparisonsFrom operand fuel more
      .ok ((operator, tree) :: others, last)

def comparison (inner : Level) : Parser Tree := fun tokens => do
  let (first, rest) ← sum inner tokens
  match ← comparisonsFrom (sum inner) rest.length rest with
  | ([], more) => .ok (first, more)
  | (others, more) => .ok (.comparison first others, more)

def negation (inner : Level) : Parser Tree := fun tokens =>
  match skip? .not tokens with
  | some rest => do
    let (operand, more) ← inner.negation rest
    .ok (.negation operand, more)
  | none => comparison inner tokens

def alternatives (inner : Level) : Parser Tree :=
  chain disjunction? (fun _ => .disjunction)
    (chain conjunction? (fun _ => .conjunction) (negation inner))

def expression (inner : Level) : Parser Tree := fun tokens => do
  let (test, rest) ← alternatives inner tokens
  match skip? .question rest with
  | none => .ok (test, rest)
  | some more => do
    let (consequent, afterConsequent) ← inner.expression more
    let last ← expect .colon afterConsequent
    let (alternate, afterAlternate) ← inner.expression last
    .ok (.conditional test consequent alternate, afterAlternate)

/-- The parsers with room for a number of levels; without room every one of them fails. -/
def level : Nat → Level
  | 0 =>
    { expression := fun _ => .error .tooDeep
      negation := fun _ => .error .tooDeep
      signed := fun _ => .error .tooDeep
      listItems := fun _ => .error .tooDeep }
  | room + 1 =>
    let inner := level room
    { expression := expression inner
      negation := negation inner
      signed := signed inner
      listItems := items inner.expression .closeBracket }

def depthLimit : Nat := 64

def lengthLimit : Nat := 1000

def treeOf (tokens : List Token) : Except SyntaxFault Tree := do
  let (tree, rest) ← (level depthLimit).expression tokens
  match rest with
  | [] => .error .exhausted
  | token :: _ => if token.kind = .stop then .ok tree else .error (.trailing token.place)

def read (source : Text) : Except SyntaxFault Expression :=
  let trimmed := Text.trim source
  if trimmed.isEmpty then .error .empty
  else if lengthLimit < trimmed.length then .error .tooLong
  else do
    let tree ← treeOf (← tokens trimmed)
    .ok ⟨trimmed, tree⟩

end VirtualInstrument.Expression
