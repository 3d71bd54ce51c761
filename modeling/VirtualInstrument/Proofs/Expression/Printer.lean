import VirtualInstrument.Decimal.Style
import VirtualInstrument.Expression.Token
/- Printing expressions. A tree is written as its tokens, with one space between them, and with
   parentheses exactly where a part binds looser than its place asks for. -/
namespace VirtualInstrument.Expression

open Text

def Arithmetic.symbol : Arithmetic → Symbol
  | .add => .plus
  | .subtract => .minus
  | .multiply => .times
  | .divide => .over
  | .floorDivide => .floorOver
  | .modulo => .modulo
  | .power => .power

def Comparison.symbol : Comparison → Symbol
  | .equal => .equal
  | .unequal => .unequal
  | .less => .less
  | .atMost => .atMost
  | .greater => .greater
  | .atLeast => .atLeast

def Sign.symbol : Sign → Symbol
  | .minus => .minus
  | .plus => .plus

def Arithmetic.rank : Arithmetic → Nat
  | .add => 5
  | .subtract => 5
  | .multiply => 6
  | .divide => 6
  | .floorDivide => 6
  | .modulo => 6
  | .power => 7

/-- The places of the operands: sums and products group to the left; the base of a power is as
    tight as can be, its exponent may have a sign. -/
def Arithmetic.leftPlace : Arithmetic → Nat
  | .power => 8
  | other => other.rank

def Arithmetic.rightPlace : Arithmetic → Nat
  | .power => 7
  | other => other.rank + 1

/-- How tightly a tree binds, from the conditional up to what is one piece. -/
def Tree.rank : Tree → Nat
  | .conditional .. => 0
  | .disjunction .. => 1
  | .conjunction .. => 2
  | .negation _ => 3
  | .comparison .. => 4
  | .arithmetic operator .. => operator.rank
  | .signed .. => 7
  | _ => 8

def enclosed (place rank : Nat) (kinds : List TokenKind) : List TokenKind :=
  if rank < place then .symbol .openParen :: (kinds ++ [.symbol .closeParen]) else kinds

mutual

def Tree.kinds : Tree → List TokenKind
  | .literal value => [.literal value]
  | .list items => .symbol .openBracket :: (itemKinds items ++ [.symbol .closeBracket])
  | .name name => [.name name]
  | .member object property =>
    enclosed 8 object.rank object.kinds ++ [.symbol .dot, .name property]
  | .index object place =>
    enclosed 8 object.rank object.kinds ++
      .symbol .openBracket :: (place.kinds ++ [.symbol .closeBracket])
  | .call callee arguments =>
    enclosed 8 callee.rank callee.kinds ++
      .symbol .openParen :: (itemKinds arguments ++ [.symbol .closeParen])
  | .signed sign operand => .symbol sign.symbol :: enclosed 7 operand.rank operand.kinds
  | .negation operand => .symbol .not :: enclosed 3 operand.rank operand.kinds
  | .arithmetic operator left right =>
    enclosed operator.leftPlace left.rank left.kinds ++
      .symbol operator.symbol :: enclosed operator.rightPlace right.rank right.kinds
  | .comparison first rest => enclosed 5 first.rank first.kinds ++ comparedKinds rest
  | .conjunction left right =>
    enclosed 2 left.rank left.kinds ++ .symbol .and :: enclosed 3 right.rank right.kinds
  | .disjunction left right =>
    enclosed 1 left.rank left.kinds ++ .symbol .or :: enclosed 2 right.rank right.kinds
  | .conditional test consequent alternate =>
    enclosed 1 test.rank test.kinds ++
      .symbol .question :: (consequent.kinds ++ .symbol .colon :: alternate.kinds)

def itemKinds : List Tree → List TokenKind
  | [] => []
  | item :: rest => item.kinds ++ furtherKinds rest

def furtherKinds : List Tree → List TokenKind
  | [] => []
  | item :: rest => .symbol .comma :: (item.kinds ++ furtherKinds rest)

def comparedKinds : List (Comparison × Tree) → List TokenKind
  | [] => []
  | (operator, operand) :: rest =>
    .symbol operator.symbol :: (enclosed 5 operand.rank operand.kinds ++ comparedKinds rest)

end

def Tree.kindsAt (place : Nat) (tree : Tree) : List TokenKind :=
  enclosed place tree.rank tree.kinds

def enclosedLevels (place rank levels : Nat) : Nat := if rank < place then levels + 1 else levels

mutual

/-- How many levels there are in the print of a tree. A bracket of a list opens two. -/
def Tree.levels : Tree → Nat
  | .literal _ => 1
  | .list items => itemLevels items + 2
  | .name _ => 1
  | .member object _ => enclosedLevels 8 object.rank object.levels
  | .index object place => max (enclosedLevels 8 object.rank object.levels) (place.levels + 1)
  | .call callee arguments =>
    max (enclosedLevels 8 callee.rank callee.levels) (itemLevels arguments + 1)
  | .signed _ operand => enclosedLevels 7 operand.rank operand.levels + 1
  | .negation operand => enclosedLevels 3 operand.rank operand.levels + 1
  | .arithmetic operator left right =>
    max (enclosedLevels operator.leftPlace left.rank left.levels)
      (enclosedLevels operator.rightPlace right.rank right.levels)
  | .comparison first rest =>
    max (enclosedLevels 5 first.rank first.levels) (comparedLevels rest)
  | .conjunction left right =>
    max (enclosedLevels 2 left.rank left.levels) (enclosedLevels 3 right.rank right.levels)
  | .disjunction left right =>
    max (enclosedLevels 1 left.rank left.levels) (enclosedLevels 2 right.rank right.levels)
  | .conditional test consequent alternate =>
    max (enclosedLevels 1 test.rank test.levels)
      (max (consequent.levels + 1) (alternate.levels + 1))

def itemLevels : List Tree → Nat
  | [] => 0
  | item :: rest => max item.levels (itemLevels rest)

def comparedLevels : List (Comparison × Tree) → Nat
  | [] => 0
  | (_, operand) :: rest =>
    max (enclosedLevels 5 operand.rank operand.levels) (comparedLevels rest)

end

def Tree.levelsAt (place : Nat) (tree : Tree) : Nat := enclosedLevels place tree.rank tree.levels

theorem le_enclosedLevels (place rank levels : Nat) :
    levels ≤ enclosedLevels place rank levels := by
  unfold enclosedLevels
  split
  · exact Nat.le_succ levels
  · exact Nat.le_refl levels

theorem levels_pos : (tree : Tree) → 0 < tree.levels
  | .literal _ => Nat.one_pos
  | .list _ => Nat.succ_pos _
  | .name _ => Nat.one_pos
  | .member object _ => Nat.lt_of_lt_of_le (levels_pos object) (le_enclosedLevels _ _ _)
  | .index _ _ => Nat.lt_of_lt_of_le (Nat.succ_pos _) (Nat.le_max_right _ _)
  | .call _ _ => Nat.lt_of_lt_of_le (Nat.succ_pos _) (Nat.le_max_right _ _)
  | .signed _ _ | .negation _ => by simp [Tree.levels]
  | .arithmetic _ left _ | .conjunction left _ | .disjunction left _ =>
    Nat.lt_of_lt_of_le (levels_pos left)
      (Nat.le_trans (le_enclosedLevels _ _ _) (Nat.le_max_left _ _))
  | .comparison first _ =>
    Nat.lt_of_lt_of_le (levels_pos first)
      (Nat.le_trans (le_enclosedLevels _ _ _) (Nat.le_max_left _ _))
  | .conditional _ _ _ =>
    Nat.lt_of_lt_of_le (Nat.succ_pos _)
      (Nat.le_trans (Nat.le_max_left _ _) (Nat.le_max_right _ _))

theorem levelsAt_pos (tree : Tree) (place : Nat) : 0 < tree.levelsAt place :=
  Nat.lt_of_lt_of_le (levels_pos tree) (le_enclosedLevels _ _ _)

theorem levels_le_itemLevels {items : List Tree} {item : Tree} (listed : item ∈ items) :
    item.levels ≤ itemLevels items := by
  induction items with
  | nil => cases listed
  | cons first rest ih =>
    rw [itemLevels]
    rcases List.mem_cons.mp listed with rfl | later
    · exact Nat.le_max_left _ _
    · exact Nat.le_trans (ih later) (Nat.le_max_right _ _)

theorem levels_le_comparedLevels {parts : List (Comparison × Tree)} {part : Comparison × Tree}
    (listed : part ∈ parts) : part.2.levelsAt 5 ≤ comparedLevels parts := by
  induction parts with
  | nil => cases listed
  | cons first rest ih =>
    rw [comparedLevels]
    rcases List.mem_cons.mp listed with rfl | later
    · exact Nat.le_max_left _ _
    · exact Nat.le_trans (ih later) (Nat.le_max_right _ _)

def quoted (t : Text) : Text :=
  unit '"' :: (t.flatMap fun u =>
    if u = unit '"' ∨ u = unit '\\' then [unit '\\', u] else [u]) ++ [unit '"']

def Literal.spelling : Literal → Text
  | .null => text "null"
  | .boolean true => text "true"
  | .boolean false => text "false"
  | .number x =>
    match wholeOf? x with
    | some (.ofNat n) => Text.ofNat n
    | _ => Decimal.numberText x
  | .string t => quoted t

def TokenKind.spelling : TokenKind → Text
  | .literal value => value.spelling
  | .name t => t
  | .symbol s => s.spelling
  | .stop => []

def spaced (kinds : List TokenKind) : Text := join (text " ") (kinds.map TokenKind.spelling)

def Tree.printed (tree : Tree) : Text := spaced tree.kinds

example : (Tree.arithmetic .power (.signed .minus (.name (text "x"))) (.signed .minus
    (.arithmetic .add (.literal .null) (.list [])))).printed = text "( - x ) ** - ( null + [ ] )" := by
  decide

end VirtualInstrument.Expression
