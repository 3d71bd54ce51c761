import VirtualInstrument.Text.Units
/- Expressions as trees. -/
namespace VirtualInstrument.Expression

inductive Literal
  | null
  | boolean (b : Bool)
  | number (x : Float)
  | string (t : Text)
deriving DecidableEq, Repr, Inhabited

inductive Sign
  | minus
  | plus
deriving DecidableEq, Repr

inductive Arithmetic
  | add
  | subtract
  | multiply
  | divide
  | floorDivide
  | modulo
  | power
deriving DecidableEq, Repr

inductive Comparison
  | equal
  | unequal
  | less
  | atMost
  | greater
  | atLeast
deriving DecidableEq, Repr

inductive Tree
  | literal (value : Literal)
  | list (items : List Tree)
  | name (name : Text)
  | member (object : Tree) (property : Text)
  | index (object place : Tree)
  | call (callee : Tree) (arguments : List Tree)
  | signed (sign : Sign) (operand : Tree)
  | negation (operand : Tree)
  | arithmetic (operator : Arithmetic) (left right : Tree)
  /-- A chain `first op₁ e₁ op₂ e₂ …`. -/
  | comparison (first : Tree) (rest : List (Comparison × Tree))
  | conjunction (left right : Tree)
  | disjunction (left right : Tree)
  | conditional (test consequent alternate : Tree)
deriving Repr, Inhabited

end VirtualInstrument.Expression

namespace VirtualInstrument

structure Expression where
  source : Text
  tree : Expression.Tree
deriving Repr, Inhabited

end VirtualInstrument
