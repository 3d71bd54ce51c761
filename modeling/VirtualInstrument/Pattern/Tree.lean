import VirtualInstrument.Text.Units
/- Patterns as trees. Groups that capture are numbered from zero in the order in which they
   open. -/
namespace VirtualInstrument.Pattern

inductive SetItem
  | span (low high : CodeUnit)
  | digit (negated : Bool)
  | word (negated : Bool)
  | blank (negated : Bool)
deriving DecidableEq, Repr

structure UnitSet where
  negated : Bool
  items : List SetItem
deriving DecidableEq, Repr

/-- How often a part may be repeated; without `most` there is no limit. A greedy part takes
    another round before it tries to go on without one. -/
structure Repetition where
  least : Nat
  most : Option Nat
  greedy : Bool
deriving DecidableEq, Repr

inductive Tree
  | empty
  | unit (u : CodeUnit)
  | anyUnit
  | oneOf (units : UnitSet)
  | start
  | stop
  /-- A place between a word unit and another one; or, negated, any other place. -/
  | boundary (negated : Bool)
  | sequence (first second : Tree)
  | choice (first second : Tree)
  | group (index : Nat) (body : Tree)
  | again (index : Nat)
  /-- A condition on the text ahead, or behind, that takes none of it. -/
  | look (ahead negated : Bool) (body : Tree)
  /-- Repetition. Each round forgets what the groups `firstGroup`, ... below `nextGroup`
      captured. -/
  | rounds (count : Repetition) (firstGroup nextGroup : Nat) (body : Tree)
deriving DecidableEq, Repr, Inhabited

end VirtualInstrument.Pattern

namespace VirtualInstrument

structure Pattern where
  tree : Pattern.Tree
  groups : Nat
deriving DecidableEq, Repr, Inhabited

end VirtualInstrument
