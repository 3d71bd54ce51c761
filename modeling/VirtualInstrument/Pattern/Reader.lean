import VirtualInstrument.Pattern.Token
/- Reading a pattern. The tokens are folded into a tree with a stack of the groups that are
   open; a token that does not fit there makes the text no pattern at all. -/
namespace VirtualInstrument.Pattern

/-- A group that is still open: the alternatives before the current one, and the parts of
    the current one, last part first. `repeatable` says whether a repetition may follow. -/
structure Frame where
  kind : GroupKind
  index : Nat
  /-- The first group that opens inside, this one included. -/
  firstGroup : Nat
  alternatives : List Tree
  parts : List Tree
  repeatable : Bool
  /-- The first group that opens inside the last part. -/
  lastFirst : Nat
deriving DecidableEq, Repr

def Frame.opening (kind : GroupKind) (groups : Nat) : Frame :=
  ⟨kind, groups, groups, [], [], false, groups⟩

def sequenceOf : List Tree → Tree
  | [] => .empty
  | [part] => part
  | part :: rest => .sequence part (sequenceOf rest)

def choiceOf : List Tree → Tree
  | [] => .empty
  | [tree] => tree
  | tree :: rest => .choice tree (choiceOf rest)

def Frame.content (frame : Frame) : Tree :=
  choiceOf (frame.alternatives ++ [sequenceOf frame.parts.reverse])

def Frame.push (frame : Frame) (tree : Tree) (repeatable : Bool) (firstGroup : Nat) : Frame :=
  { frame with parts := tree :: frame.parts, repeatable, lastFirst := firstGroup }

def Frame.close (frame : Frame) : Tree × Bool :=
  match frame.kind with
  | .plain => (frame.content, true)
  | .capturing _ => (.group frame.index frame.content, true)
  | .looking ahead negated => (.look ahead negated frame.content, ahead)

def Frame.repeated? (frame : Frame) (count : Repetition) (groups : Nat) : Option Frame :=
  match frame.repeatable, frame.parts with
  | true, last :: parts =>
    some { frame with
      parts := .rounds count frame.lastFirst groups last :: parts, repeatable := false }
  | _, _ => none

structure Progress where
  frame : Frame
  outer : List Frame
  groups : Nat
deriving DecidableEq, Repr

def Progress.initial : Progress := ⟨Frame.opening .plain 0, [], 0⟩

def Progress.step? (p : Progress) : Token → Option Progress
  | .part tree => some { p with frame := p.frame.push tree true p.groups }
  | .place tree => some { p with frame := p.frame.push tree false p.groups }
  | .repeated count => (p.frame.repeated? count p.groups).map fun frame => { p with frame }
  | .bar =>
    some { p with frame := { p.frame with
      alternatives := p.frame.alternatives ++ [sequenceOf p.frame.parts.reverse],
      parts := [], repeatable := false } }
  | .opens kind =>
    let groups := match kind with
      | .capturing _ => p.groups + 1
      | _ => p.groups
    some ⟨Frame.opening kind p.groups, p.frame :: p.outer, groups⟩
  | .closes =>
    match p.outer with
    | [] => none
    | enclosing :: outer =>
      let (tree, repeatable) := p.frame.close
      some ⟨enclosing.push tree repeatable p.frame.firstGroup, outer, p.groups⟩

def treeOf? (tokens : List Token) : Option Tree := do
  let p ← tokens.foldlM Progress.step? Progress.initial
  if p.outer.isEmpty then some p.frame.content else none

def distinct (names : List (Option Text)) : Bool :=
  let given := names.filterMap id
  given.eraseDups.length == given.length

/-- The pattern a text writes. The groups are counted first, since a reference may stand
    before its group. -/
def read? (t : Text) : Option Pattern := do
  let names := groupNames (← tokens? ⟨[]⟩ t)
  if !distinct names then none
  else
    let tree ← treeOf? (← tokens? ⟨names⟩ t)
    some ⟨tree, names.length⟩

end VirtualInstrument.Pattern
