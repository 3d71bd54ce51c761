import VirtualInstrument.Pattern.Tree
import VirtualInstrument.Text.Blank
import VirtualInstrument.Text.Upper
/- Matching. A tree is tried at a place in the text together with what has to follow it; the
   first way through wins, in the order in which the alternatives are written and a
   repetition prefers its rounds. Letter case makes no difference. -/
namespace VirtualInstrument.Pattern

open Text

/-- A place in the text, with the units before it nearest first, and what the groups hold. -/
structure Place where
  before : Text
  after : Text
  captures : List (Option Text)
deriving DecidableEq, Repr

abbrev Follow := Place → Option Place

def SetItem.has (u : CodeUnit) : SetItem → Bool
  | .span low high => low ≤ u && u ≤ high
  | .digit negated => isDigit u != negated
  | .word negated => isWordUnit u != negated
  | .blank negated => isBlank u != negated

/-- A unit is in a set when the set lists a unit that differs from it in letter case only. -/
def UnitSet.has (units : UnitSet) (u : CodeUnit) : Bool :=
  let listed := units.items.any (·.has u) ||
    (caseVariants u).any fun v => units.items.any (·.has v)
  listed != units.negated

def takeUnit (ahead : Bool) (accepts : CodeUnit → Bool) (p : Place) (follow : Follow) :
    Option Place :=
  if ahead then
    match p.after with
    | [] => none
    | u :: rest => if accepts u then follow { p with before := u :: p.before, after := rest } else none
  else
    match p.before with
    | [] => none
    | u :: rest => if accepts u then follow { p with before := rest, after := u :: p.after } else none

def takeText (ahead : Bool) : Text → Place → Follow → Option Place
  | [], p, follow => follow p
  | u :: rest, p, follow =>
    takeUnit ahead (fun v => fold v == fold u) p fun q => takeText ahead rest q follow

def Place.atBoundary (p : Place) : Bool :=
  let word (side : Text) : Bool := match side with
    | u :: _ => isWordUnit u
    | [] => false
  word p.before != word p.after

def Place.upTo (p q : Place) : Text :=
  if p.before.length ≤ q.before.length then p.after.take (q.before.length - p.before.length)
  else q.after.take (p.before.length - q.before.length)

def Place.capture (p : Place) (index : Nat) (t : Text) : Place :=
  { p with captures := p.captures.set index (some t) }

def Place.forget (p : Place) (first next : Nat) : Place :=
  { p with captures := p.captures.mapIdx fun i c => if first ≤ i ∧ i < next then none else c }

def firstOf (one : Option Place) (other : Unit → Option Place) : Option Place :=
  match one with
  | some p => some p
  | none => other ()

/-- Rounds of a body. Once the least number is reached a round must take some text, so no
    more than `fuel` rounds can follow. -/
def runRounds (body : Place → Follow → Option Place) (greedy : Bool) :
    (fuel least : Nat) → (most : Option Nat) → Place → Follow → Option Place
  | 0, _, _, _, _ => none
  | fuel + 1, least, most, p, follow =>
    if most = some 0 then follow p
    else
      let onward (q : Place) : Option Place :=
        if least = 0 ∧ q.after.length = p.after.length then none
        else runRounds body greedy fuel (least - 1) (most.map (· - 1)) q follow
      if least ≠ 0 then body p onward
      else if greedy then firstOf (body p onward) fun _ => follow p
      else firstOf (follow p) fun _ => body p onward

def Tree.run (ahead : Bool) : Tree → Place → Follow → Option Place
  | .empty, p, follow => follow p
  | .unit u, p, follow => takeUnit ahead (fun v => fold v == fold u) p follow
  | .anyUnit, p, follow => takeUnit ahead (fun v => !isLineTerminator v) p follow
  | .oneOf units, p, follow => takeUnit ahead units.has p follow
  | .start, p, follow => if p.before.isEmpty then follow p else none
  | .stop, p, follow => if p.after.isEmpty then follow p else none
  | .boundary negated, p, follow => if p.atBoundary != negated then follow p else none
  | .sequence first second, p, follow =>
    if ahead then first.run ahead p fun q => second.run ahead q follow
    else second.run ahead p fun q => first.run ahead q follow
  | .choice first second, p, follow =>
    firstOf (first.run ahead p follow) fun _ => second.run ahead p follow
  | .group index body, p, follow => body.run ahead p fun q => follow (q.capture index (p.upTo q))
  | .again index, p, follow =>
    match p.captures[index]? with
    | some (some t) => takeText ahead (if ahead then t else t.reverse) p follow
    | _ => follow p
  | .look lookAhead negated body, p, follow =>
    match body.run lookAhead p some with
    | some q => if negated then none else follow { p with captures := q.captures }
    | none => if negated then follow p else none
  | .rounds count firstGroup nextGroup body, p, follow =>
    runRounds (fun q => body.run ahead (q.forget firstGroup nextGroup)) count.greedy
      (count.least + p.before.length + p.after.length + 2) count.least count.most p follow

def searchFrom (pattern : Pattern) (before : Text) : Text → Option Place
  | [] => pattern.tree.run true ⟨before, [], List.replicate pattern.groups none⟩ some
  | u :: rest =>
    match pattern.tree.run true ⟨before, u :: rest, List.replicate pattern.groups none⟩ some with
    | some p => some p
    | none => pattern.searchFrom (u :: before) rest

/-- The captures of the leftmost match; a group that took no part holds the empty text. -/
def captures? (pattern : Pattern) (t : Text) : Option (List Text) :=
  (pattern.searchFrom [] t).map fun p => p.captures.map (·.getD [])

end VirtualInstrument.Pattern
