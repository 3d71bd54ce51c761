import VirtualInstrument.Dispatch.Template
import VirtualInstrument.Expression.Reader
import VirtualInstrument.Profile.Basic
import VirtualInstrument.Profile.Fault
import VirtualInstrument.State.Heap
/- The entries of commands, ready to run. A string that begins with `expr:` is an expression,
   one with a placeholder in it a template, any other one stands for itself. -/
namespace VirtualInstrument.Dispatch

open Profile

inductive Source (ν : Type)
  | literal (value : ν)
  | template (template : Text)
  | dynamic (expression : Expression)
deriving Repr

structure Actions (ν : Type) where
  /-- Seconds. -/
  delay : Float
  set : List (Text × Source ν)
  inc : List (Text × Source ν)
  dec : List (Text × Source ν)
  get : Option Text
  response : Option (Source ν)
deriving Repr

inductive Entry (ν : Type)
  | literal (text : Text)
  | template (template : Text)
  | dynamic (expression : Expression)
  | actions (actions : Actions ν)
deriving Repr

/-- The marks of an expression; older profiles use the second. -/
def expressionMarks : List Text := [text "expr:", text "py:"]

def expressionBody? (t : Text) : Option Text :=
  expressionMarks.findSome? fun mark => Text.after? mark (Text.trimStart t)

def compileString (t : Text) (place : Text) : Except ProfileCause (Source Document) :=
  match expressionBody? t with
  | some body =>
    match Expression.read body with
    | .ok expression => .ok (.dynamic expression)
    | .error fault => .error (.badExpression place fault)
  | none => .ok (if hasPlaceholder t then .template t else .literal (.string t))

def compileValue (value : Document) (place : Text) : Except ProfileCause (Source Document) :=
  match value with
  | .string t => compileString t place
  | other => .ok (.literal other)

def within (place part : Text) : Text := place ++ text "." ++ part

def compileAssignments (place : Text) :
    Fields Document → Except ProfileCause (List (Text × Source Document))
  | [] => .ok []
  | (key, value) :: rest => do
    let source ← compileValue value (within place key)
    let sources ← compileAssignments place rest
    .ok ((key, source) :: sources)

def compileActions (spec : ActionSpec) (place : Text) :
    Except ProfileCause (Actions Document) := do
  let set ← compileAssignments (within place (text "set")) (spec.set.getD [])
  let inc ← compileAssignments (within place (text "inc")) (spec.inc.getD [])
  let dec ← compileAssignments (within place (text "dec")) (spec.dec.getD [])
  let response ← spec.response.mapM fun t => compileString t (within place (text "response"))
  .ok ⟨spec.delay.getD 0, set, inc, dec, spec.get, response⟩

def compileEntry (spec : EntrySpec) (place : Text) : Except ProfileCause (Entry Document) :=
  match spec with
  | .actions spec => (compileActions spec place).map .actions
  | .plain t => (compileString t place).map fun source =>
    match source with
    | .dynamic expression => .dynamic expression
    | .template pieces => .template pieces
    | .literal _ => .literal t

def Source.load (heap : Heap) : Source Document → Heap × Source Stored
  | .literal value =>
    let (loaded, stored) := heap.load value
    (loaded, .literal stored)
  | .template t => (heap, .template t)
  | .dynamic expression => (heap, .dynamic expression)

def loadAssignments (heap : Heap) :
    List (Text × Source Document) → Heap × List (Text × Source Stored)
  | [] => (heap, [])
  | (key, source) :: rest =>
    let (once, loaded) := source.load heap
    let (all, others) := loadAssignments once rest
    (all, (key, loaded) :: others)

def Actions.load (heap : Heap) (actions : Actions Document) : Heap × Actions Stored :=
  let (afterSet, set) := loadAssignments heap actions.set
  let (afterInc, inc) := loadAssignments afterSet actions.inc
  let (afterDec, dec) := loadAssignments afterInc actions.dec
  match actions.response with
  | some source =>
    let (afterResponse, response) := source.load afterDec
    (afterResponse, ⟨actions.delay, set, inc, dec, actions.get, some response⟩)
  | none => (afterDec, ⟨actions.delay, set, inc, dec, actions.get, none⟩)

/-- Puts the literals of an entry into memory, so that every run of the entry hands out the
    same maps. -/
def Entry.load (heap : Heap) : Entry Document → Heap × Entry Stored
  | .literal t => (heap, .literal t)
  | .template t => (heap, .template t)
  | .dynamic expression => (heap, .dynamic expression)
  | .actions list =>
    let (loaded, stored) := list.load heap
    (loaded, .actions stored)

end VirtualInstrument.Dispatch
