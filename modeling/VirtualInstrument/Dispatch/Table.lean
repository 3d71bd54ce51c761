import VirtualInstrument.Dispatch.Entry
import VirtualInstrument.Dispatch.Key
import VirtualInstrument.Pattern.Matcher
/- The dispatch table. A command is answered by its exact entry, or else by the most specific
   pattern that matches the whole of it. -/
namespace VirtualInstrument.Dispatch

open Profile

structure Rule (ν : Type) where
  key : Text
  matcher : Pattern
  entry : Entry ν
  wildcards : Nat
  literalLength : Nat
  /-- The number of patterns that were there before it. -/
  order : Nat

structure ErrorRule where
  matcher : Pattern
  condition : Expression
  code : Float
  message : Text

/-- Exact entries in the order in which their keys came first, patterns the most specific
    first, and error rules as they are declared. -/
structure Table (ν : Type) where
  exact : Fields (Entry ν)
  patterns : List (Rule ν)
  errors : List ErrorRule

variable {ν μ : Type}

/-- Fewer wildcards go first, then more fixed units, then the earlier rule. -/
def Rule.precedes (a b : Rule ν) : Bool :=
  if a.wildcards ≠ b.wildcards then a.wildcards < b.wildcards
  else if a.literalLength ≠ b.literalLength then b.literalLength < a.literalLength
  else a.order < b.order

def insertRule (rule : Rule ν) : List (Rule ν) → List (Rule ν)
  | [] => [rule]
  | first :: rest =>
    if rule.precedes first then rule :: first :: rest else first :: insertRule rule rest

def replaceEntry (key : Text) (entry : Entry ν) : List (Rule ν) → List (Rule ν)
  | [] => []
  | rule :: rest =>
    if rule.key = key then { rule with entry } :: rest
    else rule :: replaceEntry key entry rest

namespace Table

def empty : Table ν := ⟨[], [], []⟩

def placeOf (key : Text) : Text := text "scpi[\"" ++ key ++ text "\"]"

/-- Puts an entry under a key. One that is there already is replaced at its place. -/
def insert (table : Table ν) (key : Text) (entry : Entry ν) :
    Except ProfileCause (Table ν) :=
  if !isPatternKey key then .ok { table with exact := table.exact.put (exactKey key) entry }
  else if table.patterns.any (·.key == key) then
    .ok { table with patterns := replaceEntry key entry table.patterns }
  else
    let compiled := compileKey key
    match anchored? compiled.source with
    | none => .error (.badPattern (placeOf key))
    | some matcher =>
      let rule := ⟨key, matcher, entry, compiled.wildcards, compiled.literalLength,
        table.patterns.length⟩
      .ok { table with patterns := insertRule rule table.patterns }

def add (table : Table Document) (key : Text) (spec : EntrySpec) :
    Except ProfileCause (Table Document) := do
  let entry ← compileEntry spec (placeOf key)
  table.insert key entry

def addAll (table : Table Document) :
    List (Text × EntrySpec) → Except ProfileCause (Table Document)
  | [] => .ok table
  | (key, spec) :: rest => do
    let next ← table.add key spec
    next.addAll rest

def errorPlace (index : Nat) : Text := text "errors[" ++ Text.ofNat index ++ text "]"

def compileError (index : Nat) (spec : ErrorSpec) : Except ProfileCause ErrorRule :=
  match anchored? spec.pattern with
  | none => .error (.badRulePattern (errorPlace index))
  | some matcher =>
    match Expression.read spec.condition with
    | .ok condition => .ok ⟨matcher, condition, spec.code, spec.message⟩
    | .error fault => .error (.badCondition (errorPlace index) fault)

def compileErrors (index : Nat) : List ErrorSpec → Except ProfileCause (List ErrorRule)
  | [] => .ok []
  | spec :: rest => do
    let rule ← compileError index spec
    let rules ← compileErrors (index + 1) rest
    .ok (rule :: rules)

def build (simulation : Simulation) : Except ProfileCause (Table Document) := do
  let table ← (empty : Table Document).addAll simulation.commands
  let errors ← compileErrors 0 simulation.errors
  .ok { table with errors }

def loadExact (heap : Heap) : Fields (Entry Document) → Heap × Fields (Entry Stored)
  | [] => (heap, [])
  | (key, entry) :: rest =>
    let (once, loaded) := entry.load heap
    let (all, others) := loadExact once rest
    (all, (key, loaded) :: others)

def loadPatterns (heap : Heap) : List (Rule Document) → Heap × List (Rule Stored)
  | [] => (heap, [])
  | rule :: rest =>
    let (once, entry) := rule.entry.load heap
    let (all, others) := loadPatterns once rest
    (all, { rule with entry } :: others)

def load (heap : Heap) (table : Table Document) : Heap × Table Stored :=
  let (afterExact, exact) := loadExact heap table.exact
  let (afterPatterns, patterns) := loadPatterns afterExact table.patterns
  (afterPatterns, ⟨exact, patterns, table.errors⟩)

end Table

structure Match (ν : Type) where
  key : Text
  entry : Entry ν
  captures : List Text

def firstMatch? (command : Text) : List (Rule ν) → Option (Match ν)
  | [] => none
  | rule :: rest =>
    match rule.matcher.captures? command with
    | some captures => some ⟨rule.key, rule.entry, captures⟩
    | none => firstMatch? command rest

def Table.match? (table : Table ν) (command : Text) : Option (Match ν) :=
  let stripped := Text.trim command
  let key := Text.upper stripped
  match table.exact.get? key with
  | some entry => some ⟨key, entry, []⟩
  | none => firstMatch? stripped table.patterns

/-- An error rule that matches a command, with the captures its condition sees: its own when
    its pattern has groups, and those of the command's entry when it has none. -/
structure MatchedRule where
  rule : ErrorRule
  captures : List Text

def Table.matchErrors (table : Table ν) (command : Text) (captures : List Text) :
    List MatchedRule :=
  table.errors.filterMap fun rule =>
    (rule.matcher.captures? (Text.trim command)).map fun own =>
      ⟨rule, if own.isEmpty then captures else own⟩

end VirtualInstrument.Dispatch
