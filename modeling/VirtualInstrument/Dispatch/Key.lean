import VirtualInstrument.Dispatch.Template
import VirtualInstrument.Pattern.Reader
import VirtualInstrument.Text.Blank
import VirtualInstrument.Text.Upper
/- Command keys. A key is exact, a glob in which a star or a placeholder stands for any text,
   or a regular expression. The fewer wildcards and the more fixed units a key has, the more
   specific it is. -/
namespace VirtualInstrument.Dispatch

open Text

def patternMark : Text := text "re:"

def isCommon : Text → Bool
  | u :: v :: _ => u == unit '*' && isLetter v
  | _ => false

def isPatternUnit (u : CodeUnit) : Bool :=
  u == unit '[' || u == unit ']' || u == unit '(' || u == unit ')' || u == 123 || u == 125 ||
    u == unit '+' || u == unit '|' || u == unit '^' || u == unit '\\'

/-- A star anywhere but at the start of a common command. -/
def hasStar (key : Text) : Bool :=
  let trimmed := trim key
  (if isCommon trimmed then trimmed.drop 1 else trimmed).contains (unit '*')

def isPatternKey (key : Text) : Bool :=
  patternMark.isPrefixOf key || hasStar key || hasPlaceholder key || key.any isPatternUnit

/-- Whether a pattern key is a regular expression; beside a placeholder the units of regular
    expressions stand for themselves. -/
def isRegular (key : Text) : Bool :=
  patternMark.isPrefixOf key || (key.any isPatternUnit && !hasPlaceholder key)

def isSyntaxUnit (u : CodeUnit) : Bool :=
  isPatternUnit u || u == unit '.' || u == unit '*' || u == unit '?' || u == unit '$'

def escape (t : Text) : Text :=
  t.flatMap fun u => if isSyntaxUnit u then [unit '\\', u] else [u]

structure CompiledKey where
  source : Text
  wildcards : Nat
  literalLength : Nat
deriving DecidableEq, Repr

def CompiledKey.literal (u : CodeUnit) (rest : CompiledKey) : CompiledKey :=
  ⟨escape [u] ++ rest.source, rest.wildcards, rest.literalLength + 1⟩

def CompiledKey.wildcard (source : Text) (rest : CompiledKey) : CompiledKey :=
  ⟨source ++ rest.source, rest.wildcards + 1, rest.literalLength⟩

/-- A glob: a star is any text, a placeholder any text but the empty one, and all other units
    stand for themselves. -/
def compileGlobWithin : Nat → Text → CompiledKey
  | _, [] => ⟨[], 0, 0⟩
  | 0, _ :: _ => ⟨[], 0, 0⟩
  | fuel + 1, u :: rest =>
    if u = unit '*' then (compileGlobWithin fuel rest).wildcard (text "(.*?)")
    else match placeholder? (u :: rest) with
      | some (_, more) => (compileGlobWithin fuel more).wildcard (text "(.+?)")
      | none => (compileGlobWithin fuel rest).literal u

def compileGlob (glob : Text) : CompiledKey :=
  match glob with
  | star :: rest =>
    if isCommon glob then (compileGlobWithin rest.length rest).literal star
    else compileGlobWithin glob.length glob
  | [] => compileGlobWithin 0 []

/-- The wildcards of a regular expression and the units it has besides; an escape counts as
    one unit. -/
def measure : Text → Nat × Nat
  | [] => (0, 0)
  | [u] => if isWildcardUnit u then (1, 0) else (0, 1)
  | u :: v :: rest =>
    if u = unit '\\' ∧ !isLineTerminator v then
      let (wildcards, others) := measure rest
      (wildcards, others + 1)
    else
      let (wildcards, others) := measure (v :: rest)
      if isWildcardUnit u then (wildcards + 1, others) else (wildcards, others + 1)
where
  isWildcardUnit (u : CodeUnit) : Bool :=
    u == unit '*' || u == unit '+' || u == unit '?' || u == unit '.' || u == unit '['

def compileRegular (body : Text) : CompiledKey :=
  let (wildcards, others) := measure body
  ⟨body, wildcards, others⟩

def compileKey (key : Text) : CompiledKey :=
  if isRegular key then compileRegular ((after? patternMark key).getD key)
  else compileGlob (trim key)

def anchor (source : Text) : Text := text "^(?:" ++ source ++ text ")$"

def anchored? (source : Text) : Option Pattern := Pattern.read? (anchor source)

def exactKey (t : Text) : Text := upper (trim t)

end VirtualInstrument.Dispatch
