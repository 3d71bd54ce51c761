import VirtualInstrument.Text.Units
/- Paths: segments with slashes between them. A path that starts with a slash is absolute, any
   other one is relative to the top directory. -/
namespace VirtualInstrument.Path

open Text

def slash : CodeUnit := unit '/'

def here : Text := text "."

def parent : Text := text ".."

def isAbsolute (path : Text) : Bool := path.head? == some slash

/-- One more segment behind settled ones, which are listed the last first. A step to the parent
    takes back the segment before it; where there is none, an absolute path stays at the top
    and a relative one keeps the step. -/
def settleSegment (absolute : Bool) (settled : List Text) (segment : Text) : List Text :=
  if segment.isEmpty || segment = here then settled
  else if segment ≠ parent then segment :: settled
  else match settled with
    | last :: rest => if last = parent then segment :: settled else rest
    | [] => if absolute then [] else [segment]

def settle (absolute : Bool) (path : Text) : List Text :=
  ((split slash path).foldl (settleSegment absolute) []).reverse

def joinSegments (segments : List Text) : Text := join [slash] segments

/-- The shortest spelling of a path; a slash at its end is kept. -/
def normalize (path : Text) : Text :=
  let absolute := isAbsolute path
  let body := joinSegments (settle absolute path)
  let closed := path.getLast? == some slash
  if absolute then
    if body.isEmpty then [slash] else slash :: body ++ (if closed then [slash] else [])
  else (if body.isEmpty then here else body) ++ (if closed then [slash] else [])

def joined (parts : List Text) : Text := normalize (joinSegments (parts.filter (!·.isEmpty)))

def place (path : Text) : List Text := settle true path

def absolute (path : Text) : Text := slash :: joinSegments (place path)

def wayBetween : List Text → List Text → List Text
  | a :: base, b :: target =>
    if a = b then wayBetween base target
    else List.replicate (base.length + 1) parent ++ b :: target
  | base, target => List.replicate base.length parent ++ target

def relative (base target : Text) : Text := joinSegments (wayBetween (place base) (place target))

def withoutTrailing (path : Text) : Text := (path.reverse.dropWhile (· == slash)).reverse

def directory (path : Text) : Text :=
  let rest := ((withoutTrailing path).reverse.dropWhile (· != slash)).reverse
  if (withoutTrailing path).isEmpty then (if isAbsolute path then [slash] else here)
  else if rest.isEmpty then here
  else if rest = [slash] then [slash]
  else rest.dropLast

def name (path : Text) : Text :=
  ((withoutTrailing path).reverse.takeWhile (· != slash)).reverse

/-- A name without its extension: what stands before its last point, unless the name starts
    with that point or is the step to the parent. -/
def stem (name : Text) : Text :=
  let front := (name.reverse.dropWhile (· != unit '.')).reverse.dropLast
  if front.isEmpty || name = parent then name else front

end VirtualInstrument.Path
