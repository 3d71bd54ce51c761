import VirtualInstrument.Expression.Arithmetic
import VirtualInstrument.Expression.Failure
import VirtualInstrument.Expression.Value
import VirtualInstrument.Time.Calendar
import VirtualInstrument.Time.Feed
/- Calling the functions of expressions. The number of arguments is checked first; then the
   arguments are converted in the order in which they stand. -/
namespace VirtualInstrument.Expression

/-- A computation that may fail and may draw on chance and the clock. What it has drawn stays
    drawn when it fails. -/
abbrev Eval (α : Type) := ExceptT Failure (StateM Sources) α

def draw : Eval Float := fun sources =>
  let (x, rest) := sources.draw
  (.ok x, rest)

def readClock : Eval Float := fun sources =>
  let (x, rest) := sources.time
  (.ok x, rest)

def toNumber (context : Context) (value : Value) : Except Failure Float :=
  match value.asNumber? with
  | some x => .ok x
  | none => .error (.notNumber context value.describe)

def toList (context : Context) : Value → Except Failure (List Value)
  | .list items => .ok items
  | value => .error (.notList context value.describe)

def toNumbers (context : Context) : List Value → Except Failure (List Float)
  | [] => .ok []
  | value :: rest => do
    let x ← toNumber context value
    let xs ← toNumbers context rest
    .ok (x :: xs)

def render (heap : Heap) (value : Value) : Except Failure Text :=
  match value.render? heap with
  | some t => .ok t
  | none => .error .circular

def numeric? : Function → List Float → Option Float
  | .abs, [x] | .fabs, [x] => some x.abs
  | .sqrt, [x] => some x.sqrt
  | .sin, [x] => some x.sin
  | .cos, [x] => some x.cos
  | .tan, [x] => some x.tan
  | .asin, [x] => some x.asin
  | .acos, [x] => some x.acos
  | .atan, [x] => some x.atan
  | .atan2, [y, x] => some (Float.atan2 y x)
  | .exp, [x] => some x.exp
  | .log, [x] => some x.log
  | .log, [x, base] => some (x.log / base.log)
  | .log10, [x] => some x.log10
  | .log2, [x] => some x.log2
  | .pow, [x, y] => some (powerOf x y)
  | .floor, [x] => some (floorOf x)
  | .ceil, [x] => some (ceilOf x)
  | .trunc, [x] => some (truncate x)
  | .hypot, xs => some (hypotenuse xs)
  | .radians, [x] => some (x * pi / 180)
  | .degrees, [x] => some (x * 180 / pi)
  | _, _ => none

def defined (f : Function) (x : Float) : Except Failure Value :=
  if x.isNaN then .error (.undefinedResult f) else .ok (.number x)

def spread (f : Function) : List Value → Except Failure (List Float)
  | [.list items] => toNumbers (.function f) items
  | arguments => toNumbers (.function f) arguments

def points (f : Function) (least : Nat) (value : Value) : Except Failure (List Float) := do
  let xs ← toNumbers (.function f) (← toList (.function f) value)
  if xs.length < least then .error (.fewPoints f least) else .ok xs

def lengthOf (heap : Heap) : Value → Except Failure Value
  | .string t => .ok (.number (Float.ofNat t.length))
  | .list items => .ok (.number (Float.ofNat items.length))
  | .map address => .ok (.number (Float.ofNat (heap.fields address).length))
  | value => .error (.withoutLength value.describe)

def applyFixed (heap : Heap) (f : Function) (arguments : List Value) : Except Failure Value :=
  match f, arguments with
  | .min, _ => do
    let xs ← spread f arguments
    if xs.isEmpty then .error (.emptyList f) else .ok (.number (leastOf xs))
  | .max, _ => do
    let xs ← spread f arguments
    if xs.isEmpty then .error (.emptyList f) else .ok (.number (greatestOf xs))
  | .sum, [items] => do
    let xs ← toNumbers (.function f) (← toList (.function f) items)
    .ok (.number (total 0 xs))
  | .sum, [items, start] => do
    let first ← toNumber (.function f) start
    let xs ← toNumbers (.function f) (← toList (.function f) items)
    .ok (.number (total first xs))
  | .round, [value] => do
    let x ← toNumber (.function f) value
    .ok (.number (roundPlaces x 0))
  | .round, [value, places] => do
    let digits ← toNumber (.function f) places
    let x ← toNumber (.function f) value
    .ok (.number (roundPlaces x (truncate digits)))
  | .len, [value] => lengthOf heap value
  | .float, [value] => do .ok (.number (← toNumber (.function f) value))
  | .int, [value] => do .ok (.number (truncate (← toNumber (.function f) value)))
  | .str, [value] => do .ok (.string (← render heap value))
  | .bool, [value] => .ok (.boolean (value.isTruthy heap))
  | .mean, [value] => do .ok (.number (meanOf (← points f 1 value)))
  | .median, [value] => do .ok (.number (medianOf (← points f 1 value)))
  | .stdev, [value] => do .ok (.number (Float.sqrt (varianceOf (← points f 2 value) true)))
  | .pstdev, [value] => do .ok (.number (Float.sqrt (varianceOf (← points f 1 value) false)))
  | .variance, [value] => do .ok (.number (varianceOf (← points f 2 value) true))
  | _, _ => do
    let xs ← toNumbers (.function f) arguments
    match numeric? f xs with
    | some x => defined f x
    | none => .error (.undefinedResult f)

def drawWhole (low high : Float) : Eval Value := do
  if (wholeOf? low).isNone || (wholeOf? high).isNone || high < low then
    throw (.emptyRange (Decimal.numberText low) (Decimal.numberText high))
  else
    let chance ← draw
    liftM (defined .randint (low + floorOf (chance * (high - low + 1))))

/-- An item of a list. Chance is below one, so the place is one of the list's. -/
def drawItem (value : Value) : Eval Value := do
  let items ← liftM (toList (.function .choice) value)
  if items.isEmpty then throw .emptyChoice
  else
    let chance ← draw
    let place := (wholeOf? (floorOf (chance * Float.ofNat items.length))).getD 0
    return items.getD place.toNat .null

def Function.accepts (f : Function) (count : Nat) : Bool :=
  f.arity.1 ≤ count && match f.arity.2 with
    | some most => count ≤ most
    | none => true

def apply (heap : Heap) (f : Function) (arguments : List Value) : Eval Value := do
  if !f.accepts arguments.length then throw (.wrongCount f arguments.length)
  else match f, arguments with
    | .random, _ => return .number (← draw)
    | .uniform, [a, b] =>
      let low ← liftM (toNumber (.function f) a)
      let high ← liftM (toNumber (.function f) b)
      let chance ← draw
      liftM (defined f (low + (high - low) * chance))
    | .randint, [a, b] =>
      let low ← liftM (toNumber (.function f) a)
      let high ← liftM (toNumber (.function f) b)
      drawWhole low high
    | .choice, [items] => drawItem items
    | .now, _ =>
      match Time.moment? (← readClock) with
      | some ms => return .string (Time.momentText ms)
      | none => throw .noMoment
    | .timestamp, _ =>
      match Time.moment? (← readClock) with
      | some ms => return .number (Float.ofInt ms / 1000)
      | none => return .number nan
    | _, _ => liftM (applyFixed heap f arguments)

end VirtualInstrument.Expression
