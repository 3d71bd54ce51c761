import VirtualInstrument.Expression.Call
/- Evaluating an expression against the live state and the captures of a command. -/
namespace VirtualInstrument.Expression

/-- What names refer to: the memory, the top map of the state, and the captures `g1`, `g2`,
    and so on. -/
structure Scope where
  heap : Heap
  root : Address
  captures : List Text

def captureNumber? (name : Text) : Option Nat :=
  match name with
  | u :: digits =>
    if u = Text.unit 'g' ∧ !digits.isEmpty ∧ digits.all Text.isDigit then
      some (Text.digitsValue digits)
    else none
  | [] => none

def globalName? (name : Text) : Option Value :=
  match groups.find? fun g => g.name == name with
  | some g => some (.group g)
  | none => (plainFunctions.lookup name).map .function

def Group.member? (g : Group) (name : Text) : Option Value :=
  if g = .math ∧ name = text "pi" then some (.number pi)
  else if g = .math ∧ name = text "e" then some (.number euler)
  else (g.functions.lookup name).map .function

def resolve (scope : Scope) (name : Text) : Except Failure Value :=
  if name = text "state" then .ok (.map scope.root)
  else match captureNumber? name with
    | some n =>
      match if n = 0 then none else scope.captures[n - 1]? with
      | some capture => .ok (.ofCapture capture)
      | none => .error (.noCapture name)
    | none =>
      match globalName? name with
      | some value => .ok value
      | none => .error (.unknownName name)

def memberOf (heap : Heap) (object : Value) (name : Text) : Except Failure Value :=
  match object with
  | .group g =>
    match g.member? name with
    | some value => .ok value
    | none => .error (.noMember g name)
  | .map address =>
    match (heap.fields address).get? name with
    | some value => .ok (.ofStored value)
    | none => .error (.unknownKey name)
  | value => .error (.unreadable name value.describe)

/-- The item at a place; a negative place counts from the end. -/
def itemAt {α : Type} (items : List α) (place : Value) : Except Failure α := do
  let x ← toNumber .place place
  match wholeOf? x with
  | none => .error (.fractionalIndex (Decimal.numberText x))
  | some n =>
    let position := if n < 0 then items.length + n else n
    if position < 0 then .error (.outOfRange (Decimal.numberText x))
    else match items[position.toNat]? with
      | some item => .ok item
      | none => .error (.outOfRange (Decimal.numberText x))

def indexInto (heap : Heap) (object place : Value) : Except Failure Value :=
  match object with
  | .list items => itemAt items place
  | .string t => do .ok (.string [← itemAt t place])
  | _ => do memberOf heap object (← render heap place)

/-- Two values are equal when they are equal as numbers; otherwise lists, maps, functions and
    groups are compared by their texts, and anything else by itself. -/
def equal (heap : Heap) (a b : Value) : Except Failure Bool :=
  match a.asNumber?, b.asNumber? with
  | some x, some y => .ok (x == y)
  | _, _ =>
    match a, b with
    | .null, .null => .ok true
    | .string s, .string t => .ok (s == t)
    | .null, _ | .boolean _, _ | .number _, _ | .string _, _ => .ok false
    | _, .null | _, .boolean _ | _, .number _ | _, .string _ => .ok false
    | _, _ => do .ok ((← render heap a) == (← render heap b))

/-- How two values are ordered: as numbers by their difference, as strings by their units. -/
def ordered (op : Comparison) (a b : Value) : Except Failure Bool :=
  let decide (less equal more : Bool) : Bool := match op with
    | .less => less
    | .atMost => less || equal
    | .greater => more
    | .atLeast => more || equal
    | _ => false
  match a.asNumber?, b.asNumber? with
  | some x, some y =>
    let difference := x - y
    .ok (decide (difference < 0) (difference == 0) (difference > 0))
  | _, _ =>
    match a, b with
    | .string s, .string t => .ok (decide (Text.less s t) (s == t) (Text.less t s))
    | _, _ => .error (.cannotCompare a.describe b.describe)

def compare (heap : Heap) (op : Comparison) (a b : Value) : Except Failure Bool :=
  match op with
  | .equal => equal heap a b
  | .unequal => (equal heap a b).map (!·)
  | _ => ordered op a b

/-- Addition: of numbers, of lists one behind the other, or of texts when one side is one. -/
def add (heap : Heap) (a b : Value) : Except Failure Value :=
  match a.asNumber?, b.asNumber? with
  | some x, some y => .ok (.number (x + y))
  | _, _ =>
    match a, b with
    | .list xs, .list ys => .ok (.list (xs ++ ys))
    | .string _, _ | _, .string _ => do .ok (.string ((← render heap a) ++ (← render heap b)))
    | _, _ => .error (.cannotAdd a.describe b.describe)

def Arithmetic.spelling : Arithmetic → Text
  | .add => text "+"
  | .subtract => text "-"
  | .multiply => text "*"
  | .divide => text "/"
  | .floorDivide => text "//"
  | .modulo => text "%"
  | .power => text "**"

def calculate (op : Arithmetic) (x y : Float) : Except Failure Float :=
  match op with
  | .add => .ok (x + y)
  | .subtract => .ok (x - y)
  | .multiply => .ok (x * y)
  | .power => .ok (powerOf x y)
  | .divide => if y == 0 then .error .divisionByZero else .ok (x / y)
  | .floorDivide => if y == 0 then .error .divisionByZero else .ok (floorOf (x / y))
  | .modulo => if y == 0 then .error .divisionByZero else .ok (moduloOf x y)

def arithmetic (heap : Heap) (op : Arithmetic) (a b : Value) : Except Failure Value :=
  match op with
  | .add => add heap a b
  | _ => do
    let x ← toNumber (.operator op.spelling) a
    let y ← toNumber (.operator op.spelling) b
    .ok (.number (← calculate op x y))

def signedValue (sign : Sign) (value : Value) : Except Failure Value :=
  match sign with
  | .minus => do .ok (.number (-(← toNumber (.sign (text "-")) value)))
  | .plus => do .ok (.number (← toNumber (.sign (text "+")) value))

def Literal.value : Literal → Value
  | .null => .null
  | .boolean b => .boolean b
  | .number x => .number x
  | .string t => .string t

mutual

def evaluate (scope : Scope) : Tree → Eval Value
  | .literal l => pure l.value
  | .list items => do return .list (← evaluateAll scope items)
  | .name name => liftM (resolve scope name)
  | .member object property => do
    let value ← evaluate scope object
    liftM (memberOf scope.heap value property)
  | .index object place => do
    let value ← evaluate scope object
    let position ← evaluate scope place
    liftM (indexInto scope.heap value position)
  | .call callee arguments => do
    match ← evaluate scope callee with
    | .function f =>
      let values ← evaluateAll scope arguments
      apply scope.heap f values
    | value => throw (.notCallable value.describe)
  | .signed sign operand => do
    let value ← evaluate scope operand
    liftM (signedValue sign value)
  | .negation operand => do
    let value ← evaluate scope operand
    return .boolean (!value.isTruthy scope.heap)
  | .arithmetic op left right => do
    let a ← evaluate scope left
    let b ← evaluate scope right
    liftM (arithmetic scope.heap op a b)
  | .comparison first rest => do
    let value ← evaluate scope first
    evaluateChain scope value rest
  | .conjunction left right => do
    let value ← evaluate scope left
    if value.isTruthy scope.heap then evaluate scope right else return value
  | .disjunction left right => do
    let value ← evaluate scope left
    if value.isTruthy scope.heap then return value else evaluate scope right
  | .conditional test consequent alternate => do
    let value ← evaluate scope test
    if value.isTruthy scope.heap then evaluate scope consequent else evaluate scope alternate

def evaluateAll (scope : Scope) : List Tree → Eval (List Value)
  | [] => pure []
  | tree :: rest => do
    let value ← evaluate scope tree
    let values ← evaluateAll scope rest
    return value :: values

/-- A chain of comparisons from the value on its left, up to the first that is false. -/
def evaluateChain (scope : Scope) (left : Value) : List (Comparison × Tree) → Eval Value
  | [] => pure (.boolean true)
  | (op, operand) :: rest => do
    let right ← evaluate scope operand
    if ← liftM (compare scope.heap op left right) then evaluateChain scope right rest
    else return .boolean false

end

structure Unevaluated where
  source : Text
  failure : Failure
deriving DecidableEq, Repr

def Unevaluated.message (u : Unevaluated) : Text :=
  text "Expression failed: " ++ u.source ++ text ": " ++ u.failure.message

def value (expression : Expression) (scope : Scope) (sources : Sources) :
    Except Unevaluated Value × Sources :=
  let (outcome, rest) := (evaluate scope expression.tree).run sources
  (outcome.mapError (Unevaluated.mk expression.source), rest)

end VirtualInstrument.Expression
