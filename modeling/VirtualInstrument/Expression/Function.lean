import VirtualInstrument.Text.Units
/- The functions an expression can call, and the groups some of them are members of. -/
namespace VirtualInstrument.Expression

inductive Group
  | math | statistics | random | datetime
deriving DecidableEq, Repr

def Group.name : Group → Text
  | .math => text "math"
  | .statistics => text "statistics"
  | .random => text "random"
  | .datetime => text "datetime"

inductive Function
  | abs | min | max | sum | round | len | float | int | str | bool
  | sqrt | sin | cos | tan | asin | acos | atan | atan2 | exp | log | log10 | log2 | pow
  | floor | ceil | trunc | fabs | hypot | radians | degrees
  | mean | median | stdev | pstdev | variance
  | random | uniform | randint | choice
  | now | timestamp
deriving DecidableEq, Repr

def plainFunctions : List (Text × Function) := [
  (text "abs", .abs), (text "min", .min), (text "max", .max), (text "sum", .sum),
  (text "round", .round), (text "len", .len), (text "float", .float), (text "int", .int),
  (text "str", .str), (text "bool", .bool)]

def Group.functions : Group → List (Text × Function)
  | .math => [
    (text "sqrt", .sqrt), (text "sin", .sin), (text "cos", .cos), (text "tan", .tan),
    (text "asin", .asin), (text "acos", .acos), (text "atan", .atan), (text "atan2", .atan2),
    (text "exp", .exp), (text "log", .log), (text "log10", .log10), (text "log2", .log2),
    (text "pow", .pow), (text "floor", .floor), (text "ceil", .ceil), (text "trunc", .trunc),
    (text "fabs", .fabs), (text "hypot", .hypot), (text "radians", .radians),
    (text "degrees", .degrees)]
  | .statistics => [
    (text "mean", .mean), (text "median", .median), (text "stdev", .stdev),
    (text "pstdev", .pstdev), (text "variance", .variance)]
  | .random => [
    (text "random", .random), (text "uniform", .uniform), (text "randint", .randint),
    (text "choice", .choice)]
  | .datetime => [(text "now", .now), (text "timestamp", .timestamp)]

def groups : List Group := [.math, .statistics, .random, .datetime]

def allFunctions : List (Text × Function) := plainFunctions ++ groups.flatMap (·.functions)

def Function.name (f : Function) : Text :=
  ((allFunctions.find? fun entry => entry.2 == f).map (·.1)).getD []

/-- The least and the greatest number of arguments; `none` is without limit. -/
def Function.arity : Function → Nat × Option Nat
  | .min | .max => (1, none)
  | .sum | .round | .log => (1, some 2)
  | .atan2 | .pow | .uniform | .randint => (2, some 2)
  | .hypot => (1, some 8)
  | .random | .now | .timestamp => (0, some 0)
  | _ => (1, some 1)

end VirtualInstrument.Expression
