import VirtualInstrument.Event
import VirtualInstrument.Text.Utf8
/- How a script talks to an instrument, whatever stands behind it: a simulation, a recorded
   session or a serial line. -/
namespace VirtualInstrument

inductive Kind
  | write
  | query
  | rawQuery
deriving DecidableEq, Repr

def Kind.label : Kind → Text
  | .write => text "write"
  | .query => text "query"
  | .rawQuery => text "query_raw"

inductive Response
  | done
  | line (t : Text)
  | bytes (b : List UInt8)
deriving DecidableEq, Repr

def Response.ofText (t : Text) : Kind → Response
  | .write => .done
  | .query => .line t
  | .rawQuery => .bytes (Text.toUtf8 t)

def Response.text? : Response → Option Text
  | .done => none
  | .line t => some t
  | .bytes b => some (Text.ofUtf8 b)

inductive Control
  | connect
  | disconnect
  | close
  | setTimeout (ms : Float)
deriving DecidableEq, Repr

/-- What a call returns, what else happens in it, in order, and what is there afterwards. -/
structure Outcome (σ ε α : Type) where
  result : Except ε α
  events : List Event
  next : σ

/-- An instrument in a state of `σ`, whose calls can fail with `ε`. A delay is in seconds, a
    timeout in milliseconds. -/
class Instrument (σ : Type) (ε : outParam Type) where
  exchange : σ → Kind → Text → Option Float → Outcome σ ε Response
  control : σ → Control → Outcome σ ε Unit
  timeout : σ → Float

end VirtualInstrument
