import VirtualInstrument.Text.Units
/- What an instrument does besides answering: it shows lines to its user, it takes time, and
   a serial one uses its device. -/
namespace VirtualInstrument

inductive Event
  | log (line : Text)
  | warning (line : Text)
  | debug (line : Text)
  /-- Milliseconds in which nothing else happens. -/
  | pause (ms : Float)
  | armed (ms : Float)
  | fired (ms : Float)
  | deviceMade (path : Text) (baudRate : Float)
  | deviceOpening
  | deviceSent (data : Text)
  | deviceClosing
deriving DecidableEq, Repr

end VirtualInstrument
