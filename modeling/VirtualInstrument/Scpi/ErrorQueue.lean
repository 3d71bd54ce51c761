import VirtualInstrument.Decimal.Style
import VirtualInstrument.Text.Blank
/- The queue of instrument errors: first in, first out, without a bound. -/
namespace VirtualInstrument.Scpi

structure ErrorEntry where
  code : Float
  message : Text
deriving DecidableEq, Repr

def noError : Text := text "+0,\"No error\""

/-- How the error query reports an entry; the code zero stands for no error. -/
def ErrorEntry.report (entry : ErrorEntry) : Text :=
  if entry.code == 0 then noError
  else Decimal.numberText entry.code ++ text ",\"" ++ entry.message ++ text "\""

structure ErrorQueue where
  entries : List ErrorEntry
deriving DecidableEq, Repr

namespace ErrorQueue

def empty : ErrorQueue := ⟨[]⟩

def push (queue : ErrorQueue) (entry : ErrorEntry) : ErrorQueue := ⟨queue.entries ++ [entry]⟩

def pop (queue : ErrorQueue) : Option ErrorEntry × ErrorQueue :=
  match queue.entries with
  | [] => (none, queue)
  | entry :: rest => (some entry, ⟨rest⟩)

def next (queue : ErrorQueue) : Text × ErrorQueue :=
  match queue.pop with
  | (some entry, rest) => (entry.report, rest)
  | (none, rest) => (noError, rest)

def size (queue : ErrorQueue) : Nat := queue.entries.length

end ErrorQueue

def errorQueries : List Text :=
  [text "", text ":"].flatMap fun colon =>
  [text "SYST", text "SYSTEM"].flatMap fun system =>
  [text ":ERR", text ":ERROR"].flatMap fun error =>
  [text "", text ":NEXT"].map fun next =>
  colon ++ system ++ error ++ next ++ text "?"

def isErrorQuery (command : Text) : Bool :=
  errorQueries.contains (Text.upperAscii (Text.trim command))

def versionQueries : List Text :=
  [text "", text ":"].flatMap fun colon =>
  [text "SYST", text "SYSTEM"].flatMap fun system =>
  [text ":VERS", text ":VERSION"].map fun version =>
  colon ++ system ++ version ++ text "?"

end VirtualInstrument.Scpi
