import VirtualInstrument.Decimal.Numeral
import VirtualInstrument.Document.Fields
import VirtualInstrument.Text.Blank
/- Settings that hold for every instrument unless its own options say otherwise, read from
   environment variables. -/
namespace VirtualInstrument

structure ProfileRoots where
  /-- The profiles that come with the program. -/
  packaged : Text
  /-- The changes a user lays over them, under the same relative paths. -/
  overrides : Text
deriving DecidableEq, Repr

structure Settings where
  roots : ProfileRoots
  timeout : Float
  strictUnknownCommands : Bool
  debug : Bool
deriving DecidableEq, Repr

def defaultTimeout : Float := 5000

namespace Settings

def affirmative : List Text := [text "1", text "true", text "yes", text "on"]

def isOn (value : Option Text) : Bool :=
  affirmative.contains (Text.lowerAscii (Text.trim (value.getD [])))

/-- The positive integer that a variable starts with, or the default. -/
def positive (default : Float) (value : Option Text) : Float :=
  match Decimal.leadingInteger? (value.getD []) with
  | some x => if x ≤ 0 then default else x
  | none => default

def nonEmpty (default : Text) : Option Text → Text
  | some value => if value.isEmpty then default else value
  | none => default

def ofEnvironment (roots : ProfileRoots) (environment : Fields Text) : Settings where
  roots := {
    packaged := nonEmpty roots.packaged (environment.get? (text "SIM_PROFILE_DIR"))
    overrides := nonEmpty roots.overrides (environment.get? (text "SIM_USER_PROFILE_DIR")) }
  timeout := positive defaultTimeout (environment.get? (text "SIM_DEFAULT_TIMEOUT_MS"))
  strictUnknownCommands := isOn (environment.get? (text "SIM_STRICT_UNKNOWN_COMMANDS"))
  debug := isOn (environment.get? (text "SIM_DEBUG"))

end Settings

end VirtualInstrument
