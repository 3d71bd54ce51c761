import VirtualInstrument.Expression.Fault
import VirtualInstrument.Schema.Verdict
/- Why a profile cannot be used. -/
namespace VirtualInstrument

inductive ProfileCause
  | missing
  | unreadable
  | notADocument
  | notAMap
  | invalid (issues : List Schema.Issue)
  | badExpression (place : Text) (fault : Expression.SyntaxFault)
  | badPattern (place : Text)
  | badRulePattern (place : Text)
  | badCondition (place : Text) (fault : Expression.SyntaxFault)
  | nothingGiven
deriving DecidableEq, Repr

def Schema.Issue.text (issue : Schema.Issue) : Text :=
  (if issue.path.isEmpty then VirtualInstrument.text "(root)" else issue.location) ++
    VirtualInstrument.text ": " ++ issue.complaint.message

def ProfileCause.message : ProfileCause → Text
  | .missing => text "Profile file does not exist"
  | .unreadable => text "Profile file could not be read"
  | .notADocument => text "Invalid JSON in profile"
  | .notAMap => text "Profile must be a JSON object"
  | .invalid issues =>
    text "Invalid profile: " ++ Text.join (text "; ") (issues.map (·.text))
  | .badExpression place fault =>
    text "Invalid expression in " ++ place ++ text ": " ++ fault.message
  | .badPattern place => text "Invalid pattern " ++ place
  | .badRulePattern place => text "Invalid pattern in " ++ place
  | .badCondition place fault =>
    text "Invalid condition in " ++ place ++ text ": " ++ fault.message
  | .nothingGiven => text "Either profilePath or profile is required"

structure ProfileFault where
  path : Text
  cause : ProfileCause
deriving DecidableEq, Repr

def ProfileFault.message (fault : ProfileFault) : Text :=
  fault.cause.message ++ text " (" ++ fault.path ++ text ")"

end VirtualInstrument
