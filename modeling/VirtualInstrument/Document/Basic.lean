import VirtualInstrument.Document.Fields
/- Documents: what a profile or session file can hold. -/
namespace VirtualInstrument

inductive Document
  | null
  | boolean (b : Bool)
  | number (x : Float)
  | string (t : Text)
  | list (items : List Document)
  | map (fields : List (Text × Document))
deriving Repr, Inhabited

namespace Document

mutual

def decEq : (a b : Document) → Decidable (a = b)
  | .null, .null => isTrue rfl
  | .boolean a, .boolean b => decidable_of_iff (a = b) (by simp)
  | .number a, .number b => decidable_of_iff (a = b) (by simp)
  | .string a, .string b => decidable_of_iff (a = b) (by simp)
  | .list a, .list b => have := decEqItems a b; decidable_of_iff (a = b) (by simp)
  | .map a, .map b => have := decEqFields a b; decidable_of_iff (a = b) (by simp)
  | .null, .boolean _ | .null, .number _ | .null, .string _ | .null, .list _ | .null, .map _
  | .boolean _, .null | .boolean _, .number _ | .boolean _, .string _ | .boolean _, .list _
  | .boolean _, .map _
  | .number _, .null | .number _, .boolean _ | .number _, .string _ | .number _, .list _
  | .number _, .map _
  | .string _, .null | .string _, .boolean _ | .string _, .number _ | .string _, .list _
  | .string _, .map _
  | .list _, .null | .list _, .boolean _ | .list _, .number _ | .list _, .string _
  | .list _, .map _
  | .map _, .null | .map _, .boolean _ | .map _, .number _ | .map _, .string _
  | .map _, .list _ => isFalse (by simp)

def decEqItems : (a b : List Document) → Decidable (a = b)
  | [], [] => isTrue rfl
  | [], _ :: _ => isFalse (by simp)
  | _ :: _, [] => isFalse (by simp)
  | a :: r, b :: s =>
    have := decEq a b
    have := decEqItems r s
    decidable_of_iff (a = b ∧ r = s) (by simp)

def decEqFields : (a b : List (Text × Document)) → Decidable (a = b)
  | [], [] => isTrue rfl
  | [], _ :: _ => isFalse (by simp)
  | _ :: _, [] => isFalse (by simp)
  | (k, a) :: r, (l, b) :: s =>
    have := decEq a b
    have := decEqFields r s
    decidable_of_iff (k = l ∧ a = b ∧ r = s) (by simp [and_assoc])

end

instance : DecidableEq Document := decEq

def ofOption : Option Document → Document
  | some d => d
  | none => .null

end Document

end VirtualInstrument
