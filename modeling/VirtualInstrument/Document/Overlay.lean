import VirtualInstrument.Document.Basic
/- Laying one document over another. Where both have a map the maps are joined entry by
   entry; where both have a list the overlay's items come first; anywhere else the overlay
   decides. -/
namespace VirtualInstrument.Document

mutual

def overlayValue (existing : Option Document) : Document → Document
  | .map fields =>
    match existing with
    | some (.map base) => .map (overlayFields base fields)
    | _ => .map fields
  | .list items =>
    match existing with
    | some (.list base) => .list (items ++ base)
    | _ => .list items
  | other => other

/-- The entries of a map under those of an overlay. The reserved name is changed where it is
    listed, and is not added. -/
def overlayFields (base : Fields Document) : List (Text × Document) → Fields Document
  | [] => base
  | (name, value) :: rest =>
    if name = Fields.reservedName ∧ base.has name = false then overlayFields base rest
    else overlayFields (base.set name (overlayValue (base.get? name) value)) rest

end

end VirtualInstrument.Document
