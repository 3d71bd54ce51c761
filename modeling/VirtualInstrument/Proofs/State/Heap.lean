import VirtualInstrument.State.Store
/- What the operations on memory change: a new map is at a new address, and a map that is written
   is the only one that changes. -/
namespace VirtualInstrument

namespace Fields
variable {α : Type}

theorem get?_insertNew {fields : Fields α} {name : Text} (absent : fields.get? name = none)
    (value : α) (sought : Text) : (insertNew name value fields).get? sought =
      if name = sought then some value else fields.get? sought := by
  induction fields with
  | nil => rfl
  | cons entry rest ih =>
    have apart : entry.1 ≠ name := by
      intro same
      simp [get?, same] at absent
    have missing : Fields.get? rest name = none := by simpa [get?, apart] using absent
    simp only [insertNew]
    split
    · rfl
    · simp only [get?, ih missing]
      split
      · rename_i same
        subst same
        simp [apart.symm]
      · rfl

theorem get?_replace {fields : Fields α} {name : Text} (present : fields.has name = true)
    (value : α) (sought : Text) : (replace name value fields).get? sought =
      if name = sought then some value else fields.get? sought := by
  induction fields with
  | nil => simp [has, get?] at present
  | cons entry rest ih =>
    by_cases here : entry.1 = name
    · simp only [replace, here, if_true, get?]
      split
      · rfl
      · rfl
    · have later : Fields.has rest name = true := by simpa [has, get?, here] using present
      simp only [replace, here, if_false, get?, ih later]
      split
      · rename_i same
        subst same
        simp [Ne.symm here]
      · rfl

theorem get?_set (fields : Fields α) (name : Text) (value : α) (sought : Text) :
    (fields.set name value).get? sought =
      if name = sought then some value else fields.get? sought := by
  unfold set
  split
  · rename_i present
    exact get?_replace present value sought
  · rename_i absent
    exact get?_insertNew (by simpa [has] using absent) value sought

end Fields

namespace Heap

theorem fields_allocate_new (heap : Heap) (entries : Fields Stored) :
    (heap.allocate entries).1.fields heap.maps.size = entries := by
  simp [fields, allocate, Array.getD_eq_getD_getElem?]

theorem fields_write_same (heap : Heap) (entries : Fields Stored) {address : Address}
    (inside : address < heap.maps.size) :
    (heap.write address entries).fields address = entries := by
  simp [fields, write, Array.getD_eq_getD_getElem?, inside]

theorem fields_write_other (heap : Heap) (entries : Fields Stored) {address other : Address}
    (apart : address ≠ other) : (heap.write address entries).fields other = heap.fields other := by
  simp only [fields, write, Array.getD_eq_getD_getElem?, Array.getElem?_setIfInBounds]
  rw [if_neg apart]

end Heap

end VirtualInstrument
