import VirtualInstrument.Proofs.Expression.Provenance
import VirtualInstrument.Proofs.State.Loops
/- Values that can be written out. A value has a text unless a map belongs to it that contains
   itself. -/
namespace VirtualInstrument.Expression

mutual

theorem toDocument?_ofStored (heap : Heap) (value : Stored) :
    (Value.ofStored value).toDocument? heap = heap.unload? value := by
  cases value with
  | list items =>
    rw [Value.ofStored, Value.toDocument?, toDocuments?_ofStored heap items]
    rfl
  | _ => rfl

theorem toDocuments?_ofStored (heap : Heap) (items : List Stored) :
    Value.toDocuments? heap (Value.ofStoredItems items) =
      Heap.unloadItems (heap.unloadMap heap.maps.size) items := by
  cases items with
  | nil => rfl
  | cons item rest =>
    rw [Value.ofStoredItems, Value.toDocuments?, toDocument?_ofStored heap item,
      toDocuments?_ofStored heap rest]
    rfl

end

def Value.Ends (heap : Heap) (value : Value) : Prop :=
  value.Only fun address => ¬ heap.Endless (.map address)

theorem Value.only_of_all {property : Address → Prop} (all : ∀ address, property address)
    (value : Value) : value.Only property := by
  cases value with
  | null => exact .null
  | boolean b => exact .boolean b
  | number x => exact .number x
  | string t => exact .string t
  | list items => exact .list fun item _ => only_of_all all item
  | map address => exact .map (all address)
  | group g => exact .group g
  | function f => exact .function f

mutual

theorem ends_of_document {heap : Heap} (sound : heap.Sound) (present : 0 < heap.maps.size)
    {value : Value} {document : Document} (shown : value.toDocument? heap = some document) :
    value.Ends heap := by
  cases value with
  | null => exact .null
  | boolean b => exact .boolean b
  | number x => exact .number x
  | string t => exact .string t
  | list items =>
    obtain ⟨documents, all, _⟩ := Option.map_eq_some_iff.mp shown
    exact .list (ends_of_documents sound present all)
  | map address =>
    refine .map fun endless => ?_
    rw [Value.toDocument?, (Heap.unload?_eq_none_iff sound present _).mpr endless] at shown
    cases shown
  | group g => exact .group g
  | function f => exact .function f

theorem ends_of_documents {heap : Heap} (sound : heap.Sound) (present : 0 < heap.maps.size)
    {items : List Value} {documents : List Document}
    (shown : Value.toDocuments? heap items = some documents) : ∀ item ∈ items, item.Ends heap := by
  cases items with
  | nil => simp
  | cons item rest =>
    obtain ⟨document, one, tail⟩ := Option.bind_eq_some_iff.mp shown
    obtain ⟨others, all, _⟩ := Option.bind_eq_some_iff.mp tail
    exact List.forall_mem_cons.mpr
      ⟨ends_of_document sound present one, ends_of_documents sound present all⟩

end

theorem toDocuments?_some {heap : Heap} {items : List Value}
    (each : ∀ item ∈ items, ∃ document, item.toDocument? heap = some document) :
    ∃ documents, Value.toDocuments? heap items = some documents := by
  induction items with
  | nil => exact ⟨[], rfl⟩
  | cons item rest ih =>
    obtain ⟨⟨document, one⟩, later⟩ := List.forall_mem_cons.mp each
    obtain ⟨others, all⟩ := ih later
    exact ⟨document :: others, by rw [Value.toDocuments?, one, all]; rfl⟩

theorem document_of_ends {heap : Heap} (sound : heap.Sound) (present : 0 < heap.maps.size)
    {value : Value} (ends : value.Ends heap) :
    ∃ document, value.toDocument? heap = some document := by
  induction ends with
  | list _ ih =>
    obtain ⟨documents, all⟩ := toDocuments?_some ih
    exact ⟨.list documents, by rw [Value.toDocument?, all]; rfl⟩
  | map finite =>
    apply Option.ne_none_iff_exists'.mp
    intro none
    exact finite ((Heap.unload?_eq_none_iff sound present _).mp none)
  | _ => exact ⟨_, rfl⟩

/-- The values that cannot be written out are those that do not end. -/
theorem toDocument?_eq_none_iff {heap : Heap} (sound : heap.Sound) (present : 0 < heap.maps.size)
    (value : Value) : value.toDocument? heap = none ↔ ¬ value.Ends heap := by
  constructor
  · intro none ends
    obtain ⟨document, shown⟩ := document_of_ends sound present ends
    rw [none] at shown
    cases shown
  · intro endless
    by_contra shown
    obtain ⟨document, found⟩ := Option.ne_none_iff_exists'.mp shown
    exact endless (ends_of_document sound present found)

theorem render?_eq_none_iff {heap : Heap} (sound : heap.Sound) (present : 0 < heap.maps.size)
    (value : Value) : value.render? heap = none ↔ ¬ value.Ends heap := by
  rw [← toDocument?_eq_none_iff sound present]
  cases value with
  | list items => simp [Value.render?]
  | map address => simp [Value.render?]
  | _ => simp [Value.render?, Value.toDocument?]

end VirtualInstrument.Expression
