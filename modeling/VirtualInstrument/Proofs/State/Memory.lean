import VirtualInstrument.Proofs.State.Heap
/- Sound memories. No map refers to an address at which there is no map yet, so a map that is made
   is new for everything that was there before. Loading documents and setting keys keep it so. -/
namespace VirtualInstrument

/-- A value all of whose own addresses have a property; maps are not looked into. -/
inductive Stored.Only (property : Address → Prop) : Stored → Prop
  | null : Only property .null
  | boolean (b : Bool) : Only property (.boolean b)
  | number (x : Float) : Only property (.number x)
  | string (t : Text) : Only property (.string t)
  | list {items : List Stored} (all : ∀ item ∈ items, Only property item) :
      Only property (.list items)
  | map {address : Address} (holds : property address) : Only property (.map address)

theorem Stored.Only.mono {first second : Address → Prop}
    (weaker : ∀ address, first address → second address)
    {value : Stored} (only : value.Only first) : value.Only second := by
  induction only with
  | null => exact .null
  | boolean b => exact .boolean b
  | number x => exact .number x
  | string t => exact .string t
  | list _ ih => exact .list ih
  | map holds => exact .map (weaker _ holds)

abbrev Heap.Holds (heap : Heap) (value : Stored) : Prop := value.Only (· < heap.maps.size)

def Heap.HoldsAll (heap : Heap) (entries : Fields Stored) : Prop :=
  ∀ entry ∈ entries, heap.Holds entry.2

def Heap.Sound (heap : Heap) : Prop := ∀ address, heap.HoldsAll (heap.fields address)

namespace Fields
variable {α : Type}

theorem mem_of_get? {fields : Fields α} {name : Text} {value : α}
    (found : fields.get? name = some value) : (name, value) ∈ fields := by
  induction fields with
  | nil => cases found
  | cons entry rest ih =>
    obtain ⟨other, held⟩ := entry
    rw [get?] at found
    split at found
    · rename_i same
      cases found
      subst same
      exact List.mem_cons_self
    · exact List.mem_cons_of_mem _ (ih found)

theorem mem_insertNew {fields : Fields α} {name : Text} {value : α} {entry : Text × α}
    (member : entry ∈ insertNew name value fields) : entry = (name, value) ∨ entry ∈ fields := by
  induction fields with
  | nil => exact .inl (List.mem_singleton.mp member)
  | cons first rest ih =>
    rw [insertNew] at member
    split at member
    · exact List.mem_cons.mp member
    · rcases List.mem_cons.mp member with rfl | later
      · exact .inr List.mem_cons_self
      · rcases ih later with same | there
        · exact .inl same
        · exact .inr (List.mem_cons_of_mem _ there)

theorem mem_replace {fields : Fields α} {name : Text} {value : α} {entry : Text × α}
    (member : entry ∈ replace name value fields) : entry = (name, value) ∨ entry ∈ fields := by
  induction fields with
  | nil => cases member
  | cons first rest ih =>
    rw [replace] at member
    split at member
    · rcases List.mem_cons.mp member with same | later
      · exact .inl same
      · exact .inr (List.mem_cons_of_mem _ later)
    · rcases List.mem_cons.mp member with rfl | later
      · exact .inr List.mem_cons_self
      · rcases ih later with same | there
        · exact .inl same
        · exact .inr (List.mem_cons_of_mem _ there)

theorem mem_set {fields : Fields α} {name : Text} {value : α} {entry : Text × α}
    (member : entry ∈ fields.set name value) : entry = (name, value) ∨ entry ∈ fields := by
  unfold set at member
  split at member
  · exact mem_replace member
  · exact mem_insertNew member

end Fields

namespace Heap

theorem holdsAll_nil {heap : Heap} : heap.HoldsAll [] := by
  intro entry member
  cases member

theorem sound_empty : empty.Sound := by
  intro address entry member
  simp [fields, empty] at member

theorem Holds.grow {heap next : Heap} {value : Stored} (holds : heap.Holds value)
    (grows : heap.maps.size ≤ next.maps.size) : next.Holds value :=
  holds.mono fun _ inside => Nat.lt_of_lt_of_le inside grows

theorem HoldsAll.grow {heap next : Heap} {entries : Fields Stored} (holds : heap.HoldsAll entries)
    (grows : heap.maps.size ≤ next.maps.size) : next.HoldsAll entries :=
  fun entry member => (holds entry member).grow grows

theorem size_write (heap : Heap) (address : Address) (entries : Fields Stored) :
    (heap.write address entries).maps.size = heap.maps.size := by
  simp [write]

theorem size_allocate (heap : Heap) (entries : Fields Stored) :
    (heap.allocate entries).1.maps.size = heap.maps.size + 1 := by
  simp [allocate]

theorem fields_outside {heap : Heap} {address : Address} (outside : heap.maps.size ≤ address) :
    heap.fields address = [] := by
  simp [fields, Array.getD_eq_getD_getElem?, Nat.not_lt.mpr outside]

theorem fields_allocate_old (heap : Heap) (entries : Fields Stored) {address : Address}
    (old : address ≠ heap.maps.size) :
    (heap.allocate entries).1.fields address = heap.fields address := by
  simp only [fields, allocate, Array.getD_eq_getD_getElem?, Array.getElem?_push]
  rw [if_neg old]

theorem Sound.write {heap : Heap} (sound : heap.Sound) {entries : Fields Stored}
    (holds : heap.HoldsAll entries) (address : Address) : (heap.write address entries).Sound := by
  intro other
  have size := size_write heap address entries
  by_cases same : address = other
  · subst same
    by_cases inside : address < heap.maps.size
    · rw [fields_write_same heap entries inside]
      exact holds.grow (Nat.le_of_eq size.symm)
    · rw [fields_outside (size ▸ Nat.not_lt.mp inside)]
      exact holdsAll_nil
  · rw [fields_write_other heap entries same]
    exact (sound other).grow (Nat.le_of_eq size.symm)

theorem Sound.allocate {heap : Heap} (sound : heap.Sound) {entries : Fields Stored}
    (holds : heap.HoldsAll entries) : (heap.allocate entries).1.Sound := by
  intro other
  have size := size_allocate heap entries
  have grows : heap.maps.size ≤ (heap.allocate entries).1.maps.size := by omega
  by_cases same : other = heap.maps.size
  · subst same
    rw [fields_allocate_new]
    exact holds.grow grows
  · rw [fields_allocate_old heap entries same]
    exact (sound other).grow grows

/-- What loading leaves: a sound memory in which everything old is as it was. -/
structure Extends (heap next : Heap) : Prop where
  grows : heap.maps.size ≤ next.maps.size
  sound : heap.Sound → next.Sound
  old : ∀ address, address < heap.maps.size → next.fields address = heap.fields address

theorem Extends.refl (heap : Heap) : Extends heap heap :=
  ⟨Nat.le_refl _, id, fun _ _ => rfl⟩

theorem Extends.trans {a b c : Heap} (first : Extends a b) (second : Extends b c) : Extends a c := by
  refine ⟨Nat.le_trans first.grows second.grows, fun sound => second.sound (first.sound sound), ?_⟩
  intro address inside
  rw [second.old address (Nat.lt_of_lt_of_le inside first.grows), first.old address inside]

theorem extends_allocate {heap : Heap} {entries : Fields Stored} (holds : heap.HoldsAll entries) :
    Extends heap (heap.allocate entries).1 := by
  refine ⟨?_, fun sound => sound.allocate holds, ?_⟩
  · rw [size_allocate]
    exact Nat.le_succ _
  · intro address inside
    exact fields_allocate_old heap entries (Nat.ne_of_lt inside)

mutual

theorem load_extends (heap : Heap) (document : Document) :
    Extends heap (heap.load document).1 ∧ (heap.load document).1.Holds (heap.load document).2 := by
  cases document with
  | null => exact ⟨.refl heap, .null⟩
  | boolean b => exact ⟨.refl heap, .boolean b⟩
  | number x => exact ⟨.refl heap, .number x⟩
  | string t => exact ⟨.refl heap, .string t⟩
  | list items =>
    obtain ⟨extended, holds⟩ := loadItems_extends heap items
    exact ⟨extended, .list holds⟩
  | map entries =>
    obtain ⟨extended, holds⟩ := loadFields_extends heap entries
    refine ⟨extended.trans (extends_allocate holds), .map ?_⟩
    show _ < ((heap.loadFields entries).1.allocate (heap.loadFields entries).2).1.maps.size
    rw [size_allocate]
    exact Nat.lt_succ_self _

theorem loadItems_extends (heap : Heap) (items : List Document) :
    Extends heap (heap.loadItems items).1 ∧
      ∀ item ∈ (heap.loadItems items).2, (heap.loadItems items).1.Holds item := by
  cases items with
  | nil => exact ⟨.refl heap, by simp [loadItems]⟩
  | cons item rest =>
    obtain ⟨first, holds⟩ := load_extends heap item
    obtain ⟨later, others⟩ := loadItems_extends (heap.load item).1 rest
    rw [loadItems]
    exact ⟨first.trans later, List.forall_mem_cons.mpr ⟨holds.grow later.grows, others⟩⟩

theorem loadFields_extends (heap : Heap) (entries : List (Text × Document)) :
    Extends heap (heap.loadFields entries).1 ∧
      (heap.loadFields entries).1.HoldsAll (heap.loadFields entries).2 := by
  cases entries with
  | nil => exact ⟨.refl heap, by simp [loadFields, HoldsAll]⟩
  | cons entry rest =>
    obtain ⟨name, item⟩ := entry
    obtain ⟨first, holds⟩ := load_extends heap item
    obtain ⟨later, others⟩ := loadFields_extends (heap.load item).1 rest
    rw [loadFields]
    exact ⟨first.trans later, List.forall_mem_cons.mpr ⟨holds.grow later.grows, others⟩⟩

end

/-- A property of memories that stays when a map is made, at an address of a certain kind, of entries
    whose addresses are of this kind. -/
def KeptByMaps (kept : Heap → Prop) (within : Address → Prop) : Prop :=
  ∀ heap entries, kept heap → heap.HoldsAll entries → (∀ entry ∈ entries, entry.2.Only within) →
    kept (heap.allocate entries).1 ∧ within heap.maps.size

section Keeping
variable {kept : Heap → Prop} {within : Address → Prop}

mutual

theorem load_keeps (step : KeptByMaps kept within) {heap : Heap} (start : kept heap)
    (document : Document) : kept (heap.load document).1 ∧ (heap.load document).2.Only within := by
  cases document with
  | null => exact ⟨start, .null⟩
  | boolean b => exact ⟨start, .boolean b⟩
  | number x => exact ⟨start, .number x⟩
  | string t => exact ⟨start, .string t⟩
  | list items =>
    obtain ⟨done, only⟩ := loadItems_keeps step start items
    exact ⟨done, .list only⟩
  | map entries =>
    obtain ⟨done, only⟩ := loadFields_keeps step start entries
    obtain ⟨last, new⟩ := step _ _ done (loadFields_extends heap entries).2 only
    exact ⟨last, .map new⟩

theorem loadItems_keeps (step : KeptByMaps kept within) {heap : Heap} (start : kept heap)
    (items : List Document) : kept (heap.loadItems items).1 ∧
      ∀ item ∈ (heap.loadItems items).2, item.Only within := by
  cases items with
  | nil => exact ⟨start, by simp [loadItems]⟩
  | cons item rest =>
    obtain ⟨first, only⟩ := load_keeps step start item
    obtain ⟨later, others⟩ := loadItems_keeps step first rest
    rw [loadItems]
    exact ⟨later, List.forall_mem_cons.mpr ⟨only, others⟩⟩

theorem loadFields_keeps (step : KeptByMaps kept within) {heap : Heap} (start : kept heap)
    (entries : List (Text × Document)) : kept (heap.loadFields entries).1 ∧
      ∀ entry ∈ (heap.loadFields entries).2, entry.2.Only within := by
  cases entries with
  | nil => exact ⟨start, by simp [loadFields]⟩
  | cons entry rest =>
    obtain ⟨name, item⟩ := entry
    obtain ⟨first, only⟩ := load_keeps step start item
    obtain ⟨later, others⟩ := loadFields_keeps step first rest
    rw [loadFields]
    exact ⟨later, List.forall_mem_cons.mpr ⟨only, others⟩⟩

end

end Keeping

end Heap

namespace Store

structure Sound (store : Store) : Prop where
  heap : store.heap.Sound
  root : store.root < store.heap.maps.size

theorem assign_sound {heap : Heap} (sound : heap.Sound) {value : Stored} (holds : heap.Holds value)
    (address : Address) (name : Text) :
    (assign heap address name value).Sound ∧
      (assign heap address name value).maps.size = heap.maps.size := by
  refine ⟨sound.write ?_ address, Heap.size_write heap address _⟩
  intro entry member
  rcases Fields.mem_set member with rfl | there
  · exact holds
  · exact sound address entry there

theorem assignPath_sound {value : Stored} (rest : List Text) {heap : Heap} (sound : heap.Sound)
    (holds : heap.Holds value) (address : Address) (name : Text) :
    (assignPath heap address value name rest).1.Sound ∧
      heap.maps.size ≤ (assignPath heap address value name rest).1.maps.size := by
  induction rest generalizing heap address name with
  | nil =>
    obtain ⟨kept, size⟩ := assign_sound sound holds address name
    exact ⟨kept, Nat.le_of_eq size.symm⟩
  | cons next rest ih =>
    cases found : (heap.fields address).get? name with
    | none =>
      have grown := sound.allocate Heap.holdsAll_nil
      have size := Heap.size_allocate heap []
      have grows : heap.maps.size ≤ (heap.allocate []).1.maps.size := by omega
      have made : (heap.allocate []).1.Holds (.map heap.maps.size) := by
        refine .map ?_
        rw [size]
        exact Nat.lt_succ_self _
      obtain ⟨kept, same⟩ := assign_sound grown made address name
      obtain ⟨last, more⟩ := ih kept (holds.grow (same ▸ grows)) heap.maps.size next
      simp only [assignPath, found]
      exact ⟨last, Nat.le_trans (same ▸ grows) more⟩
    | some held =>
      cases held with
      | map inner =>
        simp only [assignPath, found]
        exact ih sound holds inner next
      | _ =>
        simp only [assignPath, found]
        exact ⟨sound, Nat.le_refl _⟩

theorem Sound.set {store : Store} (sound : store.Sound) {value : Stored}
    (holds : store.heap.Holds value) (key : Text) :
    (store.set key value).1.Sound ∧
      store.heap.maps.size ≤ (store.set key value).1.heap.maps.size := by
  unfold Store.set
  dsimp only
  split
  · exact ⟨sound, Nat.le_refl _⟩
  · split
    · exact ⟨sound, Nat.le_refl _⟩
    · split
      · obtain ⟨kept, size⟩ := assign_sound sound.heap holds store.root key
        exact ⟨⟨kept, size ▸ sound.root⟩, Nat.le_of_eq size.symm⟩
      · rename_i first rest _ _
        obtain ⟨kept, more⟩ := assignPath_sound rest sound.heap holds store.root first
        exact ⟨⟨kept, Nat.lt_of_lt_of_le sound.root more⟩, more⟩

theorem create_extends (heap : Heap) (seed : Fields Document) :
    Heap.Extends heap (create heap seed).heap ∧
      (create heap seed).root < (create heap seed).heap.maps.size := by
  obtain ⟨loads, holds⟩ := Heap.loadFields_extends heap seed
  refine ⟨loads.trans (Heap.extends_allocate holds), ?_⟩
  show _ < ((heap.loadFields seed).1.allocate (heap.loadFields seed).2).1.maps.size
  rw [Heap.size_allocate]
  exact Nat.lt_succ_self _

theorem create_sound {heap : Heap} (sound : heap.Sound) (seed : Fields Document) :
    (create heap seed).Sound :=
  ⟨(create_extends heap seed).1.sound sound, (create_extends heap seed).2⟩

end Store

end VirtualInstrument
