import VirtualInstrument.Proofs.State.Memory
import Mathlib.Data.Finset.Card
import Mathlib.Data.Finset.Range
/- Which maps a value is made of, and what that says about the document it shows. A value shows the
   same document as long as its maps are as they were; none of its maps is inside itself; and a
   document that is shown at some depth is shown within the depth that the memory allows. -/
namespace VirtualInstrument.Heap

/-- A map that belongs to a value: the value itself, or a map in one of its items or entries. -/
inductive Reaches (heap : Heap) : Stored → Address → Prop
  | here (address : Address) : Reaches heap (.map address) address
  | item {items : List Stored} {item : Stored} {address : Address} (member : item ∈ items)
      (inside : Reaches heap item address) : Reaches heap (.list items) address
  | entry {holder : Address} {entry : Text × Stored} {address : Address}
      (member : entry ∈ heap.fields holder) (inside : Reaches heap entry.2 address) :
      Reaches heap (.map holder) address

theorem Reaches.trans {heap : Heap} {value : Stored} {middle last : Address}
    (first : heap.Reaches value middle) (second : heap.Reaches (.map middle) last) :
    heap.Reaches value last := by
  induction first with
  | here => exact second
  | item member _ ih => exact .item member (ih second)
  | entry member _ ih => exact .entry member (ih second)

theorem Sound.reached_inside {heap : Heap} (sound : heap.Sound) {value : Stored}
    (holds : heap.Holds value) {address : Address} (reaches : heap.Reaches value address) :
    address < heap.maps.size := by
  induction reaches with
  | here => cases holds with | map inside => exact inside
  | item member _ ih => cases holds with | list all => exact ih (all _ member)
  | entry member _ ih => exact ih (sound _ _ member)

/-- The maps of a value are the same in two memories. -/
def Agrees (heap next : Heap) (value : Stored) : Prop :=
  ∀ address, heap.Reaches value address → next.fields address = heap.fields address

theorem Agrees.at_item {heap next : Heap} {items : List Stored}
    (agrees : Agrees heap next (.list items))
    {item : Stored} (member : item ∈ items) : Agrees heap next item :=
  fun address reaches => agrees address (.item member reaches)

theorem Agrees.at_entry {heap next : Heap} {holder : Address} (agrees : Agrees heap next (.map holder))
    {entry : Text × Stored} (member : entry ∈ heap.fields holder) : Agrees heap next entry.2 :=
  fun address reaches => agrees address (.entry member reaches)

theorem Agrees.reaches_after {heap next : Heap} {value : Stored} (agrees : Agrees heap next value)
    {address : Address} (reaches : heap.Reaches value address) : next.Reaches value address := by
  induction reaches with
  | here address => exact .here address
  | item member _ ih => exact .item member (ih (agrees.at_item member))
  | entry member _ ih =>
    refine .entry ?_ (ih (agrees.at_entry member))
    rw [agrees _ (.here _)]
    exact member

theorem Agrees.reaches_before {heap next : Heap} {value : Stored} (agrees : Agrees heap next value)
    {address : Address} (reaches : next.Reaches value address) : heap.Reaches value address := by
  induction reaches with
  | here address => exact .here address
  | item member _ ih => exact .item member (ih (agrees.at_item member))
  | entry member _ ih =>
    rw [agrees _ (.here _)] at member
    exact .entry member (ih (agrees.at_entry member))

theorem Agrees.symm {heap next : Heap} {value : Stored} (agrees : Agrees heap next value) :
    Agrees next heap value :=
  fun address reaches => (agrees address (agrees.reaches_before reaches)).symm

theorem Extends.agrees {heap next : Heap} (extended : Extends heap next) (sound : heap.Sound)
    {value : Stored} (holds : heap.Holds value) : Agrees heap next value :=
  fun address reaches => extended.old address (sound.reached_inside holds reaches)

section Documents
variable {ofMap other : Address → Option Document}

theorem unloadItems_cons_iff {item : Stored} {rest : List Stored} {documents : List Document} :
    unloadItems ofMap (item :: rest) = some documents ↔ ∃ document others,
      unloadWith ofMap item = some document ∧ unloadItems ofMap rest = some others ∧
        documents = document :: others := by
  simp only [unloadItems, Option.bind_eq_bind, Option.bind_eq_some_iff, Option.some.injEq]
  constructor
  · rintro ⟨document, head, others, tail, rfl⟩
    exact ⟨document, others, head, tail, rfl⟩
  · rintro ⟨document, others, head, tail, rfl⟩
    exact ⟨document, head, others, tail, rfl⟩

theorem unloadFields_cons_iff {entry : Text × Stored} {rest : Fields Stored}
    {documents : Fields Document} :
    unloadFields ofMap (entry :: rest) = some documents ↔ ∃ document others,
      unloadWith ofMap entry.2 = some document ∧ unloadFields ofMap rest = some others ∧
        documents = (entry.1, document) :: others := by
  simp only [unloadFields, Option.bind_eq_bind, Option.bind_eq_some_iff, Option.some.injEq]
  constructor
  · rintro ⟨document, head, others, tail, rfl⟩
    exact ⟨document, others, head, tail, rfl⟩
  · rintro ⟨document, others, head, tail, rfl⟩
    exact ⟨document, head, others, tail, rfl⟩

theorem unloadItems_mem {items : List Stored} {documents : List Document}
    (shown : unloadItems ofMap items = some documents) {item : Stored} (member : item ∈ items) :
    ∃ document ∈ documents, unloadWith ofMap item = some document := by
  induction items generalizing documents with
  | nil => cases member
  | cons first rest ih =>
    obtain ⟨document, others, head, tail, rfl⟩ := unloadItems_cons_iff.mp shown
    rcases List.mem_cons.mp member with rfl | later
    · exact ⟨document, List.mem_cons_self, head⟩
    · obtain ⟨found, listed, same⟩ := ih tail later
      exact ⟨found, List.mem_cons_of_mem _ listed, same⟩

theorem unloadFields_mem {fields : Fields Stored} {documents : Fields Document}
    (shown : unloadFields ofMap fields = some documents) {entry : Text × Stored}
    (member : entry ∈ fields) :
    ∃ document, (entry.1, document) ∈ documents ∧ unloadWith ofMap entry.2 = some document := by
  induction fields generalizing documents with
  | nil => cases member
  | cons first rest ih =>
    obtain ⟨document, others, head, tail, rfl⟩ := unloadFields_cons_iff.mp shown
    rcases List.mem_cons.mp member with rfl | later
    · exact ⟨document, List.mem_cons_self, head⟩
    · obtain ⟨found, listed, same⟩ := ih tail later
      exact ⟨found, List.mem_cons_of_mem _ listed, same⟩

theorem unloadItems_mono {items : List Stored} {documents : List Document}
    (each : ∀ item ∈ items, ∀ document,
      unloadWith ofMap item = some document → unloadWith other item = some document)
    (shown : unloadItems ofMap items = some documents) :
    unloadItems other items = some documents := by
  induction items generalizing documents with
  | nil => exact shown
  | cons item rest ih =>
    obtain ⟨here, later⟩ := List.forall_mem_cons.mp each
    obtain ⟨document, others, head, tail, rfl⟩ := unloadItems_cons_iff.mp shown
    exact unloadItems_cons_iff.mpr ⟨document, others, here document head, ih later tail, rfl⟩

theorem unloadFields_mono {fields : Fields Stored} {documents : Fields Document}
    (each : ∀ entry ∈ fields, ∀ document,
      unloadWith ofMap entry.2 = some document → unloadWith other entry.2 = some document)
    (shown : unloadFields ofMap fields = some documents) :
    unloadFields other fields = some documents := by
  induction fields generalizing documents with
  | nil => exact shown
  | cons entry rest ih =>
    obtain ⟨here, later⟩ := List.forall_mem_cons.mp each
    obtain ⟨document, others, head, tail, rfl⟩ := unloadFields_cons_iff.mp shown
    exact unloadFields_cons_iff.mpr ⟨document, others, here document head, ih later tail, rfl⟩

theorem unloadWith_mono {value : Stored}
    (only : value.Only fun address => ∀ document,
      ofMap address = some document → other address = some document)
    {document : Document} (shown : unloadWith ofMap value = some document) :
    unloadWith other value = some document := by
  induction only generalizing document with
  | list _ ih =>
    obtain ⟨documents, all, rfl⟩ := Option.map_eq_some_iff.mp shown
    rw [unloadWith, unloadItems_mono ih all]
    rfl
  | map keeps => exact keeps document shown
  | _ => exact shown

end Documents

theorem only_of_reaches (heap : Heap) {property : Address → Prop} (value : Stored)
    (all : ∀ address, heap.Reaches value address → property address) : value.Only property := by
  cases value with
  | null => exact .null
  | boolean b => exact .boolean b
  | number x => exact .number x
  | string t => exact .string t
  | list items =>
    exact .list fun item member =>
      only_of_reaches heap item fun address inside => all address (.item member inside)
  | map address => exact .map (all address (.here address))

/-- The document that a value shows, at whatever depth. -/
def Shows (heap : Heap) (value : Stored) (document : Document) : Prop :=
  ∃ depth, unloadWith (heap.unloadMap depth) value = some document

theorem unloadMap_succ_iff {heap : Heap} {depth : Nat} {address : Address} {document : Document} :
    heap.unloadMap (depth + 1) address = some document ↔ ∃ documents,
      unloadFields (heap.unloadMap depth) (heap.fields address) = some documents ∧
        document = .map documents := by
  simp [unloadMap, eq_comm]

theorem unloadMap_deeper {heap : Heap} {depth : Nat} {address : Address} {document : Document}
    (shown : heap.unloadMap depth address = some document) :
    heap.unloadMap (depth + 1) address = some document := by
  induction depth generalizing address document with
  | zero => cases shown
  | succ depth ih =>
    obtain ⟨documents, all, rfl⟩ := unloadMap_succ_iff.mp shown
    refine unloadMap_succ_iff.mpr ⟨documents, unloadFields_mono ?_ all, rfl⟩
    intro entry _ document part
    refine unloadWith_mono (only_of_reaches heap entry.2 ?_) part
    intro inner _ document
    exact ih

theorem unloadWith_deeper {heap : Heap} {depth deeper : Nat} (le : depth ≤ deeper) {value : Stored}
    {document : Document} (shown : unloadWith (heap.unloadMap depth) value = some document) :
    unloadWith (heap.unloadMap deeper) value = some document := by
  induction le with
  | refl => exact shown
  | step _ ih =>
    refine unloadWith_mono (only_of_reaches heap value ?_) ih
    intro address _ document
    exact unloadMap_deeper

theorem unloadMap_agrees {heap next : Heap} {depth : Nat} {address : Address} {document : Document}
    (agrees : Agrees heap next (.map address))
    (shown : heap.unloadMap depth address = some document) :
    next.unloadMap depth address = some document := by
  induction depth generalizing address document with
  | zero => cases shown
  | succ depth ih =>
    obtain ⟨documents, all, rfl⟩ := unloadMap_succ_iff.mp shown
    refine unloadMap_succ_iff.mpr ⟨documents, ?_, rfl⟩
    rw [agrees address (.here address)]
    refine unloadFields_mono ?_ all
    intro entry member document part
    refine unloadWith_mono (only_of_reaches heap entry.2 ?_) part
    intro inner reaches document
    exact ih fun deep inside => agrees.at_entry member deep (reaches.trans inside)

theorem Agrees.unloadWith {heap next : Heap} {value : Stored} (agrees : Agrees heap next value)
    {depth : Nat} {document : Document}
    (shown : unloadWith (heap.unloadMap depth) value = some document) :
    unloadWith (next.unloadMap depth) value = some document := by
  refine unloadWith_mono (only_of_reaches heap value ?_) shown
  intro address reaches document
  exact unloadMap_agrees fun deep inside => agrees deep (reaches.trans inside)

theorem Agrees.shows {heap next : Heap} {value : Stored} (agrees : Agrees heap next value)
    {document : Document} (displays : heap.Shows value document) : next.Shows value document := by
  obtain ⟨depth, shown⟩ := displays
  exact ⟨depth, agrees.unloadWith shown⟩

theorem Agrees.shows_iff {heap next : Heap} {value : Stored} (agrees : Agrees heap next value)
    (document : Document) : next.Shows value document ↔ heap.Shows value document :=
  ⟨agrees.symm.shows, agrees.shows⟩

theorem entry_smaller {heap : Heap} {depth : Nat} {address : Address} {document : Document}
    (shown : heap.unloadMap depth address = some document) {entry : Text × Stored}
    (member : entry ∈ heap.fields address) : ∃ part,
      unloadWith (heap.unloadMap depth) entry.2 = some part ∧ sizeOf part < sizeOf document := by
  cases depth with
  | zero => cases shown
  | succ depth =>
    obtain ⟨documents, all, rfl⟩ := unloadMap_succ_iff.mp shown
    obtain ⟨part, listed, found⟩ := unloadFields_mem all member
    refine ⟨part, unloadWith_deeper (Nat.le_succ depth) found, ?_⟩
    have inList := List.sizeOf_lt_of_mem listed
    simp only [Prod.mk.sizeOf_spec, Document.map.sizeOf_spec] at inList ⊢
    omega

theorem item_smaller {ofMap : Address → Option Document} {items : List Stored}
    {document : Document} (shown : unloadWith ofMap (.list items) = some document)
    {item : Stored} (member : item ∈ items) : ∃ part,
      unloadWith ofMap item = some part ∧ sizeOf part < sizeOf document := by
  obtain ⟨documents, all, rfl⟩ := Option.map_eq_some_iff.mp shown
  obtain ⟨part, listed, found⟩ := unloadItems_mem all member
  refine ⟨part, found, ?_⟩
  have inList := List.sizeOf_lt_of_mem listed
  simp only [Document.list.sizeOf_spec]
  omega

theorem reached_smaller {heap : Heap} {depth : Nat} {value : Stored} {document : Document}
    (shown : unloadWith (heap.unloadMap depth) value = some document) {address : Address}
    (reaches : heap.Reaches value address) : ∃ part,
      heap.unloadMap depth address = some part ∧ sizeOf part ≤ sizeOf document := by
  induction reaches generalizing document with
  | here => exact ⟨document, shown, Nat.le_refl _⟩
  | item member _ ih =>
    obtain ⟨part, found, smaller⟩ := item_smaller shown member
    obtain ⟨deep, last, le⟩ := ih found
    exact ⟨deep, last, Nat.le_trans le (Nat.le_of_lt smaller)⟩
  | entry member _ ih =>
    obtain ⟨part, found, smaller⟩ := entry_smaller shown member
    obtain ⟨deep, last, le⟩ := ih found
    exact ⟨deep, last, Nat.le_trans le (Nat.le_of_lt smaller)⟩

theorem no_return {heap : Heap} {depth : Nat} {address : Address} {document : Document}
    (shown : heap.unloadMap depth address = some document) {entry : Text × Stored}
    (member : entry ∈ heap.fields address) : ¬ heap.Reaches entry.2 address := by
  intro reaches
  obtain ⟨part, found, smaller⟩ := entry_smaller shown member
  obtain ⟨again, same, le⟩ := reached_smaller found reaches
  have equal := Option.some.inj (same.symm.trans shown)
  subst equal
  omega

/-- The maps around a map that shows a document leave as many levels for it as there are maps
    besides them. -/
theorem unloadMap_within {heap : Heap} (sound : heap.Sound) {depth : Nat} {address : Address}
    {document : Document} (shown : heap.unloadMap depth address = some document)
    (inside : address < heap.maps.size) {around : Finset Address}
    (there : around ⊆ Finset.range heap.maps.size)
    (apart : ∀ outer ∈ around, ¬ heap.Reaches (.map address) outer) :
    heap.unloadMap (heap.maps.size - around.card) address = some document := by
  -- each level down adds the map that is left to those around, and none of these comes back
  induction depth generalizing address document around with
  | zero => cases shown
  | succ depth ih =>
    have new : address ∉ around := fun member => apart address member (.here address)
    have wider : insert address around ⊆ Finset.range heap.maps.size :=
      Finset.insert_subset (Finset.mem_range.mpr inside) there
    have count := Finset.card_le_card wider
    rw [Finset.card_range, Finset.card_insert_of_notMem new] at count
    have levels : heap.maps.size - around.card =
        heap.maps.size - (insert address around).card + 1 := by
      rw [Finset.card_insert_of_notMem new]
      omega
    obtain ⟨documents, all, rfl⟩ := unloadMap_succ_iff.mp shown
    rw [levels]
    refine unloadMap_succ_iff.mpr ⟨documents, unloadFields_mono ?_ all, rfl⟩
    intro entry member part found
    refine unloadWith_mono (only_of_reaches heap entry.2 ?_) found
    intro inner reaches deep shownDeep
    refine ih shownDeep (sound.reached_inside (sound address entry member) reaches) wider ?_
    intro outer outside back
    rcases Finset.mem_insert.mp outside with rfl | before
    · exact no_return shown member (reaches.trans back)
    · exact apart outer before (.entry member (reaches.trans back))

/-- The depth that the memory allows shows every document there is to show. -/
theorem unload?_iff {heap : Heap} (sound : heap.Sound) {value : Stored} (holds : heap.Holds value)
    (document : Document) : heap.unload? value = some document ↔ heap.Shows value document := by
  constructor
  · intro shown
    exact ⟨heap.maps.size, shown⟩
  · rintro ⟨depth, shown⟩
    refine unloadWith_mono (only_of_reaches heap value ?_) shown
    intro address reaches part found
    have inside := sound.reached_inside holds reaches
    have within := unloadMap_within sound found inside (Finset.empty_subset _) (by simp)
    simpa using within

mutual

theorem load_shows {heap : Heap} (sound : heap.Sound) (document : Document) :
    (heap.load document).1.Shows (heap.load document).2 document := by
  cases document with
  | null => exact ⟨0, rfl⟩
  | boolean b => exact ⟨0, rfl⟩
  | number x => exact ⟨0, rfl⟩
  | string t => exact ⟨0, rfl⟩
  | list items =>
    obtain ⟨depth, all⟩ := loadItems_shows sound items
    refine ⟨depth, ?_⟩
    rw [load, unloadWith, all]
    rfl
  | map entries =>
    obtain ⟨loads, holds⟩ := loadFields_extends heap entries
    obtain ⟨depth, all⟩ := loadFields_shows sound entries
    refine ⟨depth + 1, unloadMap_succ_iff.mpr ⟨entries, ?_, rfl⟩⟩
    have new := fields_allocate_new (heap.loadFields entries).1 (heap.loadFields entries).2
    refine (congrArg (unloadFields _) new).trans (unloadFields_mono ?_ all)
    intro entry member document shown
    have agrees := (extends_allocate holds).agrees (loads.sound sound) (holds entry member)
    exact agrees.unloadWith shown

theorem loadItems_shows {heap : Heap} (sound : heap.Sound) (items : List Document) :
    ∃ depth, unloadItems ((heap.loadItems items).1.unloadMap depth) (heap.loadItems items).2 =
      some items := by
  cases items with
  | nil => exact ⟨0, rfl⟩
  | cons item rest =>
    obtain ⟨loads, holds⟩ := load_extends heap item
    obtain ⟨more, _⟩ := loadItems_extends (heap.load item).1 rest
    obtain ⟨n, head⟩ := (more.agrees (loads.sound sound) holds).shows (load_shows sound item)
    obtain ⟨m, tail⟩ := loadItems_shows (loads.sound sound) rest
    rw [loadItems]
    refine ⟨max n m, unloadItems_cons_iff.mpr ⟨item, rest, ?_, ?_, rfl⟩⟩
    · exact unloadWith_deeper (Nat.le_max_left n m) head
    · exact unloadItems_mono (fun _ _ _ => unloadWith_deeper (Nat.le_max_right n m)) tail

theorem loadFields_shows {heap : Heap} (sound : heap.Sound) (entries : List (Text × Document)) :
    ∃ depth, unloadFields ((heap.loadFields entries).1.unloadMap depth)
      (heap.loadFields entries).2 = some entries := by
  cases entries with
  | nil => exact ⟨0, rfl⟩
  | cons entry rest =>
    obtain ⟨name, item⟩ := entry
    obtain ⟨loads, holds⟩ := load_extends heap item
    obtain ⟨more, _⟩ := loadFields_extends (heap.load item).1 rest
    obtain ⟨n, head⟩ := (more.agrees (loads.sound sound) holds).shows (load_shows sound item)
    obtain ⟨m, tail⟩ := loadFields_shows (loads.sound sound) rest
    rw [loadFields]
    refine ⟨max n m, unloadFields_cons_iff.mpr ⟨item, rest, ?_, ?_, rfl⟩⟩
    · exact unloadWith_deeper (Nat.le_max_left n m) head
    · exact unloadFields_mono (fun _ _ _ => unloadWith_deeper (Nat.le_max_right n m)) tail

end

end VirtualInstrument.Heap
