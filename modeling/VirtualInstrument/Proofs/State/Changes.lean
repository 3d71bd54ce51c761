import VirtualInstrument.Proofs.Simulator.Literals
import VirtualInstrument.Proofs.State.Region
/- What keys read after any changes of a state. As long as the values that are set have no maps, no
   two keys come to share one: a key reads what it was set to, the keys apart from it read what they
   did, and a reset leads back to what the initial entries say about every key. -/
namespace VirtualInstrument

namespace Document

def under? (document : Document) (segment : Text) : Option Document :=
  match document with
  | .map fields => Fields.get? fields segment
  | .list items =>
    if !segment.isEmpty && segment.all Text.isDigit then items[Text.digitsValue segment]?
    else none
  | _ => none

def along? (document : Document) : List Text → Option Document
  | [] => some document
  | segment :: rest => (document.under? segment).bind fun next => next.along? rest

/-- What entries say about a key: the entry of that name, or what is at the end of its path. -/
def reading? (entries : Fields Document) (key : Text) : Option Document :=
  match entries.get? key with
  | some document => some document
  | none => (Document.map entries).along? (Store.segments key)

end Document

namespace Heap
variable {heap : Heap} {ofMap : Address → Option Document}

theorem get?_unloadFields {fields : Fields Stored} {documents : Fields Document}
    (shown : unloadFields ofMap fields = some documents) (name : Text) :
    Option.Rel (fun value document => unloadWith ofMap value = some document)
      (fields.get? name) (documents.get? name) := by
  induction fields generalizing documents with
  | nil =>
    cases shown
    exact .none
  | cons entry rest ih =>
    obtain ⟨document, others, head, tail, rfl⟩ := unloadFields_cons_iff.mp shown
    by_cases same : entry.1 = name
    · simp only [Fields.get?, same, if_true]
      exact .some head
    · simp only [Fields.get?, same, if_false]
      exact ih tail

theorem getElem?_unloadItems {items : List Stored} {documents : List Document}
    (shown : unloadItems ofMap items = some documents) (index : Nat) :
    Option.Rel (fun value document => unloadWith ofMap value = some document)
      items[index]? documents[index]? := by
  induction items generalizing documents index with
  | nil =>
    cases shown
    exact .none
  | cons item rest ih =>
    obtain ⟨document, others, head, tail, rfl⟩ := unloadItems_cons_iff.mp shown
    cases index with
    | zero => exact .some head
    | succ index => exact ih tail index

theorem Shows.child?_rel {value : Stored} {document : Document} (shows : heap.Shows value document)
    (segment : Text) :
    Option.Rel heap.Shows (Store.child? heap value segment) (document.under? segment) := by
  obtain ⟨depth, shown⟩ := shows
  have deeper {held : Option Stored} {part : Option Document} {depth : Nat}
      (related : Option.Rel (fun value document =>
        unloadWith (heap.unloadMap depth) value = some document) held part) :
      Option.Rel heap.Shows held part := by
    cases related with
    | some found => exact .some ⟨depth, found⟩
    | none => exact .none
  cases value with
  | map address =>
    cases depth with
    | zero => cases shown
    | succ depth =>
      obtain ⟨documents, all, rfl⟩ := unloadMap_succ_iff.mp shown
      exact deeper (get?_unloadFields all segment)
  | list items =>
    obtain ⟨documents, all, rfl⟩ := Option.map_eq_some_iff.mp shown
    simp only [Store.child?, Document.under?]
    split
    · exact deeper (getElem?_unloadItems all _)
    · exact .none
  | _ =>
    cases shown
    exact .none

theorem Shows.follow?_rel {value : Stored} {document : Document} (shows : heap.Shows value document)
    (path : List Text) :
    Option.Rel heap.Shows (Store.follow? heap value path) (document.along? path) := by
  induction path generalizing value document with
  | nil => exact .some shows
  | cons segment path ih =>
    have first := shows.child?_rel segment
    rw [Store.follow?, Document.along?]
    generalize Store.child? heap value segment = held at first
    generalize document.under? segment = part at first
    cases first with
    | some inner => exact ih inner
    | none => exact .none

end Heap

namespace Store

theorem get?_shows {store : Store} {entries : Fields Document}
    (shows : store.heap.Shows (.map store.root) (.map entries)) (key : Text) :
    Option.Rel store.heap.Shows (store.get? key) (Document.reading? entries key) := by
  have own : Option.Rel store.heap.Shows (store.rootFields.get? key) (entries.get? key) :=
    shows.child?_rel key
  rw [get?, Document.reading?]
  generalize store.rootFields.get? key = held at own
  generalize entries.get? key = part at own
  cases own with
  | some inner => exact .some inner
  | none => exact shows.follow?_rel (segments key)

theorem has_of_shows {store : Store} {entries : Fields Document}
    (shows : store.heap.Shows (.map store.root) (.map entries)) (key : Text) :
    store.has key = (Document.reading? entries key).isSome := by
  have reading := get?_shows shows key
  rw [has]
  generalize store.get? key = held at reading
  generalize Document.reading? entries key = part at reading
  cases reading with
  | some _ => rfl
  | none => rfl

theorem document?_of_shows {store : Store} (sound : store.Sound) {entries : Fields Document}
    (shows : store.heap.Shows (.map store.root) (.map entries)) (key : Text) :
    store.document? key = Document.reading? entries key := by
  have reading := get?_shows shows key
  have holds {value : Stored} (found : store.get? key = some value) := get?_holds sound found
  rw [document?]
  generalize store.get? key = held at reading holds
  generalize Document.reading? entries key = part at reading
  cases reading with
  | some shown => exact (Heap.unload?_iff sound.heap (holds rfl) _).mpr shown
  | none => rfl

theorem create_shows {heap : Heap} (sound : heap.Sound) (seed : Fields Document) :
    (create heap seed).heap.Shows (.map (create heap seed).root) (.map seed) :=
  Heap.load_shows sound (.map seed)

theorem Keeps.document?_eq {before after : Store} {key : Text} (keeps : Keeps before after key)
    (sound : before.Sound) (sound' : after.Sound)
    (grows : before.heap.maps.size ≤ after.heap.maps.size) :
    after.document? key = before.document? key := by
  rw [Store.document?, Store.document?, keeps.reading]
  cases found : before.get? key with
  | none => rfl
  | some value =>
    exact (keeps.agrees value found).unload?_eq sound.heap sound'.heap (get?_holds sound found) grows

/-- A change of a state: a key is given a value, whether the key is refused or not, or the state
    goes back to its start. -/
inductive Change
  | set (key : Text) (value : Stored)
  | reset

def change (store : Store) : Change → Store
  | .set key value => (store.set key value).1
  | .reset => store.reset

def changes (store : Store) (list : List Change) : Store := list.foldl change store

def Change.Mapless : Change → Prop
  | .set _ value => value.Mapless
  | .reset => True

theorem Mapless.holds {value : Stored} (mapless : value.Mapless) (heap : Heap) :
    heap.Holds value :=
  mapless.mono fun _ impossible => impossible.elim

/-- A sound state without sharing, with its initial entries. -/
structure Unmixed (seed : Fields Document) (store : Store) : Prop where
  sound : store.Sound
  tree : store.IsTree
  seed : store.seed = seed

theorem create_unmixed {heap : Heap} (sound : heap.Sound) (seed : Fields Document) :
    Unmixed seed (create heap seed) :=
  ⟨create_sound sound seed, (create_tree sound seed).1, rfl⟩

theorem Unmixed.change {seed : Fields Document} {store : Store} (unmixed : Unmixed seed store)
    {change : Change} (mapless : change.Mapless) : Unmixed seed (store.change change) := by
  cases change with
  | set key value =>
    refine ⟨(unmixed.sound.set (Mapless.holds mapless _) key).1,
      unmixed.tree.set unmixed.sound mapless key, ?_⟩
    exact (set_kept store key value).2.trans unmixed.seed
  | reset =>
    have restarts : store.reset = create store.heap seed := by rw [reset, unmixed.seed]
    rw [Store.change, restarts]
    exact create_unmixed unmixed.sound.heap seed

theorem Unmixed.changes {seed : Fields Document} {list : List Change} {store : Store}
    (unmixed : Unmixed seed store) (mapless : ∀ change ∈ list, change.Mapless) :
    Unmixed seed (store.changes list) := by
  induction list generalizing store with
  | nil => exact unmixed
  | cons first rest ih =>
    obtain ⟨here, later⟩ := List.forall_mem_cons.mp mapless
    exact ih (unmixed.change here) later

theorem Unmixed.set_reads {seed : Fields Document} {store : Store} (unmixed : Unmixed seed store)
    {key : Text} {value : Stored} (mapless : value.Mapless)
    (taken : (store.set key value).2 = none) :
    (store.set key value).1.get? key = some value ∧
      ∀ other, Apart key other → Keeps store (store.set key value).1 other ∧
        (store.set key value).1.document? other = store.document? other := by
  have solitary := unmixed.tree.solitary key
  obtain ⟨root, held, planted⟩ := set_planted unmixed.sound taken
  refine ⟨get?_planted unmixed.sound root planted solitary.not_recurs, ?_⟩
  intro other apart
  have keeps := solitary.keeps unmixed.sound taken apart
  obtain ⟨sound, grows⟩ := unmixed.sound.set (Mapless.holds mapless store.heap) key
  exact ⟨keeps, keeps.document?_eq unmixed.sound sound grows⟩

/-- After any changes that set keys to values without maps, a key that is set reads its value, a key
    apart from it reads what it read before, down to the last map, and a reset brings every reading
    of the start back. -/
theorem keys_read_what_was_set {heap : Heap} (sound : heap.Sound) (seed : Fields Document)
    (list : List Change) (mapless : ∀ change ∈ list, change.Mapless) :
    let start := create heap seed
    let store := start.changes list
    (∀ key value, value.Mapless → (store.set key value).2 = none →
      (store.set key value).1.get? key = some value ∧
      (store.set key value).1.has key = true ∧
      ∀ other, Apart key other → Keeps store (store.set key value).1 other ∧
        (store.set key value).1.document? other = store.document? other) ∧
    ∀ key, store.reset.document? key = start.document? key ∧
      store.reset.has key = start.has key ∧
      start.document? key = Document.reading? seed key ∧
      start.has key = (Document.reading? seed key).isSome := by
  intro start store
  have fresh : Unmixed seed start := create_unmixed sound seed
  have reached : Unmixed seed store := fresh.changes mapless
  have plain : Change.reset.Mapless := trivial
  have again : Unmixed seed store.reset := reached.change plain
  have first : start.heap.Shows (.map start.root) (.map seed) := create_shows sound seed
  have restarts : store.reset = create store.heap seed := by rw [reset, reached.seed]
  have second : store.reset.heap.Shows (.map store.reset.root) (.map seed) := by
    rw [restarts]
    exact create_shows reached.sound.heap seed
  constructor
  · intro key value plain taken
    obtain ⟨reads, others⟩ := reached.set_reads plain taken
    exact ⟨reads, by rw [has, reads]; rfl, others⟩
  · intro key
    have was := document?_of_shows fresh.sound first key
    have there := has_of_shows first key
    refine ⟨?_, ?_, was, there⟩
    · rw [was, document?_of_shows again.sound second]
    · rw [there, has_of_shows second]

def dottedSeed : Fields Document :=
  [(text "a.b", .number 1), (text "a", .map [(text "b", .number 2), (text "c", .number 3)]),
    (text "l", .list [.map [(text "x", .null)]])]

def dottedChanges : List Change :=
  [.set (text "a.b") (.string (text "own")), .set (text "l.0.x") (.number 4), .reset,
    .set (text "a.d.e") (.list [.null])]

theorem dotted_changes_mapless : ∀ change ∈ dottedChanges, change.Mapless := by
  intro change member
  simp only [dottedChanges, List.mem_cons, List.not_mem_nil, or_false] at member
  rcases member with rfl | rfl | rfl | rfl
  · exact .string _
  · exact .number _
  · trivial
  · exact .list (by simpa using Stored.Only.null)

/-- A list behind two new maps is read back; the entry with the dot and the item of the list keep
    what they read. -/
theorem nested_list_is_read_back :
    let store := (create Heap.empty dottedSeed).changes dottedChanges
    let next := (store.set (text "a.f.g") (.list [.number 5])).1
    (store.set (text "a.f.g") (.list [.number 5])).2 = none ∧
      next.get? (text "a.f.g") = some (.list [.number 5]) ∧
      next.document? (text "l.0.x") = some .null ∧
      store.reset.document? (text "a.b") = some (.number 1) := by
  intro store next
  obtain ⟨sets, resets⟩ :=
    keys_read_what_was_set Heap.sound_empty dottedSeed dottedChanges dotted_changes_mapless
  have taken : (store.set (text "a.f.g") (.list [.number 5])).2 = none := by decide +kernel
  have plain : Stored.Mapless (.list [.number 5]) := .list (by simpa using Stored.Only.number 5)
  obtain ⟨reads, _, others⟩ := sets _ _ plain taken
  have apart : Apart (text "a.f.g") (text "l.0.x") := ⟨by decide, by decide⟩
  obtain ⟨reset, _, reading, _⟩ := resets (text "a.b")
  refine ⟨taken, reads, ?_, ?_⟩
  · rw [(others _ apart).2]
    decide +kernel
  · rw [reset, reading]
    decide +kernel

end Store

end VirtualInstrument
