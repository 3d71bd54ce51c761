import VirtualInstrument.Proofs.State.Independence
/- Reading a key right after it was set. The key reads the value, and the value shows what it showed
   before, exactly when the map in which it is set is no part of the value, and the way to this map
   does not come through the entry that is set. -/
namespace VirtualInstrument.Store

/-- The way to the place of a key comes through the place itself. -/
def Recurs (store : Store) (key : Text) : Prop :=
  ∃ before after, (store.spot key).way = before ++ (store.spot key).name :: after ∧
    follow? store.heap (.map store.root) before = some (.map (store.spot key).holder)

theorem Solitary.not_recurs {store : Store} {key : Text} (solitary : store.Solitary key) :
    ¬ store.Recurs key := by
  rintro ⟨before, after, way, reached⟩
  have plain : ∀ name ∈ before, Text.unit '.' ∉ name := by
    intro name member
    have passed : name ∈ (store.spot key).way := by
      rw [way]
      exact List.mem_append_left _ member
    exact segment_plain ((spot_way_begins store key).subset passed)
  have same := solitary.ways before plain reached
  have size := congrArg List.length way
  rw [same, List.length_append, List.length_cons] at size
  omega

theorem follow?_smaller {heap : Heap} {depth : Nat} {path : List Text} {value last : Stored}
    {document : Document} (shown : Heap.unloadWith (heap.unloadMap depth) value = some document)
    (found : follow? heap value path = some last) : ∃ part,
      Heap.unloadWith (heap.unloadMap depth) last = some part ∧
        sizeOf part + path.length ≤ sizeOf document := by
  induction path generalizing value document with
  | nil =>
    cases found
    exact ⟨document, shown, Nat.le_refl _⟩
  | cons segment path ih =>
    obtain ⟨inner, first, later⟩ := Option.bind_eq_some_iff.mp found
    have smaller : ∃ part, Heap.unloadWith (heap.unloadMap depth) inner = some part ∧
        sizeOf part < sizeOf document := by
      cases value with
      | map address => exact Heap.entry_smaller shown (Fields.mem_of_get? first)
      | list items =>
        rw [child?] at first
        split at first
        · exact Heap.item_smaller shown (List.mem_of_getElem? first)
        · cases first
      | _ => cases first
    obtain ⟨part, shownInner, less⟩ := smaller
    obtain ⟨deep, shownLast, le⟩ := ih shownInner later
    refine ⟨deep, shownLast, ?_⟩
    rw [List.length_cons]
    omega

theorem Chain.held_reaches {heap : Heap} {least : Address} {value held : Stored} {rest : List Text}
    (chain : Chain heap value least rest held) {address : Address}
    (reaches : heap.Reaches value address) : heap.Reaches held address := by
  induction chain with
  | last => exact reaches
  | @link address name rest inner only _ ih =>
    have member : (name, inner) ∈ heap.fields address := by
      rw [only]
      exact List.mem_cons_self
    exact .entry member ih

namespace Planted
variable {heap next : Heap} {spot : Spot} {value held : Stored}

theorem entry_mem (planted : Planted heap next spot value held) :
    (spot.name, held) ∈ next.fields spot.holder := by
  apply Fields.mem_of_get?
  rw [planted.entry, Fields.get?_set, if_pos rfl]

theorem reaches_holder (planted : Planted heap next spot value held) (sound : heap.Sound)
    {start : Stored} (holds : heap.Holds start) (reaches : heap.Reaches start spot.holder) :
    next.Reaches start spot.holder := by
  generalize target : spot.holder = last at reaches
  induction reaches with
  | here => exact .here _
  | item member _ ih =>
    cases holds with
    | list all => exact .item member (ih (all _ member) target)
  | @entry address entry last member inside ih =>
    by_cases changed : address = spot.holder
    · rw [changed, target]
      exact .here _
    · cases holds with
      | map there =>
        have kept : entry ∈ next.fields address := by
          rw [planted.old address there changed]
          exact member
        exact .entry kept (ih (sound address entry member) target)

theorem agrees_elsewhere (planted : Planted heap next spot value held) (sound : heap.Sound)
    {start : Stored} (holds : heap.Holds start) (apart : ¬ heap.Reaches start spot.holder) :
    Heap.Agrees heap next start := by
  intro address reaches
  apply planted.old address (sound.reached_inside holds reaches)
  rintro rfl
  exact apart reaches

/-- A value that is set inside itself shows nothing. -/
theorem apart_of_shows (planted : Planted heap next spot value held) (sound : heap.Sound)
    (holds : heap.Holds value) {document : Document} (displays : next.Shows value document) :
    ¬ heap.Reaches value spot.holder := by
  intro reaches
  have back := planted.reaches_holder sound holds reaches
  obtain ⟨depth, shown⟩ := displays
  obtain ⟨part, inside, _⟩ := Heap.reached_smaller shown back
  exact Heap.no_return inside planted.entry_mem (planted.chain.held_reaches back)

end Planted

section Reading
variable {store : Store} {key : Text} {value : Stored} {next : Store} {held : Stored}

theorem first_recurrence (sound : store.Sound)
    (planted : Planted store.heap next.heap (store.spot key) value held)
    {before : List Text} (after : List Text)
    (reached : follow? store.heap (.map store.root) before = some (.map (store.spot key).holder)) :
    ∃ first more, before ++ (store.spot key).name :: after =
        first ++ (store.spot key).name :: more ∧
      follow? next.heap (.map store.root) first = some (.map (store.spot key).holder) := by
  -- a way that does not lead there any more came through the place earlier
  induction size : before.length using Nat.strongRecOn generalizing before after with
  | ind n ih =>
    rcases planted.follow?_same sound.heap before (.map sound.root) with
      same | ⟨early, late, rfl, earlier⟩
    · exact ⟨before, after, rfl, same.trans reached⟩
    · have shorter : early.length < n := by
        rw [← size, List.length_append, List.length_cons]
        omega
      obtain ⟨first, more, whole, found⟩ :=
        ih early.length shorter (late ++ (store.spot key).name :: after) earlier rfl
      refine ⟨first, more, ?_, found⟩
      rw [← whole]
      simp

theorem get?_of_plain {store : Store} {key : Text} (plain : segments key = [key]) :
    store.get? key = follow? store.heap (.map store.root) (segments key) := by
  cases own : store.rootFields.get? key with
  | none => exact get?_of_path own
  | some value =>
    have found : child? store.heap (.map store.root) key = some value := own
    simp only [get?, own, plain, follow?, found, Option.bind_some]

theorem get?_set_path (sound : store.Sound) (root : next.root = store.root)
    (planted : Planted store.heap next.heap (store.spot key) value held)
    (nested : store.rootFields.has key = false)
    (path : segments key = (store.spot key).way ++ (store.spot key).name :: (store.spot key).rest) :
    next.get? key = follow? next.heap (.map store.root) (segments key) := by
  rcases planted.child?_same (.map sound.root) key with same | ⟨_, name⟩
  · rw [← root]
    apply get?_of_path
    rw [rootFields, root]
    have before : store.rootFields.get? key = none := by simpa [Fields.has] using nested
    exact same.trans before
  · rw [← root]
    apply get?_of_plain
    apply segments_plain
    have member : (store.spot key).name ∈ segments key := by
      rw [path]
      simp
    rw [name]
    exact segment_plain member

/-- A key whose way does not come through its own place reads what it was set to. -/
theorem get?_planted (sound : store.Sound) (root : next.root = store.root)
    (planted : Planted store.heap next.heap (store.spot key) value held)
    (once : ¬ store.Recurs key) : next.get? key = some value := by
  rcases spot_cases store key with ⟨own, place⟩ | ⟨nested, path⟩
  · rw [place] at planted
    cases planted.chain
    have entry : next.rootFields.get? key = some value := by
      rw [rootFields, root, planted.entry, Fields.get?_set, if_pos rfl]
    simp only [get?, entry]
  · have still : follow? next.heap (.map store.root) (store.spot key).way =
        some (.map (store.spot key).holder) := by
      rcases planted.follow?_same sound.heap (store.spot key).way (.map sound.root) with
        same | ⟨before, after, whole, reached⟩
      · exact same.trans (follow?_mapAt (spot_reached store key))
      · exact absurd ⟨before, after, whole, reached⟩ once
    rw [get?_set_path sound root planted nested path, path, follow?_append, still,
      Option.bind_some, follow?, child?, planted.entry, Fields.get?_set, if_pos rfl,
      Option.bind_some]
    exact Planted.follow?_chain planted.chain

/-- A key whose way comes through its own place reads a part of what it was set to. -/
theorem get?_recurring (sound : store.Sound) (root : next.root = store.root)
    (planted : Planted store.heap next.heap (store.spot key) value held)
    (recurs : store.Recurs key) :
    ∃ path, path ≠ [] ∧ next.get? key = follow? next.heap value path := by
  obtain ⟨before, after, way, reached⟩ := recurs
  obtain ⟨first, more, whole, found⟩ := first_recurrence sound planted after reached
  rcases spot_cases store key with ⟨own, place⟩ | ⟨nested, path⟩
  · rw [place] at way
    simp at way
  · -- the name is there before, so the key is set without new maps
    have last : (store.spot key).rest = [] := by
      by_contra behind
      have through := follow?_mapAt (spot_reached store key)
      rw [way, follow?_append, reached, Option.bind_some, follow?, child?,
        planted.absent behind] at through
      cases through
    have chain := planted.chain
    rw [last] at chain
    cases chain
    refine ⟨more ++ [(store.spot key).name], by simp, ?_⟩
    rw [get?_set_path sound root planted nested path, path, last, way, whole,
      List.append_assoc, follow?_append, found, Option.bind_some, List.cons_append, follow?, child?,
      planted.entry, Fields.get?_set, if_pos rfl, Option.bind_some]

end Reading

/-- A key that is set reads the very value, and this value shows a document, exactly when it showed
    the document before, does not contain the map in which the key is set, and the way of the key
    does not come through the entry that is set. -/
theorem set_reads_iff {store : Store} (sound : store.Sound) {key : Text} {value : Stored}
    (holds : store.heap.Holds value) (taken : (store.set key value).2 = none)
    (document : Document) :
    ((store.set key value).1.get? key = some value ∧
        (store.set key value).1.heap.Shows value document) ↔
      store.heap.Shows value document ∧ ¬ store.heap.Reaches value (store.spot key).holder ∧
        ¬ store.Recurs key := by
  obtain ⟨root, held, planted⟩ := set_planted sound taken
  constructor
  · rintro ⟨reads, displays⟩
    have apart := planted.apart_of_shows sound.heap holds displays
    have there := planted.agrees_elsewhere sound.heap holds apart
    refine ⟨(there.shows_iff document).mp displays, apart, ?_⟩
    intro recurs
    obtain ⟨path, more, part⟩ := get?_recurring sound root planted recurs
    obtain ⟨depth, shown⟩ := displays
    obtain ⟨again, same, smaller⟩ := follow?_smaller shown (part.symm.trans reads)
    have equal := Option.some.inj (same.symm.trans shown)
    have some := List.length_pos_iff.mpr more
    subst equal
    omega
  · rintro ⟨displays, apart, once⟩
    refine ⟨get?_planted sound root planted once, ?_⟩
    exact ((planted.agrees_elsewhere sound.heap holds apart).shows_iff document).mpr displays

end VirtualInstrument.Store
