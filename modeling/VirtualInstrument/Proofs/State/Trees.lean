import VirtualInstrument.Proofs.State.Independence
import Mathlib.Data.List.Pairwise
/- Values without sharing. What is loaded is a tree: no map is in it twice, and none is inside
   itself. In a state that is a tree, no map in which a key can be set is shared, and the state stays
   a tree as long as the values that are set have no maps. -/
namespace VirtualInstrument

namespace Heap

def Disjoint (heap : Heap) (first second : Stored) : Prop :=
  ∀ address, heap.Reaches first address → ¬ heap.Reaches second address

/-- A value in which no map occurs twice, or inside itself. -/
inductive Tree (heap : Heap) : Stored → Prop
  | null : Tree heap .null
  | boolean (b : Bool) : Tree heap (.boolean b)
  | number (x : Float) : Tree heap (.number x)
  | string (t : Text) : Tree heap (.string t)
  | list {items : List Stored} (all : ∀ item ∈ items, Tree heap item)
      (apart : items.Pairwise heap.Disjoint) : Tree heap (.list items)
  | map {address : Address} (all : ∀ entry ∈ heap.fields address, Tree heap entry.2)
      (apart : (heap.fields address).Pairwise fun a b => heap.Disjoint a.2 b.2)
      (no_return : ∀ entry ∈ heap.fields address, ¬ heap.Reaches entry.2 address) :
      Tree heap (.map address)

theorem Disjoint.symm {heap : Heap} {first second : Stored} (apart : heap.Disjoint first second) :
    heap.Disjoint second first :=
  fun address back reaches => apart address reaches back

theorem Agrees.disjoint {heap next : Heap} {first second : Stored} (one : Agrees heap next first)
    (other : Agrees heap next second) (apart : heap.Disjoint first second) :
    next.Disjoint first second :=
  fun address a b => apart address (one.reaches_before a) (other.reaches_before b)

theorem Agrees.tree {heap next : Heap} {value : Stored} (agrees : Agrees heap next value)
    (tree : heap.Tree value) : next.Tree value := by
  induction tree with
  | null => exact .null
  | boolean b => exact .boolean b
  | number x => exact .number x
  | string t => exact .string t
  | list _ apart ih =>
    refine .list (fun item member => ih item member (agrees.at_item member)) ?_
    exact apart.imp_of_mem fun first second => (agrees.at_item first).disjoint (agrees.at_item second)
  | @map address _ apart no_return ih =>
    have same := agrees address (.here address)
    refine .map ?_ ?_ ?_
    · rw [same]
      exact fun entry member => ih entry member (agrees.at_entry member)
    · rw [same]
      exact apart.imp_of_mem fun first second =>
        (agrees.at_entry first).disjoint (agrees.at_entry second)
    · rw [same]
      exact fun entry member back =>
        no_return entry member ((agrees.at_entry member).reaches_before back)

theorem Tree.same_entry {heap : Heap} {address : Address} (tree : heap.Tree (.map address))
    {first second : Text × Stored} (one : first ∈ heap.fields address)
    (other : second ∈ heap.fields address) {inner : Address} (a : heap.Reaches first.2 inner)
    (b : heap.Reaches second.2 inner) : first = second := by
  cases tree with
  | map _ apart _ =>
    by_contra differs
    have symmetric : Std.Symm fun x y : Text × Stored => heap.Disjoint x.2 y.2 :=
      ⟨fun _ _ => Disjoint.symm⟩
    exact apart.forall one other differs inner a b

theorem Tree.at_entry {heap : Heap} {address : Address} (tree : heap.Tree (.map address))
    {entry : Text × Stored} (member : entry ∈ heap.fields address) :
    heap.Tree entry.2 ∧ ¬ heap.Reaches entry.2 address := by
  cases tree with
  | map all _ no_return => exact ⟨all entry member, no_return entry member⟩

def Above (heap : Heap) (least : Address) (value : Stored) : Prop :=
  ∀ address, heap.Reaches value address → least ≤ address

structure Forest (heap : Heap) (least : Address) (values : List Stored) : Prop where
  trees : ∀ value ∈ values, heap.Tree value
  apart : values.Pairwise heap.Disjoint
  above : ∀ value ∈ values, heap.Above least value

theorem Forest.nil (heap : Heap) (least : Address) : heap.Forest least [] :=
  ⟨by simp, .nil, by simp⟩

theorem Forest.cons {once all : Heap} {least : Address} {first : Stored} {rest : List Stored}
    (extended : Extends once all) (sound : once.Sound) (holds : once.Holds first)
    (tree : once.Tree first) (above : once.Above least first) (le : least ≤ once.maps.size)
    (later : all.Forest once.maps.size rest) : all.Forest least (first :: rest) := by
  have agrees := extended.agrees sound holds
  refine ⟨List.forall_mem_cons.mpr ⟨agrees.tree tree, later.trees⟩,
    List.pairwise_cons.mpr ⟨?_, later.apart⟩, List.forall_mem_cons.mpr ⟨?_, ?_⟩⟩
  · intro value member address reaches back
    have inside := sound.reached_inside holds (agrees.reaches_before reaches)
    exact absurd inside (Nat.not_lt.mpr (later.above value member address back))
  · exact fun address reaches => above address (agrees.reaches_before reaches)
  · exact fun value member address reaches => Nat.le_trans le (later.above value member address reaches)

theorem top_tree {heap : Heap} (sound : heap.Sound) {entries : Fields Stored}
    (holds : heap.HoldsAll entries) {least : Address} (le : least ≤ heap.maps.size)
    (forest : heap.Forest least (entries.map (·.2))) :
    (heap.allocate entries).1.Tree (.map heap.maps.size) ∧
      (heap.allocate entries).1.Above least (.map heap.maps.size) := by
  have agrees : ∀ entry ∈ entries, Agrees heap (heap.allocate entries).1 entry.2 :=
    fun entry member => (extends_allocate holds).agrees sound (holds entry member)
  have new := fields_allocate_new heap entries
  refine ⟨.map ?_ ?_ ?_, fun address reaches => ?_⟩
  · rw [new]
    exact fun entry member => (agrees entry member).tree (forest.trees _ (List.mem_map_of_mem member))
  · rw [new]
    have apart := List.pairwise_map.mp forest.apart
    exact apart.imp_of_mem fun first second => (agrees _ first).disjoint (agrees _ second)
  · rw [new]
    intro entry member back
    have old := sound.reached_inside (holds entry member) ((agrees entry member).reaches_before back)
    exact absurd old (Nat.lt_irrefl _)
  · cases reaches with
    | here => exact le
    | entry member deeper =>
      rw [new] at member
      exact forest.above _ (List.mem_map_of_mem member) address
        ((agrees _ member).reaches_before deeper)

mutual

theorem load_tree {heap : Heap} (sound : heap.Sound) (document : Document) :
    (heap.load document).1.Tree (heap.load document).2 ∧
      (heap.load document).1.Above heap.maps.size (heap.load document).2 := by
  cases document with
  | null => exact ⟨.null, fun _ reaches => nomatch reaches⟩
  | boolean b => exact ⟨.boolean b, fun _ reaches => nomatch reaches⟩
  | number x => exact ⟨.number x, fun _ reaches => nomatch reaches⟩
  | string t => exact ⟨.string t, fun _ reaches => nomatch reaches⟩
  | list items =>
    have forest := loadItems_forest sound items
    refine ⟨.list forest.trees forest.apart, fun address reaches => ?_⟩
    cases reaches with
    | item member inside => exact forest.above _ member address inside
  | map entries =>
    obtain ⟨loads, holds⟩ := loadFields_extends heap entries
    exact top_tree (loads.sound sound) holds loads.grows (loadFields_forest sound entries)

theorem loadItems_forest {heap : Heap} (sound : heap.Sound) (items : List Document) :
    (heap.loadItems items).1.Forest heap.maps.size (heap.loadItems items).2 := by
  cases items with
  | nil => exact .nil heap _
  | cons item rest =>
    obtain ⟨first, holds⟩ := load_extends heap item
    obtain ⟨tree, above⟩ := load_tree sound item
    obtain ⟨later, _⟩ := loadItems_extends (heap.load item).1 rest
    exact .cons later (first.sound sound) holds tree above first.grows
      (loadItems_forest (first.sound sound) rest)

theorem loadFields_forest {heap : Heap} (sound : heap.Sound) (entries : List (Text × Document)) :
    (heap.loadFields entries).1.Forest heap.maps.size
      ((heap.loadFields entries).2.map (·.2)) := by
  cases entries with
  | nil => exact .nil heap _
  | cons entry rest =>
    obtain ⟨name, item⟩ := entry
    obtain ⟨first, holds⟩ := load_extends heap item
    obtain ⟨tree, above⟩ := load_tree sound item
    obtain ⟨later, _⟩ := loadFields_extends (heap.load item).1 rest
    exact .cons later (first.sound sound) holds tree above first.grows
      (loadFields_forest (first.sound sound) rest)

end

theorem reaches_of_child? {heap : Heap} {value inner : Stored} {segment : Text}
    (found : Store.child? heap value segment = some inner) {address : Address}
    (reaches : heap.Reaches inner address) : heap.Reaches value address := by
  cases value with
  | map holder => exact .entry (Fields.mem_of_get? found) reaches
  | list items =>
    rw [Store.child?] at found
    split at found
    · exact .item (List.mem_of_getElem? found) reaches
    · cases found
  | _ => cases found

theorem reaches_of_follow? {heap : Heap} {value last : Stored} {path : List Text}
    (found : Store.follow? heap value path = some last) {address : Address}
    (reaches : heap.Reaches last address) : heap.Reaches value address := by
  induction path generalizing value with
  | nil =>
    cases found
    exact reaches
  | cons segment path ih =>
    obtain ⟨inner, first, later⟩ := Option.bind_eq_some_iff.mp found
    exact reaches_of_child? first (ih later)

theorem Tree.at_reached {heap : Heap} {value : Stored} (tree : heap.Tree value) {address : Address}
    (reaches : heap.Reaches value address) : heap.Tree (.map address) := by
  induction reaches with
  | here => exact tree
  | item member _ ih =>
    cases tree with
    | list all _ => exact ih (all _ member)
  | entry member _ ih => exact ih (tree.at_entry member).1

/-- In a tree a path to something around a map is the beginning of the way to this map. -/
theorem Tree.path_begins {heap : Heap} {way : List Text} {top holder : Address}
    (tree : heap.Tree (.map top)) (reached : Store.mapAt? heap top way = some holder)
    {path : List Text} {value : Stored} (found : Store.follow? heap (.map top) path = some value)
    (reaches : heap.Reaches value holder) : path <+: way := by
  -- the two are followed side by side: in a tree they cannot part above the map
  induction path generalizing top way with
  | nil => exact List.nil_prefix
  | cons segment path ih =>
    obtain ⟨inner, first, later⟩ := Option.bind_eq_some_iff.mp found
    have member : (segment, inner) ∈ heap.fields top := Fields.mem_of_get? first
    have around := reaches_of_follow? later reaches
    cases way with
    | nil =>
      cases reached
      exact absurd around (tree.at_entry member).2
    | cons name way =>
      obtain ⟨deeper, named, further⟩ := Store.mapAt?_cons_iff.mp reached
      have listed := Fields.mem_of_get? named
      have below := reaches_of_follow? (Store.follow?_mapAt further) (.here holder)
      cases tree.same_entry member listed around below
      exact List.cons_prefix_cons.mpr ⟨rfl, ih (tree.at_entry listed).1 further later⟩

end Heap

namespace Store

abbrev IsTree (store : Store) : Prop := store.heap.Tree (.map store.root)

/-- In a state that is a tree no map in which a key can be set is shared. -/
theorem IsTree.solitary {store : Store} (tree : store.IsTree) (key : Text) :
    store.Solitary key := by
  have reached := spot_reached store key
  constructor
  · intro way _ found
    obtain ⟨more, whole⟩ := tree.path_begins reached found (.here _)
    cases more with
    | nil => simpa using whole
    | cons name more =>
      -- then the map would be inside itself
      have again := follow?_mapAt reached
      rw [← whole, follow?_append, found, Option.bind_some] at again
      obtain ⟨inner, first, later⟩ := Option.bind_eq_some_iff.mp again
      have holder := tree.at_reached (Heap.reaches_of_follow? found (.here _))
      have inside := (holder.at_entry (Fields.mem_of_get? first)).2
      exact absurd (Heap.reaches_of_follow? later (.here _)) inside
  · intro other value found reaches
    unfold get? at found
    split at found
    · rename_i own
      cases found
      have single : follow? store.heap (.map store.root) [other] = some value := by
        simp only [follow?, child?, Option.bind_fun_some]
        exact own
      have start := tree.path_begins reached single reaches
      have member : other ∈ segments key :=
        (start.trans (spot_way_begins store key)).subset List.mem_cons_self
      have plain := segment_plain member
      rw [segments_plain plain]
      exact start
    · exact tree.path_begins reached found reaches

theorem create_tree {heap : Heap} (sound : heap.Sound) (seed : Fields Document) :
    (create heap seed).IsTree ∧
      (create heap seed).heap.Above heap.maps.size (.map (create heap seed).root) := by
  obtain ⟨loads, holds⟩ := Heap.loadFields_extends heap seed
  exact Heap.top_tree (loads.sound sound) holds loads.grows (Heap.loadFields_forest sound seed)

end Store

abbrev Stored.Mapless (value : Stored) : Prop := value.Only fun _ => False

theorem Heap.not_reaches_of_mapless {heap : Heap} {value : Stored} (mapless : value.Mapless)
    (address : Address) : ¬ heap.Reaches value address := by
  intro reaches
  induction reaches with
  | here => cases mapless with | map impossible => exact impossible
  | item member _ ih => cases mapless with | list all => exact ih (all _ member)
  | entry => cases mapless with | map impossible => exact impossible

theorem Heap.tree_of_mapless {heap : Heap} {value : Stored} (mapless : value.Mapless) :
    heap.Tree value := by
  induction mapless with
  | null => exact .null
  | boolean b => exact .boolean b
  | number x => exact .number x
  | string t => exact .string t
  | list all ih =>
    refine .list ih ?_
    apply List.pairwise_of_forall_mem_list
    intro first member second _ address reaches
    exact absurd reaches (not_reaches_of_mapless (all first member) address)
  | map impossible => exact impossible.elim

namespace Fields
variable {α : Type} {related : Text × α → Text × α → Prop} {fields : Fields α} {name : Text} {value : α}

theorem pairwise_replace (pairwise : fields.Pairwise related)
    (new : ∀ entry ∈ fields, related entry (name, value) ∧ related (name, value) entry) :
    (replace name value fields).Pairwise related := by
  induction fields with
  | nil => exact .nil
  | cons first rest ih =>
    obtain ⟨here, later⟩ := List.forall_mem_cons.mp new
    obtain ⟨front, behind⟩ := List.pairwise_cons.mp pairwise
    rw [replace]
    split
    · exact List.pairwise_cons.mpr ⟨fun entry member => (later entry member).2, behind⟩
    · refine List.pairwise_cons.mpr ⟨?_, ih behind later⟩
      intro entry member
      rcases mem_replace member with rfl | there
      · exact here.1
      · exact front entry there

theorem pairwise_insertNew (pairwise : fields.Pairwise related)
    (new : ∀ entry ∈ fields, related entry (name, value) ∧ related (name, value) entry) :
    (insertNew name value fields).Pairwise related := by
  induction fields with
  | nil => exact List.pairwise_singleton _ _
  | cons first rest ih =>
    obtain ⟨here, later⟩ := List.forall_mem_cons.mp new
    obtain ⟨front, behind⟩ := List.pairwise_cons.mp pairwise
    rw [insertNew]
    split
    · exact List.pairwise_cons.mpr ⟨fun entry member => (new entry member).2, pairwise⟩
    · refine List.pairwise_cons.mpr ⟨?_, ih behind later⟩
      intro entry member
      rcases mem_insertNew member with rfl | there
      · exact here.1
      · exact front entry there

theorem pairwise_set (pairwise : fields.Pairwise related)
    (new : ∀ entry ∈ fields, related entry (name, value) ∧ related (name, value) entry) :
    (fields.set name value).Pairwise related := by
  unfold set
  split
  · exact pairwise_replace pairwise new
  · exact pairwise_insertNew pairwise new

end Fields

namespace Store

theorem Chain.tree {heap : Heap} {value held : Stored} {least : Address} {rest : List Text}
    (chain : Chain heap value least rest held) (mapless : value.Mapless) :
    heap.Tree held ∧ heap.Above least held := by
  induction chain with
  | last =>
    refine ⟨Heap.tree_of_mapless mapless, ?_⟩
    exact fun address reaches => absurd reaches (Heap.not_reaches_of_mapless mapless address)
  | @link address name rest inner only _ ih =>
    obtain ⟨tree, above⟩ := ih
    have single : ∀ entry ∈ heap.fields address, entry.2 = inner := by
      rw [only]
      simp
    refine ⟨.map ?_ ?_ ?_, ?_⟩
    · intro entry member
      rwa [single entry member]
    · rw [only]
      exact List.pairwise_singleton _ _
    · intro entry member back
      rw [single entry member] at back
      exact absurd (above address back) (Nat.not_succ_le_self _)
    · intro other reaches
      cases reaches with
      | here => exact Nat.le_refl _
      | entry member inside =>
        rw [single _ member] at inside
        exact Nat.le_of_succ_le (above other inside)

namespace Planted
variable {heap next : Heap} {spot : Spot} {value held start : Stored}

/-- A value that is still a tree; what belongs to it did so before, or is a new map, if the changed
    map is one of its own. -/
structure Grown (heap next : Heap) (holder : Address) (start : Stored) : Prop where
  tree : next.Tree start
  spreads : ∀ address, next.Reaches start address → heap.Reaches start address ∨
    heap.maps.size ≤ address ∧ heap.Reaches start holder

theorem Grown.of_scalar {holder : Address} (tree : next.Tree start)
    (none : ∀ address, ¬ next.Reaches start address) : Grown heap next holder start :=
  ⟨tree, fun address reaches => absurd reaches (none address)⟩

theorem Grown.disjoint {holder : Address} (sound : heap.Sound) {first second : Stored}
    (holds : heap.Holds first) (holds' : heap.Holds second) (one : Grown heap next holder first)
    (other : Grown heap next holder second) (apart : heap.Disjoint first second) :
    next.Disjoint first second := by
  intro address a b
  rcases one.spreads address a with old | ⟨new, changed⟩
  · rcases other.spreads address b with old' | ⟨new', _⟩
    · exact apart address old old'
    · exact absurd (sound.reached_inside holds old) (Nat.not_lt.mpr new')
  · rcases other.spreads address b with old' | ⟨_, changed'⟩
    · exact absurd (sound.reached_inside holds' old') (Nat.not_lt.mpr new)
    · exact apart holder changed changed'

theorem grown_other (planted : Planted heap next spot value held) (sound : heap.Sound)
    {address : Address} (inside : address < heap.maps.size) (other : address ≠ spot.holder)
    (tree : heap.Tree (.map address))
    (grown : ∀ entry ∈ heap.fields address, Grown heap next spot.holder entry.2) :
    Grown heap next spot.holder (.map address) := by
  have same := planted.old address inside other
  cases tree with
  | map all apart no_return =>
    refine ⟨.map ?_ ?_ ?_, ?_⟩
    · rw [same]
      exact fun entry member => (grown entry member).tree
    · rw [same]
      apply apart.imp_of_mem
      intro first second one two
      exact (grown first one).disjoint sound (sound _ _ one) (sound _ _ two) (grown second two)
    · rw [same]
      intro entry member back
      rcases (grown entry member).spreads address back with old | ⟨new, _⟩
      · exact no_return entry member old
      · exact absurd inside (Nat.not_lt.mpr new)
    · intro deeper reaches
      cases reaches with
      | here => exact .inl (.here _)
      | entry member within =>
        rw [same] at member
        rcases (grown _ member).spreads deeper within with old | ⟨new, changed⟩
        · exact .inl (.entry member old)
        · exact .inr ⟨new, .entry member changed⟩

theorem grown_holder (planted : Planted heap next spot value held) (sound : heap.Sound)
    (mapless : value.Mapless) (inside : spot.holder < heap.maps.size)
    (tree : heap.Tree (.map spot.holder))
    (grown : ∀ entry ∈ heap.fields spot.holder, Grown heap next spot.holder entry.2) :
    Grown heap next spot.holder (.map spot.holder) := by
  obtain ⟨new, above⟩ := planted.chain.tree mapless
  cases tree with
  | map all apart no_return =>
    have old : ∀ entry ∈ heap.fields spot.holder, ∀ address, next.Reaches entry.2 address →
        heap.Reaches entry.2 address := by
      intro entry member address reaches
      rcases (grown entry member).spreads address reaches with before | ⟨_, changed⟩
      · exact before
      · exact absurd changed (no_return entry member)
    have distinct : ∀ entry ∈ heap.fields spot.holder, next.Disjoint entry.2 held := by
      intro entry member address a b
      have before := sound.reached_inside (sound _ _ member) (old entry member address a)
      exact absurd before (Nat.not_lt.mpr (above address b))
    refine ⟨.map ?_ ?_ ?_, ?_⟩
    · rw [planted.entry]
      intro entry member
      rcases Fields.mem_set member with rfl | there
      · exact new
      · exact (grown entry there).tree
    · rw [planted.entry]
      apply Fields.pairwise_set
      · apply apart.imp_of_mem
        intro first second one two
        exact (grown first one).disjoint sound (sound _ _ one) (sound _ _ two) (grown second two)
      · exact fun entry member => ⟨distinct entry member, (distinct entry member).symm⟩
    · rw [planted.entry]
      intro entry member back
      rcases Fields.mem_set member with rfl | there
      · exact absurd inside (Nat.not_lt.mpr (above _ back))
      · exact no_return entry there (old entry there _ back)
    · intro address reaches
      cases reaches with
      | here => exact .inl (.here _)
      | entry member within =>
        rw [planted.entry] at member
        rcases Fields.mem_set member with rfl | there
        · exact .inr ⟨above address within, .here _⟩
        · exact .inl (.entry there (old _ there address within))

/-- A tree in which a value without maps is set is still a tree. -/
theorem grown_from (planted : Planted heap next spot value held) (sound : heap.Sound)
    (mapless : value.Mapless) (tree : heap.Tree start) (holds : heap.Holds start) :
    Grown heap next spot.holder start := by
  induction tree with
  | null => exact .of_scalar .null fun _ reaches => nomatch reaches
  | boolean b => exact .of_scalar (.boolean b) fun _ reaches => nomatch reaches
  | number x => exact .of_scalar (.number x) fun _ reaches => nomatch reaches
  | string t => exact .of_scalar (.string t) fun _ reaches => nomatch reaches
  | list all apart ih =>
    cases holds with
    | list inside =>
      refine ⟨.list (fun item member => (ih item member (inside item member)).tree) ?_, ?_⟩
      · apply apart.imp_of_mem
        intro first second one two
        exact (ih first one (inside first one)).disjoint sound (inside first one)
          (inside second two) (ih second two (inside second two))
      · intro address reaches
        cases reaches with
        | item member deeper =>
          rcases (ih _ member (inside _ member)).spreads address deeper with old | ⟨new, changed⟩
          · exact .inl (.item member old)
          · exact .inr ⟨new, .item member changed⟩
  | @map address all apart no_return ih =>
    have entries := fun entry member => ih entry member (sound address entry member)
    cases holds with
    | map inside =>
      by_cases changed : address = spot.holder
      · subst changed
        exact planted.grown_holder sound mapless inside (.map all apart no_return) entries
      · exact planted.grown_other sound inside changed (.map all apart no_return) entries

end Planted

theorem IsTree.set {store : Store} (tree : store.IsTree) (sound : store.Sound) {value : Stored}
    (mapless : value.Mapless) (key : Text) : (store.set key value).1.IsTree := by
  cases taken : (store.set key value).2 with
  | none =>
    obtain ⟨root, held, planted⟩ := set_planted sound taken
    rw [IsTree, root]
    exact (planted.grown_from sound.heap mapless tree (.map sound.root)).tree
  | some fault =>
    rw [set_refused_unchanged (by simp [taken])]
    exact tree

end Store

end VirtualInstrument
