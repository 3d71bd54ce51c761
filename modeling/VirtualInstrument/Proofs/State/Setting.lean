import VirtualInstrument.Proofs.State.Refusal
import VirtualInstrument.Proofs.State.Sharing
import VirtualInstrument.Proofs.Text.Split
/- What setting a key changes. A key is set at one place: in a map that is there already, under one
   name, with new maps for what is left of its path. A reading that does not come through that
   place is as it was, and the key reads the value unless its own way comes through the place
   twice. -/
namespace VirtualInstrument.Store

/-- The place of a key: the names on the way to the map in which it is set, that map, the name it is
    set under there, and the names of the new maps behind it. -/
structure Spot where
  way : List Text
  holder : Address
  name : Text
  rest : List Text
deriving DecidableEq, Repr

def spotAt (heap : Heap) (address : Address) : Text → List Text → Spot
  | name, [] => ⟨[], address, name, []⟩
  | name, next :: rest =>
    match (heap.fields address).get? name with
    | some (.map inner) =>
      let spot := spotAt heap inner next rest
      { spot with way := name :: spot.way }
    | _ => ⟨[], address, name, next :: rest⟩

def spot (store : Store) (key : Text) : Spot :=
  if store.rootFields.has key then ⟨[], store.root, key, []⟩
  else match segments key with
    | [] => ⟨[], store.root, key, []⟩
    | first :: rest => spotAt store.heap store.root first rest

theorem spotAt_spec (heap : Heap) (address : Address) (name : Text) (rest : List Text) :
    (spotAt heap address name rest).way ++ (spotAt heap address name rest).name ::
        (spotAt heap address name rest).rest = name :: rest ∧
      mapAt? heap address (spotAt heap address name rest).way =
        some (spotAt heap address name rest).holder := by
  induction rest generalizing address name with
  | nil => exact ⟨rfl, rfl⟩
  | cons next rest ih =>
    cases found : (heap.fields address).get? name with
    | none =>
      simp only [spotAt, found]
      exact ⟨rfl, rfl⟩
    | some held =>
      cases held with
      | map inner =>
        obtain ⟨path, reached⟩ := ih inner next
        simp only [spotAt, found, List.cons_append, path, mapAt?, reached, and_self]
      | _ =>
        simp only [spotAt, found]
        exact ⟨rfl, rfl⟩

theorem mapAt?_cons_iff {heap : Heap} {address holder : Address} {name : Text} {way : List Text} :
    mapAt? heap address (name :: way) = some holder ↔ ∃ inner,
      (heap.fields address).get? name = some (.map inner) ∧ mapAt? heap inner way = some holder := by
  rw [mapAt?]
  constructor
  · intro reached
    split at reached
    · rename_i inner found
      exact ⟨inner, found, reached⟩
    · cases reached
  · rintro ⟨inner, found, reached⟩
    simp only [found, reached]

theorem spotAt_empty {heap : Heap} {address : Address} (empty : heap.fields address = [])
    (name : Text) (rest : List Text) : spotAt heap address name rest = ⟨[], address, name, rest⟩ := by
  cases rest with
  | nil => rfl
  | cons next rest => simp [spotAt, empty, Fields.get?]

theorem spot_cases (store : Store) (key : Text) :
    (store.rootFields.has key = true ∧ store.spot key = ⟨[], store.root, key, []⟩) ∨
    store.rootFields.has key = false ∧
      segments key = (store.spot key).way ++ (store.spot key).name :: (store.spot key).rest := by
  cases own : store.rootFields.has key with
  | true => exact .inl ⟨rfl, by simp [spot, own]⟩
  | false =>
    refine .inr ⟨rfl, ?_⟩
    cases path : segments key with
    | nil => exact absurd path (Text.split_ne_nil _ key)
    | cons first rest =>
      have place : store.spot key = spotAt store.heap store.root first rest := by
        simp [spot, own, path]
      rw [place]
      exact (spotAt_spec store.heap store.root first rest).1.symm

theorem spot_reached (store : Store) (key : Text) :
    mapAt? store.heap store.root (store.spot key).way = some (store.spot key).holder := by
  unfold spot
  split
  · rfl
  · split
    · rfl
    · exact (spotAt_spec store.heap store.root _ _).2

/-- New maps, one inside the other and made after it, with a value in the last. -/
inductive Chain (heap : Heap) (value : Stored) : Address → List Text → Stored → Prop
  | last {least : Address} : Chain heap value least [] value
  | link {address : Address} {name : Text} {rest : List Text} {inner : Stored}
      (only : heap.fields address = [(name, inner)])
      (later : Chain heap value (address + 1) rest inner) :
      Chain heap value address (name :: rest) (.map address)

/-- A memory in which a value is set at a place, and that is otherwise as before. -/
structure Planted (heap next : Heap) (spot : Spot) (value held : Stored) : Prop where
  grows : heap.maps.size ≤ next.maps.size
  old : ∀ address, address < heap.maps.size → address ≠ spot.holder →
    next.fields address = heap.fields address
  entry : next.fields spot.holder = (heap.fields spot.holder).set spot.name held
  chain : Chain next value heap.maps.size spot.rest held
  absent : spot.rest ≠ [] → (heap.fields spot.holder).get? spot.name = none

theorem assign_planted {heap : Heap} {address : Address} (inside : address < heap.maps.size)
    (name : Text) (value : Stored) :
    Planted heap (assign heap address name value) ⟨[], address, name, []⟩ value value := by
  refine ⟨Nat.le_of_eq (Heap.size_write heap address _).symm, ?_, ?_, .last, fun more => absurd rfl more⟩
  · intro other _ apart
    exact Heap.fields_write_other heap _ (Ne.symm apart)
  · exact Heap.fields_write_same heap _ inside

def linked (heap : Heap) (address : Address) (name : Text) : Heap :=
  assign (heap.allocate []).1 address name (.map heap.maps.size)

theorem assignPath_missing {heap : Heap} {address : Address} {name : Text}
    (missing : (heap.fields address).get? name = none) (value : Stored) (next : Text)
    (rest : List Text) : assignPath heap address value name (next :: rest) =
      assignPath (linked heap address name) heap.maps.size value next rest := by
  simp only [assignPath, missing]
  rfl

theorem linked_sound {heap : Heap} (sound : heap.Sound) (address : Address) (name : Text) :
    (linked heap address name).Sound ∧
      (linked heap address name).maps.size = heap.maps.size + 1 := by
  have size := Heap.size_allocate heap []
  have made : (heap.allocate []).1.Holds (.map heap.maps.size) := by
    refine .map ?_
    rw [size]
    exact Nat.lt_succ_self _
  obtain ⟨kept, same⟩ := assign_sound (sound.allocate Heap.holdsAll_nil) made address name
  exact ⟨kept, same.trans size⟩

theorem linked_fields {heap : Heap} {address : Address} (inside : address < heap.maps.size)
    (name : Text) :
    (linked heap address name).fields heap.maps.size = [] ∧
      (linked heap address name).fields address =
        (heap.fields address).set name (.map heap.maps.size) ∧
      ∀ other, other < heap.maps.size → other ≠ address →
        (linked heap address name).fields other = heap.fields other := by
  have there : address < (heap.allocate []).1.maps.size := by
    rw [Heap.size_allocate]
    exact Nat.lt_succ_of_lt inside
  refine ⟨?_, ?_, ?_⟩
  · rw [linked, assign, Heap.fields_write_other _ _ (Nat.ne_of_lt inside), Heap.fields_allocate_new]
  · rw [linked, assign, Heap.fields_write_same _ _ there,
      Heap.fields_allocate_old _ _ (Nat.ne_of_lt inside)]
  · intro other old apart
    rw [linked, assign, Heap.fields_write_other _ _ (Ne.symm apart),
      Heap.fields_allocate_old _ _ (Nat.ne_of_lt old)]

theorem assignPath_planted {value : Stored} (rest : List Text) {heap : Heap} (sound : heap.Sound)
    {address : Address} (inside : address < heap.maps.size) {name : Text}
    (free : (assignPath heap address value name rest).2 = none) :
    ∃ held, Planted heap (assignPath heap address value name rest).1
      (spotAt heap address name rest) value held := by
  induction rest generalizing heap address name with
  | nil => exact ⟨value, assign_planted inside name value⟩
  | cons next rest ih =>
    cases found : (heap.fields address).get? name with
    | none =>
      -- the new map is empty, so what is left of the path is set in it
      obtain ⟨kept, size⟩ := linked_sound sound address name
      obtain ⟨empty, leads, others⟩ := linked_fields inside name
      rw [assignPath_missing found] at free ⊢
      obtain ⟨held, planted⟩ := ih kept (size ▸ Nat.lt_succ_self _) free
      rw [spotAt_empty empty] at planted
      have before : ∀ other, other < heap.maps.size →
          (assignPath (linked heap address name) heap.maps.size value next rest).1.fields other =
            (linked heap address name).fields other := fun other old =>
        planted.old other (size ▸ Nat.lt_succ_of_lt old) (Nat.ne_of_lt old)
      have place : spotAt heap address name (next :: rest) = ⟨[], address, name, next :: rest⟩ := by
        simp only [spotAt, found]
      have more : heap.maps.size ≤ (linked heap address name).maps.size := size ▸ Nat.le_succ _
      rw [place]
      refine ⟨.map heap.maps.size, Nat.le_trans more planted.grows, ?_, ?_, ?_, fun _ => found⟩
      · intro other old apart
        rw [before other old, others other old apart]
      · rw [before address inside, leads]
      · refine .link ?_ (size ▸ planted.chain)
        rw [planted.entry, empty]
        rfl
    | some held =>
      cases held with
      | map inner =>
        simp only [assignPath, found] at free ⊢
        have deeper : inner < heap.maps.size := by
          cases sound address _ (Fields.mem_of_get? found) with
          | map inside => exact inside
        obtain ⟨held, planted⟩ := ih sound deeper free
        refine ⟨held, planted.grows, ?_, ?_, ?_, ?_⟩
        all_goals simp only [spotAt, found]
        · exact planted.old
        · exact planted.entry
        · exact planted.chain
        · exact planted.absent
      | _ => simp [assignPath, found] at free

/-- What a setting does: it refuses the key and leaves the state as it is, or it sets the key in the
    top map, or it sets the key on its path. -/
theorem set_cases (store : Store) (key : Text) (value : Stored) :
    ((store.set key value).1 = store ∧ (store.set key value).2 ≠ none) ∨
    (store.spot key = ⟨[], store.root, key, []⟩ ∧
      store.set key value = ({ store with heap := assign store.heap store.root key value }, none)) ∨
    ∃ first rest, store.spot key = spotAt store.heap store.root first rest ∧
      store.set key value =
        ({ store with heap := (assignPath store.heap store.root value first rest).1 },
          (assignPath store.heap store.root value first rest).2.map (.notAMap key)) := by
  unfold set
  by_cases bad : (segments key).any forbidden.contains = true
  · simp only [if_pos bad]
    exact .inl ⟨trivial, by simp⟩
  · simp only [if_neg bad]
    cases path : segments key with
    | nil => exact absurd path (Text.split_ne_nil _ key)
    | cons first rest =>
      by_cases direct : (rest.isEmpty || store.rootFields.has key) = true
      · simp only [if_pos direct]
        refine .inr (.inl ⟨?_, trivial⟩)
        rcases spot_cases store key with ⟨_, place⟩ | ⟨nested, _⟩
        · exact place
        · have single : rest = [] := by simpa [nested] using direct
          subst single
          simp [spot, nested, path, spotAt, Text.eq_of_split_single path]
      · simp only [if_neg direct]
        have nested : store.rootFields.has key = false := by simp at direct; exact direct.2
        exact .inr (.inr ⟨first, rest, by simp [spot, nested, path], rfl⟩)

theorem set_planted {store : Store} (sound : store.Sound) {key : Text} {value : Stored}
    (taken : (store.set key value).2 = none) :
    (store.set key value).1.root = store.root ∧ ∃ held,
      Planted store.heap (store.set key value).1.heap (store.spot key) value held := by
  rcases set_cases store key value with
    ⟨_, refused⟩ | ⟨place, assigned⟩ | ⟨first, rest, place, assigned⟩
  · exact absurd taken refused
  · rw [place, assigned]
    exact ⟨rfl, value, assign_planted sound.root key value⟩
  · rw [assigned] at taken
    rw [place, assigned]
    exact ⟨rfl, assignPath_planted rest sound.heap sound.root (Option.map_eq_none_iff.mp taken)⟩

theorem follow?_append (heap : Heap) (value : Stored) (first second : List Text) :
    follow? heap value (first ++ second) =
      (follow? heap value first).bind fun inner => follow? heap inner second := by
  induction first generalizing value with
  | nil => rfl
  | cons segment first ih =>
    rw [List.cons_append, follow?, follow?]
    cases child? heap value segment with
    | none => rfl
    | some inner => exact ih inner

theorem follow?_mapAt {heap : Heap} {address holder : Address} {way : List Text}
    (reached : mapAt? heap address way = some holder) :
    follow? heap (.map address) way = some (.map holder) := by
  induction way generalizing address with
  | nil =>
    cases reached
    rfl
  | cons name way ih =>
    obtain ⟨inner, found, later⟩ := mapAt?_cons_iff.mp reached
    simp only [follow?, child?, found, Option.bind_some]
    exact ih later

theorem child?_holds {heap : Heap} (sound : heap.Sound) {value inner : Stored}
    (holds : heap.Holds value) {segment : Text} (found : child? heap value segment = some inner) :
    heap.Holds inner := by
  cases value with
  | map address => exact sound address _ (Fields.mem_of_get? found)
  | list items =>
    cases holds with
    | list all =>
      rw [child?] at found
      split at found
      · exact all inner (List.mem_of_getElem? found)
      · cases found
  | _ => cases found

theorem follow?_holds {heap : Heap} (sound : heap.Sound) {value last : Stored}
    (holds : heap.Holds value) {path : List Text} (found : follow? heap value path = some last) :
    heap.Holds last := by
  induction path generalizing value with
  | nil =>
    cases found
    exact holds
  | cons segment path ih =>
    obtain ⟨inner, first, later⟩ := Option.bind_eq_some_iff.mp found
    exact ih (child?_holds sound holds first) later

namespace Planted
variable {heap next : Heap} {spot : Spot} {value held : Stored}

theorem child?_same (planted : Planted heap next spot value held) {start : Stored}
    (holds : heap.Holds start) (segment : Text) :
    child? next start segment = child? heap start segment ∨
      start = .map spot.holder ∧ segment = spot.name := by
  cases start with
  | map address =>
    by_cases changed : address = spot.holder
    · subst changed
      by_cases same : segment = spot.name
      · exact .inr ⟨rfl, same⟩
      · refine .inl ?_
        rw [child?, child?, planted.entry, Fields.get?_set, if_neg (Ne.symm same)]
    · cases holds with
      | map inside => exact .inl (by rw [child?, child?, planted.old address inside changed])
  | _ => exact .inl rfl

/-- A path leads to the same value as before unless it comes through the place that is set. -/
theorem follow?_same (planted : Planted heap next spot value held) (sound : heap.Sound)
    (path : List Text) {start : Stored} (holds : heap.Holds start) :
    follow? next start path = follow? heap start path ∨ ∃ before after,
      path = before ++ spot.name :: after ∧
        follow? heap start before = some (.map spot.holder) := by
  induction path generalizing start with
  | nil => exact .inl rfl
  | cons segment path ih =>
    rcases planted.child?_same holds segment with same | ⟨rfl, rfl⟩
    · cases found : child? heap start segment with
      | none => exact .inl (by simp only [follow?, same, found, Option.bind_none])
      | some inner =>
        rcases ih (child?_holds sound holds found) with later | ⟨before, after, rfl, reached⟩
        · exact .inl (by simp only [follow?, same, found, Option.bind_some, later])
        · refine .inr ⟨segment :: before, after, rfl, ?_⟩
          simp only [follow?, found, Option.bind_some, reached]
    · exact .inr ⟨[], path, rfl, rfl⟩

theorem follow?_chain {least : Address} {rest : List Text} (chain : Chain next value least rest held) :
    follow? next held rest = some value := by
  induction chain with
  | last => rfl
  | link only _ ih =>
    simp only [follow?, child?, only, Fields.get?, if_true, Option.bind_some]
    exact ih

end Planted

end VirtualInstrument.Store
