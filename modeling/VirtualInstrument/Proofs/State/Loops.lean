import VirtualInstrument.Proofs.State.ReadBack
/- Maps that contain themselves. They are what has no document: every other value shows one. What
   is loaded contains no map twice on the way down, so a memory comes to hold such a map only when a
   key is set, inside a map, to a value to which this map belongs. -/
namespace VirtualInstrument

namespace Heap

def Loops (heap : Heap) (address : Address) : Prop :=
  ∃ entry ∈ heap.fields address, heap.Reaches entry.2 address

/-- A value to which a map belongs that contains itself. -/
def Endless (heap : Heap) (value : Stored) : Prop :=
  ∃ address, heap.Reaches value address ∧ heap.Loops address

def Loopless (heap : Heap) : Prop := ∀ address, ¬ heap.Loops address

theorem Loopless.not_endless {heap : Heap} (loopless : heap.Loopless) (value : Stored) :
    ¬ heap.Endless value := by
  rintro ⟨address, _, loops⟩
  exact loopless address loops

section Documents
variable {ofMap : Address → Option Document}

theorem unloadItems_some {items : List Stored}
    (each : ∀ item ∈ items, ∃ document, unloadWith ofMap item = some document) :
    ∃ documents, unloadItems ofMap items = some documents := by
  induction items with
  | nil => exact ⟨[], rfl⟩
  | cons item rest ih =>
    obtain ⟨⟨document, head⟩, later⟩ := List.forall_mem_cons.mp each
    obtain ⟨others, tail⟩ := ih later
    exact ⟨_, unloadItems_cons_iff.mpr ⟨document, others, head, tail, rfl⟩⟩

theorem unloadFields_some {fields : Fields Stored}
    (each : ∀ entry ∈ fields, ∃ document, unloadWith ofMap entry.2 = some document) :
    ∃ documents, unloadFields ofMap fields = some documents := by
  induction fields with
  | nil => exact ⟨[], rfl⟩
  | cons entry rest ih =>
    obtain ⟨⟨document, head⟩, later⟩ := List.forall_mem_cons.mp each
    obtain ⟨others, tail⟩ := ih later
    exact ⟨_, unloadFields_cons_iff.mpr ⟨document, others, head, tail, rfl⟩⟩

theorem unloadWith_some {value : Stored}
    (only : value.Only fun address => ∃ document, ofMap address = some document) :
    ∃ document, unloadWith ofMap value = some document := by
  induction only with
  | list _ ih =>
    obtain ⟨documents, all⟩ := unloadItems_some ih
    exact ⟨.list documents, by rw [unloadWith, all]; rfl⟩
  | map shown => exact shown
  | null => exact ⟨.null, rfl⟩
  | boolean b => exact ⟨.boolean b, rfl⟩
  | number x => exact ⟨.number x, rfl⟩
  | string t => exact ⟨.string t, rfl⟩

end Documents

theorem unloadMap_some {heap : Heap} (sound : heap.Sound) {address : Address}
    (ends : ¬ heap.Endless (.map address)) (inside : address < heap.maps.size)
    {around : Finset Address} (there : around ⊆ Finset.range heap.maps.size)
    (apart : ∀ outer ∈ around, ¬ heap.Reaches (.map address) outer) :
    ∃ document, heap.unloadMap (heap.maps.size - around.card) address = some document := by
  -- each level down adds the map that is left to those around, so there are fewer and fewer others
  induction left : heap.maps.size - around.card generalizing address around with
  | zero =>
    have new : address ∉ around := fun member => apart address member (.here address)
    have wider : insert address around ⊆ Finset.range heap.maps.size :=
      Finset.insert_subset (Finset.mem_range.mpr inside) there
    have count := Finset.card_le_card wider
    rw [Finset.card_range, Finset.card_insert_of_notMem new] at count
    omega
  | succ depth ih =>
    have new : address ∉ around := fun member => apart address member (.here address)
    have wider : insert address around ⊆ Finset.range heap.maps.size :=
      Finset.insert_subset (Finset.mem_range.mpr inside) there
    have count := Finset.card_insert_of_notMem new
    have each : ∀ entry ∈ heap.fields address,
        ∃ document, unloadWith (heap.unloadMap depth) entry.2 = some document := by
      intro entry member
      refine unloadWith_some (only_of_reaches heap entry.2 ?_)
      intro inner reaches
      refine ih ?_ ?_ wider ?_ ?_
      · rintro ⟨deep, further, loops⟩
        exact ends ⟨deep, .entry member (reaches.trans further), loops⟩
      · exact sound.reached_inside (sound address entry member) reaches
      · intro outer outside back
        rcases Finset.mem_insert.mp outside with rfl | before
        · exact ends ⟨outer, .here outer, entry, member, reaches.trans back⟩
        · exact apart outer before (.entry member (reaches.trans back))
      · omega
    obtain ⟨documents, all⟩ := unloadFields_some each
    exact ⟨.map documents, unloadMap_succ_iff.mpr ⟨documents, all, rfl⟩⟩

theorem unloadMap_of_empty {heap : Heap} {address : Address} (empty : heap.fields address = [])
    (depth : Nat) : heap.unloadMap (depth + 1) address = some (.map []) :=
  unloadMap_succ_iff.mpr ⟨[], by rw [empty]; rfl, rfl⟩

/-- The values without a document are those to which a map belongs that contains itself. -/
theorem unload?_eq_none_iff {heap : Heap} (sound : heap.Sound) (present : 0 < heap.maps.size)
    (value : Stored) : heap.unload? value = none ↔ heap.Endless value := by
  constructor
  · intro none
    by_contra ends
    have some : ∃ document, heap.unload? value = some document := by
      refine unloadWith_some (only_of_reaches heap value ?_)
      intro address reaches
      by_cases inside : address < heap.maps.size
      · have inner : ¬ heap.Endless (.map address) := by
          rintro ⟨deep, further, loops⟩
          exact ends ⟨deep, reaches.trans further, loops⟩
        have shown := unloadMap_some sound inner inside (Finset.empty_subset _) (by simp)
        simpa using shown
      · obtain ⟨depth, size⟩ := Nat.exists_eq_succ_of_ne_zero (Nat.ne_of_gt present)
        rw [size]
        exact ⟨_, unloadMap_of_empty (fields_outside (Nat.not_lt.mp inside)) depth⟩
    obtain ⟨document, shown⟩ := some
    rw [none] at shown
    cases shown
  · rintro ⟨address, reaches, entry, member, back⟩
    cases shown : heap.unload? value with
    | none => rfl
    | some document =>
      obtain ⟨part, found, _⟩ := reached_smaller shown reaches
      exact absurd back (no_return found member)

theorem loopless_empty : empty.Loopless := by
  rintro address ⟨entry, member, _⟩
  simp [fields, empty] at member

theorem Loopless.allocate {heap : Heap} (loopless : heap.Loopless) (sound : heap.Sound)
    {entries : Fields Stored} (holds : heap.HoldsAll entries) :
    (heap.allocate entries).1.Loopless := by
  have extended := extends_allocate holds
  rintro address ⟨entry, member, back⟩
  by_cases new : address = heap.maps.size
  · subst new
    rw [fields_allocate_new] at member
    have old := (extended.agrees sound (holds entry member)).reaches_before back
    exact Nat.lt_irrefl _ (sound.reached_inside (holds entry member) old)
  · rw [fields_allocate_old heap entries new] at member
    have old := (extended.agrees sound (sound address entry member)).reaches_before back
    exact loopless address ⟨entry, member, old⟩

theorem load_loopless (heap : Heap) (document : Document) (before : heap.Sound ∧ heap.Loopless) :
    ((heap.load document).1.Sound ∧ (heap.load document).1.Loopless) ∧
      (heap.load document).2.Only fun _ => True := by
  have step : KeptByMaps (fun heap => heap.Sound ∧ heap.Loopless) fun _ => True := by
    intro heap entries before holds _
    exact ⟨⟨before.1.allocate holds, before.2.allocate before.1 holds⟩, trivial⟩
  exact load_keeps step before document

end Heap

namespace Store

/-- What a value contains after a key of a map is set: what it contained before, and what the new
    value contains if this map belongs to it. -/
theorem reached_of_assign {heap : Heap} {address : Address} {name : Text} {value : Stored}
    (inside : address < heap.maps.size) (apart : ¬ heap.Reaches value address) {start : Stored}
    {last : Address} (reaches : (assign heap address name value).Reaches start last) :
    heap.Reaches start last ∨ heap.Reaches start address ∧ heap.Reaches value last := by
  induction reaches with
  | here last => exact .inl (.here last)
  | item member _ ih =>
    rcases ih with before | ⟨around, new⟩
    · exact .inl (.item member before)
    · exact .inr ⟨.item member around, new⟩
  | @entry holder entry last member _ ih =>
    by_cases changed : address = holder
    · subst changed
      rw [assign, Heap.fields_write_same heap _ inside] at member
      rcases Fields.mem_set member with rfl | there
      · rcases ih with new | ⟨around, _⟩
        · exact .inr ⟨.here _, new⟩
        · exact absurd around apart
      · rcases ih with before | ⟨_, new⟩
        · exact .inl (.entry there before)
        · exact .inr ⟨.here _, new⟩
    · rw [assign, Heap.fields_write_other heap _ changed] at member
      rcases ih with before | ⟨around, new⟩
      · exact .inl (.entry member before)
      · exact .inr ⟨.entry member around, new⟩

theorem assign_loopless {heap : Heap} (loopless : heap.Loopless) {address : Address}
    (inside : address < heap.maps.size) (name : Text) {value : Stored}
    (apart : ¬ heap.Reaches value address) : (assign heap address name value).Loopless := by
  rintro holder ⟨entry, member, back⟩
  have before := reached_of_assign inside apart back
  by_cases changed : address = holder
  · subst changed
    rw [assign, Heap.fields_write_same heap _ inside] at member
    rcases Fields.mem_set member with rfl | there
    · rcases before with old | ⟨_, old⟩
      · exact apart old
      · exact apart old
    · rcases before with old | ⟨old, _⟩
      · exact loopless address ⟨entry, there, old⟩
      · exact loopless address ⟨entry, there, old⟩
  · rw [assign, Heap.fields_write_other heap _ changed] at member
    rcases before with old | ⟨around, new⟩
    · exact loopless holder ⟨entry, member, old⟩
    · exact apart (new.trans (.entry member around))

theorem linked_loopless {heap : Heap} (sound : heap.Sound) (loopless : heap.Loopless)
    {address : Address} (inside : address < heap.maps.size) (name : Text) :
    (linked heap address name).Loopless := by
  have there : address < (heap.allocate []).1.maps.size := by
    rw [Heap.size_allocate]
    exact Nat.lt_succ_of_lt inside
  apply assign_loopless (loopless.allocate sound Heap.holdsAll_nil) there
  intro reaches
  cases reaches with
  | here => exact Nat.lt_irrefl _ inside
  | entry member _ =>
    rw [Heap.fields_allocate_new] at member
    cases member

theorem assignPath_loopless {value : Stored} (rest : List Text) {heap : Heap} (sound : heap.Sound)
    (loopless : heap.Loopless) (holds : heap.Holds value) {address : Address}
    (inside : address < heap.maps.size) {name : Text}
    (apart : ¬ heap.Reaches value (spotAt heap address name rest).holder) :
    (assignPath heap address value name rest).1.Loopless := by
  induction rest generalizing heap address name with
  | nil => exact assign_loopless loopless inside name apart
  | cons next rest ih =>
    cases found : (heap.fields address).get? name with
    | none =>
      obtain ⟨kept, size⟩ := linked_sound sound address name
      obtain ⟨empty, _, others⟩ := linked_fields inside name
      simp only [spotAt, found] at apart
      have agrees : Heap.Agrees heap (linked heap address name) value := by
        intro other reaches
        refine others other (sound.reached_inside holds reaches) ?_
        rintro rfl
        exact apart reaches
      have grows : heap.maps.size ≤ (linked heap address name).maps.size := by omega
      have new : heap.maps.size < (linked heap address name).maps.size := by omega
      rw [assignPath_missing found]
      apply ih kept (linked_loopless sound loopless inside name) (holds.grow grows) new
      rw [spotAt_empty empty]
      intro reaches
      exact Nat.lt_irrefl _ (sound.reached_inside holds (agrees.reaches_before reaches))
    | some held =>
      cases held with
      | map inner =>
        simp only [spotAt, found] at apart
        simp only [assignPath, found]
        have deeper : inner < heap.maps.size := by
          cases sound address _ (Fields.mem_of_get? found) with
          | map inside => exact inside
        exact ih sound loopless holds deeper apart
      | _ =>
        simp only [assignPath, found]
        exact loopless

/-- A setting that makes a map contain itself: the value is put into a map that belongs to it. -/
def Winds (store : Store) (key : Text) (value : Stored) : Prop :=
  store.heap.Reaches value (store.spot key).holder

theorem set_loopless {store : Store} (sound : store.Sound) (loopless : store.heap.Loopless)
    {value : Stored} (holds : store.heap.Holds value) {key : Text}
    (straight : ¬ store.Winds key value) : (store.set key value).1.heap.Loopless := by
  rcases set_cases store key value with
    ⟨unchanged, _⟩ | ⟨place, assigned⟩ | ⟨first, rest, place, assigned⟩
  · rwa [unchanged]
  · rw [Winds, place] at straight
    rw [assigned]
    exact assign_loopless loopless sound.root key straight
  · rw [Winds, place] at straight
    rw [assigned]
    exact assignPath_loopless rest sound.heap loopless holds sound.root straight

/-- A key that is set keeps a memory without loops exactly when the value does not contain the map
    in which the key is set. -/
theorem set_loopless_iff {store : Store} (sound : store.Sound) (loopless : store.heap.Loopless)
    {value : Stored} (holds : store.heap.Holds value) {key : Text}
    (taken : (store.set key value).2 = none) :
    (store.set key value).1.heap.Loopless ↔ ¬ store.Winds key value := by
  constructor
  · intro after winds
    obtain ⟨_, held, planted⟩ := set_planted sound taken
    have back := planted.reaches_holder sound.heap holds winds
    exact after _ ⟨_, planted.entry_mem, planted.chain.held_reaches back⟩
  · exact set_loopless sound loopless holds

end Store

end VirtualInstrument
