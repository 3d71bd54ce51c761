import VirtualInstrument.Proofs.State.Setting
/- Parts of memory that are closed. What is done from inside such a part, with new maps where maps
   are needed, leaves every map outside as it is, and the part closed. -/
namespace VirtualInstrument

namespace Heap

/-- A set of addresses that holds every address without a map yet, and with a map the maps in its
    entries. -/
structure Region (heap : Heap) (within : Address → Prop) : Prop where
  new : ∀ address, heap.maps.size ≤ address → within address
  entries : ∀ address, within address → ∀ entry ∈ heap.fields address, entry.2.Only within

/-- A later memory in which the set is closed too, and every map outside is as it was. -/
structure Confined (within : Address → Prop) (heap next : Heap) : Prop where
  grows : heap.maps.size ≤ next.maps.size
  region : next.Region within
  outside : ∀ address, ¬ within address → next.fields address = heap.fields address

variable {within : Address → Prop}

theorem Region.confined {heap : Heap} (region : heap.Region within) : Confined within heap heap :=
  ⟨Nat.le_refl _, region, fun _ _ => rfl⟩

theorem Confined.trans {a b c : Heap} (first : Confined within a b) (second : Confined within b c) :
    Confined within a c :=
  ⟨Nat.le_trans first.grows second.grows, second.region,
    fun address apart => (second.outside address apart).trans (first.outside address apart)⟩

theorem Region.write {heap : Heap} (region : heap.Region within) {address : Address}
    (inside : within address) {entries : Fields Stored}
    (only : ∀ entry ∈ entries, entry.2.Only within) :
    Confined within heap (heap.write address entries) := by
  refine ⟨Nat.le_of_eq (size_write heap address entries).symm, ⟨?_, ?_⟩, ?_⟩
  · rw [size_write]
    exact region.new
  · intro other there entry member
    by_cases same : address = other
    · subst same
      by_cases present : address < heap.maps.size
      · rw [fields_write_same heap entries present] at member
        exact only entry member
      · rw [fields_outside (size_write heap address entries ▸ Nat.not_lt.mp present)] at member
        cases member
    · rw [fields_write_other heap entries same] at member
      exact region.entries other there entry member
  · intro other apart
    exact fields_write_other heap entries fun same => apart (same ▸ inside)

theorem Region.allocate {heap : Heap} (region : heap.Region within) {entries : Fields Stored}
    (only : ∀ entry ∈ entries, entry.2.Only within) :
    Confined within heap (heap.allocate entries).1 := by
  have size := size_allocate heap entries
  refine ⟨by omega, ⟨?_, ?_⟩, ?_⟩
  · intro address least
    exact region.new address (by omega)
  · intro address inside entry member
    by_cases same : address = heap.maps.size
    · subst same
      rw [fields_allocate_new] at member
      exact only entry member
    · rw [fields_allocate_old heap entries same] at member
      exact region.entries address inside entry member
  · intro address apart
    refine fields_allocate_old heap entries fun same => apart (region.new address ?_)
    exact Nat.le_of_eq same.symm

theorem Region.load {heap : Heap} (region : heap.Region within) (document : Document) :
    Confined within heap (heap.load document).1 ∧ (heap.load document).2.Only within := by
  refine load_keeps ?_ region.confined document
  intro next entries before _ only
  exact ⟨before.trans (before.region.allocate only), before.region.new _ (Nat.le_refl _)⟩

theorem Region.within_of_reaches {heap : Heap} (region : heap.Region within) {value : Stored}
    (only : value.Only within) {address : Address} (reaches : heap.Reaches value address) :
    within address := by
  induction reaches with
  | here => cases only with | map inside => exact inside
  | item member _ ih => cases only with | list all => exact ih (all _ member)
  | @entry holder entry _ member _ ih =>
    cases only with
    | map inside => exact ih (region.entries holder inside entry member)

end Heap

namespace Store
variable {within : Address → Prop}

theorem assign_confined {heap : Heap} (region : heap.Region within) {address : Address}
    (inside : within address) (name : Text) {value : Stored} (only : value.Only within) :
    Heap.Confined within heap (assign heap address name value) := by
  apply region.write inside
  intro entry member
  rcases Fields.mem_set member with rfl | there
  · exact only
  · exact region.entries address inside entry there

theorem assignPath_confined {value : Stored} (only : value.Only within) (rest : List Text)
    {heap : Heap} (region : heap.Region within) {address : Address} (inside : within address)
    (name : Text) : Heap.Confined within heap (assignPath heap address value name rest).1 := by
  induction rest generalizing heap address name with
  | nil => exact assign_confined region inside name only
  | cons next rest ih =>
    cases found : (heap.fields address).get? name with
    | none =>
      have new : within heap.maps.size := region.new _ (Nat.le_refl _)
      have grown : Heap.Confined within heap (heap.allocate []).1 := region.allocate (by simp)
      have linked := assign_confined grown.region inside name (.map new)
      simp only [assignPath, found]
      exact (grown.trans linked).trans (ih linked.region new next)
    | some held =>
      cases held with
      | map inner =>
        simp only [assignPath, found]
        cases region.entries address inside _ (Fields.mem_of_get? found) with
        | map deeper => exact ih region deeper next
      | _ =>
        simp only [assignPath, found]
        exact region.confined

/-- A key is set inside the part of memory that holds the top map and the value. -/
theorem set_confined {store : Store} (region : store.heap.Region within)
    (root : within store.root) {value : Stored} (only : value.Only within) (key : Text) :
    Heap.Confined within store.heap (store.set key value).1.heap := by
  rcases set_cases store key value with
    ⟨unchanged, _⟩ | ⟨_, assigned⟩ | ⟨first, rest, _, assigned⟩
  · rw [unchanged]
    exact region.confined
  · rw [assigned]
    exact assign_confined region root key only
  · rw [assigned]
    exact assignPath_confined only rest region root first

theorem set_kept (store : Store) (key : Text) (value : Stored) :
    (store.set key value).1.root = store.root ∧ (store.set key value).1.seed = store.seed := by
  rcases set_cases store key value with ⟨unchanged, _⟩ | ⟨_, assigned⟩ | ⟨_, _, _, assigned⟩
  · rw [unchanged]
    exact ⟨rfl, rfl⟩
  · rw [assigned]
    exact ⟨rfl, rfl⟩
  · rw [assigned]
    exact ⟨rfl, rfl⟩

theorem create_eq_load (heap : Heap) (seed : Fields Document) :
    (create heap seed).heap = (heap.load (.map seed)).1 ∧
      Stored.map (create heap seed).root = (heap.load (.map seed)).2 := ⟨rfl, rfl⟩

theorem create_confined {heap : Heap} (region : heap.Region within) (seed : Fields Document) :
    Heap.Confined within heap (create heap seed).heap ∧ within (create heap seed).root := by
  obtain ⟨kept, only⟩ := region.load (.map seed)
  rw [← (create_eq_load heap seed).2] at only
  cases only with
  | map inside => exact ⟨kept, inside⟩

end Store

end VirtualInstrument
