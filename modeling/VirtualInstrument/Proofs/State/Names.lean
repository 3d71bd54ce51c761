import VirtualInstrument.Proofs.Document.Alike
import VirtualInstrument.Proofs.State.Overlay
/- The names in the maps of a memory. Each map lists each of its names once: documents that do so are
   loaded as they are, and setting a key adds a name only where it is missing. So what a value shows
   lists its names once, too. -/
namespace VirtualInstrument

namespace Fields
variable {α : Type} {fields : Fields α}

theorem perm_insertNew (name : Text) (value : α) (fields : Fields α) :
    (names (insertNew name value fields)).Perm (name :: fields.names) := by
  induction fields with
  | nil => exact .refl _
  | cons entry rest ih =>
    unfold insertNew
    split
    · exact .refl _
    · exact (List.Perm.cons entry.1 ih).trans (.swap name entry.1 (names rest))

theorem nodup_set (once : fields.names.Nodup) (name : Text) (value : α) :
    (fields.set name value).names.Nodup := by
  unfold set
  split
  · rwa [names_replace]
  · rename_i missing
    have absent : name ∉ fields.names := fun listed => missing ((has_iff fields name).mpr listed)
    exact (perm_insertNew name value fields).nodup_iff.mpr (List.nodup_cons.mpr ⟨absent, once⟩)

end Fields

namespace Heap
variable {heap : Heap}

def Once (heap : Heap) : Prop := ∀ address, (heap.fields address).names.Nodup

theorem once_empty : empty.Once := fun _ => List.nodup_nil

theorem Once.allocate (once : heap.Once) {entries : Fields Stored} (new : entries.names.Nodup) :
    (heap.allocate entries).1.Once := by
  intro address
  rcases Nat.lt_trichotomy address heap.maps.size with old | rfl | outside
  · rw [fields_allocate_old heap entries old.ne]
    exact once address
  · rwa [fields_allocate_new]
  · rw [fields_outside (by rw [size_allocate]; exact outside)]
    exact List.nodup_nil

theorem Once.write (once : heap.Once) {entries : Fields Stored} (new : entries.names.Nodup)
    (address : Address) : (heap.write address entries).Once := by
  intro other
  by_cases same : address = other
  · subst same
    by_cases inside : address < heap.maps.size
    · rwa [fields_write_same heap entries inside]
    · rw [fields_outside (by rw [size_write]; exact Nat.not_lt.mp inside)]
      exact List.nodup_nil
  · rw [fields_write_other heap entries same]
    exact once other

mutual

theorem Once.load {heap : Heap} (once : heap.Once) {document : Document} (names : document.Once) :
    (heap.load document).1.Once := by
  cases document with
  | list items =>
    cases names with
    | list each => exact once.loadItems each
  | map fields =>
    cases names with
    | map distinct each =>
      obtain ⟨loaded, same⟩ := once.loadFields each
      exact loaded.allocate (same ▸ distinct)
  | _ => exact once

theorem Once.loadItems {heap : Heap} (once : heap.Once) {items : List Document}
    (names : ∀ item ∈ items, item.Once) : (heap.loadItems items).1.Once := by
  cases items with
  | nil => exact once
  | cons item rest =>
    obtain ⟨here, later⟩ := List.forall_mem_cons.mp names
    rw [Heap.loadItems]
    exact (once.load here).loadItems later

theorem Once.loadFields {heap : Heap} (once : heap.Once) {fields : Fields Document}
    (names : ∀ entry ∈ fields, entry.2.Once) : (heap.loadFields fields).1.Once ∧
      (heap.loadFields fields).2.names = fields.names := by
  cases fields with
  | nil => exact ⟨once, rfl⟩
  | cons entry rest =>
    obtain ⟨here, later⟩ := List.forall_mem_cons.mp names
    obtain ⟨name, item⟩ := entry
    obtain ⟨loaded, same⟩ := (once.load here).loadFields later
    rw [Heap.loadFields]
    exact ⟨loaded, congrArg (name :: ·) same⟩

end

theorem Once.document_once (once : heap.Once) : ∀ {value : Stored} {document : Document},
    heap.Shows value document → document.Once
  | _, .null, _ => .null
  | _, .boolean b, _ => .boolean b
  | _, .number x, _ => .number x
  | _, .string t, _ => .string t
  | value, .list documents, shows => by
    obtain ⟨items, rfl⟩ := (shape_of_shows shows).2 ⟨documents, rfl⟩
    obtain ⟨documents, ⟨⟩, all⟩ := shows_list_iff.mp shows
    have held : ∀ document ∈ documents, ∃ item, heap.Shows item document :=
      forall_right all fun item _ shown => ⟨item, shown⟩
    refine .list fun document listed => ?_
    obtain ⟨item, shown⟩ := held document listed
    have smaller := List.sizeOf_lt_of_mem listed
    exact once.document_once shown
  | value, .map fields, shows => by
    obtain ⟨address, rfl⟩ := (shape_of_shows shows).1 ⟨fields, rfl⟩
    obtain ⟨fields, ⟨⟩, all⟩ := shows_map_iff.mp shows
    have held : ∀ entry ∈ fields, ∃ value, heap.Shows value entry.2 :=
      forall_right all fun entry _ both => ⟨entry.2, both.2⟩
    refine .map (all.names_eq ▸ once address) fun entry listed => ?_
    obtain ⟨value, shown⟩ := held entry listed
    have smaller := List.sizeOf_lt_of_mem listed
    exact once.document_once shown
termination_by _ document => sizeOf document
decreasing_by
  · simp only [Document.list.sizeOf_spec]
    omega
  · obtain ⟨name, document⟩ := entry
    simp only [Prod.mk.sizeOf_spec] at smaller
    simp only [Document.map.sizeOf_spec]
    omega

end Heap

namespace Store
open Heap

theorem once_assign {heap : Heap} (once : heap.Once) (address : Address) (name : Text)
    (value : Stored) : (assign heap address name value).Once :=
  once.write (Fields.nodup_set (once address) name value) address

theorem once_assignPath {value : Stored} (rest : List Text) {heap : Heap} (once : heap.Once)
    (address : Address) (name : Text) : (assignPath heap address value name rest).1.Once := by
  induction rest generalizing heap address name with
  | nil => exact once_assign once address name value
  | cons next rest ih =>
    cases found : (heap.fields address).get? name with
    | none =>
      have grown : (heap.allocate []).1.Once := once.allocate List.nodup_nil
      simp only [assignPath, found]
      exact ih (once_assign grown address name _) _ next
    | some held =>
      cases held with
      | map inner =>
        simp only [assignPath, found]
        exact ih once inner next
      | _ =>
        simp only [assignPath, found]
        exact once

theorem once_set {store : Store} (once : store.heap.Once) (key : Text) (value : Stored) :
    (store.set key value).1.heap.Once := by
  unfold Store.set
  dsimp only
  split
  · exact once
  · split
    · exact once
    · split
      · exact once_assign once store.root key value
      · exact once_assignPath _ once store.root _

theorem once_create {heap : Heap} (once : heap.Once) {seed : Fields Document}
    (names : (Document.map seed).Once) : (create heap seed).heap.Once := by
  cases names with
  | map distinct each =>
    obtain ⟨loaded, same⟩ := once.loadFields each
    exact loaded.allocate (same ▸ distinct)

end Store

end VirtualInstrument
