import VirtualInstrument.Proofs.State.Heap
import VirtualInstrument.Proofs.Text.Split
/- Which keys a state refuses. A key is refused for one of its segments, or because its path runs
   through something that is no map; a refused key changes nothing, since a path that has left
   the maps that are there meets only maps that are new. -/
namespace VirtualInstrument.Store

def mapAt? (heap : Heap) (address : Address) : List Text → Option Address
  | [] => some address
  | name :: rest =>
    match (heap.fields address).get? name with
    | some (.map inner) => mapAt? heap inner rest
    | _ => none

/-- A path that goes on behind a segment at which there is something but a map. -/
def Barred (heap : Heap) (address : Address) (path : List Text) (segment : Text) : Prop :=
  ∃ before after inner value, path = before ++ segment :: after ∧ after ≠ [] ∧
    mapAt? heap address before = some inner ∧ (heap.fields inner).get? segment = some value ∧
    ∀ deeper, value ≠ .map deeper

inductive Refuses (store : Store) (key : Text) : Prop
  | segment (name : Text) (listed : name ∈ segments key) (bad : name ∈ forbidden)
  | barred (name : Text) (nested : store.rootFields.has key = false)
      (bar : Barred store.heap store.root (segments key) name)

def Loose (heap : Heap) (address : Address) : Prop :=
  ∀ name value, (heap.fields address).get? name = some value → value = .map address

theorem loose_created (heap : Heap) (address : Address) (name : Text) :
    Loose (assign (heap.allocate []).1 address name (.map heap.maps.size)) heap.maps.size := by
  intro sought value found
  by_cases same : address = heap.maps.size
  · subst same
    rw [assign, Heap.fields_write_same _ _ (by simp [Heap.allocate]),
      Heap.fields_allocate_new, Fields.get?_set] at found
    split at found
    · exact (Option.some.inj found).symm
    · simp [Fields.get?] at found
  · rw [assign, Heap.fields_write_other _ _ same, Heap.fields_allocate_new] at found
    simp [Fields.get?] at found

theorem assignPath_loose (value : Stored) (rest : List Text) {heap : Heap} {address : Address}
    (loose : Loose heap address) (name : Text) :
    (assignPath heap address value name rest).2 = none := by
  induction rest generalizing heap address name with
  | nil => rfl
  | cons next rest ih =>
    cases found : (heap.fields address).get? name with
    | none =>
      simp only [assignPath, found]
      exact ih (loose_created heap address name) next
    | some held =>
      have back := loose name held found
      subst back
      simp only [assignPath, found]
      exact ih loose next

theorem assignPath_stopped_unchanged (value : Stored) (rest : List Text) {heap : Heap}
    {address : Address} {name segment : Text}
    (stopped : (assignPath heap address value name rest).2 = some segment) :
    (assignPath heap address value name rest).1 = heap := by
  induction rest generalizing address name with
  | nil => simp [assignPath] at stopped
  | cons next rest ih =>
    cases found : (heap.fields address).get? name with
    | none =>
      simp only [assignPath, found] at stopped
      have through := assignPath_loose value rest (loose_created heap address name) next
      exact absurd (through.symm.trans stopped) (by simp)
    | some held =>
      cases held with
      | map inner =>
        simp only [assignPath, found] at stopped ⊢
        exact ih stopped
      | _ => simp only [assignPath, found]

theorem not_barred_single (heap : Heap) (address : Address) (name segment : Text) :
    ¬ Barred heap address [name] segment := by
  rintro ⟨before, after, inner, value, path, behind, _⟩
  have size := congrArg List.length path
  cases after with
  | nil => exact behind rfl
  | cons a as =>
    simp at size
    omega

theorem barred_cons_iff (heap : Heap) (address : Address) (name next segment : Text)
    (rest : List Text) : Barred heap address (name :: next :: rest) segment ↔
      (segment = name ∧ ∃ value, (heap.fields address).get? name = some value ∧
        ∀ deeper, value ≠ .map deeper) ∨
      ∃ inner, (heap.fields address).get? name = some (.map inner) ∧
        Barred heap inner (next :: rest) segment := by
  constructor
  · rintro ⟨before, after, inner, value, path, behind, reached, found, plain⟩
    cases before with
    | nil =>
      cases path
      cases reached
      exact Or.inl ⟨rfl, value, found, plain⟩
    | cons first before =>
      simp only [List.cons_append, List.cons.injEq] at path
      obtain ⟨rfl, path⟩ := path
      cases held : (heap.fields address).get? name with
      | none => simp [mapAt?, held] at reached
      | some v =>
        cases v with
        | map deeper =>
          simp only [mapAt?, held] at reached
          exact Or.inr ⟨deeper, rfl, before, after, inner, value, path, behind, reached, found,
            plain⟩
        | _ => simp [mapAt?, held] at reached
  · rintro (⟨rfl, value, found, plain⟩ | ⟨deeper, held, before, after, inner, value, path, behind,
      reached, found, plain⟩)
    · exact ⟨[], next :: rest, address, value, rfl, by simp, rfl, found, plain⟩
    · refine ⟨name :: before, after, inner, value, by rw [path, List.cons_append], behind, ?_,
        found, plain⟩
      simp only [mapAt?, held, reached]

theorem assignPath_stopped_iff (value : Stored) (rest : List Text) (heap : Heap)
    (address : Address) (name segment : Text) :
    (assignPath heap address value name rest).2 = some segment ↔
      Barred heap address (name :: rest) segment := by
  induction rest generalizing address name with
  | nil =>
    constructor
    · intro stopped
      simp [assignPath] at stopped
    · intro bar
      exact absurd bar (not_barred_single heap address name segment)
  | cons next rest ih =>
    rw [barred_cons_iff]
    cases found : (heap.fields address).get? name with
    | none =>
      have through := assignPath_loose value rest (loose_created heap address name) next
      simp only [Heap.allocate] at through
      simp [assignPath, found, Heap.allocate, through]
    | some held =>
      cases held with
      | map inner => simp [assignPath, found, ih]
      | _ => simp [assignPath, found, eq_comm]

theorem any_forbidden_iff (path : List Text) :
    path.any forbidden.contains = true ↔ ∃ name ∈ path, name ∈ forbidden := by
  simp

/-- A key is refused exactly when it says so by itself or by what its path runs into. -/
theorem set_refused_iff (store : Store) (key : Text) (value : Stored) :
    (store.set key value).2 ≠ none ↔ Refuses store key := by
  unfold set
  by_cases bad : (segments key).any forbidden.contains = true
  · obtain ⟨name, listed, member⟩ := (any_forbidden_iff _).mp bad
    simp only [if_pos bad]
    exact ⟨fun _ => .segment name listed member, fun _ => by simp⟩
  · have clean : ∀ name ∈ segments key, name ∉ forbidden := by
      intro name listed member
      exact bad ((any_forbidden_iff _).mpr ⟨name, listed, member⟩)
    simp only [if_neg bad]
    cases path : segments key with
    | nil => exact absurd path (Text.split_ne_nil _ key)
    | cons first rest =>
      dsimp only
      by_cases direct : (rest.isEmpty || store.rootFields.has key) = true
      · simp only [if_pos direct]
        constructor
        · intro h
          simp at h
        · intro refused
          cases refused with
          | segment name listed member => exact absurd member (clean name listed)
          | barred name nested bar =>
            have single : rest = [] := by simpa [nested] using direct
            rw [path, single] at bar
            exact absurd bar (not_barred_single _ _ _ _)
      · have nested : store.rootFields.has key = false := by simp at direct; exact direct.2
        simp only [if_neg direct, ne_eq, Option.map_eq_none_iff]
        constructor
        · intro stopped
          obtain ⟨name, at_name⟩ := Option.ne_none_iff_exists'.mp stopped
          exact .barred name nested (path ▸ (assignPath_stopped_iff _ _ _ _ _ _).mp at_name)
        · intro refused
          cases refused with
          | segment name listed member => exact absurd member (clean name listed)
          | barred name _ bar =>
            have stopped := (assignPath_stopped_iff value _ _ _ _ _).mpr (path ▸ bar)
            simp [stopped]

theorem set_refused_unchanged {store : Store} {key : Text} {value : Stored}
    (refused : (store.set key value).2 ≠ none) : (store.set key value).1 = store := by
  unfold set at refused ⊢
  by_cases bad : (segments key).any forbidden.contains = true
  · simp only [if_pos bad]
  · simp only [if_neg bad] at refused ⊢
    cases path : segments key with
    | nil => rfl
    | cons first rest =>
      simp only [path] at refused ⊢
      by_cases direct : (rest.isEmpty || store.rootFields.has key) = true
      · simp [direct] at refused
      · simp only [if_neg direct, ne_eq, Option.map_eq_none_iff] at refused ⊢
        obtain ⟨name, stopped⟩ := Option.ne_none_iff_exists'.mp refused
        rw [assignPath_stopped_unchanged value rest stopped]

end VirtualInstrument.Store
