import VirtualInstrument.Proofs.State.Setting
/- Why a key is refused, told by the key and by what can be read in the state. Maps that several keys
   share, or that contain themselves, make no difference: a path is followed one segment at a time,
   and the first thing on it that is no map ends it before any map is made. -/
namespace VirtualInstrument.Store

def Malformed (key : Text) : Prop :=
  ∃ segment ∈ segments key, segment = [] ∨ segment = text "__proto__" ∨
    segment = text "prototype" ∨ segment = text "constructor"

/-- A key of several segments that is no entry of the top map, and whose path leads to something
    that is no map before it ends. -/
structure Blocked (store : Store) (key : Text) : Prop where
  several : 1 < (segments key).length
  nested : store.rootFields.has key = false
  met : ∃ front back value, segments key = front ++ back ∧ back ≠ [] ∧
    follow? store.heap (.map store.root) front = some value ∧ ∀ address, value ≠ .map address

theorem malformed_iff (key : Text) :
    Malformed key ↔ ∃ segment ∈ segments key, segment ∈ forbidden := by
  simp only [Malformed, forbidden, Fields.reservedName, List.mem_cons, List.not_mem_nil, or_false]

theorem barred_iff_follow? (heap : Heap) (address : Address) (path : List Text) :
    (∃ segment, Barred heap address path segment) ↔ ∃ front back value, path = front ++ back ∧
      back ≠ [] ∧ follow? heap (.map address) front = some value ∧
        ∀ deeper, value ≠ .map deeper := by
  constructor
  · rintro ⟨segment, before, after, inner, value, whole, behind, reached, found, plain⟩
    refine ⟨before ++ [segment], after, value, by simp [whole], behind, ?_, plain⟩
    rw [follow?_append, follow?_mapAt reached]
    simp only [Option.bind_some, follow?, child?, found]
  · rintro ⟨front, back, value, whole, behind, reached, plain⟩
    induction front generalizing address path with
    | nil =>
      cases reached
      exact absurd rfl (plain address)
    | cons name front ih =>
      obtain ⟨held, found, later⟩ := Option.bind_eq_some_iff.mp reached
      by_cases leads : ∃ inner, held = .map inner
      · -- the obstacle is further on, in the map that this segment leads to
        obtain ⟨inner, rfl⟩ := leads
        obtain ⟨segment, before, after, holder, obstacle, rest, more, way, there, solid⟩ :=
          ih inner (front ++ back) rfl later
        refine ⟨segment, name :: before, after, holder, obstacle, ?_, more,
          mapAt?_cons_iff.mpr ⟨inner, found, way⟩, there, solid⟩
        rw [whole, List.cons_append, rest, List.cons_append]
      · refine ⟨name, [], front ++ back, address, held, whole, ?_, rfl, found, ?_⟩
        · exact fun none => behind (List.append_eq_nil_iff.mp none).2
        · exact fun inner same => leads ⟨inner, same⟩

theorem blocked_iff (store : Store) (key : Text) : Blocked store key ↔
    store.rootFields.has key = false ∧
      ∃ segment, Barred store.heap store.root (segments key) segment := by
  rw [barred_iff_follow?]
  constructor
  · intro blocked
    exact ⟨blocked.nested, blocked.met⟩
  · rintro ⟨nested, front, back, value, whole, behind, reached, plain⟩
    refine ⟨?_, nested, front, back, value, whole, behind, reached, plain⟩
    have first : front ≠ [] := by
      rintro rfl
      cases reached
      exact plain store.root rfl
    have counts := congrArg List.length whole
    rw [List.length_append] at counts
    have := List.length_pos_iff.mpr first
    have := List.length_pos_iff.mpr behind
    omega

/-- The fault of a refused key: the key is malformed, or else its path is barred by the segment that
    the fault names. -/
theorem set_fault {store : Store} {key : Text} {value : Stored} {fault : KeyFault}
    (refused : (store.set key value).2 = some fault) :
    (fault = .invalid key ∧ Malformed key) ∨ ∃ segment, fault = .notAMap key segment ∧
      ¬ Malformed key ∧ Barred store.heap store.root (segments key) segment := by
  unfold set at refused
  rw [malformed_iff, ← any_forbidden_iff]
  by_cases bad : (segments key).any forbidden.contains = true
  · rw [if_pos bad, Option.some.injEq] at refused
    exact .inl ⟨refused.symm, bad⟩
  · rw [if_neg bad] at refused
    cases path : segments key with
    | nil => exact absurd path (Text.split_ne_nil _ key)
    | cons first rest =>
      simp only [path] at refused
      split at refused
      · cases refused
      · obtain ⟨segment, stopped, rfl⟩ := Option.map_eq_some_iff.mp refused
        exact .inr ⟨segment, rfl, path ▸ bad, (assignPath_stopped_iff _ _ _ _ _ _).mp stopped⟩

/-- A key is refused exactly when it is malformed or blocked, whatever the value. A refused key
    leaves the whole state as it was, with no new map, and the fault tells which segment is to
    blame. -/
theorem key_refused_iff_malformed_or_blocked (store : Store) (key : Text) (value : Stored) :
    ((store.set key value).2 ≠ none ↔ Malformed key ∨ Blocked store key) ∧
    ∀ fault, (store.set key value).2 = some fault → (store.set key value).1 = store ∧
      ((fault = .invalid key ∧ Malformed key) ∨ ∃ segment, fault = .notAMap key segment ∧
        ¬ Malformed key ∧ Barred store.heap store.root (segments key) segment) := by
  constructor
  · rw [set_refused_iff, malformed_iff, blocked_iff]
    constructor
    · intro refused
      cases refused with
      | segment name listed bad => exact .inl ⟨name, listed, bad⟩
      | barred name nested bar => exact .inr ⟨nested, name, bar⟩
    · rintro (⟨name, listed, bad⟩ | ⟨nested, name, bar⟩)
      · exact .segment name listed bad
      · exact .barred name nested bar
  · intro fault refused
    have failed : (store.set key value).2 ≠ none := by
      rw [refused]
      exact Option.some_ne_none fault
    exact ⟨set_refused_unchanged failed, set_fault refused⟩

def looped : Store :=
  ⟨⟨#[[(text "loop", .map 1), (text "twin", .map 1)],
    [(text "loop", .map 1), (text "level", .number 5)]]⟩, 0, []⟩

theorem looped_path_through_number_refused :
    (looped.set (text "twin.loop.loop.level.x") .null).2 =
        some (.notAMap (text "twin.loop.loop.level.x") (text "level")) ∧
      (looped.set (text "twin.loop.loop.level.x") .null).1 = looped := by
  have refused : (looped.set (text "twin.loop.loop.level.x") .null).2 =
      some (.notAMap (text "twin.loop.loop.level.x") (text "level")) := by decide +kernel
  exact ⟨refused, ((key_refused_iff_malformed_or_blocked _ _ _).2 _ refused).1⟩

end VirtualInstrument.Store
