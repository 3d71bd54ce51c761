import VirtualInstrument.Document.Overlay
import VirtualInstrument.Proofs.Document.Listing
/- What one document laid over another holds at each path. Where the overlay has nothing the base
   shows through; where it has something that is no map, nothing of the base is left below it; and
   where both have a list or both have a map, the two are put together. -/
namespace VirtualInstrument.Document

/-- What a document holds at a path of names. Every name but the last has to lead to a map. -/
def at? : Document → List Text → Option Document
  | document, [] => some document
  | .map fields, name :: rest => (Fields.get? fields name).bind fun value => at? value rest
  | _, _ :: _ => none

theorem at?_cons (fields : Fields Document) (name : Text) (rest : List Text) :
    (Document.map fields).at? (name :: rest) =
      (fields.get? name).bind fun value => value.at? rest := by
  rw [at?]

theorem at?_single (fields : Fields Document) (name : Text) :
    (Document.map fields).at? [name] = fields.get? name := by
  rw [at?_cons]
  cases fields.get? name with
  | none => rfl
  | some value => cases value <;> rfl

theorem at?_below {document : Document} (solid : ∀ fields, document ≠ .map fields) (name : Text)
    (rest : List Text) : document.at? (name :: rest) = none := by
  cases document with
  | map fields => exact absurd rfl (solid fields)
  | _ => rfl

/-- A document whose maps list their names in order, each once, and none of them the reserved one. -/
def Proper (document : Document) : Prop :=
  ∀ path fields, document.at? path = some (.map fields) →
    Fields.Listed fields ∧ Fields.reservedName ∉ Fields.names fields

theorem Proper.fields_listed {fields : Fields Document} (proper : (Document.map fields).Proper) :
    fields.Listed ∧ Fields.reservedName ∉ fields.names := proper [] fields rfl

theorem Proper.value_proper {fields : Fields Document} (proper : (Document.map fields).Proper)
    {name : Text} {value : Document} (found : fields.get? name = some value) : value.Proper := by
  intro path inner leads
  refine proper (name :: path) inner ?_
  rw [at?_cons, found]
  exact leads

theorem Proper.map {fields : Fields Document} (listed : fields.Listed)
    (unreserved : Fields.reservedName ∉ fields.names)
    (each : ∀ entry ∈ fields, entry.2.Proper) : (Document.map fields).Proper := by
  intro path inner leads
  cases path with
  | nil =>
    cases leads
    exact ⟨listed, unreserved⟩
  | cons name rest =>
    rw [at?_cons] at leads
    obtain ⟨value, found, later⟩ := Option.bind_eq_some_iff.mp leads
    exact each _ (Fields.mem_of_get? found) rest inner later

theorem Proper.of_no_map {document : Document} (solid : ∀ fields, document ≠ .map fields) :
    document.Proper := by
  intro path fields leads
  cases path with
  | nil =>
    have same : document = .map fields := by cases document <;> exact Option.some.inj leads
    exact absurd same (solid fields)
  | cons name rest =>
    rw [at?_below solid] at leads
    cases leads

section Entries
variable {base above : Fields Document}

theorem get?_overlayFields (once : above.names.Nodup) (unreserved : Fields.reservedName ∉ above.names)
    (name : Text) : (overlayFields base above).get? name =
      match above.get? name with
      | some value => some (overlayValue (base.get? name) value)
      | none => base.get? name := by
  induction above generalizing base with
  | nil => rfl
  | cons entry rest ih =>
    obtain ⟨first, value⟩ := entry
    obtain ⟨absent, later⟩ := List.nodup_cons.mp once
    obtain ⟨plain, others⟩ := not_or.mp fun member => unreserved (List.mem_cons.mpr member)
    rw [overlayFields, if_neg fun reserved => plain reserved.1.symm, ih later others,
      Fields.get?_set]
    by_cases here : first = name
    · subst here
      have missing : Fields.get? rest first = none := by
        rw [← Option.not_isSome_iff_eq_none]
        exact fun present => absent ((Fields.has_iff rest first).mp present)
      simp only [missing, Fields.get?, if_true]
    · simp only [Fields.get?, if_neg here]

theorem overlayFields_listed (listed : base.Listed) (above : Fields Document) :
    (overlayFields base above).Listed := by
  induction above generalizing base with
  | nil => exact listed
  | cons entry rest ih =>
    rw [overlayFields]
    split
    · exact ih listed
    · exact ih (Fields.set_listed listed _ _)

theorem mem_names_overlayFields (once : above.names.Nodup)
    (unreserved : Fields.reservedName ∉ above.names) (name : Text) :
    name ∈ (overlayFields base above).names ↔ name ∈ base.names ∨ name ∈ above.names := by
  rw [← Fields.has_iff, ← Fields.has_iff, ← Fields.has_iff, Fields.has, Fields.has, Fields.has,
    get?_overlayFields once unreserved]
  cases above.get? name with
  | none => simp
  | some value => simp

theorem wordsOf_overlayFields (once : above.names.Nodup)
    (unreserved : Fields.reservedName ∉ above.names) :
    Fields.wordsOf (overlayFields base above).names =
      Fields.wordsOf (base.names ++ above.names.filter (· ∉ base.names)) := by
  induction above generalizing base with
  | nil =>
    rw [overlayFields]
    exact congrArg Fields.wordsOf (List.append_nil _).symm
  | cons entry rest ih =>
    obtain ⟨first, value⟩ := entry
    obtain ⟨absent, later⟩ := List.nodup_cons.mp once
    obtain ⟨plain, others⟩ := not_or.mp fun member => unreserved (List.mem_cons.mpr member)
    -- the names that follow are no other ones new for the base once the first is set
    have news (value : Document) :
        (Fields.names rest).filter (· ∉ (base.set first value).names) =
          (Fields.names rest).filter (· ∉ base.names) := by
      refine List.filter_congr fun name member => ?_
      have apart : name ≠ first := by
        rintro rfl
        exact absent member
      simp only [Fields.mem_names_set, apart, false_or]
    have split_off : (Fields.names ((first, value) :: rest)).filter (· ∉ base.names) =
        [first].filter (· ∉ base.names) ++ (Fields.names rest).filter (· ∉ base.names) :=
      List.filter_append [first] (Fields.names rest)
    rw [overlayFields, if_neg fun reserved => plain reserved.1.symm, ih later others, news,
      split_off, Fields.wordsOf_append, Fields.wordsOf_append, Fields.wordsOf_append,
      Fields.wordsOf_set, List.append_assoc]

end Entries

section Empty

theorem overlayFields_nil (base : Fields Document) : overlayFields base [] = base := by
  rw [overlayFields]

theorem overlayValue_alone {below : Option Document} {above : Document}
    (no_lists : ∀ items others, below = some (.list items) → above ≠ .list others)
    (no_maps : ∀ fields others, below = some (.map fields) → above ≠ .map others) :
    overlayValue below above = above := by
  cases above with
  | map others =>
    cases below with
    | none => rfl
    | some held =>
      cases held with
      | map fields => exact absurd rfl (no_maps fields others rfl)
      | _ => rfl
  | list others =>
    cases below with
    | none => rfl
    | some held =>
      cases held with
      | list items => exact absurd rfl (no_lists items others rfl)
      | _ => rfl
  | _ => rfl

theorem overlayValue_none (above : Document) : overlayValue none above = above :=
  overlayValue_alone (fun _ _ none => nomatch none) fun _ _ none => nomatch none

theorem overlayFields_behind {done todo : Fields Document} (listed : Fields.Listed (done ++ todo))
    (unreserved : Fields.reservedName ∉ todo.names) :
    overlayFields done todo = done ++ todo := by
  induction todo generalizing done with
  | nil => rw [overlayFields_nil, List.append_nil]
  | cons entry rest ih =>
    obtain ⟨first, value⟩ := entry
    obtain ⟨plain, others⟩ := not_or.mp fun member => unreserved (List.mem_cons.mpr member)
    obtain ⟨fresh, last⟩ := Fields.set_behind listed
    dsimp only at fresh last
    rw [overlayFields, if_neg fun reserved => plain reserved.1.symm, fresh, overlayValue_none, last,
      ih _ others, List.append_assoc]
    · rfl
    · rw [List.append_assoc]
      exact listed

end Empty

/-- How the names of two maps are listed once the maps are put together: positions first, in
    ascending order, then the names of the base, then those that are new. -/
structure Joins (below above joined : List Text) : Prop where
  ordered : Fields.Ordered joined
  all : ∀ name, name ∈ joined ↔ name ∈ below ∨ name ∈ above
  words : Fields.wordsOf joined = Fields.wordsOf (below ++ above.filter (· ∉ below))

inductive Laid : Option Document → Document → Document → Prop
  | lists (above below : List Document) :
      Laid (some (.list below)) (.list above) (.list (above ++ below))
  | maps {below above joined : Fields Document}
      (names : Joins below.names above.names joined.names) :
      Laid (some (.map below)) (.map above) (.map joined)
  | other {below : Option Document} {above : Document}
      (no_lists : ∀ items others, below = some (.list items) → above ≠ .list others)
      (no_maps : ∀ fields others, below = some (.map fields) → above ≠ .map others) :
      Laid below above above

/-- The document holds something that is no map on the path, before the path ends. -/
def Shadows (document : Document) (path : List Text) : Prop :=
  ∃ front back value, path = front ++ back ∧ back ≠ [] ∧ document.at? front = some value ∧
    ∀ fields, value ≠ .map fields

theorem at?_append (document : Document) (front back : List Text) :
    document.at? (front ++ back) = (document.at? front).bind fun value => value.at? back := by
  induction front generalizing document with
  | nil => cases document <;> rfl
  | cons name front ih =>
    cases document with
    | map fields =>
      rw [List.cons_append, at?_cons, at?_cons, Option.bind_assoc]
      exact Option.bind_congr fun value _ => ih value
    | _ => rfl

theorem Shadows.at?_eq_none {document : Document} {path : List Text} (shadows : document.Shadows path) :
    document.at? path = none := by
  obtain ⟨front, back, value, rfl, behind, reached, solid⟩ := shadows
  obtain ⟨name, rest, rfl⟩ := List.exists_cons_of_ne_nil behind
  rw [at?_append, reached]
  exact at?_below solid name rest

theorem not_shadows_nil (document : Document) : ¬ document.Shadows [] := by
  rintro ⟨front, back, value, whole, behind, -⟩
  exact behind (List.append_eq_nil_iff.mp whole.symm).2

theorem shadows_cons_iff (fields : Fields Document) (name : Text) (rest : List Text) :
    (Document.map fields).Shadows (name :: rest) ↔
      ∃ value, fields.get? name = some value ∧ value.Shadows rest := by
  constructor
  · rintro ⟨front, back, solid, whole, behind, reached, no_map⟩
    cases front with
    | nil =>
      cases reached
      exact absurd rfl (no_map fields)
    | cons first front =>
      cases whole
      rw [at?_cons] at reached
      obtain ⟨value, found, later⟩ := Option.bind_eq_some_iff.mp reached
      exact ⟨value, found, front, back, solid, rfl, behind, later, no_map⟩
  · rintro ⟨value, found, front, back, solid, rfl, behind, reached, no_map⟩
    refine ⟨name :: front, back, solid, rfl, behind, ?_, no_map⟩
    rw [at?_cons, found]
    exact reached

theorem shadows_of_solid {document : Document} (solid : ∀ fields, document ≠ .map fields)
    {path : List Text} (more : path ≠ []) : document.Shadows path := by
  refine ⟨[], path, document, rfl, more, ?_, solid⟩
  cases document <;> rfl

theorem overlayValue_solid {above : Document} (solid : ∀ fields, above ≠ .map fields)
    (below : Option Document) : ∀ fields, overlayValue below above ≠ .map fields := by
  cases above with
  | map fields => exact absurd rfl (solid fields)
  | list items =>
    cases below with
    | none => exact solid
    | some held => cases held <;> simp [overlayValue]
  | _ => exact solid

/-- What the overlaid document holds at a path below its top. -/
theorem at?_overlay (base : Fields Document) {above : Fields Document}
    (proper : (Document.map above).Proper) {path : List Text} (below_top : path ≠ []) :
    ((Document.map above).Shadows path →
      (Document.map (overlayFields base above)).at? path = none) ∧
    (¬ (Document.map above).Shadows path →
      (Document.map (overlayFields base above)).at? path =
        match (Document.map above).at? path with
        | some value => some (overlayValue ((Document.map base).at? path) value)
        | none => (Document.map base).at? path) := by
  induction path generalizing base above with
  | nil => exact absurd rfl below_top
  | cons name rest ih =>
    obtain ⟨listed, unreserved⟩ := proper.fields_listed
    have held := @get?_overlayFields base above listed.names_nodup unreserved name
    rw [shadows_cons_iff]
    by_cases last : rest = []
    · subst last
      simp only [at?_single, not_shadows_nil, and_false, exists_const, false_imp_iff, not_false_iff,
        true_imp_iff, true_and]
      exact held
    · cases found : above.get? name with
      | none =>
        rw [found] at held
        simp only [at?_cons, held, found]
        simp
      | some value =>
        rw [found] at held
        simp only [at?_cons, held, found, Option.bind_some, Option.some.injEq, exists_eq_left']
        by_cases map : ∃ fields, value = .map fields
        · obtain ⟨fields, rfl⟩ := map
          by_cases both : ∃ held, base.get? name = some (.map held)
          · obtain ⟨held, under⟩ := both
            simp only [under, overlayValue, Option.bind_some]
            exact ih held (proper.value_proper found) last
          · -- the map of the overlay stands alone, and the base has nothing on the way
            have alone : overlayValue (base.get? name) (.map fields) = .map fields :=
              overlayValue_alone (by simp) fun held _ under => absurd ⟨held, under⟩ both
            have nothing : ((base.get? name).bind fun value => value.at? rest) = none := by
              obtain ⟨next, more, rfl⟩ := List.exists_cons_of_ne_nil last
              refine Option.bind_eq_none_iff.mpr fun held under => ?_
              exact at?_below (fun inner same => both ⟨inner, same ▸ under⟩) next more
            rw [alone, nothing]
            refine ⟨Shadows.at?_eq_none, fun _ => ?_⟩
            cases (Document.map fields).at? rest with
            | none => rfl
            | some value => exact congrArg some (overlayValue_none value).symm
        · have solid : ∀ fields, value ≠ .map fields := not_exists.mp map
          obtain ⟨next, more, rfl⟩ := List.exists_cons_of_ne_nil last
          refine ⟨fun _ => at?_below (overlayValue_solid solid _) next more, ?_⟩
          exact fun open_way => absurd (shadows_of_solid solid last) open_way

theorem overlayValue_laid {below : Option Document} {above : Document}
    (listed : ∀ fields, below = some (.map fields) → Fields.Listed fields) (proper : above.Proper) :
    Laid below above (overlayValue below above) := by
  by_cases lists : ∃ items others, below = some (.list items) ∧ above = .list others
  · obtain ⟨items, others, rfl, rfl⟩ := lists
    exact .lists others items
  by_cases maps : ∃ fields others, below = some (.map fields) ∧ above = .map others
  · obtain ⟨fields, others, rfl, rfl⟩ := maps
    obtain ⟨ordered, unreserved⟩ := proper.fields_listed
    exact .maps ⟨overlayFields_listed (listed fields rfl) others,
      mem_names_overlayFields ordered.names_nodup unreserved,
      wordsOf_overlayFields ordered.names_nodup unreserved⟩
  · have no_lists : ∀ items others, below = some (.list items) → above ≠ .list others :=
      fun items others lower upper => lists ⟨items, others, lower, upper⟩
    have no_maps : ∀ fields others, below = some (.map fields) → above ≠ .map others :=
      fun fields others lower upper => maps ⟨fields, others, lower, upper⟩
    rw [overlayValue_alone no_lists no_maps]
    exact .other no_lists no_maps

end VirtualInstrument.Document
