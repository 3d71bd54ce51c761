import VirtualInstrument.Proofs.Schema.Acceptance
/- Values that a check finds again. A value that was found in some document is shown as a document
   of its own; a check that settles finds the same value there, whatever the first document was. A
   form settles when the checks of its fields do. -/
namespace VirtualInstrument.Schema

variable {α β : Type}

/-- What a check finds in some document it finds again in the one that shows it. -/
def Settles (check : Check α) (shown : α → Option Document) : Prop :=
  ∀ path document a, check path document = .sound a → ∀ other, check other (shown a) = .sound a

namespace Verdict

theorem finds_of_sound {verdict : Verdict α} {a : α} (sound : verdict = .sound a) :
    verdict.Finds True a := sound ▸ sound_finds a

theorem sound_of_finds {verdict : Verdict α} {a : α} {condition : Prop}
    (finds : verdict.Finds condition a) (holds : condition) : verdict = .sound a :=
  (finds a).mpr ⟨holds, rfl⟩

theorem map_sound_iff {verdict : Verdict α} {f : α → β} {b : β} :
    verdict.map f = .sound b ↔ ∃ a, verdict = .sound a ∧ f a = b := by
  constructor
  · exact map_sound
  · rintro ⟨a, rfl, rfl⟩
    rfl

theorem flawedBy_sound_iff {verdict : Verdict α} {found : List Issue} {a : α} :
    verdict.flawedBy found = .sound a ↔ verdict = .sound a ∧ found = [] := by
  cases found with
  | nil => simp [flawedBy]
  | cons issue rest =>
    cases verdict with
    | sound b => simp [flawedBy]
    | flawed issues => simp [flawedBy]
    | unfit issues => simp [flawedBy]

theorem mem_of_all_sound {verdicts : List (Verdict α)} {found : List α}
    (sound : all verdicts = .sound found) {a : α} (member : a ∈ found) :
    Verdict.sound a ∈ verdicts := by
  have each := all_sound sound
  clear sound
  induction each with
  | nil => cases member
  | cons first _ ih =>
    rcases List.mem_cons.mp member with rfl | later
    · exact List.mem_cons.mpr (.inl first.symm)
    · exact List.mem_cons_of_mem _ (ih later)

theorem orElse_sound {path : List Segment} {one : Verdict α} {other : Unit → Verdict α} {a : α}
    (sound : orElse path one other = .sound a) : one = .sound a ∨ other () = .sound a := by
  unfold orElse at sound
  split at sound
  · exact .inl sound
  · split at sound
    · exact .inr (sound ▸ ‹other () = _›)
    · cases sound
  · split at sound
    · cases sound
    · exact .inr sound

end Verdict

section Forms
variable {check : Check α} {shown : α → Option Document} {present : α → Document}

theorem string_settles : Settles string fun t => some (.string t) := fun _ _ _ _ _ => rfl

theorem number_settles : Settles number fun x => some (.number x) := fun _ _ _ _ _ => rfl

theorem require_settles (settles : Settles check shown) (holds : α → Bool) (complaint : Complaint) :
    Settles (require check holds complaint) shown := by
  intro path document a sound other
  unfold require at sound
  split at sound
  · rename_i found
    split at sound
    · rename_i fits
      cases sound
      simp only [require, settles path document a found other, fits, if_true]
    · cases sound
  · rename_i refused
    exact absurd sound (refused a)

theorem maybe_settles (settles : Settles check fun a => some (present a)) :
    Settles (maybe check) fun value => value.map present := by
  intro path document value sound other
  cases document with
  | none =>
    cases sound
    rfl
  | some d =>
    obtain ⟨a, found, rfl⟩ := Verdict.map_sound sound
    simp only [maybe, Option.map_some, settles path (some d) a found other]
    rfl

theorem withDefault_settles {default : α} (settles : Settles check fun a => some (present a))
    (accepted : ∀ path, check path (some (present default)) = .sound default) :
    Settles (withDefault default check) fun a => some (present a) := by
  intro path document a sound other
  cases document with
  | none =>
    cases sound
    exact accepted other
  | some d => exact settles path (some d) a sound other

theorem mismatch_not_sound {path : List Segment} {expected : Kind} {document : Option Document}
    {a : α} : mismatch path expected document ≠ .sound a := by
  cases document with
  | none => simp [mismatch]
  | some d => simp [mismatch]

theorem listOf_settles (settles : Settles check fun a => some (present a)) :
    Settles (listOf check) fun found => some (.list (found.map present)) := by
  intro path document found sound other
  unfold listOf at sound
  split at sound
  · have each : ∀ a ∈ found, ∀ place, check place (some (present a)) = .sound a := by
      intro a member
      obtain ⟨i, _, here⟩ := List.mem_mapIdx.mp (Verdict.mem_of_all_sound sound member)
      exact settles _ _ a here
    have again : List.Forall₂ (fun item a => ∀ place, (check place (some item)).Finds True (id a))
        (found.map present) found :=
      List.forall₂_map_left_iff.mpr (List.forall₂_same.mpr fun a member place =>
        Verdict.finds_of_sound (each a member place))
    have whole := Verdict.sound_of_finds (listOf_finds again other) fun _ _ => trivial
    rwa [List.map_id] at whole
  · exact absurd sound mismatch_not_sound

theorem recordOf_settles (settles : Settles check fun a => some (present a)) :
    Settles (recordOf check) fun found =>
      some (.map (found.map fun entry => (entry.1, present entry.2))) := by
  intro path document found sound other
  cases document with
  | none => cases sound
  | some d =>
  obtain ⟨fields, rfl, _, proper⟩ := recordOf_sound sound
  obtain ⟨entries, whole, rfl⟩ := Verdict.map_sound sound
  have each : ∀ entry ∈ entries.filter (·.1 != Fields.reservedName),
      ∀ place, check place (some (present entry.2)) = .sound entry.2 := by
    intro entry member
    obtain ⟨kept, _⟩ := List.mem_filter.mp member
    obtain ⟨origin, _, here⟩ := List.mem_map.mp (Verdict.mem_of_all_sound whole kept)
    obtain ⟨a, checked, rfl⟩ := Verdict.map_sound here
    exact settles _ _ a checked
  generalize entries.filter (·.1 != Fields.reservedName) = found at each proper
  have again : List.Forall₂ (fun entry subject => entry.1 = subject.1 ∧
      ∀ place, (check place (some entry.2)).Finds True (id subject.2))
        (found.map fun entry => (entry.1, present entry.2)) found :=
    List.forall₂_map_left_iff.mpr (List.forall₂_same.mpr fun entry member =>
      ⟨rfl, fun place => Verdict.finds_of_sound (each entry member place)⟩)
  have whole := Verdict.sound_of_finds (recordOf_finds (fun _ => True) id again proper other)
    fun _ _ => trivial
  exact whole.trans (congrArg Verdict.sound (List.map_id' found))

theorem recordOf_settles_plain {check : Check Document} (settles : Settles check some) :
    Settles (recordOf check) fun found => some (.map found) := by
  have shown (found : Fields Document) : found.map (fun entry => (entry.1, entry.2)) = found :=
    List.map_id' found
  have whole : Settles (recordOf check) fun found =>
      some (.map (found.map fun entry => (entry.1, entry.2))) := recordOf_settles settles
  simpa only [shown] using whole

variable {read : List Segment → Fields Document → Verdict α} {name : Text}

theorem form_sound {path : List Segment} {document : Option Document} {a : α}
    (sound : form read path document = .sound a) :
    ∃ fields, document = some (.map fields) ∧ read path fields = .sound a := by
  unfold form at sound
  split at sound
  · exact ⟨_, rfl, sound⟩
  · exact absurd sound mismatch_not_sound

/-- A field that was found once is found in every map that shows it under its name. -/
theorem field_again (settles : Settles check shown) {path : List Segment}
    {fields others : Fields Document} {a : α} (found : field check name path fields = .sound a)
    (listed : others.get? name = shown a) (other : List Segment) :
    field check name other others = .sound a := by
  rw [field, listed]
  exact settles _ _ a found _

end Forms

section Reserved

mutual

theorem withoutReserved_again (document : Document) :
    withoutReserved (withoutReserved document) = withoutReserved document := by
  cases document with
  | list items => rw [withoutReserved, withoutReserved, withoutReservedItems_again]
  | map fields => rw [withoutReserved, withoutReserved, withoutReservedFields_again]
  | _ => rfl

theorem withoutReservedItems_again (items : List Document) :
    withoutReservedItems (withoutReservedItems items) = withoutReservedItems items := by
  cases items with
  | nil => rfl
  | cons item rest =>
    rw [withoutReservedItems, withoutReservedItems, withoutReserved_again,
      withoutReservedItems_again]

theorem withoutReservedFields_again (fields : List (Text × Document)) :
    withoutReservedFields (withoutReservedFields fields) = withoutReservedFields fields := by
  cases fields with
  | nil => rfl
  | cons entry rest =>
    obtain ⟨name, value⟩ := entry
    rw [withoutReservedFields]
    split
    · exact withoutReservedFields_again rest
    · rename_i apart
      rw [withoutReservedFields, if_neg apart, withoutReserved_again, withoutReservedFields_again]

end

theorem anything_settles : Settles anything some := by
  intro path document a sound other
  cases document with
  | none => cases sound
  | some d =>
    cases sound
    exact congrArg Verdict.sound (withoutReserved_again d)

end Reserved

end VirtualInstrument.Schema
