import Mathlib.Data.List.Forall2
import VirtualInstrument.Schema.Verdict
/- When a check accepts a document, and what it finds there. The account of a form is put together
   from those of its parts. -/
namespace VirtualInstrument.Schema

variable {α β ι : Type}

namespace Verdict

/-- The verdict is sound under a condition and under no other, and then with this value. -/
def Finds (verdict : Verdict α) (condition : Prop) (value : α) : Prop :=
  ∀ found, verdict = .sound found ↔ condition ∧ value = found

variable {condition other_condition : Prop} {value : α}

theorem sound_finds (value : α) : (sound value).Finds True value := by
  intro found
  rw [sound.injEq]
  exact (and_iff_right trivial).symm

theorem unfit_finds (issues : List Issue) (value : α) : (unfit issues).Finds False value := by
  intro found
  simp

theorem Finds.congr {verdict : Verdict α} (finds : verdict.Finds condition value)
    (same : condition ↔ other_condition) : verdict.Finds other_condition value := by
  intro found
  rw [finds found, same]

theorem map_sound {verdict : Verdict α} {f : α → β} {b : β} (sound : verdict.map f = .sound b) :
    ∃ a, verdict = .sound a ∧ f a = b := by
  cases verdict with
  | sound a => exact ⟨a, rfl, by simpa [Verdict.map] using sound⟩
  | flawed issues => cases sound
  | unfit issues => cases sound

theorem Finds.map {verdict : Verdict α} (finds : verdict.Finds condition value) (f : α → β) :
    (verdict.map f).Finds condition (f value) := by
  intro found
  constructor
  · intro sound
    obtain ⟨a, found_there, rfl⟩ := map_sound sound
    obtain ⟨holds, rfl⟩ := (finds a).mp found_there
    exact ⟨holds, rfl⟩
  · rintro ⟨holds, rfl⟩
    rw [(finds value).mpr ⟨holds, rfl⟩]
    rfl

theorem both_sound {one : Verdict α} {other : Verdict β} {pair : α × β} :
    one.both other = .sound pair ↔ one = .sound pair.1 ∧ other = .sound pair.2 := by
  cases one with
  | sound a =>
    cases other with
    | sound b => simp [both, Prod.ext_iff]
    | flawed issues => simp [both]
    | unfit issues => simp [both]
  | flawed issues =>
    cases other with
    | sound b => simp [both]
    | flawed more => simp [both]
    | unfit more => simp [both]
  | unfit issues => simp [both]

theorem Finds.both {one : Verdict α} {other : Verdict β} {value' : β}
    (first : one.Finds condition value) (second : other.Finds other_condition value') :
    (one.both other).Finds (condition ∧ other_condition) (value, value') := by
  intro found
  rw [both_sound, first found.1, second found.2, Prod.ext_iff]
  exact and_and_and_comm

theorem all_sound {verdicts : List (Verdict α)} {found : List α}
    (sound : all verdicts = .sound found) :
    List.Forall₂ (fun verdict a => verdict = .sound a) verdicts found := by
  induction verdicts generalizing found with
  | nil =>
    cases sound
    exact .nil
  | cons verdict rest ih =>
    obtain ⟨pair, parts, rfl⟩ := map_sound sound
    obtain ⟨first, others⟩ := both_sound.mp parts
    exact .cons first (ih others)

theorem all_finds {verdicts : List (Verdict α)} {subjects : List ι} {condition : ι → Prop}
    {value : ι → α}
    (each : List.Forall₂ (fun verdict subject => verdict.Finds (condition subject) (value subject))
      verdicts subjects) :
    (all verdicts).Finds (∀ subject ∈ subjects, condition subject) (subjects.map value) := by
  induction each with
  | nil => exact (sound_finds []).congr (by simp)
  | cons first _ ih =>
    exact ((first.both ih).map fun pair => pair.1 :: pair.2).congr List.forall_mem_cons.symm

end Verdict

theorem string_finds (path : List Segment) (t : Text) :
    (string path (some (.string t))).Finds True t := Verdict.sound_finds t

theorem word_finds {words : List (Text × α)} {t : Text} {a : α} (listed : words.lookup t = some a)
    (path : List Segment) : (word words path (some (.string t))).Finds True a := by
  have found : word words path (some (.string t)) = .sound a := by rw [word, listed]
  rw [found]
  exact Verdict.sound_finds a

theorem maybe_string_finds (path : List Segment) (answer : Option Text) :
    (maybe string path (answer.map .string)).Finds True answer := by
  cases answer with
  | none => exact Verdict.sound_finds none
  | some t => exact Verdict.sound_finds (some t)

theorem listOf_finds {check : Check α} {items : List Document} {subjects : List ι}
    {condition : ι → Prop} {value : ι → α}
    (each : List.Forall₂ (fun item subject =>
      ∀ path, (check path (some item)).Finds (condition subject) (value subject)) items subjects)
    (path : List Segment) :
    (listOf check path (some (.list items))).Finds (∀ subject ∈ subjects, condition subject)
      (subjects.map value) := by
  refine Verdict.all_finds ?_
  generalize place :
    (fun (i : Nat) (item : Document) => check (path ++ [.index i]) (some item)) = at_place
  have finds : ∀ i item subject,
      (∀ path, (check path (some item)).Finds (condition subject) (value subject)) →
        (at_place i item).Finds (condition subject) (value subject) := by
    intro i item subject accepts
    subst place
    exact accepts _
  clear place
  induction each generalizing at_place with
  | nil => exact .nil
  | @cons item subject items subjects first _ ih =>
    rw [List.mapIdx_cons]
    exact .cons (finds 0 item subject first) (ih _ fun i => finds (i + 1))

theorem recordOf_finds {check : Check α} {fields : Fields Document} {subjects : Fields ι}
    (condition : ι → Prop) (value : ι → α)
    (each : List.Forall₂ (fun entry subject => entry.1 = subject.1 ∧
      ∀ path, (check path (some entry.2)).Finds (condition subject.2) (value subject.2))
        fields subjects)
    (proper : Fields.reservedName ∉ subjects.names) (path : List Segment) :
    (recordOf check path (some (.map fields))).Finds (∀ subject ∈ subjects, condition subject.2)
      (subjects.map fun subject => (subject.1, value subject.2)) := by
  have kept : (subjects.map fun subject => (subject.1, value subject.2)).filter
      (·.1 != Fields.reservedName) = subjects.map fun subject => (subject.1, value subject.2) := by
    rw [List.filter_eq_self]
    intro entry member
    obtain ⟨subject, listed, rfl⟩ := List.mem_map.mp member
    have other : subject.1 ≠ Fields.reservedName := by
      intro same
      exact proper (same ▸ List.mem_map_of_mem listed)
    simpa using other
  rw [← kept]
  refine Verdict.Finds.map (Verdict.all_finds ?_) _
  rw [List.forall₂_map_left_iff]
  refine each.imp ?_
  rintro ⟨name, document⟩ ⟨same, subject⟩ ⟨rfl, accepts⟩
  exact (accepts _).map fun a => (name, a)

/-- What is accepted as a map has the names of the document, in its order, but for the reserved
    one. -/
theorem recordOf_sound {check : Check α} {path : List Segment} {document : Document}
    {found : Fields α} (sound : recordOf check path (some document) = .sound found) :
    ∃ fields, document = .map fields ∧ (Fields.names found).Sublist (Fields.names fields) ∧
      Fields.reservedName ∉ Fields.names found := by
  cases document with
  | map fields =>
    obtain ⟨entries, each, rfl⟩ := Verdict.map_sound sound
    have names : Fields.names entries = Fields.names fields := by
      have pairs := List.forall₂_map_left_iff.mp (Verdict.all_sound each)
      clear each sound
      induction pairs with
      | nil => rfl
      | cons first _ ih =>
        obtain ⟨a, -, rfl⟩ := Verdict.map_sound first
        exact congrArg _ ih
    refine ⟨fields, rfl, ?_, ?_⟩
    · rw [← names]
      exact List.filter_sublist.map _
    · intro member
      obtain ⟨entry, kept, reserved⟩ := List.mem_map.mp member
      have other := (List.mem_filter.mp kept).2
      simp [reserved] at other
  | null => cases sound
  | boolean b => cases sound
  | number x => cases sound
  | string t => cases sound
  | list items => cases sound

end VirtualInstrument.Schema
