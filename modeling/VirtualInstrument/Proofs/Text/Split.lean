import VirtualInstrument.Text.Units
/- Splitting at a unit is undone by joining with it, and joining pieces without the unit is undone
   by splitting. -/
namespace VirtualInstrument.Text

theorem split_eq_splitOn (separator : CodeUnit) (t : Text) :
    split separator t = t.splitOn separator := by
  induction t with
  | nil => rfl
  | cons u rest ih =>
    rw [split, ih, List.splitOn_cons_eq_if_modifyHead]
    by_cases same : u = separator
    · simp only [same, beq_self_eq_true, if_true]
    · rw [if_neg same, if_neg (by simpa using same)]
      cases pieces : rest.splitOn separator with
      | nil => exact absurd pieces (List.splitOn_ne_nil _ _)
      | cons piece others => rfl

theorem split_ne_nil (separator : CodeUnit) (t : Text) : split separator t ≠ [] := by
  rw [split_eq_splitOn]
  exact List.splitOn_ne_nil _ _

theorem split_append (separator : CodeUnit) (s t : Text) :
    split separator (s ++ separator :: t) = split separator s ++ split separator t := by
  induction s with
  | nil => simp [split]
  | cons u rest ih =>
    rw [List.cons_append, split, split, ih]
    by_cases same : u = separator
    · rw [if_pos same, if_pos same, List.cons_append]
    · rw [if_neg same, if_neg same]
      cases pieces : split separator rest with
      | nil => exact absurd pieces (split_ne_nil separator rest)
      | cons piece others => rfl

theorem join_split (separator : CodeUnit) (t : Text) :
    join [separator] (split separator t) = t := by
  rw [split_eq_splitOn, join, List.intercalate_splitOn]

theorem split_join {separator : CodeUnit} {pieces : List Text} (filled : pieces ≠ [])
    (apart : ∀ piece ∈ pieces, separator ∉ piece) :
    split separator (join [separator] pieces) = pieces := by
  rw [split_eq_splitOn, join, List.splitOn_intercalate separator apart filled]

theorem split_whole {separator : CodeUnit} {t : Text} (apart : separator ∉ t) :
    split separator t = [t] := by
  rw [split_eq_splitOn, List.splitOn_eq_singleton apart]

theorem split_behind {separator : CodeUnit} (s : Text) {t : Text} (apart : separator ∉ t) :
    ∃ front last, split separator s = front ++ [last] ∧
      split separator (s ++ t) = front ++ [last ++ t] := by
  induction s with
  | nil => exact ⟨[], [], rfl, split_whole apart⟩
  | cons u rest ih =>
    obtain ⟨front, last, before, behind⟩ := ih
    rw [List.cons_append, split, split, before, behind]
    by_cases same : u = separator
    · exact ⟨[] :: front, last, by simp [same], by simp [same]⟩
    · rw [if_neg same, if_neg same]
      cases front with
      | nil => exact ⟨[], u :: last, rfl, rfl⟩
      | cons piece front => exact ⟨(u :: piece) :: front, last, rfl, rfl⟩

theorem eq_of_split_single {separator : CodeUnit} {t piece : Text}
    (single : split separator t = [piece]) : piece = t := by
  have joined := join_split separator t
  rw [single] at joined
  simpa [join] using joined

theorem not_mem_of_mem_split {separator : CodeUnit} {t piece : Text}
    (member : piece ∈ split separator t) : separator ∉ piece := by
  induction t generalizing piece with
  | nil =>
    rw [split, List.mem_singleton] at member
    simp [member]
  | cons u rest ih =>
    rw [split] at member
    split at member
    · rcases List.mem_cons.mp member with rfl | later
      · simp
      · exact ih later
    · rename_i other
      cases pieces : split separator rest with
      | nil =>
        rw [pieces] at member
        rw [List.mem_singleton.mp member]
        simpa using Ne.symm other
      | cons first more =>
        rw [pieces] at member ih
        rcases List.mem_cons.mp member with rfl | later
        · have without := ih List.mem_cons_self
          simpa [Ne.symm other] using without
        · exact ih (List.mem_cons_of_mem _ later)

end VirtualInstrument.Text
