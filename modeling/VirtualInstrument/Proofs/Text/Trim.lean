import Mathlib.Data.List.DropRight
import VirtualInstrument.Text.Blank
/- A trimmed text has no blank at either end, and trimming it again changes nothing. -/
namespace VirtualInstrument.Text

theorem trimEnd_eq_rdropWhile (t : Text) : trimEnd t = t.rdropWhile isBlank := rfl

theorem trimEnd_cons_blank {u : CodeUnit} (blank : isBlank u = true) (t : Text) :
    trimEnd (u :: t) = if trimEnd t = [] then [] else u :: trimEnd t := by
  rw [trimEnd, trimEnd, List.reverse_cons, List.dropWhile_append]
  cases left : t.reverse.dropWhile isBlank with
  | nil => simp [blank]
  | cons v rest => simp

theorem trimEnd_append {cut : Text} (last : ∀ u ∈ cut.getLast?, isBlank u = false) (t : Text) :
    trimEnd (cut ++ t) = cut ++ trimEnd t := by
  have whole : cut.reverse.dropWhile isBlank = cut.reverse := by
    cases reversed : cut.reverse with
    | nil => rfl
    | cons u rest =>
      have bare : isBlank u = false := by
        apply last
        rw [List.getLast?_eq_head?_reverse, reversed]
        rfl
      simp [bare]
  rw [trimEnd, trimEnd, List.reverse_append, List.dropWhile_append, whole]
  cases left : t.reverse.dropWhile isBlank with
  | nil => simp
  | cons v rest => simp

theorem trimStart_trimEnd {t : Text} (bare : trimStart t = t) :
    trimStart (trimEnd t) = trimEnd t := by
  rw [trimEnd_eq_rdropWhile]
  obtain ⟨blanks, whole⟩ := List.rdropWhile_prefix isBlank t
  cases left : t.rdropWhile isBlank with
  | nil => rfl
  | cons u rest =>
    have first : isBlank u = false := by
      cases blank : isBlank u with
      | false => rfl
      | true =>
        -- then trimming would have made the text shorter
        rw [← whole, left, List.cons_append, trimStart, List.dropWhile_cons_of_pos blank] at bare
        have shorter := (List.dropWhile_suffix isBlank (l := rest ++ blanks)).length_le
        rw [bare, List.length_cons] at shorter
        omega
    rw [trimStart, List.dropWhile_cons_of_neg (by simp [first])]

theorem trim_between (t : Text) : ∃ before behind, t = before ++ (trim t ++ behind) ∧
    (∀ u ∈ before, isBlank u = true) ∧ ∀ u ∈ behind, isBlank u = true := by
  refine ⟨t.takeWhile isBlank, (trimStart t).rtakeWhile isBlank, ?_,
    fun _ member => List.mem_takeWhile_imp member, fun _ member => List.mem_rtakeWhile_imp member⟩
  have last : trim t ++ (trimStart t).rtakeWhile isBlank = trimStart t := by
    rw [trim, trimEnd, List.rtakeWhile, ← List.reverse_append, List.takeWhile_append_dropWhile,
      List.reverse_reverse]
  rw [last, trimStart, List.takeWhile_append_dropWhile]

theorem trim_trim (t : Text) : trim (trim t) = trim t := by
  have bare : trimStart (trimStart t) = trimStart t := List.dropWhile_idempotent isBlank _
  calc trim (trim t) = trimEnd (trimEnd (trimStart t)) := by
        rw [trim, trim, trimStart_trimEnd bare]
    _ = trim t := List.rdropWhile_idempotent isBlank _

theorem trim_eq_self_iff (t : Text) : trim t = t ↔
    (∀ u ∈ t.head?, isBlank u = false) ∧ ∀ u ∈ t.getLast?, isBlank u = false := by
  have start : trimStart t = t ↔ ∀ u ∈ t.head?, isBlank u = false := by
    cases t with
    | nil => simp [trimStart]
    | cons u rest =>
      cases blank : isBlank u with
      | false => simp [trimStart, blank]
      | true =>
        have shorter := (List.dropWhile_suffix isBlank (l := rest)).length_le
        constructor
        · intro same
          have size := congrArg List.length same
          rw [trimStart, List.dropWhile_cons_of_pos blank, List.length_cons] at size
          omega
        · intro bare
          exact absurd (bare u rfl) (by simp [blank])
  have finish : trimEnd t = t ↔ ∀ u ∈ t.getLast?, isBlank u = false := by
    rw [trimEnd_eq_rdropWhile, List.rdropWhile_eq_self_iff]
    cases t with
    | nil => simp
    | cons u rest => simp [List.getLast?_eq_some_getLast]
  rw [← start, ← finish]
  constructor
  · intro same
    -- trimming drops units at both ends, so nothing was dropped at either
    have last := (List.rdropWhile_prefix isBlank (trimStart t)).length_le
    have size : (trimEnd (trimStart t)).length = t.length := congrArg List.length same
    rw [trimEnd_eq_rdropWhile] at size
    have whole : trimStart t = t :=
      (List.dropWhile_suffix isBlank).eq_of_length_le (size ▸ last)
    refine ⟨whole, ?_⟩
    rwa [trim, whole] at same
  · rintro ⟨whole, bare⟩
    rw [trim, whole, bare]

end VirtualInstrument.Text
