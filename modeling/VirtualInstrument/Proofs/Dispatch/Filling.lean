import Mathlib.Data.List.Forall2
import VirtualInstrument.Dispatch.Entry
import VirtualInstrument.Proofs.Dispatch.Glob
/- How a template is filled. A text is cut into placeholders, each with all the digits that stand
   behind its dollar sign, and units that stand for themselves; then each placeholder becomes its
   capture. The cut is made before anything is put in, so no part of a capture is a placeholder. -/
namespace VirtualInstrument.Dispatch

open Text

inductive Piece
  | plain (u : CodeUnit)
  /-- A dollar sign with digits behind it. -/
  | placeholder (digits : Text)
deriving DecidableEq, Repr

namespace Piece

def written : Piece → Text
  | plain u => [u]
  | placeholder digits => unit '$' :: digits

/-- What a piece is in front of the rest of a template: a placeholder has digits, and all that stand
    behind its dollar sign; a dollar sign that stands for itself has none behind it. -/
def Proper (behind : Text) : Piece → Prop
  | plain u => u = unit '$' → ∀ v ∈ behind.head?, isDigit v = false
  | placeholder digits => digits ≠ [] ∧ (∀ u ∈ digits, isDigit u = true) ∧
      ∀ v ∈ behind.head?, isDigit v = false

/-- What stands for a piece when a template is filled: for a placeholder the capture of its number,
    counted from one, or the placeholder as it is written when there is none of that number. -/
inductive Becomes (captures : List Text) : Piece → Text → Prop
  | plain (u : CodeUnit) : Becomes captures (plain u) [u]
  | capture {digits capture : Text} {index : Nat} (number : digitsValue digits = index + 1)
      (there : captures[index]? = some capture) : Becomes captures (placeholder digits) capture
  | kept {digits : Text} (missing : digitsValue digits = 0 ∨ captures.length < digitsValue digits) :
      Becomes captures (placeholder digits) (unit '$' :: digits)

end Piece

inductive Cuts : List Piece → Text → Prop
  | nil : Cuts [] []
  | cons {piece : Piece} {pieces : List Piece} {behind : Text} (proper : piece.Proper behind)
      (later : Cuts pieces behind) : Cuts (piece :: pieces) (piece.written ++ behind)

/-- A template filled with captures: each of its pieces has become what stands for it. -/
def Filling (captures : List Text) (template filled : Text) : Prop :=
  ∃ pieces parts, Cuts pieces template ∧ List.Forall₂ (Piece.Becomes captures) pieces parts ∧
    filled = parts.flatten

section Pieces
variable {captures : List Text} {t behind : Text}

theorem placeholder?_plain {u : CodeUnit} (proper : (Piece.plain u).Proper behind) :
    placeholder? (u :: behind) = none := placeholder?_cons_none_iff.mpr proper

theorem placeholder?_placeholder {digits : Text}
    (proper : (Piece.placeholder digits).Proper behind) :
    placeholder? (unit '$' :: (digits ++ behind)) = some (digits, behind) := by
  obtain ⟨filled, all, apart⟩ := proper
  obtain ⟨taken, left⟩ := takeWhile_stopped all apart
  simp [placeholder?, taken, left, filled]

theorem exists_cuts (t : Text) : ∃ pieces, Cuts pieces t := by
  induction size : t.length using Nat.strongRecOn generalizing t with
  | ind n ih =>
    cases t with
    | nil => exact ⟨[], .nil⟩
    | cons u t =>
      rw [List.length_cons] at size
      by_cases here : placeholder? (u :: t) = none
      · obtain ⟨pieces, later⟩ := ih t.length (by omega) t rfl
        exact ⟨.plain u :: pieces, .cons (placeholder?_cons_none_iff.mp here) later⟩
      · obtain ⟨rfl, filled⟩ := placeholder?_cons_some here
        have shorter : (t.dropWhile isDigit).length < n := by
          have parts := (List.dropWhile_suffix isDigit (l := t)).length_le
          omega
        obtain ⟨pieces, later⟩ := ih _ shorter (t.dropWhile isDigit) rfl
        have proper : (Piece.placeholder (t.takeWhile isDigit)).Proper (t.dropWhile isDigit) :=
          ⟨filled, fun v member => List.mem_takeWhile_imp member, head_dropWhile isDigit t⟩
        have cut : Cuts _ (unit '$' :: t.takeWhile isDigit ++ t.dropWhile isDigit) :=
          .cons proper later
        rw [List.cons_append, List.takeWhile_append_dropWhile] at cut
        exact ⟨_, cut⟩

theorem becomes_fill (captures : List Text) (digits : Text) :
    (Piece.placeholder digits).Becomes captures (fill captures digits) := by
  unfold fill
  dsimp only
  cases number : digitsValue digits with
  | zero => exact .kept (.inl number)
  | succ index =>
    rw [if_neg (Nat.succ_ne_zero index), Nat.add_sub_cancel]
    cases there : captures[index]? with
    | some capture => exact .capture number there
    | none =>
      have beyond := List.getElem?_eq_none_iff.mp there
      exact .kept (.inr (by omega))

theorem eq_fill_of_becomes {digits part : Text}
    (becomes : (Piece.placeholder digits).Becomes captures part) : part = fill captures digits := by
  unfold fill
  dsimp only
  cases becomes with
  | capture number there =>
    rw [number, if_neg (Nat.succ_ne_zero _), Nat.add_sub_cancel, there]
  | kept missing =>
    rcases missing with zero | beyond
    · rw [if_pos zero]
    · have none : captures[digitsValue digits - 1]? = none :=
        List.getElem?_eq_none_iff.mpr (by omega)
      rw [if_neg (by omega), none]

theorem exists_becomes (captures : List Text) (pieces : List Piece) :
    ∃ parts, List.Forall₂ (Piece.Becomes captures) pieces parts := by
  induction pieces with
  | nil => exact ⟨[], .nil⟩
  | cons piece pieces ih =>
    obtain ⟨parts, later⟩ := ih
    cases piece with
    | plain u => exact ⟨_, .cons (.plain u) later⟩
    | placeholder digits => exact ⟨_, .cons (becomes_fill captures digits) later⟩

/-- One pass over a template puts in what stands for each of its pieces. -/
theorem substituteWithin_cuts {pieces : List Piece} {parts : List Text} {fuel : Nat}
    (cuts : Cuts pieces t) (becomes : List.Forall₂ (Piece.Becomes captures) pieces parts)
    (enough : t.length ≤ fuel) : substituteWithin captures fuel t = parts.flatten := by
  induction cuts generalizing parts fuel with
  | nil =>
    cases becomes
    cases fuel with
    | _ => rfl
  | @cons piece pieces behind proper _ ih =>
    obtain _ | ⟨here, later⟩ := becomes
    cases fuel with
    | zero =>
      cases piece with
      | _ => simp [Piece.written] at enough
    | succ fuel =>
      rw [List.flatten_cons]
      cases piece with
      | plain u =>
        cases here
        have within : behind.length ≤ fuel := by simpa [Piece.written] using enough
        rw [Piece.written, List.singleton_append, substituteWithin, placeholder?_plain proper]
        dsimp only
        rw [ih later within, List.singleton_append]
      | placeholder digits =>
        have within : behind.length ≤ fuel := by
          simp only [Piece.written, List.cons_append, List.length_cons, List.length_append] at enough
          omega
        rw [Piece.written, List.cons_append, substituteWithin, placeholder?_placeholder proper]
        dsimp only
        rw [ih later within, eq_fill_of_becomes here]

theorem filling_iff {filled : Text} : Filling captures t filled ↔ filled = substitute t captures := by
  constructor
  · rintro ⟨pieces, parts, cuts, becomes, rfl⟩
    exact (substituteWithin_cuts cuts becomes (Nat.le_refl _)).symm
  · rintro rfl
    obtain ⟨pieces, cuts⟩ := exists_cuts t
    obtain ⟨parts, becomes⟩ := exists_becomes captures pieces
    exact ⟨pieces, parts, cuts, becomes, substituteWithin_cuts cuts becomes (Nat.le_refl _)⟩

/-- A text without placeholders is filled as it is. -/
theorem substituteWithin_plain (none : hasPlaceholder t = false) (fuel : Nat) :
    substituteWithin captures fuel t = t := by
  induction t generalizing fuel with
  | nil =>
    cases fuel with
    | _ => rfl
  | cons u t ih =>
    rw [hasPlaceholder, Bool.or_eq_false_iff, Option.isSome_eq_false_iff,
      Option.isNone_iff_eq_none] at none
    cases fuel with
    | zero => rfl
    | succ fuel => rw [substituteWithin, none.1, ih none.2]

end Pieces

section Compiling
variable {t : Text}

/-- A text that stands for an expression: behind its blanks it begins with a mark. -/
def IsDynamic (t : Text) : Prop := ∃ mark ∈ expressionMarks, mark <+: trimStart t

instance (t : Text) : Decidable (IsDynamic t) :=
  inferInstanceAs (Decidable (∃ mark ∈ expressionMarks, mark <+: trimStart t))

theorem expressionBody?_eq_none_iff : expressionBody? t = none ↔ ¬ IsDynamic t := by
  rw [expressionBody?, List.findSome?_eq_none_iff, IsDynamic, not_exists]
  simp only [not_and, after?, ite_eq_right_iff, reduceCtorEq, imp_false, List.isPrefixOf_iff_prefix]

/-- A source that stands for a text: for the text itself when no placeholder is in it, for the text as a
    template otherwise. -/
def stringSource {ν : Type} (value : Text → ν) (t : Text) : Source ν :=
  if hasPlaceholder t then .template t else .literal (value t)

theorem compileString_static (static : ¬ IsDynamic t) (place : Text) :
    compileString t place = .ok (stringSource .string t) := by
  rw [compileString, expressionBody?_eq_none_iff.mpr static]
  rfl

theorem load_stringSource (heap : Heap) (t : Text) :
    (stringSource .string t : Source Document).load heap = (heap, stringSource .string t) := by
  unfold stringSource
  split
  · rfl
  · rfl

end Compiling

end VirtualInstrument.Dispatch
