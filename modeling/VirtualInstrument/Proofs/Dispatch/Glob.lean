import Mathlib.Data.List.TakeWhile
import VirtualInstrument.Dispatch.Key
import VirtualInstrument.Proofs.Text.Digits
/- Globs as they are written: a fixed text, and then wildcards with a fixed text behind each. Every
   key can be written so, and what it is compiled to follows the way it is written. -/
namespace VirtualInstrument.Dispatch
open Text

inductive Wildcard
  | star
  /-- A placeholder with the digits behind its dollar sign. -/
  | placeholder (digits : Text)
deriving DecidableEq, Repr

namespace Wildcard

def written : Wildcard → Text
  | star => [unit '*']
  | placeholder digits => unit '$' :: digits

def source : Wildcard → Text
  | star => text "(.*?)"
  | placeholder _ => text "(.+?)"

def least : Wildcard → Nat
  | star => 0
  | placeholder _ => 1

/-- A placeholder has digits, and all those that follow its dollar sign. -/
def Proper (behind : Text) : Wildcard → Prop
  | star => True
  | placeholder digits => digits ≠ [] ∧ (∀ u ∈ digits, isDigit u = true) ∧
      ∀ u ∈ behind.head?, isDigit u = false

end Wildcard

structure Glob where
  first : Text
  rest : List (Wildcard × Text)
deriving DecidableEq, Repr

def Plain (t : Text) : Prop := unit '*' ∉ t ∧ hasPlaceholder t = false

namespace Glob

def writtenRest (rest : List (Wildcard × Text)) : Text :=
  rest.flatMap fun (wildcard, literal) => wildcard.written ++ literal

def sourceRest (rest : List (Wildcard × Text)) : Text :=
  rest.flatMap fun (wildcard, literal) => wildcard.source ++ escape literal

def literalLength (g : Glob) : Nat := g.first.length + (g.rest.flatMap fun leg => leg.2).length

def ProperRest (rest : List (Wildcard × Text)) : Prop :=
  ∀ leg ∈ rest, Plain leg.2 ∧ leg.1.Proper leg.2

/-- A glob is the way a key is written. The star of a common command belongs to its first text;
    all other stars and all placeholders are wildcards. -/
structure Writes (g : Glob) (key : Text) : Prop where
  whole : key = g.first ++ writtenRest g.rest
  first : if isCommon key then ∃ name, g.first = unit '*' :: name ∧ Plain name else Plain g.first
  rest : ProperRest g.rest

end Glob

open Glob

theorem plain_nil : Plain [] := ⟨by simp, rfl⟩

theorem plain_cons_iff {u : CodeUnit} {t : Text} :
    Plain (u :: t) ↔ u ≠ unit '*' ∧ placeholder? (u :: t) = none ∧ Plain t := by
  simp only [Plain, hasPlaceholder, List.mem_cons, not_or, Bool.or_eq_false_iff,
    Option.isSome_eq_false_iff, Option.isNone_iff_eq_none]
  constructor
  · rintro ⟨⟨star, stars⟩, here, later⟩
    exact ⟨Ne.symm star, here, stars, later⟩
  · rintro ⟨star, here, stars, later⟩
    exact ⟨⟨Ne.symm star, stars⟩, here, later⟩

theorem placeholder?_cons_none_iff {u : CodeUnit} {t : Text} :
    placeholder? (u :: t) = none ↔ u = unit '$' → ∀ v ∈ t.head?, isDigit v = false := by
  cases t with
  | nil => simp [placeholder?]
  | cons v t => cases digit : isDigit v <;> simp [placeholder?, digit]

theorem writtenRest_head {rest : List (Wildcard × Text)} :
    ∀ u ∈ (writtenRest rest).head?, isDigit u = false := by
  intro u first
  cases rest with
  | nil => simp [writtenRest] at first
  | cons leg rest =>
    obtain ⟨wildcard, literal⟩ := leg
    cases wildcard <;> (simp [writtenRest, Wildcard.written] at first; subst first; rfl)

theorem head_append_writtenRest {literal : Text} {rest : List (Wildcard × Text)}
    (apart : ∀ u ∈ literal.head?, isDigit u = false) :
    ∀ u ∈ (literal ++ writtenRest rest).head?, isDigit u = false := by
  cases literal with
  | nil => exact writtenRest_head
  | cons v literal => simpa using apart

def Compiles (t : Text) (key : CompiledKey) : Prop :=
  ∀ fuel, t.length ≤ fuel → compileGlobWithin fuel t = key

theorem compiles_nil : Compiles [] ⟨[], 0, 0⟩ := by
  intro fuel _
  cases fuel <;> rfl

theorem compiles_literal {literal rest : Text} {key : CompiledKey} (plain : Plain literal)
    (apart : ∀ u ∈ rest.head?, isDigit u = false) (later : Compiles rest key) :
    Compiles (literal ++ rest) (literal.foldr CompiledKey.literal key) := by
  induction literal with
  | nil => exact later
  | cons u literal ih =>
    obtain ⟨star, here, tail⟩ := plain_cons_iff.mp plain
    have fixed : placeholder? (u :: (literal ++ rest)) = none := by
      rw [placeholder?_cons_none_iff] at here ⊢
      cases literal with
      | nil => exact fun _ => apart
      | cons v literal => exact here
    intro fuel enough
    cases fuel with
    | zero => simp at enough
    | succ fuel =>
      have within : (literal ++ rest).length ≤ fuel := by simpa using enough
      simp only [List.cons_append, compileGlobWithin, if_neg star, fixed, ih tail fuel within,
        List.foldr_cons]

theorem compiles_wildcard {wildcard : Wildcard} {behind : Text} {key : CompiledKey}
    (proper : wildcard.Proper behind) (later : Compiles behind key) :
    Compiles (wildcard.written ++ behind) (key.wildcard wildcard.source) := by
  intro fuel enough
  cases fuel with
  | zero => cases wildcard <;> simp [Wildcard.written] at enough
  | succ fuel =>
    cases wildcard with
    | star =>
      have within : behind.length ≤ fuel := by simpa [Wildcard.written] using enough
      simp only [Wildcard.written, List.cons_append, List.nil_append, compileGlobWithin, if_true,
        later fuel within, Wildcard.source]
    | placeholder digits =>
      obtain ⟨some_digits, all, apart⟩ := proper
      have within : behind.length ≤ fuel := by
        simp [Wildcard.written] at enough
        omega
      obtain ⟨taken, left⟩ := takeWhile_stopped all apart
      have found : placeholder? (unit '$' :: (digits ++ behind)) = some (digits, behind) := by
        simp [placeholder?, taken, left, some_digits]
      have other : unit '$' ≠ unit '*' := by decide
      simp only [Wildcard.written, List.cons_append, compileGlobWithin, if_neg other, found,
        later fuel within, Wildcard.source]

theorem foldr_literal (literal : Text) (key : CompiledKey) :
    literal.foldr CompiledKey.literal key =
      ⟨escape literal ++ key.source, key.wildcards, literal.length + key.literalLength⟩ := by
  induction literal with
  | nil => simp [escape]
  | cons u literal ih =>
    simp only [List.foldr_cons, ih, CompiledKey.literal, List.length_cons]
    simp [escape]
    omega

theorem compiles_rest {rest : List (Wildcard × Text)} (proper : ProperRest rest) :
    Compiles (writtenRest rest)
      ⟨sourceRest rest, rest.length, (rest.flatMap fun leg => leg.2).length⟩ := by
  induction rest with
  | nil => exact compiles_nil
  | cons leg rest ih =>
    obtain ⟨wildcard, literal⟩ := leg
    have here := proper (wildcard, literal) (by simp)
    have later := ih fun leg member => proper leg (by simp [member])
    have follows : wildcard.Proper (literal ++ writtenRest rest) := by
      cases wildcard with
      | star => trivial
      | placeholder digits =>
        exact ⟨here.2.1, here.2.2.1, head_append_writtenRest here.2.2.2⟩
    have whole := compiles_wildcard follows (compiles_literal here.1 writtenRest_head later)
    simpa [writtenRest, sourceRest, foldr_literal, CompiledKey.wildcard] using whole

/-- A key is compiled to the sources of its wildcards and to its fixed texts, escaped. -/
theorem compileGlob_written {g : Glob} {key : Text} (writes : g.Writes key) :
    compileGlob key = ⟨escape g.first ++ sourceRest g.rest, g.rest.length, g.literalLength⟩ := by
  have later := compiles_rest writes.rest
  have first := writes.first
  by_cases common : isCommon key = true
  · rw [if_pos common] at first
    obtain ⟨name, starred, plain⟩ := first
    have split : key = unit '*' :: (name ++ writtenRest g.rest) := by
      rw [writes.whole, starred, List.cons_append]
    have compiled := compiles_literal plain writtenRest_head later
    rw [split] at common ⊢
    rw [compileGlob, if_pos common, compiled _ (Nat.le_refl _), foldr_literal, starred]
    simp [CompiledKey.literal, escape, literalLength, starred]
    omega
  · rw [if_neg common] at first
    have compiled := compiles_literal first writtenRest_head later
    rw [← writes.whole] at compiled
    have direct : compileGlob key = compileGlobWithin key.length key := by
      cases key with
      | nil => rfl
      | cons u key => rw [compileGlob, if_neg common]
    rw [direct, compiled _ (Nat.le_refl _), foldr_literal]
    rfl

theorem placeholder?_cons_some {u : CodeUnit} {t : Text} (here : placeholder? (u :: t) ≠ none) :
    u = unit '$' ∧ t.takeWhile isDigit ≠ [] := by
  simp only [placeholder?] at here
  split at here
  · rename_i found
    simpa using found
  · exact absurd rfl here

theorem takeWhile_proper {t first : Text} {rest : List (Wildcard × Text)}
    (filled : t.takeWhile isDigit ≠ []) (behind : t.dropWhile isDigit = first ++ writtenRest rest) :
    (Wildcard.placeholder (t.takeWhile isDigit)).Proper first := by
  refine ⟨filled, fun v digit => List.mem_takeWhile_imp digit, ?_⟩
  intro v at_v
  have ahead : v ∈ (t.dropWhile isDigit).head? := by
    rw [behind]
    cases first <;> simp_all
  exact head_dropWhile isDigit t v ahead

theorem exists_written_within (n : Nat) (t : Text) (short : t.length ≤ n) :
    ∃ first rest, t = first ++ writtenRest rest ∧ Plain first ∧ ProperRest rest := by
  induction n generalizing t with
  | zero =>
    have empty : t = [] := List.length_eq_zero_iff.mp (by omega)
    exact ⟨[], [], empty, plain_nil, by simp [ProperRest]⟩
  | succ n ih =>
    cases t with
    | nil => exact ⟨[], [], rfl, plain_nil, by simp [ProperRest]⟩
    | cons u t =>
      by_cases star : u = unit '*'
      · obtain ⟨first, rest, rfl, plain, proper⟩ := ih t (by simpa using short)
        refine ⟨[], (.star, first) :: rest, ?_, plain_nil, ?_⟩
        · simp [writtenRest, Wildcard.written, star]
        · intro leg member
          rcases List.mem_cons.mp member with rfl | later
          · exact ⟨plain, trivial⟩
          · exact proper leg later
      · by_cases here : placeholder? (u :: t) = none
        · obtain ⟨first, rest, rfl, plain, proper⟩ := ih t (by simpa using short)
          refine ⟨u :: first, rest, rfl, plain_cons_iff.mpr ⟨star, ?_, plain⟩, proper⟩
          rw [placeholder?_cons_none_iff] at here ⊢
          intro dollar v at_v
          exact here dollar v (by cases first <;> simp_all)
        · have dollar := placeholder?_cons_some here
          have fewer : (t.dropWhile isDigit).length ≤ n := by
            have parts := (List.dropWhile_suffix isDigit (l := t)).length_le
            simp at short
            omega
          obtain ⟨first, rest, behind, plain, proper⟩ := ih (t.dropWhile isDigit) fewer
          refine ⟨[], (.placeholder (t.takeWhile isDigit), first) :: rest, ?_, plain_nil, ?_⟩
          · calc u :: t = unit '$' :: (t.takeWhile isDigit ++ (first ++ writtenRest rest)) := by
                  rw [dollar.1, ← behind, List.takeWhile_append_dropWhile]
              _ = writtenRest ((.placeholder (t.takeWhile isDigit), first) :: rest) := by
                  simp [writtenRest, Wildcard.written]
          · intro leg member
            rcases List.mem_cons.mp member with rfl | later
            · exact ⟨plain, takeWhile_proper dollar.2 behind⟩
            · exact proper leg later

theorem exists_glob_writes (key : Text) : ∃ g : Glob, g.Writes key := by
  by_cases common : isCommon key = true
  · cases key with
    | nil => cases common
    | cons star name =>
      have starred : star = unit '*' := by
        cases name with
        | nil => cases common
        | cons v name =>
          simp [isCommon] at common
          exact common.1
      obtain ⟨first, rest, rfl, plain, proper⟩ := exists_written_within _ name (Nat.le_refl _)
      refine ⟨⟨star :: first, rest⟩, rfl, ?_, proper⟩
      rw [if_pos common, starred]
      exact ⟨first, rfl, plain⟩
  · obtain ⟨first, rest, whole, plain, proper⟩ := exists_written_within _ key (Nat.le_refl _)
    refine ⟨⟨first, rest⟩, whole, ?_, proper⟩
    rw [if_neg common]
    exact plain

end VirtualInstrument.Dispatch
