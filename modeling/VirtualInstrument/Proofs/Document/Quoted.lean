import VirtualInstrument.Document.Reader
import VirtualInstrument.Document.Writer
import VirtualInstrument.Proofs.Text.Digits
import VirtualInstrument.Proofs.Text.Utf8
import Mathlib.Tactic.IntervalCases
/- Texts between quotes. Each unit is read as what it was written for, whether it stands for
   itself, behind a backslash or as four hexadecimal digits; what is written has no surrogate
   without its partner, so it can be written as bytes. -/
namespace VirtualInstrument.Document
open Text

section Reading
variable {u v : CodeUnit} {rest body after : Text}

theorem readQuoted_close (rest : Text) : readQuoted (unit '"' :: rest) = some ([], rest) := by
  cases rest with
  | nil => rw [readQuoted, if_pos rfl]
  | cons v more =>
    unfold readQuoted
    rw [if_pos rfl]

theorem readQuoted_plain (quote : u ≠ unit '"') (control : ¬ u < 32) (escape : u ≠ unit '\\')
    (read : readQuoted (v :: rest) = some (body, after)) :
    readQuoted (u :: v :: rest) = some (u :: body, after) := by
  rw [readQuoted.eq_def]
  dsimp only
  rw [if_neg quote, if_neg control, if_neg escape, read]
  rfl

theorem readQuoted_escape (stands : escaped? v = some u) (mark : v ≠ unit 'u')
    (read : readQuoted rest = some (body, after)) :
    readQuoted (unit '\\' :: v :: rest) = some (u :: body, after) := by
  rw [readQuoted.eq_def]
  dsimp only
  rw [if_neg (by decide), if_neg (by decide), if_pos rfl, if_neg mark, stands, read]
  rfl

theorem hexValue?_hexDigit {n : Nat} (small : n < 16) : hexValue? (hexDigit n) = some n := by
  interval_cases n <;> rfl

theorem readQuoted_hex (u : CodeUnit) (read : readQuoted rest = some (body, after)) :
    readQuoted (escapeUnit u ++ rest) = some (u :: body, after) := by
  have bound := UInt16.toNat_lt u
  have value : u.toNat / 4096 * 4096 + u.toNat / 256 % 16 * 256 + u.toNat / 16 % 16 * 16 +
      u.toNat % 16 = u.toNat := by omega
  have digits : hexUnit? (hexDigit (u.toNat / 4096)) (hexDigit (u.toNat / 256 % 16))
      (hexDigit (u.toNat / 16 % 16)) (hexDigit (u.toNat % 16)) = some u := by
    rw [hexUnit?, hexValue?_hexDigit (by omega), hexValue?_hexDigit (by omega),
      hexValue?_hexDigit (by omega), hexValue?_hexDigit (by omega)]
    show some (u.toNat / 4096 * 4096 + u.toNat / 256 % 16 * 256 + u.toNat / 16 % 16 * 16 +
      u.toNat % 16).toUInt16 = some u
    rw [value, toUInt16_toNat]
  show readQuoted (unit '\\' :: unit 'u' :: hexDigit (u.toNat / 4096) ::
    hexDigit (u.toNat / 256 % 16) :: hexDigit (u.toNat / 16 % 16) :: hexDigit (u.toNat % 16) ::
      rest) = _
  rw [readQuoted, if_neg (by decide), if_neg (by decide), if_pos rfl, if_pos rfl]
  simp only [digits, read]
  rfl

theorem readQuoted_quoteUnit (u : CodeUnit) (some_rest : rest ≠ [])
    (read : readQuoted rest = some (body, after)) :
    readQuoted (quoteUnit u ++ rest) = some (u :: body, after) := by
  unfold quoteUnit
  split
  · rename_i shown
    rw [eq_unit_of_glyph shown (by decide)]
    exact readQuoted_escape (by decide) (by decide) read
  · rename_i shown
    rw [eq_unit_of_glyph shown (by decide)]
    exact readQuoted_escape (by decide) (by decide) read
  · rename_i shown
    rw [eq_unit_of_glyph shown (by decide)]
    exact readQuoted_escape (by decide) (by decide) read
  · rename_i shown
    rw [eq_unit_of_glyph shown (by decide)]
    exact readQuoted_escape (by decide) (by decide) read
  · rename_i shown
    rw [eq_unit_of_glyph shown (by decide)]
    exact readQuoted_escape (by decide) (by decide) read
  · rename_i shown
    rw [eq_unit_of_glyph shown (by decide)]
    exact readQuoted_escape (by decide) (by decide) read
  · rename_i shown
    rw [eq_unit_of_glyph shown (by decide)]
    exact readQuoted_escape (by decide) (by decide) read
  · rename_i quote escape _ _ _ _ _
    split
    · exact readQuoted_hex u read
    · rename_i plain
      obtain ⟨v, more, rfl⟩ := List.exists_cons_of_ne_nil some_rest
      simp only [Bool.or_eq_true, decide_eq_true_eq, not_or] at plain
      refine readQuoted_plain ?_ plain.1.1 ?_ read
      · rintro rfl
        exact quote rfl
      · rintro rfl
        exact escape rfl

end Reading

/-- A quoted text is read as the text, up to its closing quote. -/
theorem readQuoted_quoteBody (t rest : Text) :
    readQuoted (quoteBody t ++ unit '"' :: rest) = some (t, rest) := by
  induction t using quoteBody.induct with
  | case1 => exact readQuoted_close rest
  | case2 u => exact readQuoted_quoteUnit u (List.cons_ne_nil _ _) (readQuoted_close rest)
  | case3 u v t pair ih =>
    obtain ⟨high, low⟩ := Bool.and_eq_true_iff.mp pair
    rw [(surrogate_ranges u).1] at high
    rw [(surrogate_ranges v).2] at low
    have plain {w : CodeUnit} (large : 0xD800 ≤ w.toNat) :
        w ≠ unit '"' ∧ ¬ w < 32 ∧ w ≠ unit '\\' := by
      refine ⟨?_, ?_, ?_⟩
      · rintro rfl
        exact absurd large (by decide)
      · intro control
        rw [UInt16.lt_iff_toNat_lt] at control
        have small : (32 : UInt16).toNat = 32 := rfl
        omega
      · rintro rfl
        exact absurd large (by decide)
    obtain ⟨first, second, third⟩ := plain high.1
    obtain ⟨fourth, fifth, sixth⟩ := plain (w := v) (by omega)
    obtain ⟨w, more, behind⟩ : ∃ w more, quoteBody t ++ unit '"' :: rest = w :: more :=
      List.exists_cons_of_ne_nil (by simp)
    rw [quoteBody, if_pos pair, List.cons_append, List.cons_append]
    rw [behind] at ih ⊢
    exact readQuoted_plain first second third (readQuoted_plain fourth fifth sixth ih)
  | case4 u v t alone ih =>
    rw [quoteBody, if_neg alone, List.append_assoc]
    exact readQuoted_quoteUnit u (by simp) ih

theorem isSurrogate_hexDigit {n : Nat} (small : n < 16) : isSurrogate (hexDigit n) = false := by
  interval_cases n <;> rfl

theorem escapeUnit_whole (u : CodeUnit) : Whole (escapeUnit u) := by
  have bound := UInt16.toNat_lt u
  have first : Whole (text "\\u") := rfl
  refine first.append (Whole.of_plain ?_)
  simp only [List.forall_mem_cons, List.not_mem_nil, false_implies, implies_true, and_true]
  exact ⟨isSurrogate_hexDigit (by omega), isSurrogate_hexDigit (by omega),
    isSurrogate_hexDigit (by omega), isSurrogate_hexDigit (by omega)⟩

theorem quoteUnit_whole (u : CodeUnit) : Whole (quoteUnit u) := by
  unfold quoteUnit
  split
  · exact rfl
  · exact rfl
  · exact rfl
  · exact rfl
  · exact rfl
  · exact rfl
  · exact rfl
  · split
    · exact escapeUnit_whole u
    · rename_i plain
      simp only [Bool.or_eq_true, decide_eq_true_eq, not_or] at plain
      apply Whole.of_plain
      intro w member
      rw [List.mem_singleton] at member
      subst member
      rw [isSurrogate, Bool.or_eq_false_iff]
      exact ⟨Bool.eq_false_iff.mpr plain.1.2, Bool.eq_false_iff.mpr plain.2⟩

theorem quoteBody_whole (t : Text) : Whole (quoteBody t) := by
  induction t using quoteBody.induct with
  | case1 => rfl
  | case2 u => exact quoteUnit_whole u
  | case3 u v t pair ih =>
    rw [quoteBody, if_pos pair, Whole, mend, if_pos pair, ih]
  | case4 u v t alone ih =>
    rw [quoteBody, if_neg alone]
    exact (quoteUnit_whole u).append ih

theorem quote_whole (t : Text) : Whole (quote t) := by
  have mark : Whole (text "\"") := rfl
  exact (mark.append (quoteBody_whole t)).append mark

end VirtualInstrument.Document
