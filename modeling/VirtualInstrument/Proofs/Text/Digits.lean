import VirtualInstrument.Text.Blank
/- The digits that stand for a natural number, how digits, letters and blanks are told apart, and how
   the units of such a class are taken off the front of a text. -/
namespace VirtualInstrument.Text

theorem isDigit_iff (u : CodeUnit) : isDigit u = true ↔ 48 ≤ u.toNat ∧ u.toNat ≤ 57 := by
  simp only [isDigit, Bool.and_eq_true, decide_eq_true_eq, UInt16.le_iff_toNat_le]
  rfl

theorem isLetter_iff (u : CodeUnit) : isLetter u = true ↔
    65 ≤ u.toNat ∧ u.toNat ≤ 90 ∨ 97 ≤ u.toNat ∧ u.toNat ≤ 122 := by
  simp only [isLetter, Bool.and_eq_true, Bool.or_eq_true, decide_eq_true_eq,
    UInt16.le_iff_toNat_le]
  rfl

theorem isWordUnit_iff (u : CodeUnit) : isWordUnit u = true ↔
    48 ≤ u.toNat ∧ u.toNat ≤ 57 ∨ 65 ≤ u.toNat ∧ u.toNat ≤ 90 ∨ u.toNat = 95 ∨
      97 ≤ u.toNat ∧ u.toNat ≤ 122 := by
  have underscore : u = 95 ↔ u.toNat = 95 := UInt16.toNat_inj.symm
  rw [isWordUnit, Bool.or_eq_true, Bool.or_eq_true, isLetter_iff, isDigit_iff, beq_iff_eq,
    underscore]
  omega

theorem isBlank_of_printed {u : CodeUnit} (low : 33 ≤ u.toNat) (high : u.toNat ≤ 126) :
    isBlank u = false := by
  rw [← Bool.not_eq_true]
  intro blank
  simp only [isBlank, Bool.or_eq_true, Bool.and_eq_true, decide_eq_true_eq, beq_iff_eq,
    UInt16.le_iff_toNat_le, ← UInt16.toNat_inj, UInt16.reduceToNat] at blank
  omega

theorem isBlank_of_word {u : CodeUnit} (word : isWordUnit u = true) : isBlank u = false := by
  have cases := (isWordUnit_iff u).mp word
  exact isBlank_of_printed (by omega) (by omega)

theorem eq_unit_of_glyph {u : CodeUnit} {c : Char} (shown : glyph u = c) (other : c ≠ '\uFFFD') :
    u = unit c := by
  unfold glyph at shown
  split at shown
  · rename_i small
    have bound : u.toNat < 128 := by simpa [UInt16.lt_iff_toNat_lt] using small
    have point : c.toNat = u.toNat := by
      rw [← shown, Char.ofNat, dif_pos (Or.inl (by omega))]
      rfl
    rw [unit, point]
    simp
  · exact absurd shown.symm other

theorem ofPoint_digit {c : Char} (digit : c.isDigit = true) :
    ∃ u : CodeUnit, ofPoint c.toNat = [u] ∧ u.toNat = c.toNat ∧ isDigit u = true := by
  have bounds : 48 ≤ c.toNat ∧ c.toNat ≤ 57 := Char.isDigit_iff_toNat.mp digit
  have whole : c.toNat.toUInt16.toNat = c.toNat := by
    rw [Nat.toUInt16, UInt16.toNat_ofNat']
    omega
  refine ⟨c.toNat.toUInt16, ?_, whole, ?_⟩
  · rw [ofPoint, if_pos (by omega)]
  · rw [isDigit_iff, whole]
    exact bounds

theorem digitsValue_flatMap {chars : List Char} (digits : ∀ c ∈ chars, c.isDigit = true)
    (value : Nat) :
    (∀ u ∈ chars.flatMap (fun c => ofPoint c.toNat), isDigit u = true) ∧
      (chars.flatMap fun c => ofPoint c.toNat).foldl (fun n u => 10 * n + digitValue u) value =
        Nat.ofDigitChars 10 chars value := by
  induction chars generalizing value with
  | nil => simp
  | cons c rest ih =>
    obtain ⟨digit, others⟩ := List.forall_mem_cons.mp digits
    obtain ⟨u, point, same, unit⟩ := ofPoint_digit digit
    have later := ih others (10 * value + (c.toNat - 48))
    rw [List.flatMap_cons, point, List.singleton_append]
    refine ⟨List.forall_mem_cons.mpr ⟨unit, later.1⟩, ?_⟩
    rw [List.foldl_cons, digitValue, same, later.2, Nat.ofDigitChars_cons]
    rfl

theorem ofNat_digits (n : Nat) :
    ofNat n ≠ [] ∧ (∀ u ∈ ofNat n, isDigit u = true) ∧ digitsValue (ofNat n) = n := by
  have written : ofNat n = (Nat.toDigits 10 n).flatMap fun c => ofPoint c.toNat := by
    rw [ofNat, ofString, Nat.toString_eq_repr, Nat.toList_repr]
  have digits : ∀ c ∈ Nat.toDigits 10 n, c.isDigit = true := by
    intro c member
    exact Nat.isDigit_of_mem_toDigits (by decide) (by decide) member
  obtain ⟨all, value⟩ := digitsValue_flatMap digits 0
  rw [Nat.ofDigitChars_ten_toDigits] at value
  rw [written]
  refine ⟨?_, all, value⟩
  obtain ⟨c, rest, listed⟩ := List.exists_cons_of_ne_nil (Nat.toDigits_ne_nil (n := n) (b := 10))
  obtain ⟨u, point, _⟩ := ofPoint_digit (digits c (by simp [listed]))
  simp [listed, point]

section Fronts
variable {accepts : CodeUnit → Bool}

theorem takeWhile_stopped {cut rest : Text} (all : ∀ u ∈ cut, accepts u = true)
    (stop : ∀ u ∈ rest.head?, accepts u = false) :
    (cut ++ rest).takeWhile accepts = cut ∧ (cut ++ rest).dropWhile accepts = rest := by
  rw [List.takeWhile_append_of_pos all, List.dropWhile_append_of_pos all]
  cases rest with
  | nil => simp
  | cons u rest =>
    have other : accepts u = false := stop u rfl
    simp [other]

theorem takeWhile_eq_nil_iff {t : Text} :
    t.takeWhile accepts = [] ↔ ∀ u ∈ t.head?, accepts u = false := by
  cases t with
  | nil => simp
  | cons u t =>
    cases accepted : accepts u with
    | false => simp [accepted]
    | true => simp [accepted]

theorem head_cases (accepts : CodeUnit → Bool) (t : Text) :
    (∃ u rest, t = u :: rest ∧ accepts u = true) ∨ ∀ u ∈ t.head?, accepts u = false := by
  cases t with
  | nil => exact .inr (by simp)
  | cons u rest =>
    cases accepted : accepts u with
    | true => exact .inl ⟨u, rest, rfl, accepted⟩
    | false => exact .inr (by simpa using accepted)

theorem head_dropWhile (accepts : CodeUnit → Bool) (t : Text) :
    ∀ u ∈ (t.dropWhile accepts).head?, accepts u = false := by
  intro u first
  have stop := List.head?_dropWhile_not accepts t
  rw [Option.mem_def.mp first] at stop
  simpa using stop

end Fronts

end VirtualInstrument.Text
