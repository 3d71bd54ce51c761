import VirtualInstrument.Document.Reader
import VirtualInstrument.Document.Writer
import VirtualInstrument.Proofs.Decimal.Shortest
import VirtualInstrument.Proofs.Text.Digits
/- Numbers as documents write them. Each layout is digits, a point with digits behind it and an
   exponent, or some of these; it is read as the digits with their power of ten, and so as the
   double it was written from. -/
namespace VirtualInstrument

namespace Text

theorem foldl_digits (t : Text) (start : Nat) :
    t.foldl (fun n u => 10 * n + digitValue u) start = start * 10 ^ t.length + digitsValue t := by
  induction t generalizing start with
  | nil => simp [digitsValue]
  | cons u t ih =>
    rw [digitsValue, List.foldl_cons, List.foldl_cons, ih, ih (10 * 0 + digitValue u),
      List.length_cons, Nat.pow_succ]
    ring

theorem digitsValue_append (s t : Text) :
    digitsValue (s ++ t) = digitsValue s * 10 ^ t.length + digitsValue t := by
  rw [digitsValue, List.foldl_append, foldl_digits]
  rfl

theorem digitsValue_cons (u : CodeUnit) (t : Text) :
    digitsValue (u :: t) = digitValue u * 10 ^ t.length + digitsValue t := by
  rw [digitsValue, List.foldl_cons, foldl_digits]
  ring

theorem digitsValue_lt {t : Text} (digits : ∀ u ∈ t, isDigit u = true) :
    digitsValue t < 10 ^ t.length := by
  induction t with
  | nil => decide
  | cons u t ih =>
    obtain ⟨first, others⟩ := List.forall_mem_cons.mp digits
    have behind := ih others
    have least : digitValue u ≤ 9 := by
      have bounds := (isDigit_iff u).mp first
      rw [digitValue]
      omega
    have lead := Nat.mul_le_mul_right (10 ^ t.length) least
    rw [digitsValue_cons, List.length_cons, Nat.pow_succ]
    omega

theorem digitsValue_zeros (n : Nat) : digitsValue (Decimal.zeros n) = 0 := by
  induction n with
  | zero => rfl
  | succ n ih =>
    rw [Decimal.zeros, List.replicate_succ', digitsValue_append]
    rw [Decimal.zeros] at ih
    rw [ih]
    rfl

theorem ofNat_length (n : Nat) : (ofNat n).length = Decimal.digitCount n := by
  have written : ofNat n = (Nat.toDigits 10 n).flatMap fun c => ofPoint c.toNat := by
    rw [ofNat, ofString, Nat.toString_eq_repr, Nat.toList_repr]
  have count : Decimal.digitCount n = (Nat.toDigits 10 n).length := by
    rw [Decimal.digitCount, Nat.toString_eq_repr, ← String.length_toList, Nat.toList_repr]
  have digits : ∀ c ∈ Nat.toDigits 10 n, c.isDigit = true := by
    intro c member
    exact Nat.isDigit_of_mem_toDigits (by decide) (by decide) member
  rw [written, count]
  generalize Nat.toDigits 10 n = chars at digits
  induction chars with
  | nil => rfl
  | cons c rest ih =>
    obtain ⟨digit, others⟩ := List.forall_mem_cons.mp digits
    obtain ⟨u, point, _⟩ := ofPoint_digit digit
    rw [List.flatMap_cons, point, List.singleton_append, List.length_cons, ih others,
      List.length_cons]

theorem ofNat_head {n : Nat} (positive : 0 < n) : (ofNat n).head? ≠ some (unit '0') := by
  obtain ⟨-, digits, value⟩ := ofNat_digits n
  have length := ofNat_length n
  have least := pow_digitCount_le positive
  cases shown : ofNat n with
  | nil => simp
  | cons u rest =>
    intro zero
    have same : u = unit '0' := by simpa using zero
    rw [shown] at digits value length
    have below := digitsValue_lt fun v member => digits v (List.mem_cons_of_mem u member)
    have whole : digitsValue (u :: rest) = digitsValue rest := by
      have none : digitValue (unit '0') = 0 := rfl
      rw [digitsValue_cons, same, none]
      omega
    have count : rest.length = Decimal.digitCount n - 1 := by
      rw [List.length_cons] at length
      omega
    rw [← whole, value, count] at below
    omega

end Text

namespace Decimal
open Text

/-- A positive number as it is written: digits, those behind the point, and a power of ten. -/
structure Numeral where
  whole : Text
  decimals : Text
  power : Option Int

namespace Numeral

def fraction (n : Numeral) : Text := if n.decimals = [] then [] else unit '.' :: n.decimals

def scale : Option Int → Text
  | none => []
  | some p => unit 'e' :: (if p < 0 then unit '-' else unit '+') :: Text.ofNat p.natAbs

def spelling (n : Numeral) : Text := n.whole ++ (n.fraction ++ scale n.power)

def digits (n : Numeral) : Nat := digitsValue (n.whole ++ n.decimals)

def exponent (n : Numeral) : Int := n.power.getD 0 - n.decimals.length

structure Proper (n : Numeral) : Prop where
  nonempty : n.whole ≠ []
  whole : ∀ u ∈ n.whole, isDigit u = true
  decimals : ∀ u ∈ n.decimals, isDigit u = true
  lead : n.whole.head? = some (unit '0') → n.whole.length = 1

end Numeral

def Ends (rest : Text) : Prop :=
  ∀ u ∈ rest.head?, isDigit u = false ∧ u ≠ unit '.' ∧ u ≠ unit 'e' ∧ u ≠ unit 'E'

theorem takeExponent_scale (power : Option Int) {rest : Text} (ends : Ends rest) :
    takeExponent (Numeral.scale power ++ rest) = (power.getD 0, rest) := by
  cases power with
  | none =>
    cases rest with
    | nil => rfl
    | cons u rest =>
      obtain ⟨-, -, small, large⟩ := ends u (by simp)
      simp [Numeral.scale, takeExponent, small, large]
  | some p =>
    obtain ⟨some, digits, value⟩ := ofNat_digits p.natAbs
    obtain ⟨taken, left⟩ := takeWhile_stopped digits fun u first => (ends u first).1
    by_cases negative : p < 0
    · have sign : takeSign (unit '-' :: (Text.ofNat p.natAbs ++ rest)) =
          (true, Text.ofNat p.natAbs ++ rest) := rfl
      have back : -(p.natAbs : Int) = p := by omega
      simp only [Numeral.scale, takeExponent, if_pos negative, List.cons_append, true_or, if_true,
        sign, taken, left, List.isEmpty_iff, some, if_false, value, back, Option.getD_some]
    · have sign : takeSign (unit '+' :: (Text.ofNat p.natAbs ++ rest)) =
          (false, Text.ofNat p.natAbs ++ rest) := rfl
      have back : (p.natAbs : Int) = p := by omega
      simp only [Numeral.scale, takeExponent, if_neg negative, List.cons_append, true_or, if_true,
        sign, taken, left, List.isEmpty_iff, some, if_false, value, back, Option.getD_some,
        Bool.false_eq_true]

theorem scale_ends (power : Option Int) {rest : Text} (ends : Ends rest) :
    ∀ u ∈ (Numeral.scale power ++ rest).head?, isDigit u = false ∧ u ≠ unit '.' := by
  cases power with
  | none => exact fun u first => ⟨(ends u first).1, (ends u first).2.1⟩
  | some p =>
    intro u first
    have mark : u = unit 'e' := by simpa [Numeral.scale] using first.symm
    subst mark
    decide

theorem takeFraction_fraction (n : Numeral) (proper : n.Proper) {rest : Text}
    (ends : ∀ u ∈ rest.head?, isDigit u = false ∧ u ≠ unit '.') :
    takeFraction (n.fraction ++ rest) =
      (if n.decimals = [] then none else some n.decimals, rest) := by
  unfold Numeral.fraction
  by_cases none : n.decimals = []
  · rw [if_pos none, if_pos none, List.nil_append]
    cases rest with
    | nil => rfl
    | cons u rest =>
      have other := (ends u (by simp)).2
      simp [takeFraction, other]
  · rw [if_neg none, if_neg none, List.cons_append]
    obtain ⟨taken, left⟩ := takeWhile_stopped proper.decimals fun u first => (ends u first).1
    simp only [takeFraction, if_true, taken, left]

theorem fraction_ends (n : Numeral) {rest : Text}
    (ends : ∀ u ∈ rest.head?, isDigit u = false ∧ u ≠ unit '.') :
    ∀ u ∈ (n.fraction ++ rest).head?, isDigit u = false := by
  unfold Numeral.fraction
  split
  · exact fun u first => (ends u first).1
  · intro u first
    have mark : u = unit '.' := by simpa using first.symm
    subst mark
    decide

/-- A numeral is read whole, as its digits with their power of ten. -/
theorem takeDecimal_spelling (n : Numeral) (proper : n.Proper) {rest : Text} (ends : Ends rest) :
    takeDecimal (n.spelling ++ rest) = (nearest n.digits n.exponent, rest) := by
  have behind := scale_ends n.power ends
  obtain ⟨taken, left⟩ := takeWhile_stopped proper.whole (fraction_ends n behind)
  have decimals : (if n.decimals = [] then none else some n.decimals).getD [] = n.decimals := by
    split
    · rename_i none
      exact none.symm
    · rfl
  rw [Numeral.spelling, List.append_assoc, List.append_assoc]
  simp only [takeDecimal, taken, left, takeFraction_fraction n proper behind,
    takeExponent_scale n.power ends, decimals]
  rfl

end Decimal

section Reading
open Decimal Text

theorem readNumber_spelling (n : Numeral) (proper : n.Proper) {rest : Text} (ends : Ends rest) :
    Document.readNumber (n.spelling ++ rest) = some (nearest n.digits n.exponent, rest) ∧
      Document.readNumber (unit '-' :: (n.spelling ++ rest)) =
        some (-nearest n.digits n.exponent, rest) := by
  have behind := scale_ends n.power ends
  obtain ⟨taken, left⟩ := takeWhile_stopped proper.whole (fraction_ends n behind)
  have spelled : n.spelling ++ rest =
      n.whole ++ (n.fraction ++ (Numeral.scale n.power ++ rest)) := by
    rw [Numeral.spelling, List.append_assoc, List.append_assoc]
  have decimals : (takeFraction ((n.spelling ++ rest).dropWhile isDigit)).1 ≠ some [] := by
    rw [spelled, left, takeFraction_fraction n proper behind]
    split
    · simp
    · rename_i some_decimals
      simpa using some_decimals
  have whole : (n.spelling ++ rest).takeWhile isDigit = n.whole := by rw [spelled, taken]
  have proper_form : (n.whole.isEmpty ||
      (n.whole.head? == some (unit '0') && n.whole.length != 1) ||
      (takeFraction ((n.spelling ++ rest).dropWhile isDigit)).1 == some []) = false := by
    have first : n.whole.isEmpty = false := by simpa using proper.nonempty
    have second : (n.whole.head? == some (unit '0') && n.whole.length != 1) = false := by
      rw [Bool.and_eq_false_imp]
      intro zero
      simpa using proper.lead (by simpa using zero)
    have third : ((takeFraction ((n.spelling ++ rest).dropWhile isDigit)).1 == some []) = false :=
      beq_eq_false_iff_ne.mpr decimals
    rw [first, second, third]
    rfl
  have value := takeDecimal_spelling n proper ends
  have digit : ∃ u more, n.spelling ++ rest = u :: more ∧ u ≠ unit '-' := by
    obtain ⟨u, more, shown⟩ := List.exists_cons_of_ne_nil proper.nonempty
    refine ⟨u, more ++ (n.fraction ++ (Numeral.scale n.power ++ rest)), ?_, ?_⟩
    · rw [spelled, shown, List.cons_append]
    · rintro rfl
      have digit := proper.whole (unit '-') (by rw [shown]; exact List.mem_cons_self)
      exact absurd digit (by decide)
  obtain ⟨u, more, shown, plain⟩ := digit
  constructor
  · rw [shown] at whole proper_form value ⊢
    simp only [Document.readNumber, if_neg plain, whole, proper_form, Bool.false_eq_true, if_false,
      value, negateIf]
  · simp only [Document.readNumber, if_true, whole, proper_form, Bool.false_eq_true, if_false,
      value, negateIf]

structure Writes (n : Numeral) (digits : Nat) (point : Int) : Prop where
  proper : n.Proper
  pos : 0 < n.digits
  value : (n.digits : ℚ) * 10 ^ n.exponent = digits * 10 ^ (point - digitCount digits)

section Layout
variable {digits : Nat} {point : Int}

theorem isDigit_zeros (n : Nat) : ∀ u ∈ zeros n, isDigit u = true := by
  intro u member
  rw [List.eq_of_mem_replicate member]
  decide

theorem writes_below (positive : 0 < digits) (low : point ≤ 0) :
    Writes ⟨text "0", zeros (-point).toNat ++ ofNat digits, none⟩ digits point := by
  obtain ⟨-, all, value⟩ := ofNat_digits digits
  have length := ofNat_length digits
  have same : Numeral.digits ⟨text "0", zeros (-point).toNat ++ ofNat digits, none⟩ = digits := by
    have zero : digitsValue (text "0") = 0 := by decide
    rw [Numeral.digits, digitsValue_append, digitsValue_append, zero, digitsValue_zeros, value]
    omega
  refine ⟨⟨List.cons_ne_nil _ _, isDigit_zeros 1, ?_, fun _ => rfl⟩, by rwa [same], ?_⟩
  · intro u member
    rcases List.mem_append.mp member with zero | digit
    · exact isDigit_zeros _ u zero
    · exact all u digit
  · have power : Numeral.exponent ⟨text "0", zeros (-point).toNat ++ ofNat digits, none⟩ =
        point - digitCount digits := by
      have count : (zeros (-point).toNat).length = (-point).toNat := List.length_replicate
      simp only [Numeral.exponent, List.length_append, length, count, Option.getD_none]
      omega
    rw [same, power]

theorem writes_whole (positive : 0 < digits) (high : (digitCount digits : Int) ≤ point) :
    Writes ⟨ofNat digits ++ zeros (point.toNat - digitCount digits), [], none⟩ digits point := by
  obtain ⟨some, all, value⟩ := ofNat_digits digits
  obtain ⟨more, count⟩ : ∃ more, point.toNat - digitCount digits = more := ⟨_, rfl⟩
  have same : Numeral.digits ⟨ofNat digits ++ zeros (point.toNat - digitCount digits), [], none⟩ =
      digits * 10 ^ more := by
    rw [Numeral.digits, List.append_nil, digitsValue_append, digitsValue_zeros, value, count, zeros,
      List.length_replicate, Nat.add_zero]
  refine ⟨⟨by simp [some], ?_, by simp, ?_⟩, ?_, ?_⟩
  · intro u member
    rcases List.mem_append.mp member with digit | zero
    · exact all u digit
    · exact isDigit_zeros _ u zero
  · intro zero
    rw [List.head?_append_of_ne_nil _ some] at zero
    exact absurd zero (ofNat_head positive)
  · rw [same]
    exact Nat.mul_pos positive (Nat.pow_pos (by decide))
  · have power : point - digitCount digits = (more : Int) := by omega
    rw [same, power, zpow_natCast]
    simp [Numeral.exponent]

theorem writes_split (places : Nat) (positive : 0 < digits) (some : 0 < places) (shift : Option Int)
    (inside : point = shift.getD 0 + places) (few : places ≤ digitCount digits) :
    Writes ⟨(ofNat digits).take places, (ofNat digits).drop places, shift⟩ digits point := by
  obtain ⟨nonempty, all, value⟩ := ofNat_digits digits
  have length := ofNat_length digits
  have head : ((ofNat digits).take places).head? = (ofNat digits).head? := by
    rw [List.head?_take, if_neg some.ne']
  have same : Numeral.digits ⟨(ofNat digits).take places, (ofNat digits).drop places, shift⟩ =
      digits := by
    rw [Numeral.digits, List.take_append_drop, value]
  refine ⟨⟨?_, ?_, ?_, ?_⟩, by rwa [same], ?_⟩
  · simp [nonempty, some.ne']
  · exact fun u member => all u (List.mem_of_mem_take member)
  · exact fun u member => all u (List.mem_of_mem_drop member)
  · intro zero
    rw [head] at zero
    exact absurd zero (ofNat_head positive)
  · have power : Numeral.exponent ⟨(ofNat digits).take places, (ofNat digits).drop places, shift⟩ =
        point - digitCount digits := by
      simp only [Numeral.exponent, List.length_drop, length]
      omega
    rw [same, power]

theorem first_digit_fraction (digits : Nat) (power : Option Int) :
    (if digitCount digits = 1 then [] else [unit '.'] ++ (ofNat digits).drop 1) =
      Numeral.fraction ⟨(ofNat digits).take 1, (ofNat digits).drop 1, power⟩ := by
  have length := ofNat_length digits
  have some_digits := digitCount_pos digits
  unfold Numeral.fraction
  by_cases single : digitCount digits = 1
  · have nothing : (ofNat digits).drop 1 = [] := by
      rw [List.drop_eq_nil_iff, length]
      omega
    rw [if_pos single, if_pos nothing]
  · have left : (ofNat digits).drop 1 ≠ [] := by
      rw [ne_eq, List.drop_eq_nil_iff, length]
      omega
    rw [if_neg single, if_neg left]
    rfl

theorem scale_spelled (power : Int) :
    plainStyle.exponentMark ++ ((if power < 0 then plainStyle.minusMark
      else plainStyle.plusMark) ++ ofNat power.natAbs) = Numeral.scale (some power) := by
  by_cases down : power < 0
  · simp only [Numeral.scale, if_pos down]
    rfl
  · simp only [Numeral.scale, if_neg down]
    rfl

theorem positive_writes (positive : 0 < digits) (point : Int) :
    ∃ n : Numeral, plainStyle.positive ⟨digits, point⟩ = n.spelling ∧ Writes n digits point := by
  obtain ⟨nonempty, -, -⟩ := ofNat_digits digits
  have length := ofNat_length digits
  have mark : plainStyle.pointMark = [unit '.'] := rfl
  have least : plainStyle.leastPoint = -5 := rfl
  have greatest : plainStyle.greatestPoint = 21 := rfl
  unfold NumberStyle.positive
  simp only [least, greatest, mark, length]
  by_cases inPlace : -5 ≤ point ∧ point ≤ 21
  · rw [if_pos inPlace]
    by_cases low : point ≤ 0
    · refine ⟨_, ?_, writes_below positive low⟩
      rw [if_pos low]
      simp [Numeral.spelling, Numeral.fraction, Numeral.scale, nonempty]
    rw [if_neg low]
    by_cases short : digitCount digits ≤ point.toNat
    · refine ⟨_, ?_, writes_whole positive (by omega)⟩
      rw [if_pos short]
      simp [Numeral.spelling, Numeral.fraction, Numeral.scale]
    · refine ⟨_, ?_, writes_split point.toNat positive (by omega) none ?_ (by omega)⟩
      · have left : (ofNat digits).drop point.toNat ≠ [] := by
          rw [ne_eq, List.drop_eq_nil_iff, length]
          exact short
        rw [if_neg short]
        simp [Numeral.spelling, Numeral.fraction, Numeral.scale, left]
      · rw [Option.getD_none]
        omega
  · rw [if_neg inPlace]
    have some_digits := digitCount_pos digits
    refine ⟨_, ?_, writes_split 1 positive (by omega) (some (point - 1)) ?_ (by omega)⟩
    · rw [first_digit_fraction digits (some (point - 1)), Numeral.spelling, ← scale_spelled]
      simp only [List.append_assoc]
    · rw [Option.getD_some]
      omega

end Layout

/-- The double that a finite one is after it was written and read: zero loses its sign. -/
def unsigned (x : Float) (d : Dyadic) : Float := if d.mantissa = 0 then 0.0 else x

/-- A finite double is written as a numeral that the double is nearest to, behind a minus when it
    is negative. -/
theorem numberBody_spelled {x : Float} {d : Dyadic} (finite : classify x = .finite d) :
    ∃ n : Numeral, n.Proper ∧
      (Document.numberBody x = n.spelling ∧ nearest n.digits n.exponent = unsigned x d ∨
        Document.numberBody x = unit '-' :: n.spelling ∧
          -nearest n.digits n.exponent = unsigned x d) := by
  obtain ⟨negative, mantissa, exponent⟩ := d
  have body : Document.numberBody x = plainStyle.write x := by
    simp only [Document.numberBody, finite, numberText]
  rw [body, NumberStyle.write, finite]
  rcases Nat.eq_zero_or_pos mantissa with rfl | positive
  · exact ⟨⟨text "0", [], none⟩, ⟨List.cons_ne_nil _ _, isDigit_zeros 1, List.forall_mem_nil _,
      fun _ => rfl⟩, .inl ⟨rfl, rfl⟩⟩
  · obtain ⟨canonical, same⟩ := eq_double_of_classify finite positive
    obtain ⟨digits, point, short, some_digits, inside⟩ := shortest_holds canonical
    obtain ⟨n, spelled, proper, pos, value⟩ := positive_writes some_digits point
    rw [← value] at inside
    have near := nearest_eq canonical pos inside
    refine ⟨n, proper, ?_⟩
    rw [unsigned, near, canonical.neg_double]
    simp only [if_neg positive.ne', short, spelled]
    cases negative with
    | false => exact .inl ⟨rfl, same.symm⟩
    | true => exact .inr ⟨rfl, same.symm⟩

theorem readNumber_numberBody {x : Float} {d : Dyadic} (finite : classify x = .finite d)
    {rest : Text} (ends : Ends rest) :
    Document.readNumber (Document.numberBody x ++ rest) = some (unsigned x d, rest) := by
  obtain ⟨n, proper, spelled⟩ := numberBody_spelled finite
  obtain ⟨plain, signed⟩ := readNumber_spelling n proper ends
  rcases spelled with ⟨body, value⟩ | ⟨body, value⟩
  · rw [body, plain, value]
  · rw [body, List.cons_append, signed, value]

theorem numberBody_head {x : Float} {d : Dyadic} (finite : classify x = .finite d) :
    ∃ u more, Document.numberBody x = u :: more ∧ (isDigit u = true ∨ u = unit '-') := by
  obtain ⟨n, proper, spelled⟩ := numberBody_spelled finite
  rcases spelled with ⟨body, _⟩ | ⟨body, _⟩
  · obtain ⟨u, more, shown⟩ := List.exists_cons_of_ne_nil proper.nonempty
    refine ⟨u, more ++ (n.fraction ++ Numeral.scale n.power), ?_, .inl ?_⟩
    · rw [body, Numeral.spelling, shown, List.cons_append]
    · exact proper.whole u (by rw [shown]; exact List.mem_cons_self)
  · exact ⟨_, _, body, .inr rfl⟩

def Numeric (t : Text) : Prop := ∀ u ∈ t, isWordUnit u = true ∨ u ∈ text ".+-"

instance (t : Text) : Decidable (Numeric t) := List.decidableBAll _ t

theorem numeric_digits {t : Text} (digits : ∀ u ∈ t, isDigit u = true) : Numeric t :=
  fun u member => .inl (by simp [isWordUnit, digits u member])

theorem spelling_numeric (n : Numeral) (proper : n.Proper) : Numeric n.spelling := by
  have fraction : Numeric n.fraction := by
    unfold Numeral.fraction
    split
    · exact List.forall_mem_nil _
    · exact List.forall_mem_cons.mpr ⟨.inr (by decide), numeric_digits proper.decimals⟩
  have scale : Numeric (Numeral.scale n.power) := by
    cases n.power with
    | none => exact List.forall_mem_nil _
    | some p =>
      have sign : (if p < 0 then unit '-' else unit '+') ∈ text ".+-" := by
        split
        · decide
        · decide
      exact List.forall_mem_cons.mpr ⟨.inl (by decide),
        List.forall_mem_cons.mpr ⟨.inr sign, numeric_digits (ofNat_digits _).2.1⟩⟩
  exact List.forall_mem_append.mpr ⟨numeric_digits proper.whole,
    List.forall_mem_append.mpr ⟨fraction, scale⟩⟩

theorem numberText_numeric (x : Float) : Numeric (numberText x) := by
  cases finite : classify x with
  | finite d =>
    have body : numberText x = Document.numberBody x := by
      rw [Document.numberBody, finite]
    obtain ⟨n, proper, spelled⟩ := numberBody_spelled finite
    have spelling := spelling_numeric n proper
    rw [body]
    rcases spelled with ⟨same, _⟩ | ⟨same, _⟩
    · rw [same]
      exact spelling
    · rw [same]
      exact List.forall_mem_cons.mpr ⟨.inr (by decide), spelling⟩
  | nan =>
    rw [numberText, NumberStyle.write, finite]
    exact (by decide : Numeric (text "NaN"))
  | infinite negative =>
    rw [numberText, NumberStyle.write, finite]
    cases negative with
    | false => exact (by decide : Numeric (text "Infinity"))
    | true => exact (by decide : Numeric (text "-" ++ text "Infinity"))

end Reading

end VirtualInstrument
