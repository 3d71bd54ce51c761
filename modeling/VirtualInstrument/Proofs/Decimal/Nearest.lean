import VirtualInstrument.Proofs.Decimal.Bits
/- Reading a decimal as a double. Every decimal of the interval of a double, however it is written,
   is read as that double: products and quotients are rounded once, and exactly. -/
namespace VirtualInstrument

open Float.Model (Format totalExponent)
open Float.Model.UnpackedFloat
open Decimal (interval)

theorem target_value (mantissa : Nat) (exponent : Int) :
    Format.binary64.targetExponent (totalExponent mantissa exponent) =
      max ((mantissa.log2 : Int) + 1 + exponent - 53) (-1074) := rfl

theorem compare_half (rest : Nat) {divisor : Nat} (positive : 0 < divisor) :
    compare ((rest : ℚ) / divisor) (1 / 2) = compare (2 * rest) divisor := by
  have scale : (0 : ℚ) < divisor := by exact_mod_cast positive
  rcases lt_trichotomy (2 * rest) divisor with below | same | above
  · have cast : (2 : ℚ) * rest < divisor := by exact_mod_cast below
    rw [compare_lt_iff_lt.mpr below, compare_lt_iff_lt, div_lt_div_iff₀ scale two_pos]
    linarith
  · have cast : (2 : ℚ) * rest = divisor := by exact_mod_cast same
    rw [compare_eq_iff_eq.mpr same, compare_eq_iff_eq, div_eq_div_iff scale.ne' two_ne_zero]
    linarith
  · have cast : (divisor : ℚ) < 2 * rest := by exact_mod_cast above
    rw [compare_gt_iff_gt.mpr above, compare_gt_iff_gt, div_lt_div_iff₀ two_pos scale]
    linarith

theorem Represents.quotient_represents (dividend : Nat) {divisor : Nat} (positive : 0 < divisor) :
    Represents (ExtendedMantissa.ofMantissaAndAccuracy (dividend / divisor)
      (accuracyOfFraction (dividend % divisor) divisor)) ((dividend : ℚ) / divisor) := by
  have scale : (0 : ℚ) < divisor := by exact_mod_cast positive
  have parts : (dividend : ℚ) / divisor =
      (dividend / divisor : Nat) + (dividend % divisor : Nat) / divisor := by
    rw [div_eq_iff scale.ne', add_mul, div_mul_cancel₀ _ scale.ne', mul_comm]
    exact_mod_cast (Nat.div_add_mod dividend divisor).symm
  have order := compare_half (dividend % divisor) positive
  have most : ((dividend % divisor : Nat) : ℚ) / divisor < 1 := by
    rw [div_lt_one scale]
    exact_mod_cast Nat.mod_lt dividend positive
  have least : (0 : ℚ) ≤ (dividend % divisor : Nat) / divisor := by positivity
  have none_left : ((dividend % divisor : Nat) : ℚ) / divisor = 0 ↔ dividend % divisor = 0 := by
    rw [div_eq_zero_iff, or_iff_left scale.ne', Nat.cast_eq_zero]
  rw [parts]
  generalize ((dividend % divisor : Nat) : ℚ) / divisor = part at *
  unfold accuracyOfFraction
  by_cases exact : dividend % divisor = 0
  · rw [if_pos exact, none_left.mpr exact, add_zero]
    exact .ofMantissa_represents _
  · rw [if_neg exact]
    have some_left : part ≠ 0 := fun zero => exact (none_left.mp zero)
    rw [← order]
    rcases lt_trichotomy part (1 / 2) with below | rfl | above
    · rw [compare_lt_iff_lt.mpr below]
      exact of_part least most (iff_of_false Bool.false_ne_true (not_le.mpr below))
        (iff_of_true rfl ⟨some_left, below.ne⟩)
    · rw [compare_eq_iff_eq.mpr rfl]
      exact of_part least most (iff_of_true rfl (le_refl _))
        (iff_of_false Bool.false_ne_true fun apart => apart.2 rfl)
    · rw [compare_gt_iff_gt.mpr above]
      exact of_part least most (iff_of_true rfl above.le) (iff_of_true rfl ⟨some_left, above.ne'⟩)

section Operations
variable {mantissa first second : Nat} {exponent power other : Int}

/-- A product of a mantissa's length or more is rounded as the exact product is. -/
theorem mul_nearest (canonical : Canonical mantissa exponent) (one : 0 < first) (two : 0 < second)
    (wide : 2 ^ 52 ≤ first * second)
    (inside : (interval mantissa exponent).Holds (first * 2 ^ power * (second * 2 ^ other))) :
    mul Format.binary64 (.finite .positive first power one) (.finite .positive second other two) =
      .finite .positive mantissa exponent canonical.pos := by
  have product : (first : ℚ) * 2 ^ power * (second * 2 ^ other) =
      ((first * second : Nat) : ℚ) * 2 ^ (power + other) := by
    rw [zpow_add₀ two_ne_zero]
    push_cast
    ring
  rw [product] at inside
  have bits : 52 ≤ (first * second).log2 := (Nat.le_log2 (Nat.mul_pos one two).ne').mpr wide
  refine roundWithAccuracy_nearest canonical (Represents.ofMantissa_represents _) ?_ inside .positive
  rw [target_value]
  omega

/-- The quotient is computed to a mantissa's length or more, or to the least exponent. -/
theorem div_nearest (canonical : Canonical mantissa exponent) (one : 0 < first) (two : 0 < second)
    (inside : (interval mantissa exponent).Holds (first * 2 ^ power / (second * 2 ^ other))) :
    div Format.binary64 (.finite .positive first power one) (.finite .positive second other two) =
      .finite .positive mantissa exponent canonical.pos := by
  obtain ⟨target, chosen⟩ : ∃ target, min (power - other) (Format.binary64.targetExponent
    (totalExponent first power - totalExponent second other)) = target := ⟨_, rfl⟩
  have value : min (power - other) (max (((first.log2 : Int) + 1 + power) -
    (second.log2 + 1 + other) - 53) (-1074)) = target := chosen
  obtain ⟨places, shift⟩ : ∃ places : Nat, power - other - target = places :=
    ⟨(power - other - target).toNat, by omega⟩
  have count : (power - other - target).toNat = places := by omega
  have core : divCore Format.binary64 first power second other =
      (first * 2 ^ places / second, target,
        accuracyOfFraction (first * 2 ^ places % second) second) := by
    simp only [divCore, chosen, count, Nat.shiftLeft_eq]
  have quotient : (first : ℚ) * 2 ^ power / (second * 2 ^ other) =
      ((first * 2 ^ places : Nat) : ℚ) / second * 2 ^ target := by
    have sum : power = other + target + places := by omega
    have nonzero : (2 : ℚ) ^ other ≠ 0 := (zpow_pos two_pos _).ne'
    have divisor : (second : ℚ) ≠ 0 := by exact_mod_cast two.ne'
    rw [sum, zpow_add₀ two_ne_zero, zpow_add₀ two_ne_zero, zpow_natCast]
    push_cast
    field_simp
  rw [quotient] at inside
  show roundWithAccuracy Format.binary64 .positive (divCore _ _ _ _ _).1 (divCore _ _ _ _ _).2.1
    (divCore _ _ _ _ _).2.2 = _
  rw [core]
  refine roundWithAccuracy_nearest canonical (Represents.quotient_represents _ two) ?_ inside .positive
  rw [target_value]
  by_cases least : target ≤ -1074
  · omega
  · -- the dividend has 53 bits more than the divisor
    have dividend : 2 ^ (first.log2 + places) ≤ first * 2 ^ places := by
      rw [Nat.pow_add]
      exact Nat.mul_le_mul_right _ (Nat.log2_self_le one.ne')
    have enough : 2 ^ 52 * second ≤ first * 2 ^ places := by
      have small : second ≤ 2 ^ (second.log2 + 1) := Nat.lt_log2_self.le
      calc 2 ^ 52 * second ≤ 2 ^ 52 * 2 ^ (second.log2 + 1) := Nat.mul_le_mul_left _ small
        _ = 2 ^ (52 + (second.log2 + 1)) := (Nat.pow_add 2 _ _).symm
        _ ≤ 2 ^ (first.log2 + places) := Nat.pow_le_pow_right (by decide) (by omega)
        _ ≤ first * 2 ^ places := dividend
    have wide : 2 ^ 52 ≤ first * 2 ^ places / second := (Nat.le_div_iff_mul_le two).mpr enough
    have bits : 52 ≤ (first * 2 ^ places / second).log2 :=
      (Nat.le_log2 (by omega)).mpr wide
    omega

end Operations

structure Unpacks (x : Float) (value : ℚ) (mantissa : Nat) (exponent : Int) : Prop where
  full : Full mantissa
  parts : x.toModel.unpack = .finite .positive mantissa exponent full.mantissa_pos
  value : (mantissa : ℚ) * 2 ^ exponent = value

theorem unpacks_whole {n : Nat} (positive : 0 < n) (small : n < 2 ^ 53) :
    Unpacks n.toUInt64.toFloat n (n * 2 ^ (52 - n.log2)) (n.log2 - 52) := by
  obtain ⟨bits, full⟩ := full_of_lt positive small
  have word : n.toUInt64.toNat = n := by
    rw [Nat.toUInt64, UInt64.toNat_ofNat']
    omega
  have canonical : Canonical (n * 2 ^ (52 - n.log2)) ((n.log2 : Int) - 52) :=
    ⟨full.mantissa_pos, full.2, by omega, by omega, fun short => absurd full.1 (by omega)⟩
  refine ⟨full, ?_, ?_⟩
  · show unpack Format.binary64
      (pack Format.binary64 (normalize Format.binary64 n.toUInt64.toNat 0 .positive)) = _
    rw [word, normalize_whole positive small]
    exact canonical.unpack_pack .positive
  · have sum : (n.log2 : Int) - 52 = -((52 - n.log2 : Nat) : Int) := by omega
    rw [sum, zpow_neg, zpow_natCast]
    push_cast
    field_simp

theorem power_bits : ∀ power : Fin 23, (Float.exactlyRepresentablePowersOfTen[power]).toBits.toNat =
    (power + (5 ^ power.val).log2 + 1022) * 2 ^ 52 +
      5 ^ power.val * 2 ^ (52 - (5 ^ power.val).log2) := by
  decide +kernel

theorem unpacks_power {power : Nat} (few : power < Float.exactlyRepresentablePowersOfTen.size) :
    Unpacks Float.exactlyRepresentablePowersOfTen[power] (10 ^ power)
      (5 ^ power * 2 ^ (52 - (5 ^ power).log2)) (power + (5 ^ power).log2 - 52) := by
  have most : power ≤ 22 := Nat.le_of_lt_succ few
  have positive : 0 < 5 ^ power := Nat.pow_pos (by decide)
  have small : 5 ^ power < 2 ^ 53 :=
    lt_of_le_of_lt (Nat.pow_le_pow_right (by decide) most) (by decide)
  obtain ⟨bits, full⟩ := full_of_lt positive small
  have canonical : Canonical (5 ^ power * 2 ^ (52 - (5 ^ power).log2))
      (power + (5 ^ power).log2 - 52) :=
    ⟨full.mantissa_pos, full.2, by omega, by omega, fun short => absurd full.1 (by omega)⟩
  have listed : Float.exactlyRepresentablePowersOfTen[power] = canonical.double false := by
    apply float_ext
    rw [canonical.toBits_double]
    refine (power_bits ⟨power, few⟩).trans ?_
    have place : ((power : Int) + (5 ^ power).log2 - 52 + 1074).toNat =
        power + (5 ^ power).log2 + 1022 := by omega
    rw [place]
    simp
  refine ⟨full, ?_, ?_⟩
  · rw [listed]
    exact canonical.unpack_pack .positive
  · obtain ⟨places, count⟩ : ∃ places : Nat, 52 - (5 ^ power).log2 = places := ⟨_, rfl⟩
    have sum : (power : Int) + (5 ^ power).log2 - 52 = power + -(places : Int) := by omega
    have ten : (10 : ℚ) = 5 * 2 := by norm_num
    rw [sum, count, zpow_add₀ two_ne_zero, zpow_neg, zpow_natCast, zpow_natCast, ten, mul_pow]
    push_cast
    field_simp

theorem digitCount_pos (n : Nat) : 0 < Decimal.digitCount n := Nat.length_repr_pos

theorem digitCount_le_iff {n count : Nat} (some : 0 < count) :
    Decimal.digitCount n ≤ count ↔ n < 10 ^ count := Nat.length_repr_le_iff some

theorem pow_digitCount_le {n : Nat} (positive : 0 < n) : 10 ^ (Decimal.digitCount n - 1) ≤ n := by
  have some := digitCount_pos n
  by_contra fewer
  have one : 0 < Decimal.digitCount n - 1 := by
    by_contra none
    have single : Decimal.digitCount n - 1 = 0 := by omega
    rw [single] at fewer
    omega
  have shorter := (digitCount_le_iff one).mpr (not_le.mp fewer)
  omega

theorem digitCount_eq {n count : Nat} (least : 10 ^ count ≤ n) (most : n < 10 ^ (count + 1)) :
    Decimal.digitCount n = count + 1 := by
  have shorter := (digitCount_le_iff (Nat.succ_pos count)).mpr most
  have longer : ¬ Decimal.digitCount n ≤ count := by
    intro few
    rcases Nat.eq_zero_or_pos count with rfl | some
    · have some := digitCount_pos n
      omega
    · have below := (digitCount_le_iff some).mp few
      omega
  omega

section Scientific
variable {mantissa digits : Nat} {exponent : Int}

theorem eq_double_of_pack (canonical : Canonical mantissa exponent) {x : Float}
    {unpacked : Float.Model.UnpackedFloat} (model : x.toModel = .pack unpacked)
    (rounded : unpacked = .finite .positive mantissa exponent canonical.pos) :
    x = canonical.double false := by
  obtain ⟨inner⟩ := x
  have same : inner = .pack unpacked := model
  rw [same, rounded]
  rfl

theorem ofScientific_up (canonical : Canonical mantissa exponent) (positive : 0 < digits)
    {power : Nat} (few : power ≤ 2048)
    (inside : (interval mantissa exponent).Holds (digits * 10 ^ power)) :
    Float.ofScientific digits false power = canonical.double false := by
  unfold Float.ofScientific
  split
  · rename_i quick
    have first := unpacks_whole positive quick.1
    have second := unpacks_power (Nat.lt_succ_of_le quick.2)
    rw [← first.value, ← second.value] at inside
    have wide := Nat.mul_le_mul first.full.1 second.full.1
    have product := mul_nearest canonical first.full.mantissa_pos second.full.mantissa_pos
      (by omega) inside
    rw [← first.parts, ← second.parts] at product
    exact eq_double_of_pack canonical rfl product
  · refine eq_double_of_pack canonical rfl ?_
    show Float.Model.UnpackedFloat.ofScientific Format.binary64 digits (power : Int) = _
    have bottom : -((2 ^ 11 : Int) + digits.log2) ≤ power := by omega
    have top : (power : Int) ≤ 2 ^ 11 := by omega
    rw [Float.Model.UnpackedFloat.ofScientific, dif_neg positive.ne', if_neg (not_lt.mpr top),
      if_neg (not_lt.mpr bottom), if_pos (Int.natCast_nonneg power)]
    refine mul_nearest canonical _ _ ?_ ?_
    · rw [Nat.shiftLeft_eq]
      calc 2 ^ 52 ≤ 2 ^ 53 := by decide
        _ ≤ digits * 2 ^ 53 := Nat.le_mul_of_pos_left _ positive
        _ ≤ digits * 2 ^ 53 * 10 ^ power := Nat.le_mul_of_pos_right _ (Nat.pow_pos (by decide))
    · have exact : ((digits <<< 53 : Nat) : ℚ) * 2 ^ (-(53 : Nat) : Int) *
          (((10 ^ power : Nat) : ℚ) * 2 ^ (0 : Int)) = digits * 10 ^ power := by
        rw [Nat.shiftLeft_eq, zpow_neg, zpow_natCast]
        push_cast
        field_simp
        norm_num
      exact exact.symm ▸ inside

theorem ofScientific_down (canonical : Canonical mantissa exponent) (positive : 0 < digits)
    {power : Nat} (some : 0 < power) (few : power ≤ 2048 + digits.log2)
    (inside : (interval mantissa exponent).Holds (digits / 10 ^ power)) :
    Float.ofScientific digits true power = canonical.double false := by
  unfold Float.ofScientific
  split
  · rename_i quick
    have first := unpacks_whole positive quick.1
    have second := unpacks_power (Nat.lt_succ_of_le quick.2)
    rw [← first.value, ← second.value] at inside
    have quotient := div_nearest canonical first.full.mantissa_pos second.full.mantissa_pos inside
    rw [← first.parts, ← second.parts] at quotient
    exact eq_double_of_pack canonical rfl quotient
  · refine eq_double_of_pack canonical rfl ?_
    have down : Int.negOfNat power = -(power : Int) := Int.negOfNat_eq
    show Float.Model.UnpackedFloat.ofScientific Format.binary64 digits (Int.negOfNat power) = _
    rw [down]
    have bottom : -((2 ^ 11 : Int) + digits.log2) ≤ -power := by omega
    have top : -(power : Int) ≤ 2 ^ 11 := by omega
    have below : ¬ 0 ≤ -(power : Int) := by omega
    have back : (- -(power : Int)).toNat = power := by omega
    rw [Float.Model.UnpackedFloat.ofScientific, dif_neg positive.ne', if_neg (not_lt.mpr top),
      if_neg (not_lt.mpr bottom), if_neg below]
    refine div_nearest canonical _ _ ?_
    have exact : (digits : ℚ) * 2 ^ (0 : Int) /
        (((10 ^ (- -(power : Int)).toNat : Nat) : ℚ) * 2 ^ (0 : Int)) = digits / 10 ^ power := by
      rw [back]
      push_cast
      simp
    exact exact.symm ▸ inside

theorem Canonical.size_bounds (canonical : Canonical mantissa exponent) {x : ℚ}
    (inside : (interval mantissa exponent).Holds x) : (10 : ℚ) ^ (-330 : Int) < x ∧
      x < (10 : ℚ) ^ (309 : Int) := by
  have unit : (0 : ℚ) < 2 ^ exponent := zpow_pos two_pos _
  rw [← div_mul_cancel₀ x unit.ne'] at inside ⊢
  obtain ⟨least, most, -⟩ := canonical.interval_bounds inside
  generalize x / 2 ^ exponent = y at *
  constructor
  · have one : (1 : ℚ) ≤ mantissa := by exact_mod_cast canonical.pos
    have smallest : (2 : ℚ) ^ (-1074 : Int) ≤ 2 ^ exponent :=
      zpow_le_zpow_right₀ one_le_two canonical.low
    have tiny : (2 : ℚ) * 2 ^ 1074 < 10 ^ 330 := by
      exact_mod_cast (by decide +kernel : 2 * 2 ^ 1074 < 10 ^ 330)
    have numbers : (10 : ℚ) ^ (-330 : Int) < 1 / 2 * 2 ^ (-1074 : Int) := by
      rw [zpow_neg, zpow_neg, one_div, ← mul_inv]
      exact inv_strictAnti₀ (by positivity) (by exact_mod_cast tiny)
    calc (10 : ℚ) ^ (-330 : Int) < 1 / 2 * 2 ^ (-1074 : Int) := numbers
      _ ≤ 1 / 2 * 2 ^ exponent := mul_le_mul_of_nonneg_left smallest (by norm_num)
      _ ≤ y * 2 ^ exponent := mul_le_mul_of_nonneg_right (by linarith) unit.le
  · have small : (mantissa : ℚ) < 2 ^ 53 := by exact_mod_cast canonical.small
    have greatest : (2 : ℚ) ^ exponent ≤ 2 ^ (971 : Int) :=
      zpow_le_zpow_right₀ one_le_two canonical.high
    have huge : ((2 : ℚ) ^ 53 + 1) * 2 ^ 971 < 10 ^ 309 := by
      exact_mod_cast (by decide +kernel : (2 ^ 53 + 1) * 2 ^ 971 < 10 ^ 309)
    calc y * 2 ^ exponent ≤ (2 ^ 53 + 1) * 2 ^ exponent :=
          mul_le_mul_of_nonneg_right (by linarith) unit.le
      _ ≤ (2 ^ 53 + 1) * 2 ^ (971 : Int) := mul_le_mul_of_nonneg_left greatest (by norm_num)
      _ < (10 : ℚ) ^ (309 : Int) := by exact_mod_cast huge

/-- Every decimal of the interval of a double is read as that double. -/
theorem nearest_eq (canonical : Canonical mantissa exponent) (positive : 0 < digits) {power : Int}
    (inside : (interval mantissa exponent).Holds (digits * 10 ^ power)) :
    Decimal.nearest digits power = canonical.double false := by
  obtain ⟨small, large⟩ := canonical.size_bounds inside
  have ten := zpow_pos (by norm_num : (0 : ℚ) < 10) power
  have some_digits := digitCount_pos digits
  have least := pow_digitCount_le positive
  have under := (digitCount_le_iff some_digits).mp (le_refl (Decimal.digitCount digits))
  have length : (toString digits).length = Decimal.digitCount digits := rfl
  rw [Decimal.nearest, length]
  generalize Decimal.digitCount digits = count at *
  have leastPower : (10 : ℚ) ^ ((count : Int) - 1) ≤ digits := by
    have cast : ((count : Int) - 1) = (count - 1 : Nat) := by omega
    rw [cast, zpow_natCast]
    exact_mod_cast least
  -- the number of digits before the point, or of zeros behind it, stays small
  have low : -330 < power + count := by
    refine (zpow_lt_zpow_iff_right₀ (by norm_num : (1 : ℚ) < 10)).mp (lt_trans small ?_)
    rw [add_comm, zpow_add₀ (by norm_num)]
    exact mul_lt_mul_of_pos_right (by exact_mod_cast under) ten
  have high : power + count ≤ 309 := by
    have below : (10 : ℚ) ^ ((count : Int) - 1 + power) < 10 ^ (309 : Int) := by
      refine lt_of_le_of_lt ?_ large
      rw [zpow_add₀ (by norm_num)]
      exact mul_le_mul_of_nonneg_right leastPower ten.le
    have powers := (zpow_lt_zpow_iff_right₀ (by norm_num : (1 : ℚ) < 10)).mp below
    omega
  have notSmall : ¬ (digits = 0 ∨ power + count < -330) := by omega
  have notLarge : ¬ 310 < power + (count : Int) := by omega
  rw [if_neg notSmall, if_neg notLarge]
  by_cases down : power < 0
  · obtain ⟨places, rfl⟩ : ∃ places : Nat, power = -(places : Int) := ⟨power.natAbs, by omega⟩
    have bits : count ≤ digits.log2 + 1 := by
      have size : 2 ^ (count - 1) ≤ digits :=
        le_trans (Nat.pow_le_pow_left (by decide) _) least
      have log := (Nat.le_log2 positive.ne').mpr size
      omega
    have exact : (digits : ℚ) * 10 ^ (-(places : Int)) = digits / 10 ^ places := by
      rw [zpow_neg, zpow_natCast, div_eq_mul_inv]
    rw [exact] at inside
    rw [decide_eq_true down, Int.natAbs_neg, Int.natAbs_natCast]
    exact ofScientific_down canonical positive (by omega) (by omega) inside
  · obtain ⟨places, rfl⟩ : ∃ places : Nat, power = places := ⟨power.toNat, by omega⟩
    rw [zpow_natCast] at inside
    rw [decide_eq_false down, Int.natAbs_natCast]
    exact ofScientific_up canonical positive (by omega) inside

end Scientific

end VirtualInstrument
