import VirtualInstrument.Decimal.Numeral
import Mathlib
/- Whole numbers as doubles. A natural number below 2 ^ 53 is a double as it is: its digits fit
   into the mantissa, so no step on the way rounds it, and it can be read off the bits again. -/
namespace VirtualInstrument

open Float.Model (Format totalExponent)
open Float.Model.UnpackedFloat

def Full (mantissa : Nat) : Prop := 2 ^ 52 ≤ mantissa ∧ mantissa < 2 ^ 53

namespace Full
variable {mantissa : Nat}

theorem mantissa_pos (full : Full mantissa) : 0 < mantissa := Nat.lt_of_lt_of_le (by decide) full.1

theorem log2_mantissa (full : Full mantissa) : mantissa.log2 = 52 :=
  (Nat.log2_eq_iff (Nat.ne_of_gt full.mantissa_pos)).mpr full

theorem log2_shifted (full : Full mantissa) (places : Nat) :
    (mantissa * 2 ^ places).log2 = 52 + places := by
  have nonzero : mantissa * 2 ^ places ≠ 0 :=
    Nat.ne_of_gt (Nat.mul_pos full.mantissa_pos (Nat.two_pow_pos places))
  refine (Nat.log2_eq_iff nonzero).mpr ⟨?_, ?_⟩
  · rw [Nat.pow_add]
    exact Nat.mul_le_mul_right _ full.1
  · rw [Nat.add_right_comm, Nat.pow_add]
    exact Nat.mul_lt_mul_of_pos_right full.2 (Nat.two_pow_pos places)

end Full

theorem shiftRight_exact (mantissa places : Nat) :
    ExtendedMantissa.mk (mantissa * 2 ^ places) false false >>> places =
      ⟨mantissa, false, false⟩ := by
  show places.repeat ExtendedMantissa.shiftRightOne _ = _
  induction places generalizing mantissa with
  | zero => simp [Nat.repeat]
  | succ places ih =>
    have twice := ih (mantissa * 2)
    rw [Nat.mul_assoc, ← Nat.pow_succ'] at twice
    rw [Nat.repeat, twice]
    simp [ExtendedMantissa.shiftRightOne]

theorem shiftToTargetExponent_full {mantissa : Nat} (full : Full mantissa) (places : Nat)
    {exponent : Int} (normal : -1074 ≤ exponent) :
    shiftToTargetExponent Format.binary64 (mantissa * 2 ^ places) (exponent - places) .exact =
      (⟨mantissa, false, false⟩, exponent) := by
  have target : Format.binary64.targetExponent
      (totalExponent (mantissa * 2 ^ places) (exponent - places)) = exponent := by
    simp only [Format.targetExponent, totalExponent, full.log2_shifted, Format.mantissaBits,
      Format.minExponent]
    omega
  have shift : (exponent - (exponent - (places : Int))).toNat = places := by omega
  have back : exponent - places + places = exponent := by omega
  simp only [shiftToTargetExponent, target, shiftToExponent, shift, back,
    ExtendedMantissa.ofMantissaAndAccuracy, shiftRight_exact]

theorem roundWithAccuracy_full {mantissa : Nat} (full : Full mantissa) (places : Nat)
    (exponent : Int) (normal : -1074 ≤ exponent) :
    roundWithAccuracy Format.binary64 .positive (mantissa * 2 ^ places) (exponent - places)
      .exact = .finite .positive mantissa exponent full.mantissa_pos := by
  have first := shiftToTargetExponent_full full places normal
  have second := shiftToTargetExponent_full full 0 normal
  simp only [Nat.pow_zero, Nat.mul_one, Int.natCast_zero, Int.sub_zero] at second
  have rounded : ExtendedMantissa.roundedMantissa ⟨mantissa, false, false⟩ = mantissa := rfl
  simp only [roundWithAccuracy, first, rounded, second, Nat.ne_of_gt full.mantissa_pos, ↓reduceDIte]

theorem append_toNat {high low : Nat} (top : BitVec high) (bottom : BitVec low) :
    (top ++ bottom).toNat = top.toNat * 2 ^ low + bottom.toNat := by
  rw [BitVec.toNat_append, ← Nat.shiftLeft_add_eq_or_of_lt bottom.isLt, Nat.shiftLeft_eq]

structure Packs (mantissa : Nat) (exponent : Int) (bits : BitVec 64) : Prop where
  whole : bits.toNat = (exponent + 1075).toNat * 2 ^ 52 + (mantissa - 2 ^ 52)
  unpacked : ∀ positive : 0 < mantissa,
    unpack Format.binary64 bits = .finite .positive mantissa exponent positive

section Bits
variable {mantissa power : Nat}

theorem fraction_toNat (full : Full mantissa) :
    (BitVec.ofNat 52 mantissa).toNat = mantissa - 2 ^ 52 := by
  obtain ⟨least, most⟩ := full
  rw [BitVec.toNat_ofNat]
  omega

theorem power_toNat (high : power ≤ 1075) : (BitVec.ofNat 11 power).toNat = power := by
  rw [BitVec.toNat_ofNat]
  omega

theorem pack_biased (full : Full mantissa) (high : power ≤ 1075) :
    pack Format.binary64 (.finite .positive mantissa (power - 1075) full.mantissa_pos) =
      packComponents Format.binary64 .positive (BitVec.ofNat 11 power) (BitVec.ofNat 52 mantissa) := by
  have place : ((power : Int) - 1075 + 1023 + 52).toNat = power := by omega
  have fits : ¬ 2 ^ 11 ≤ power + 1 := by omega
  show (if 2 ^ 11 ≤ ((power : Int) - 1075 + 1023 + 52).toNat + 1 then _
    else if mantissa.log2 + 1 = 53 then
      packComponents Format.binary64 .positive
        (BitVec.ofNat 11 ((power : Int) - 1075 + 1023 + 52).toNat) (BitVec.ofNat 52 mantissa)
    else _) = _
  rw [place, if_neg fits, if_pos (by rw [full.log2_mantissa])]

theorem components_toNat (full : Full mantissa) (high : power ≤ 1075) :
    (packComponents Format.binary64 .positive (BitVec.ofNat 11 power)
      (BitVec.ofNat 52 mantissa)).toNat = power * 2 ^ 52 + (mantissa - 2 ^ 52) := by
  have sign : (Sign.positive.toBitVec ++ BitVec.ofNat 11 power).toNat = power := by
    have zero : Sign.positive.toBitVec.toNat = 0 := rfl
    rw [append_toNat, power_toNat high, zero]
    omega
  show (Sign.positive.toBitVec ++ BitVec.ofNat 11 power ++ BitVec.ofNat 52 mantissa).toNat = _
  rw [append_toNat, sign, fraction_toNat full]

theorem unpack_components (full : Full mantissa) (low : 1 ≤ power) (high : power ≤ 1075)
    (positive : 0 < mantissa) :
    unpack Format.binary64 (packComponents Format.binary64 .positive (BitVec.ofNat 11 power)
      (BitVec.ofNat 52 mantissa)) = .finite .positive mantissa (power - 1075) positive := by
  have exponentBits := power_toNat high
  have notInfinite : BitVec.ofNat 11 power ≠ -1#11 := by
    intro same
    have bits := congrArg BitVec.toNat same
    rw [exponentBits] at bits
    have top : (-1#11).toNat = 2047 := rfl
    omega
  have notSmall : BitVec.ofNat 11 power ≠ 0#11 := by
    intro same
    have bits := congrArg BitVec.toNat same
    rw [exponentBits, BitVec.toNat_zero] at bits
    omega
  have mantissaBits : (1#1 ++ BitVec.ofNat 52 mantissa).toNat = mantissa := by
    obtain ⟨least, most⟩ := full
    have one : (1#1).toNat = 1 := rfl
    rw [append_toNat, fraction_toNat ⟨least, most⟩, one]
    omega
  simp only [unpack, unpackMantissa_packComponents, unpackExponent_packComponents,
    unpackSign_packComponents, notInfinite, notSmall, if_false, exponentBits, mantissaBits]
  rfl

end Bits

theorem pack_full {mantissa : Nat} (full : Full mantissa) (exponent : Int)
    (low : -1074 ≤ exponent) (high : exponent ≤ 0) :
    Packs mantissa exponent
      (pack Format.binary64 (.finite .positive mantissa exponent full.mantissa_pos)) := by
  obtain ⟨power, biased⟩ : ∃ power : Nat, exponent = power - 1075 :=
    ⟨(exponent + 1075).toNat, by omega⟩
  subst biased
  have small : power ≤ 1075 := by omega
  have back : ((power : Int) - 1075 + 1075).toNat = power := by omega
  rw [pack_biased full small]
  constructor
  · rw [components_toNat full small, back]
  · exact unpack_components full (by omega) small

theorem full_of_lt {n : Nat} (positive : 0 < n) (small : n < 2 ^ 53) :
    n.log2 ≤ 52 ∧ Full (n * 2 ^ (52 - n.log2)) := by
  have nonzero : n ≠ 0 := Nat.ne_of_gt positive
  have low : n.log2 ≤ 52 := Nat.le_of_lt_succ ((Nat.log2_lt nonzero).mpr small)
  obtain ⟨places, size⟩ := Nat.exists_eq_add_of_le low
  have shift : 52 - n.log2 = places := by omega
  rw [shift]
  refine ⟨low, ?_, ?_⟩
  · rw [size, Nat.pow_add]
    exact Nat.mul_le_mul_right _ (Nat.log2_self_le nonzero)
  · have top : 53 = n.log2 + 1 + places := by omega
    rw [top, Nat.pow_add]
    exact Nat.mul_lt_mul_of_pos_right Nat.lt_log2_self (Nat.two_pow_pos places)

theorem normalize_whole {n : Nat} (positive : 0 < n) (small : n < 2 ^ 53) :
    normalize Format.binary64 n 0 .positive =
      .finite .positive (n * 2 ^ (52 - n.log2)) (n.log2 - 52)
        (full_of_lt positive small).2.mantissa_pos := by
  obtain ⟨low, full⟩ := full_of_lt positive small
  have sign : compare (n : Int) 0 = .gt := by
    rw [Int.compare_eq_gt]
    omega
  have target : Format.binary64.targetExponent (totalExponent n 0) = (n.log2 : Int) - 52 := by
    simp only [Format.targetExponent, totalExponent, Format.mantissaBits, Format.minExponent]
    omega
  have shift : (0 - ((n.log2 : Int) - 52)).toNat = 52 - n.log2 := by omega
  have left : (0 : Int) - (52 - n.log2 : Nat) = n.log2 - 52 := by omega
  have rounded := roundWithAccuracy_full full 0 (n.log2 - 52) (by omega)
  simp only [Nat.pow_zero, Nat.mul_one, Int.natCast_zero, Int.sub_zero] at rounded
  simp only [Float.Model.UnpackedFloat.normalize, Float.Model.UnpackedFloat.round, sign,
    Int.toNat_natCast, target, decreaseExponent, shift, left, Nat.shiftLeft_eq, rounded]

theorem ofNat_toBits {n : Nat} (small : n < 2 ^ 53) : (Float.ofNat n).toBits.toBitVec =
    pack Format.binary64 (mul Format.binary64
      (unpack Format.binary64 (pack Format.binary64 (normalize Format.binary64 n 0 .positive)))
      (.finite .positive (2 ^ 52) (-52) (by decide))) := by
  have word : n.toUInt64.toNat = n := by
    rw [Nat.toUInt64, UInt64.toNat_ofNat']
    omega
  have scaled : Float.ofNat n = n.toUInt64.toFloat * Float.exactlyRepresentablePowersOfTen[0] := by
    show Float.ofScientific n false 0 = _
    rw [Float.ofScientific, dif_pos ⟨small, by decide⟩]
    rfl
  have whole : n.toUInt64.toFloat.toModel =
      .pack (normalize Format.binary64 n 0 .positive) := by
    show Float.Model.pack (normalize Format.binary64 n.toUInt64.toNat 0 .positive) = _
    rw [word]
  rw [scaled]
  show pack Format.binary64 (mul Format.binary64 n.toUInt64.toFloat.toModel.unpack _) = _
  rw [whole]
  rfl

theorem packs_ofNat {n : Nat} (positive : 0 < n) (small : n < 2 ^ 53) :
    Packs (n * 2 ^ (52 - n.log2)) (n.log2 - 52) (Float.ofNat n).toBits.toBitVec := by
  obtain ⟨low, full⟩ := full_of_lt positive small
  have packed := pack_full full (n.log2 - 52) (by omega) (by omega)
  have product : roundWithAccuracy Format.binary64 .positive (n * 2 ^ (52 - n.log2) * 2 ^ 52)
      (n.log2 - 52 + -52) .exact = _ := roundWithAccuracy_full full 52 _ (by omega)
  rw [ofNat_toBits small, normalize_whole positive small, packed.unpacked full.mantissa_pos]
  show Packs _ _ (pack Format.binary64 (roundWithAccuracy Format.binary64 .positive
    (n * 2 ^ (52 - n.log2) * 2 ^ 52) (n.log2 - 52 + -52) .exact))
  rw [product]
  exact packed

theorem classify_ofNat {n : Nat} (positive : 0 < n) (small : n < 2 ^ 53) :
    classify (Float.ofNat n) = .finite ⟨false, n * 2 ^ (52 - n.log2), n.log2 - 52⟩ := by
  obtain ⟨low, least, most⟩ := full_of_lt positive small
  have bits : (Float.ofNat n).toBits.toNat =
      (n.log2 + 1023) * 2 ^ 52 + (n * 2 ^ (52 - n.log2) - 2 ^ 52) := by
    have whole := (packs_ofNat positive small).whole
    have place : ((n.log2 : Int) - 52 + 1075).toNat = n.log2 + 1023 := by omega
    rwa [place] at whole
  generalize n * 2 ^ (52 - n.log2) = mantissa at *
  have sign : (Float.ofNat n).toBits.toNat / 2 ^ 63 = 0 := by omega
  have power : (Float.ofNat n).toBits.toNat / 2 ^ 52 % 2048 = n.log2 + 1023 := by omega
  have fraction : (Float.ofNat n).toBits.toNat % 2 ^ 52 = mantissa - 2 ^ 52 := by omega
  have normal : n.log2 + 1023 ≠ 2047 ∧ n.log2 + 1023 ≠ 0 := by omega
  have whole : 2 ^ 52 + (mantissa - 2 ^ 52) = mantissa := by omega
  have exponent : Int.ofNat (n.log2 + 1023) - 1075 = n.log2 - 52 := by
    rw [Int.ofNat_eq_natCast]
    omega
  simp only [classify, Nat.pow_eq, sign, power, fraction, whole, exponent, beq_iff_eq, normal,
    if_false]
  rfl

/-- A natural number below 2 ^ 53 can be read off its double. -/
theorem wholeOf?_ofNat {n : Nat} (small : n < 2 ^ 53) :
    wholeOf? (Float.ofNat n) = some (n : Int) := by
  rcases Nat.eq_zero_or_pos n with rfl | positive
  · have zero : classify (Float.ofNat 0) = .finite ⟨false, 0, -1074⟩ := rfl
    have below : ¬ (0 : Int) ≤ -1074 := by decide
    simp only [wholeOf?, zero, Dyadic.splitPoint, if_neg below, Nat.zero_mod, Nat.zero_div]
    rfl
  · have low := (full_of_lt positive small).1
    have places : (-((n.log2 : Int) - 52)).toNat = 52 - n.log2 := by omega
    by_cases top : n.log2 = 52
    · simp [wholeOf?, classify_ofNat positive small, Dyadic.splitPoint, top]
    · have below : ¬ 0 ≤ (n.log2 : Int) - 52 := by omega
      simp only [wholeOf?, classify_ofNat positive small, Dyadic.splitPoint, if_neg below, places,
        Nat.pow_eq, Nat.mul_mod_left, Nat.mul_div_left n (Nat.two_pow_pos _)]
      rfl

theorem nearest_ofNat {n : Nat} (small : n < 2 ^ 53) : Decimal.nearest n 0 = Float.ofNat n := by
  rcases Nat.eq_zero_or_pos n with rfl | positive
  · rfl
  · have digits : (toString n).length ≤ 16 := (Nat.length_repr_le_iff (by decide)).mpr (by omega)
    have some : ¬ (n = 0 ∨ (0 : Int) + (toString n).length < -330) := by omega
    have few : ¬ 310 < (0 : Int) + (toString n).length := by omega
    simp only [Decimal.nearest, if_neg some, if_neg few]
    rfl

end VirtualInstrument
