import VirtualInstrument.Proofs.Decimal.Rounding
/- The bits of a double. A positive mantissa with its exponent is packed into the bits that it is
   read off again, so that a double is known by its sign, its mantissa and its exponent. -/
namespace VirtualInstrument

open Float.Model (Format)
open Float.Model.UnpackedFloat

def signOf (negative : Bool) : Sign := if negative then .negative else .positive

theorem signOf_bit (negative : Bool) :
    (signOf negative).toBitVec.toNat = if negative then 1 else 0 := by
  cases negative with
  | false => rfl
  | true => rfl

theorem sign_of_bit (sign : Sign) : Sign.ofBitVec sign.toBitVec = sign := by
  cases sign with
  | negative => rfl
  | positive => rfl

theorem packComponents_toNat (sign : Sign) {power mantissa : Nat} (high : power < 2048) :
    (packComponents Format.binary64 sign (BitVec.ofNat 11 power) (BitVec.ofNat 52 mantissa)).toNat =
      sign.toBitVec.toNat * 2 ^ 63 + power * 2 ^ 52 + mantissa % 2 ^ 52 := by
  have exponent : (BitVec.ofNat 11 power).toNat = power := by
    rw [BitVec.toNat_ofNat]
    omega
  show (sign.toBitVec ++ BitVec.ofNat 11 power ++ BitVec.ofNat 52 mantissa).toNat = _
  rw [append_toNat, append_toNat, exponent, BitVec.toNat_ofNat]
  omega

namespace Canonical
variable {mantissa : Nat} {exponent : Int}

/-- The exponent as it stands in the bits; the least one also stands for numbers of fewer bits. -/
def biased (mantissa : Nat) (exponent : Int) : Nat :=
  if mantissa < 2 ^ 52 then 0 else (exponent + 1075).toNat

theorem biased_lt (canonical : Canonical mantissa exponent) : biased mantissa exponent < 2047 := by
  have high := canonical.high
  unfold biased
  split
  · omega
  · omega

theorem pack_components (canonical : Canonical mantissa exponent) (sign : Sign) :
    pack Format.binary64 (.finite sign mantissa exponent canonical.pos) =
      packComponents Format.binary64 sign (BitVec.ofNat 11 (biased mantissa exponent))
        (BitVec.ofNat 52 mantissa) := by
  obtain ⟨pos, small, low, high, full⟩ := canonical
  have place : (exponent + 1023 + 52).toNat = (exponent + 1075).toNat := by
    congr 1
    omega
  have fits : ¬ 2 ^ 11 ≤ (exponent + 1075).toNat + 1 := by omega
  show (if 2 ^ 11 ≤ (exponent + 1023 + 52).toNat + 1 then _
    else if mantissa.log2 + 1 = 53 then
      packComponents Format.binary64 sign
        (BitVec.ofNat 11 (exponent + 1023 + 52).toNat) (BitVec.ofNat 52 mantissa)
    else packComponents Format.binary64 sign 0#11 (BitVec.ofNat 52 mantissa)) = _
  rw [place, if_neg fits]
  unfold biased
  by_cases short : mantissa < 2 ^ 52
  · have bits : mantissa.log2 < 52 := (Nat.log2_lt pos.ne').mpr short
    rw [if_neg (by omega), if_pos short]
  · have bits : mantissa.log2 = 52 := (Nat.log2_eq_iff pos.ne').mpr ⟨by omega, small⟩
    rw [if_pos (by omega), if_neg short]

theorem pack_toNat (canonical : Canonical mantissa exponent) (sign : Sign) :
    (pack Format.binary64 (.finite sign mantissa exponent canonical.pos)).toNat =
      sign.toBitVec.toNat * 2 ^ 63 + (exponent + 1074).toNat * 2 ^ 52 + mantissa := by
  rw [canonical.pack_components, packComponents_toNat sign (by have := canonical.biased_lt; omega)]
  obtain ⟨pos, small, low, high, full⟩ := canonical
  unfold biased
  split
  · rename_i short
    have least := full short
    omega
  · omega

theorem unpack_pack (canonical : Canonical mantissa exponent) (sign : Sign) :
    unpack Format.binary64 (pack Format.binary64 (.finite sign mantissa exponent canonical.pos)) =
      .finite sign mantissa exponent canonical.pos := by
  have below := canonical.biased_lt
  have place : (BitVec.ofNat 11 (biased mantissa exponent)).toNat = biased mantissa exponent := by
    rw [BitVec.toNat_ofNat]
    omega
  have notInfinite : BitVec.ofNat 11 (biased mantissa exponent) ≠ -1#11 := by
    intro same
    have bits := congrArg BitVec.toNat same
    rw [place] at bits
    have top : (-1#11).toNat = 2047 := rfl
    omega
  have fraction : (BitVec.ofNat 52 mantissa).toNat = mantissa % 2 ^ 52 := BitVec.toNat_ofNat _ _
  rw [canonical.pack_components]
  obtain ⟨pos, small, low, high, full⟩ := canonical
  by_cases short : mantissa < 2 ^ 52
  · have zero : biased mantissa exponent = 0 := if_pos short
    have some : BitVec.ofNat 52 mantissa ≠ 0#52 := by
      intro same
      have bits := congrArg BitVec.toNat same
      rw [fraction, BitVec.toNat_zero] at bits
      omega
    have whole : (BitVec.ofNat 52 mantissa).toNat = mantissa := by omega
    have least := full short
    subst least
    rw [zero] at notInfinite ⊢
    simp only [unpack, unpackMantissa_packComponents, unpackExponent_packComponents,
      unpackSign_packComponents, notInfinite, if_false, some, dite_false, whole, sign_of_bit]
    rfl
  · have normal : biased mantissa exponent = (exponent + 1075).toNat := if_neg short
    have notSmall : BitVec.ofNat 11 (biased mantissa exponent) ≠ 0#11 := by
      intro same
      have bits := congrArg BitVec.toNat same
      rw [place, BitVec.toNat_zero] at bits
      omega
    have whole : (1#1 ++ BitVec.ofNat 52 mantissa).toNat = mantissa := by
      have one : (1#1).toNat = 1 := rfl
      rw [append_toNat, fraction, one]
      omega
    have back : ((exponent + 1075).toNat : Int) - (1023 + 52) = exponent := by omega
    simp only [unpack, unpackMantissa_packComponents, unpackExponent_packComponents,
      unpackSign_packComponents, notInfinite, notSmall, if_false, place, whole, sign_of_bit]
    congr 1
    rw [normal]
    exact back

def double (canonical : Canonical mantissa exponent) (negative : Bool) : Float :=
  .ofModel (.pack (.finite (signOf negative) mantissa exponent canonical.pos))

theorem toBits_double (canonical : Canonical mantissa exponent) (negative : Bool) :
    (canonical.double negative).toBits.toNat =
      (if negative then 2 ^ 63 else 0) + (exponent + 1074).toNat * 2 ^ 52 + mantissa := by
  show (pack Format.binary64 (.finite (signOf negative) mantissa exponent canonical.pos)).toNat = _
  rw [canonical.pack_toNat, signOf_bit]
  cases negative with
  | false => rfl
  | true => rfl

theorem neg_double (canonical : Canonical mantissa exponent) :
    -canonical.double false = canonical.double true := by
  show Float.ofModel (.pack (Float.Model.UnpackedFloat.neg (unpack Format.binary64
    (pack Format.binary64 (.finite .positive mantissa exponent canonical.pos))))) = _
  rw [canonical.unpack_pack]
  rfl

end Canonical

theorem float_ext {x y : Float} (same : x.toBits.toNat = y.toBits.toNat) : x = y := by
  obtain ⟨⟨bits, valid⟩⟩ := x
  obtain ⟨⟨bits', valid'⟩⟩ := y
  have words : bits = bits' := UInt64.toNat_inj.mp same
  subst words
  rfl

structure FiniteBits (x : Float) (negative : Bool) (mantissa : Nat) (exponent : Int) : Prop where
  low : -1074 ≤ exponent
  high : exponent ≤ 971
  small : mantissa < 2 ^ 53
  full : mantissa < 2 ^ 52 → exponent = -1074
  bits : x.toBits.toNat =
    (if negative then 2 ^ 63 else 0) + (exponent + 1074).toNat * 2 ^ 52 + mantissa

theorem classify_bits {x : Float} {negative : Bool} {mantissa : Nat} {exponent : Int}
    (reads : classify x = .finite ⟨negative, mantissa, exponent⟩) :
    FiniteBits x negative mantissa exponent := by
  have most : x.toBits.toNat < 2 ^ 64 := x.toBits.toNat_lt
  simp only [classify, Nat.pow_eq, beq_iff_eq] at reads
  split at reads
  · split at reads
    · cases reads
    · cases reads
  · rename_i finite
    have sign (n : Nat) (bit : n < 2) (same : (n == 1) = negative) :
        n = if negative then 1 else 0 := by
      subst same
      rcases Nat.lt_succ_iff.mp bit |>.lt_or_eq with zero | rfl
      · interval_cases n
        rfl
      · rfl
    split at reads
    · rename_i subnormal
      simp only [FloatClass.finite.injEq, Dyadic.mk.injEq] at reads
      obtain ⟨first, rfl, rfl⟩ := reads
      have top := sign _ (by omega) first
      refine ⟨by omega, by omega, by omega, fun _ => rfl, ?_⟩
      cases negative with
      | false => simp only [Bool.false_eq_true, if_false] at top ⊢; omega
      | true => simp only [if_true] at top ⊢; omega
    · rename_i normal
      simp only [FloatClass.finite.injEq, Dyadic.mk.injEq] at reads
      obtain ⟨first, rfl, rfl⟩ := reads
      have top := sign _ (by omega) first
      have power : Int.ofNat (x.toBits.toNat / 2 ^ 52 % 2048) =
        ((x.toBits.toNat / 2 ^ 52 % 2048 : Nat) : Int) := rfl
      rw [power]
      refine ⟨by omega, by omega, by omega, by omega, ?_⟩
      cases negative with
      | false => simp only [Bool.false_eq_true, if_false] at top ⊢; omega
      | true => simp only [if_true] at top ⊢; omega

theorem zero_of_mantissa {x : Float} {d : Dyadic} (reads : classify x = .finite d)
    (zero : d.mantissa = 0) : x = if d.negative then -0.0 else 0.0 := by
  obtain ⟨negative, mantissa, exponent⟩ := d
  subst zero
  obtain ⟨_, _, _, full, bits⟩ := classify_bits reads
  rw [full (by decide)] at bits
  cases negative with
  | false => exact float_ext bits
  | true => exact float_ext bits

theorem eq_double_of_classify {x : Float} {negative : Bool} {mantissa : Nat} {exponent : Int}
    (reads : classify x = .finite ⟨negative, mantissa, exponent⟩) (pos : 0 < mantissa) :
    ∃ canonical : Canonical mantissa exponent, x = canonical.double negative := by
  obtain ⟨low, high, small, full, bits⟩ := classify_bits reads
  have canonical : Canonical mantissa exponent := ⟨pos, small, low, high, full⟩
  exact ⟨canonical, float_ext (bits.trans (canonical.toBits_double negative).symm)⟩

end VirtualInstrument
