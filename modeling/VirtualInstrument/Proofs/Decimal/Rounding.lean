import VirtualInstrument.Decimal.Shortest
import VirtualInstrument.Proofs.Decimal.Whole
/- Rounding to the nearest double. A mantissa with its two residual bits stands for a rational
   number; the bits stay right when the mantissa is shifted, so that every number between the ends
   of the interval of a double is rounded to that double. -/
namespace VirtualInstrument

open Float.Model (Format totalExponent)
open Float.Model.UnpackedFloat
open Decimal (Interval interval)

/-- What a mantissa and its residual bits say of a number: its integer part, whether at least a
    half is left over, and whether anything is left over beside that half. -/
structure Represents (em : ExtendedMantissa) (x : ℚ) : Prop where
  least : (em.mantissa : ℚ) ≤ x
  most : x < em.mantissa + 1
  round : em.roundBit = true ↔ (em.mantissa : ℚ) + 1 / 2 ≤ x
  sticky : em.stickyBit = true ↔ x ≠ em.mantissa ∧ x ≠ em.mantissa + 1 / 2

namespace Represents

theorem ofMantissa_represents (mantissa : Nat) :
    Represents (ExtendedMantissa.ofMantissaAndAccuracy mantissa .exact) mantissa := by
  constructor
  · exact le_refl _
  · exact lt_add_one _
  · simp [ExtendedMantissa.ofMantissaAndAccuracy]
  · simp [ExtendedMantissa.ofMantissaAndAccuracy]

theorem of_part {whole : Nat} {part : ℚ} {round sticky : Bool} (least : 0 ≤ part) (most : part < 1)
    (half : round = true ↔ 1 / 2 ≤ part) (other : sticky = true ↔ part ≠ 0 ∧ part ≠ 1 / 2) :
    Represents ⟨whole, round, sticky⟩ (whole + part) where
  least := le_add_of_nonneg_right least
  most := add_lt_add_right most _
  round := half.trans (add_le_add_iff_left _).symm
  sticky := other.trans (and_congr add_ne_left.symm (not_congr add_left_cancel_iff.symm))

theorem shiftRightOne_half {em : ExtendedMantissa} {x : ℚ} (stands : Represents em x) :
    Represents em.shiftRightOne (x / 2) := by
  obtain ⟨mantissa, round, sticky⟩ := em
  obtain ⟨least, most, half, other⟩ := stands
  dsimp only at least most half other
  have left : (round || sticky) = true ↔ x ≠ mantissa := by
    rw [Bool.or_eq_true, half, other]
    constructor
    · rintro (above | ⟨apart, _⟩) same
      · linarith
      · exact apart same
    · intro apart
      by_cases above : (mantissa : ℚ) + 1 / 2 ≤ x
      · exact .inl above
      · exact .inr ⟨apart, fun same => above same.ge⟩
  rcases Nat.even_or_odd' mantissa with ⟨k, rfl | rfl⟩
  · have halved : 2 * k / 2 = k := by omega
    have even : (2 * k % 2 != 0) = false := by simp
    have parts : x / 2 = k + (x / 2 - k) := by ring
    push_cast at least most left
    rw [parts, ExtendedMantissa.shiftRightOne, halved, even]
    refine of_part (by linarith) (by linarith) ?_ (left.trans ?_)
    · exact iff_of_false Bool.false_ne_true (by linarith)
    · constructor
      · intro apart
        exact ⟨fun same => apart (by linarith), by linarith⟩
      · rintro ⟨apart, -⟩ same
        exact apart (by linarith)
  · have halved : (2 * k + 1) / 2 = k := by omega
    have odd : ((2 * k + 1) % 2 != 0) = true := by simp
    have parts : x / 2 = k + (x / 2 - k) := by ring
    push_cast at least most left
    rw [parts, ExtendedMantissa.shiftRightOne, halved, odd]
    refine of_part (by linarith) (by linarith) ?_ (left.trans ?_)
    · exact iff_of_true rfl (by linarith)
    · constructor
      · intro apart
        exact ⟨by linarith, fun same => apart (by linarith)⟩
      · rintro ⟨-, apart⟩ same
        exact apart (by linarith)

theorem shiftRight_div_pow {em : ExtendedMantissa} {x : ℚ} (stands : Represents em x) (places : Nat) :
    Represents (em >>> places) (x / 2 ^ places) := by
  show Represents (places.repeat ExtendedMantissa.shiftRightOne em) _
  induction places with
  | zero => simpa [Nat.repeat] using stands
  | succ places ih =>
    have next := ih.shiftRightOne_half
    rwa [div_div, ← pow_succ] at next

theorem roundedMantissa_eq {em : ExtendedMantissa} {x : ℚ} (stands : Represents em x) {n : Nat}
    (least : (n : ℚ) - 1 / 2 ≤ x) (most : x ≤ n + 1 / 2)
    (odd : n % 2 = 1 → (n : ℚ) - 1 / 2 < x ∧ x < n + 1 / 2) : em.roundedMantissa = n := by
  obtain ⟨mantissa, round, sticky⟩ := em
  obtain ⟨bottom, top, half, other⟩ := stands
  dsimp only at bottom top half other
  cases round with
  | false =>
    -- less than a half is left over
    have below : x < mantissa + 1 / 2 := by
      by_contra above
      exact absurd (half.mpr (not_lt.mp above)) (by decide)
    have same : mantissa = n := by
      have upper : mantissa < n + 1 := by exact_mod_cast (by linarith : (mantissa : ℚ) < n + 1)
      have lower : n < mantissa + 1 := by exact_mod_cast (by linarith : (n : ℚ) < mantissa + 1)
      omega
    cases sticky with
    | false => exact same
    | true => exact same
  | true =>
    have above := half.mp rfl
    have near : mantissa = n ∨ mantissa + 1 = n := by
      have upper : mantissa ≤ n := by exact_mod_cast (by linarith : (mantissa : ℚ) ≤ n)
      have lower : n < mantissa + 2 := by exact_mod_cast (by linarith : (n : ℚ) < mantissa + 2)
      omega
    cases sticky with
    | false =>
      have middle : x = mantissa + 1 / 2 := by
        by_contra apart
        have whole : x ≠ mantissa := by
          intro same
          linarith
        exact absurd (other.mpr ⟨whole, apart⟩) (by decide)
      show mantissa + mantissa % 2 = n
      rcases near with rfl | rfl
      · have even : ¬ mantissa % 2 = 1 := by
          intro strict
          linarith [odd strict]
        omega
      · have even : ¬ (mantissa + 1) % 2 = 1 := by
          intro strict
          have := odd strict
          push_cast at this
          linarith
        omega
    | true =>
      obtain ⟨_, apart⟩ := other.mp rfl
      show mantissa + 1 = n
      rcases near with rfl | same
      · exact absurd (le_antisymm most above) apart
      · exact same

end Represents

structure Canonical (mantissa : Nat) (exponent : Int) : Prop where
  pos : 0 < mantissa
  small : mantissa < 2 ^ 53
  low : -1074 ≤ exponent
  high : exponent ≤ 971
  full : mantissa < 2 ^ 52 → exponent = -1074

/-- The numbers of an interval, with its ends when it is closed. -/
def Decimal.Interval.Holds (i : Interval) (x : ℚ) : Prop :=
  if i.closed then (i.low : ℚ) * 2 ^ i.exponent ≤ x ∧ x ≤ i.high * 2 ^ i.exponent
  else (i.low : ℚ) * 2 ^ i.exponent < x ∧ x < i.high * 2 ^ i.exponent

section Target
variable {mantissa : Nat} {exponent target : Int} {x : ℚ}

theorem targetExponent_bounds (least : (mantissa : ℚ) ≤ x) (most : x < mantissa + 1)
    (reached : Format.binary64.targetExponent (totalExponent mantissa exponent) = target)
    (fine : exponent ≤ target) :
    (target = -1074 ∨ (2 : ℚ) ^ (target + 52) ≤ x * 2 ^ exponent) ∧
      x * 2 ^ exponent < 2 ^ (target + 53) := by
  have value : max ((mantissa.log2 : Int) + 1 + exponent - 53) (-1074) = target := reached
  refine ⟨?_, ?_⟩
  · by_cases least_exponent : target = -1074
    · exact .inl least_exponent
    have bits : target + 52 = mantissa.log2 + exponent := by omega
    have nonzero : mantissa ≠ 0 := by
      rintro rfl
      have zero : Nat.log2 0 = 0 := rfl
      omega
    have size : (2 : ℚ) ^ mantissa.log2 ≤ x := by
      refine le_trans ?_ least
      exact_mod_cast Nat.log2_self_le nonzero
    rw [bits, zpow_add₀ two_ne_zero, zpow_natCast]
    exact .inr (mul_le_mul_of_nonneg_right size (zpow_pos two_pos _).le)
  · have size : x < 2 ^ (mantissa.log2 + 1) := by
      refine lt_of_lt_of_le most ?_
      exact_mod_cast Nat.lt_log2_self
    have bits : (2 : ℚ) ^ (mantissa.log2 + 1) * 2 ^ exponent ≤ 2 ^ (target + 53) := by
      rw [← zpow_natCast, ← zpow_add₀ two_ne_zero]
      refine zpow_le_zpow_right₀ one_le_two ?_
      push_cast
      omega
    exact lt_of_lt_of_le (mul_lt_mul_of_pos_right size (zpow_pos two_pos _)) bits

theorem shiftToTargetExponent_represents {accuracy : Accuracy}
    (stands : Represents (.ofMantissaAndAccuracy mantissa accuracy) x)
    (reached : Format.binary64.targetExponent (totalExponent mantissa exponent) = target)
    (fine : exponent ≤ target) :
    ∃ em, shiftToTargetExponent Format.binary64 mantissa exponent accuracy = (em, target) ∧
      Represents em (x * 2 ^ exponent / 2 ^ target) := by
  obtain ⟨places, rfl⟩ : ∃ places : Nat, target = exponent + places :=
    ⟨(target - exponent).toNat, by omega⟩
  have count : (exponent + (places : Int) - exponent).toNat = places := by omega
  refine ⟨ExtendedMantissa.ofMantissaAndAccuracy mantissa accuracy >>> places, ?_, ?_⟩
  · simp only [shiftToTargetExponent, reached, shiftToExponent, count]
  · have scaled : x * 2 ^ exponent / 2 ^ (exponent + (places : Int)) = x / 2 ^ places := by
      rw [zpow_add₀ two_ne_zero, zpow_natCast]
      have nonzero : (2 : ℚ) ^ exponent ≠ 0 := (zpow_pos two_pos _).ne'
      field_simp
    rw [scaled]
    exact stands.shiftRight_div_pow places

end Target

namespace Canonical
variable {mantissa : Nat} {exponent : Int}

theorem shiftToTargetExponent_self (canonical : Canonical mantissa exponent) :
    shiftToTargetExponent Format.binary64 mantissa exponent .exact =
      (⟨mantissa, false, false⟩, exponent) := by
  have bits : mantissa.log2 ≤ 52 :=
    Nat.le_of_lt_succ ((Nat.log2_lt canonical.pos.ne').mpr canonical.small)
  have least := canonical.low
  have value : Format.binary64.targetExponent (totalExponent mantissa exponent) =
      max ((mantissa.log2 : Int) + 1 + exponent - 53) (-1074) := rfl
  have still : (Format.binary64.targetExponent (totalExponent mantissa exponent) -
      exponent).toNat = 0 := by
    rw [value]
    omega
  simp only [Float.Model.UnpackedFloat.shiftToTargetExponent, shiftToExponent, still]
  simp [ExtendedMantissa.ofMantissaAndAccuracy]
  rfl

/-- The value and the ends of an interval, in units of the last bit: the end below is half of it
    away, or a quarter at a power of two. -/
theorem interval_ends (canonical : Canonical mantissa exponent) :
    ((interval mantissa exponent).value : ℚ) * 2 ^ (interval mantissa exponent).exponent =
        mantissa * 2 ^ exponent ∧
      ((interval mantissa exponent).high : ℚ) * 2 ^ (interval mantissa exponent).exponent =
        (mantissa + 1 / 2) * 2 ^ exponent ∧
      ∃ below : ℚ, ((interval mantissa exponent).low : ℚ) *
          2 ^ (interval mantissa exponent).exponent = (mantissa - below) * 2 ^ exponent ∧
        (below = 1 / 2 ∨ below = 1 / 4 ∧ mantissa = 2 ^ 52) ∧
        (mantissa = 2 ^ 52 → -1074 < exponent → below = 1 / 4) := by
  have pos := canonical.pos
  have unit : (2 : ℚ) ^ exponent = 4 * 2 ^ (exponent - 2) := by
    rw [zpow_sub₀ two_ne_zero]
    norm_num
    ring
  have power : (interval mantissa exponent).exponent = exponent - 2 := rfl
  rw [power, unit]
  refine ⟨?_, ?_, ?_⟩
  · simp only [interval]
    push_cast
    ring
  · simp only [interval]
    push_cast
    ring
  · by_cases quarter : mantissa = 2 ^ 52 ∧ -1074 < exponent
    · have low : (interval mantissa exponent).low = 4 * mantissa - 1 := by
        simp only [interval, Nat.pow_eq, if_pos quarter]
      refine ⟨1 / 4, ?_, .inr ⟨rfl, quarter.1⟩, fun _ _ => rfl⟩
      rw [low]
      push_cast [(by omega : 1 ≤ 4 * mantissa)]
      ring
    · have low : (interval mantissa exponent).low = 4 * mantissa - 2 := by
        simp only [interval, Nat.pow_eq, if_neg quarter]
      refine ⟨1 / 2, ?_, .inl rfl, fun same above => absurd ⟨same, above⟩ quarter⟩
      rw [low]
      push_cast [(by omega : 2 ≤ 4 * mantissa)]
      ring

theorem interval_bounds (canonical : Canonical mantissa exponent) {x : ℚ}
    (inside : (interval mantissa exponent).Holds (x * 2 ^ exponent)) :
    (mantissa : ℚ) - 1 / 2 ≤ x ∧ x ≤ mantissa + 1 / 2 ∧
      (mantissa % 2 = 1 → (mantissa : ℚ) - 1 / 2 < x ∧ x < mantissa + 1 / 2) ∧
      (mantissa = 2 ^ 52 → -1074 < exponent → (mantissa : ℚ) - 1 / 4 ≤ x) := by
  obtain ⟨-, high, below, low, size, near⟩ := canonical.interval_ends
  have unit : (0 : ℚ) < 2 ^ exponent := zpow_pos two_pos _
  have most : below ≤ 1 / 2 := by
    rcases size with half | ⟨quarter, _⟩
    · linarith
    · linarith
  rw [Interval.Holds, low, high] at inside
  have wide : (mantissa : ℚ) - below ≤ x ∧ x ≤ mantissa + 1 / 2 := by
    split at inside
    · exact ⟨le_of_mul_le_mul_right inside.1 unit, le_of_mul_le_mul_right inside.2 unit⟩
    · exact ⟨(lt_of_mul_lt_mul_right inside.1 unit.le).le,
        (lt_of_mul_lt_mul_right inside.2 unit.le).le⟩
  refine ⟨by linarith, wide.2, ?_, ?_⟩
  · intro odd
    rw [if_neg (by simp [interval, odd])] at inside
    have left := lt_of_mul_lt_mul_right inside.1 unit.le
    have right := lt_of_mul_lt_mul_right inside.2 unit.le
    exact ⟨by linarith, right⟩
  · intro bottom above
    have quarter := near bottom above
    linarith [wide.1]

end Canonical

section Nearest
variable {mantissa finer : Nat} {exponent power target : Int} {accuracy : Accuracy} {x : ℚ}

/-- A number of the interval of a double is brought to the exponent of that double, or just below
    a power of two to the exponent under it. -/
theorem Canonical.target_reached (canonical : Canonical mantissa exponent)
    (inside : (interval mantissa exponent).Holds x)
    (bits : target = -1074 ∨ (2 : ℚ) ^ (target + 52) ≤ x) (size : x < 2 ^ (target + 53))
    (normal : -1074 ≤ target) :
    target = exponent ∨
      target + 1 = exponent ∧ mantissa = 2 ^ 52 ∧
        (2 : ℚ) ^ 53 - 1 / 2 ≤ x / 2 ^ target ∧ x / 2 ^ target < 2 ^ 53 := by
  have unit : (0 : ℚ) < 2 ^ exponent := zpow_pos two_pos _
  obtain ⟨y, rfl⟩ : ∃ y, x = y * 2 ^ exponent :=
    ⟨x / 2 ^ exponent, (div_mul_cancel₀ _ unit.ne').symm⟩
  obtain ⟨least, most, -, bottom⟩ := canonical.interval_bounds inside
  have small : (mantissa : ℚ) ≤ 2 ^ 53 - 1 := by
    have below : mantissa + 1 ≤ 2 ^ 53 := canonical.small
    have cast : (mantissa : ℚ) + 1 ≤ 2 ^ 53 := by exact_mod_cast below
    linarith
  have atMost : target ≤ exponent := by
    rcases bits with rfl | bits
    · exact canonical.low
    have top : y * 2 ^ exponent < 2 ^ (53 + exponent) := by
      have under : y < 2 ^ 53 := by linarith
      rw [zpow_add₀ two_ne_zero]
      exact mul_lt_mul_of_pos_right (by exact_mod_cast under) unit
    have powers := (zpow_lt_zpow_iff_right₀ one_lt_two).mp (lt_of_le_of_lt bits top)
    omega
  rcases Int.lt_or_eq_of_le atMost with lower | same
  · have above : -1074 < exponent := by omega
    have full : 2 ^ 52 ≤ mantissa := by
      by_contra short
      have least_exponent := canonical.full (by omega)
      omega
    have under : y < 2 ^ 52 := by
      have top : y * 2 ^ exponent < 2 ^ (52 + exponent) :=
        lt_of_lt_of_le size (zpow_le_zpow_right₀ one_le_two (by omega))
      rw [zpow_add₀ two_ne_zero] at top
      exact_mod_cast lt_of_mul_lt_mul_right top unit.le
    have power_of_two : mantissa = 2 ^ 52 := by
      have cast : (mantissa : ℚ) < (2 ^ 52 + 1 : Nat) := by
        push_cast
        linarith
      have next : mantissa < 2 ^ 52 + 1 := by exact_mod_cast cast
      omega
    have close := bottom power_of_two above
    rw [power_of_two] at close
    push_cast at close
    have next : target + 1 = exponent := by
      have low : (2 : ℚ) ^ (51 + exponent) < 2 ^ (target + 53) := by
        have beyond : (2 : ℚ) ^ 51 < y := by linarith
        refine lt_trans ?_ size
        rw [zpow_add₀ two_ne_zero]
        exact mul_lt_mul_of_pos_right (by exact_mod_cast beyond) unit
      have powers := (zpow_lt_zpow_iff_right₀ one_lt_two).mp low
      omega
    have doubled : y * 2 ^ exponent / 2 ^ target = 2 * y := by
      rw [← next, zpow_add_one₀ two_ne_zero]
      have nonzero : (2 : ℚ) ^ target ≠ 0 := (zpow_pos two_pos _).ne'
      field_simp
    rw [doubled]
    refine .inr ⟨next, power_of_two, ?_, ?_⟩
    · linarith
    · linarith
  · exact .inl same

/-- Every number of the interval of a double is rounded to that double. -/
theorem roundWithAccuracy_nearest (canonical : Canonical mantissa exponent)
    (stands : Represents (ExtendedMantissa.ofMantissaAndAccuracy finer accuracy) x)
    (fine : power ≤ Format.binary64.targetExponent (totalExponent finer power))
    (inside : (interval mantissa exponent).Holds (x * 2 ^ power)) (sign : Sign) :
    roundWithAccuracy Format.binary64 sign finer power accuracy =
      .finite sign mantissa exponent canonical.pos := by
  obtain ⟨target, found⟩ : ∃ target,
      Format.binary64.targetExponent (totalExponent finer power) = target := ⟨_, rfl⟩
  rw [found] at fine
  have initial : (finer : ℚ) ≤ x ∧ x < finer + 1 := by
    have least := stands.least
    have most := stands.most
    cases accuracy with
    | exact => exact ⟨least, most⟩
    | inexact side =>
      cases side with
      | lt => exact ⟨least, most⟩
      | eq => exact ⟨least, most⟩
      | gt => exact ⟨least, most⟩
  have normal : -1074 ≤ target := by
    have value : max ((finer.log2 : Int) + 1 + power - 53) (-1074) = target := found
    omega
  obtain ⟨bits, size⟩ := targetExponent_bounds initial.1 initial.2 found fine
  obtain ⟨em, shifted, represents⟩ := shiftToTargetExponent_represents stands found fine
  have unit : (2 : ℚ) ^ exponent ≠ 0 := (zpow_pos two_pos _).ne'
  rcases canonical.target_reached inside bits size normal with rfl | ⟨next, power_of_two, close, under⟩
  · rw [← div_mul_cancel₀ (x * 2 ^ power) unit] at inside
    obtain ⟨least, most, odd, -⟩ := canonical.interval_bounds inside
    have rounded := represents.roundedMantissa_eq least most odd
    simp only [roundWithAccuracy, shifted, rounded, canonical.shiftToTargetExponent_self,
      canonical.pos.ne', ↓reduceDIte]
  · have rounded : em.roundedMantissa = 2 ^ 52 * 2 ^ 1 := by
      refine represents.roundedMantissa_eq ?_ ?_ ?_
      · push_cast
        linarith
      · push_cast
        linarith
      · intro odd
        omega
    have full : Full (2 ^ 52) := ⟨le_refl _, by omega⟩
    have carried := shiftToTargetExponent_full full 1 canonical.low
    have back : exponent - (1 : Nat) = target := by omega
    rw [back] at carried
    subst power_of_two
    simp only [roundWithAccuracy, shifted, rounded, carried, canonical.pos.ne', ↓reduceDIte]

end Nearest

end VirtualInstrument
