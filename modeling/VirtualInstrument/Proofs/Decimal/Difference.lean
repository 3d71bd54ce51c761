import VirtualInstrument.Proofs.Decimal.Bits
/- The sign of a difference of two finite doubles, and of a thousandth of it. However both are
   rounded, the sign bit of the result is the sign of the exact difference, and a thousandth is
   finite exactly when the whole is. -/
namespace VirtualInstrument

open Float.Model (Format totalExponent)
open Float.Model.UnpackedFloat

section Signs

def signOf? : Float.Model.UnpackedFloat → Option Sign
  | .notANumber => none
  | .infinity sign => some sign
  | .zero sign => some sign
  | .finite sign _ _ _ => some sign

theorem components_sign (sign : Sign) (exponent : BitVec 11) (mantissa : BitVec 52) :
    (packComponents Format.binary64 sign exponent mantissa).toNat / 2 ^ 63 =
      sign.toBitVec.toNat := by
  have high := exponent.isLt
  have low := mantissa.isLt
  show (sign.toBitVec ++ exponent ++ mantissa).toNat / 2 ^ 63 = _
  rw [append_toNat, append_toNat]
  omega

theorem pack_sign {unpacked : Float.Model.UnpackedFloat} {sign : Sign}
    (signed : signOf? unpacked = some sign) :
    (pack Format.binary64 unpacked).toNat / 2 ^ 63 = sign.toBitVec.toNat := by
  cases unpacked with
  | notANumber => cases signed
  | infinity sign =>
    cases signed
    exact components_sign sign _ _
  | zero sign =>
    cases signed
    exact components_sign sign _ _
  | finite sign mantissa exponent positive =>
    cases signed
    unfold pack
    dsimp only
    split
    · exact components_sign sign _ _
    · split
      · exact components_sign sign _ _
      · exact components_sign sign _ _

theorem roundWithAccuracy_sign (sign : Sign) (mantissa : Nat) (exponent : Int)
    (accuracy : Accuracy) :
    signOf? (roundWithAccuracy Format.binary64 sign mantissa exponent accuracy) = some sign := by
  unfold roundWithAccuracy
  dsimp only
  split
  · rfl
  · rfl

theorem normalize_sign (value exponent : Int) :
    signOf? (Float.Model.UnpackedFloat.normalize Format.binary64 value exponent .positive) =
      some (signOf (decide (value < 0))) := by
  unfold Float.Model.UnpackedFloat.normalize
  rcases lt_trichotomy value 0 with below | rfl | above
  · rw [Int.compare_eq_lt.mpr below, decide_eq_true below]
    exact roundWithAccuracy_sign _ _ _ _
  · rfl
  · rw [Int.compare_eq_gt.mpr above, decide_eq_false (not_lt.mpr above.le)]
    exact roundWithAccuracy_sign _ _ _ _

end Signs

section Order
variable {mantissa other : Nat} {exponent power : Int}

theorem le_iff {x y : Float} : x ≤ y ↔
    (Float.Model.UnpackedFloat.compare x.toModel.unpack y.toModel.unpack).any (·.isLE) = true := by
  show Float.le x y = true ↔ _
  unfold Float.le
  rw [decide_eq_true_iff]
  rfl

theorem Canonical.compare_eq (first : Canonical mantissa exponent)
    (second : Canonical other power) :
    (compare exponent power).then (compare mantissa other) =
      compare (mantissa * 2 ^ (exponent - min exponent power).toNat)
        (other * 2 ^ (power - min exponent power).toNat) := by
  -- a mantissa with the higher exponent has all its bits
  have above {m n : Nat} {e f : Int} (small : Canonical m e) (large : Canonical n f)
      (less : e < f) : m * 2 ^ (e - e).toNat < n * 2 ^ (f - e).toNat := by
    obtain ⟨places, apart⟩ : ∃ places : Nat, (f - e).toNat = places + 1 :=
      ⟨(f - e).toNat - 1, by omega⟩
    have none_left : (e - e).toNat = 0 := by omega
    have least : 2 ^ 52 ≤ n := by
      by_contra short
      have low := large.full (not_le.mp short)
      have bottom := small.low
      omega
    have one := Nat.one_le_two_pow (n := places)
    rw [apart, none_left, Nat.pow_succ]
    have most := small.small
    nlinarith
  rcases lt_trichotomy exponent power with less | rfl | more
  · rw [Int.compare_eq_lt.mpr less, min_eq_left less.le,
      Nat.compare_eq_lt.mpr (above first second less)]
    rfl
  · rw [Int.compare_eq_eq.mpr rfl, min_self]
    simp
  · rw [Int.compare_eq_gt.mpr more, min_eq_right more.le,
      Nat.compare_eq_gt.mpr (above second first more)]
    rfl

theorem Canonical.unpack_double (canonical : Canonical mantissa exponent) (negative : Bool) :
    (canonical.double negative).toModel.unpack =
      .finite (signOf negative) mantissa exponent canonical.pos :=
  canonical.unpack_pack (signOf negative)

theorem finite_cases {x : Float} {d : Dyadic} (finite : classify x = .finite d) :
    x = 0.0 ∧ d.negative = false ∨ x = -0.0 ∧ d.negative = true ∨
      ∃ (canonical : Canonical d.mantissa d.exponent), x = canonical.double d.negative := by
  obtain ⟨negative, mantissa, exponent⟩ := d
  rcases Nat.eq_zero_or_pos mantissa with zero | positive
  · have same := zero_of_mantissa finite zero
    cases negative with
    | false => exact .inl ⟨same, rfl⟩
    | true => exact .inr (.inl ⟨same, rfl⟩)
  · exact .inr (.inr (eq_double_of_classify finite positive))

def exactDifference (negative : Bool) (mantissa : Nat) (exponent : Int) (other_negative : Bool)
    (other : Nat) (power : Int) : Int :=
  (signOf negative).apply ((mantissa * 2 ^ (exponent - min exponent power).toNat : Nat) : Int) -
    (signOf other_negative).apply ((other * 2 ^ (power - min exponent power).toNat : Nat) : Int)

theorem double_le_iff (first : Canonical mantissa exponent) (second : Canonical other power)
    (negative other_negative : Bool) : second.double other_negative ≤ first.double negative ↔
      0 ≤ exactDifference negative mantissa exponent other_negative other power := by
  have up : 0 < mantissa * 2 ^ (exponent - min exponent power).toNat :=
    Nat.mul_pos first.pos (Nat.two_pow_pos _)
  have down : 0 < other * 2 ^ (power - min exponent power).toNat :=
    Nat.mul_pos second.pos (Nat.two_pow_pos _)
  have order := second.compare_eq first
  rw [min_comm] at order
  rw [le_iff, first.unpack_double, second.unpack_double]
  unfold exactDifference
  generalize mantissa * 2 ^ (exponent - min exponent power).toNat = large at *
  generalize other * 2 ^ (power - min exponent power).toNat = small at *
  cases negative with
  | false =>
    cases other_negative with
    | false =>
      show ((compare power exponent).then (compare other mantissa)).isLE = true ↔
        0 ≤ (large : Int) - small
      rw [order, Nat.isLE_compare]
      omega
    | true => exact iff_of_true rfl (by show 0 ≤ (large : Int) - -small; omega)
  | true =>
    cases other_negative with
    | false => exact iff_of_false Bool.false_ne_true (by show ¬ 0 ≤ -(large : Int) - small; omega)
    | true =>
      show ((compare power exponent).then (compare other mantissa)).swap.isLE = true ↔
        0 ≤ -(large : Int) - -small
      rw [order, Ordering.isLE_swap, Nat.isGE_compare]
      omega

theorem Canonical.double_ne (canonical : Canonical mantissa exponent) (negative : Bool) :
    canonical.double negative ≠ 0.0 ∧ canonical.double negative ≠ -0.0 := by
  constructor
  · intro same
    have parts := congrArg (·.toModel.unpack) same
    rw [canonical.unpack_double] at parts
    cases parts
  · intro same
    have parts := congrArg (·.toModel.unpack) same
    rw [canonical.unpack_double] at parts
    cases parts

theorem zero_sub_sign {x : Float} {sign : Sign} (zero : x.toModel.unpack = .zero sign)
    (canonical : Canonical mantissa exponent) (negative : Bool) :
    signOf? (sub Format.binary64 x.toModel.unpack (canonical.double negative).toModel.unpack) =
      some (if canonical.double negative ≤ x then .positive else .negative) := by
  have order := le_iff (x := canonical.double negative) (y := x)
  rw [canonical.unpack_double, zero] at order ⊢
  cases negative with
  | false => rw [if_neg fun below => Bool.false_ne_true (order.mp below)]; rfl
  | true => rw [if_pos (order.mpr rfl)]; rfl

theorem sub_zero_sign {y : Float} {sign : Sign} (zero : y.toModel.unpack = .zero sign)
    (canonical : Canonical mantissa exponent) (negative : Bool) :
    signOf? (sub Format.binary64 (canonical.double negative).toModel.unpack y.toModel.unpack) =
      some (if y ≤ canonical.double negative then .positive else .negative) := by
  have order := le_iff (x := y) (y := canonical.double negative)
  rw [canonical.unpack_double, zero] at order ⊢
  cases negative with
  | false => rw [if_pos (order.mpr rfl)]; rfl
  | true => rw [if_neg fun below => Bool.false_ne_true (order.mp below)]; rfl

theorem double_sub_sign (first : Canonical mantissa exponent) (second : Canonical other power)
    (negative other_negative : Bool) :
    signOf? (sub Format.binary64 (first.double negative).toModel.unpack
      (second.double other_negative).toModel.unpack) =
        some (if second.double other_negative ≤ first.double negative then .positive
          else .negative) := by
  have exact : signOf? (sub Format.binary64 (first.double negative).toModel.unpack
      (second.double other_negative).toModel.unpack) = some (signOf
        (decide (exactDifference negative mantissa exponent other_negative other power < 0))) := by
    rw [first.unpack_double, second.unpack_double, ← normalize_sign _ (min exponent power)]
    unfold exactDifference
    rw [← Nat.shiftLeft_eq, ← Nat.shiftLeft_eq]
    rfl
  have order := double_le_iff first second negative other_negative
  rw [exact]
  by_cases below : second.double other_negative ≤ first.double negative
  · rw [if_pos below, decide_eq_false (not_lt.mpr (order.mp below))]
    rfl
  · rw [if_neg below, decide_eq_true (lt_of_not_ge fun least => below (order.mpr least))]
    rfl

theorem sub_sign {x y : Float} {d e : Dyadic} (finite : classify x = .finite d)
    (other_finite : classify y = .finite e) :
    signOf? (sub Format.binary64 x.toModel.unpack y.toModel.unpack) =
      some (if y ≤ x ∧ ¬ (x = -0.0 ∧ y = 0.0) then .positive else .negative) := by
  have apart {zeros : Prop} [Decidable zeros] (unlike : ¬ zeros) :
      (if y ≤ x ∧ ¬ zeros then Sign.positive else .negative) =
        if y ≤ x then .positive else .negative := by
    simp only [and_iff_left unlike]
  rcases finite_cases finite with ⟨rfl, -⟩ | ⟨rfl, -⟩ | ⟨first, rfl⟩
  · rcases finite_cases other_finite with ⟨rfl, -⟩ | ⟨rfl, -⟩ | ⟨second, rfl⟩
    · rfl
    · rfl
    · rw [apart fun both => (second.double_ne _).1 both.2]
      exact zero_sub_sign rfl second _
  · rcases finite_cases other_finite with ⟨rfl, -⟩ | ⟨rfl, -⟩ | ⟨second, rfl⟩
    · rfl
    · rfl
    · rw [apart fun both => (second.double_ne _).1 both.2]
      exact zero_sub_sign rfl second _
  · rw [apart fun both => (first.double_ne _).2 both.1]
    rcases finite_cases other_finite with ⟨rfl, -⟩ | ⟨rfl, -⟩ | ⟨second, rfl⟩
    · exact sub_zero_sign rfl first _
    · exact sub_zero_sign rfl first _
    · exact double_sub_sign first second _ _

end Order

section Quotient
variable {x : Float} {mantissa : Nat} {exponent : Int}

theorem thousand_unpack : (1000 : Float).toModel.unpack =
    .finite .positive (1000 * 2 ^ 43) (-43) (by decide) := by
  rfl

theorem div_sign {sign : Sign} (signed : signOf? x.toModel.unpack = some sign) :
    signOf? (div Format.binary64 x.toModel.unpack (1000 : Float).toModel.unpack) = some sign := by
  have whole (sign : Sign) : sign / .positive = sign := by
    cases sign with
    | negative => rfl
    | positive => rfl
  rw [thousand_unpack]
  cases parts : x.toModel.unpack with
  | notANumber =>
    rw [parts] at signed
    cases signed
  | infinity s =>
    rw [parts] at signed
    exact (congrArg some (whole s)).trans signed
  | zero s =>
    rw [parts] at signed
    exact (congrArg some (whole s)).trans signed
  | finite s mantissa exponent positive =>
    rw [parts] at signed
    exact (roundWithAccuracy_sign _ _ _ _).trans ((congrArg some (whole s)).trans signed)

theorem shiftRight_mantissa (em : ExtendedMantissa) (places : Nat) :
    (em >>> places).mantissa = em.mantissa / 2 ^ places := by
  show (places.repeat ExtendedMantissa.shiftRightOne em).mantissa = _
  induction places with
  | zero => simp [Nat.repeat]
  | succ places ih => rw [Nat.repeat, ExtendedMantissa.shiftRightOne, ih, Nat.div_div_eq_div_mul,
      Nat.pow_succ]

theorem shifted_exponent (m : Nat) (e : Int) (accuracy : Accuracy) :
    (shiftToTargetExponent Format.binary64 m e accuracy).2 =
      max e (max ((m.log2 : Int) + e - 52) (-1074)) := by
  show e + (((max ((m.log2 : Int) + 1 + e - 53) (-1074)) - e).toNat : Int) = _
  omega

theorem shifted_mantissa (m : Nat) (e : Int) (accuracy : Accuracy) :
    (shiftToTargetExponent Format.binary64 m e accuracy).1.mantissa < 2 ^ 53 := by
  have start : (ExtendedMantissa.ofMantissaAndAccuracy m accuracy).mantissa = m := by
    rcases accuracy with _ | (_ | _ | _)
    · rfl
    · rfl
    · rfl
    · rfl
  show (ExtendedMantissa.ofMantissaAndAccuracy m accuracy >>>
    (max ((m.log2 : Int) + 1 + e - 53) (-1074) - e).toNat).mantissa < 2 ^ 53
  rw [shiftRight_mantissa, start, Nat.div_lt_iff_lt_mul (Nat.two_pow_pos _), ← Nat.pow_add]
  exact Nat.lt_of_lt_of_le Nat.lt_log2_self (Nat.pow_le_pow_right (by decide) (by omega))

theorem roundedMantissa_le (em : ExtendedMantissa) : em.roundedMantissa ≤ em.mantissa + 1 := by
  obtain ⟨mantissa, round, sticky⟩ := em
  cases round with
  | false =>
    cases sticky with
    | false => exact Nat.le_succ _
    | true => exact Nat.le_succ _
  | true =>
    cases sticky with
    | false =>
      show mantissa + mantissa % 2 ≤ mantissa + 1
      omega
    | true => exact Nat.le_refl _

theorem roundWithAccuracy_exponent {sign other : Sign} {m : Nat} {e : Int} {accuracy : Accuracy}
    {positive : 0 < mantissa}
    (rounded : roundWithAccuracy Format.binary64 sign m e accuracy =
      .finite other mantissa exponent positive) :
    exponent ≤ max e (max ((m.log2 : Int) + e - 52) (-1074)) + 1 := by
  have first := shifted_exponent m e accuracy
  have small := shifted_mantissa m e accuracy
  unfold roundWithAccuracy at rounded
  dsimp only at rounded
  generalize shiftToTargetExponent Format.binary64 m e accuracy = shifted at *
  have size : shifted.1.roundedMantissa.log2 ≤ 53 := by
    have less := roundedMantissa_le shifted.1
    have bound : shifted.1.roundedMantissa < 2 ^ 54 := by omega
    by_cases nothing : shifted.1.roundedMantissa = 0
    · rw [nothing]
      decide
    · exact Nat.le_of_lt_succ ((Nat.log2_lt nothing).mpr bound)
  split at rounded
  · cases rounded
  · cases rounded
    rw [shifted_exponent]
    omega

theorem finite_iff_power :
    (∃ d, classify x = .finite d) ↔ x.toBits.toNat / 2 ^ 52 % 2048 ≠ 2047 := by
  unfold classify
  dsimp only
  by_cases top : x.toBits.toNat / 2 ^ 52 % 2048 = 2047
  · rw [if_pos (by simpa using top)]
    refine iff_of_false ?_ (fun other => other top)
    rintro ⟨d, finite⟩
    split at finite
    · cases finite
    · cases finite
  · rw [if_neg (by simpa using top)]
    refine iff_of_true ?_ top
    split
    · exact ⟨_, rfl⟩
    · exact ⟨_, rfl⟩

theorem components_power (sign : Sign) (power : BitVec 11) (fraction : BitVec 52) :
    (packComponents Format.binary64 sign power fraction).toNat / 2 ^ 52 % 2048 = power.toNat := by
  have high := power.isLt
  have low := fraction.isLt
  show (sign.toBitVec ++ power ++ fraction).toNat / 2 ^ 52 % 2048 = _
  rw [append_toNat, append_toNat]
  omega

theorem pack_power (sign : Sign) (positive : 0 < mantissa) (low : exponent ≤ 971) :
    (pack Format.binary64 (.finite sign mantissa exponent positive)).toNat / 2 ^ 52 % 2048 ≠
      2047 := by
  unfold pack
  dsimp only
  have biased : (exponent + (Format.binary64.exponentBias : Int) + (52 : Nat)).toNat < 2047 := by
    show (exponent + (1023 : Nat) + (52 : Nat)).toNat < 2047
    omega
  rw [if_neg (by show ¬ 2 ^ 11 ≤ _ + 1; omega)]
  split
  · rw [components_power, BitVec.toNat_ofNat]
    omega
  · rw [components_power]
    decide

theorem rounded_power {sign : Sign} {m : Nat} {e : Int} {accuracy : Accuracy} (low : e ≤ 970)
    (few : (m.log2 : Int) + e ≤ 1022) :
    (pack Format.binary64 (roundWithAccuracy Format.binary64 sign m e accuracy)).toNat / 2 ^ 52 %
      2048 ≠ 2047 := by
  cases rounded : roundWithAccuracy Format.binary64 sign m e accuracy with
  | notANumber =>
    have signed := roundWithAccuracy_sign sign m e accuracy
    rw [rounded] at signed
    cases signed
  | infinity s =>
    unfold roundWithAccuracy at rounded
    dsimp only at rounded
    split at rounded
    · cases rounded
    · cases rounded
  | zero s =>
    show (packComponents Format.binary64 s 0#11 0#52).toNat / 2 ^ 52 % 2048 ≠ 2047
    rw [components_power]
    decide
  | finite s mantissa exponent positive =>
    have last := roundWithAccuracy_exponent rounded
    exact pack_power s positive (by omega)

theorem log2_quotient {divisor places : Nat} (full : 2 ^ 52 ≤ divisor)
    (something : mantissa * 2 ^ places / divisor ≠ 0) :
    (mantissa * 2 ^ places / divisor).log2 + 52 ≤ mantissa.log2 + places := by
  have quotient := Nat.log2_self_le something
  have whole : 2 ^ 52 * (mantissa * 2 ^ places / divisor) ≤ mantissa * 2 ^ places :=
    le_trans (Nat.mul_le_mul_right _ full) (Nat.mul_div_le _ _)
  have dividend : mantissa * 2 ^ places < 2 ^ (mantissa.log2 + 1 + places) := by
    rw [Nat.pow_add]
    exact Nat.mul_lt_mul_of_pos_right Nat.lt_log2_self (Nat.two_pow_pos _)
  have less : 2 ^ (52 + (mantissa * 2 ^ places / divisor).log2) <
      2 ^ (mantissa.log2 + 1 + places) := by
    refine lt_of_le_of_lt ?_ dividend
    rw [Nat.pow_add]
    exact le_trans (Nat.mul_le_mul_left _ quotient) whole
  have fewer := (Nat.pow_lt_pow_iff_right (by decide)).mp less
  omega

theorem thousandth_finite (canonical : Canonical mantissa exponent) (negative : Bool) :
    ∃ d, classify (canonical.double negative / 1000) = .finite d := by
  rw [finite_iff_power]
  show (pack Format.binary64 (div Format.binary64 (canonical.double negative).toModel.unpack
    (1000 : Float).toModel.unpack)).toNat / 2 ^ 52 % 2048 ≠ 2047
  rw [canonical.unpack_double, thousand_unpack]
  obtain ⟨target, chosen⟩ : ∃ target, min (exponent - -43) (Format.binary64.targetExponent
    (totalExponent mantissa exponent - totalExponent (1000 * 2 ^ 43) (-43))) = target := ⟨_, rfl⟩
  obtain ⟨places, count⟩ : ∃ places, (exponent - -43 - target).toNat = places := ⟨_, rfl⟩
  have core : divCore Format.binary64 mantissa exponent (1000 * 2 ^ 43) (-43) =
      (mantissa * 2 ^ places / (1000 * 2 ^ 43), target,
        accuracyOfFraction (mantissa * 2 ^ places % (1000 * 2 ^ 43)) (1000 * 2 ^ 43)) := by
    simp only [divCore, chosen, count, Nat.shiftLeft_eq]
  show (pack Format.binary64 (roundWithAccuracy Format.binary64 _ (divCore _ _ _ _ _).1
    (divCore _ _ _ _ _).2.1 (divCore _ _ _ _ _).2.2)).toNat / 2 ^ 52 % 2048 ≠ 2047
  rw [core]
  have value : min (exponent - -43)
      (max ((mantissa.log2 : Int) + 1 + exponent - 10 - 53) (-1074)) = target := chosen
  have bits : mantissa.log2 ≤ 52 :=
    Nat.le_of_lt_succ ((Nat.log2_lt canonical.pos.ne').mpr canonical.small)
  have high := canonical.high
  clear chosen core
  have low : target ≤ 970 := by omega
  refine rounded_power low ?_
  by_cases nothing : mantissa * 2 ^ places / (1000 * 2 ^ 43) = 0
  · rw [nothing]
    show ((0 : Nat) : Int) + target ≤ 1022
    omega
  · have fewer := log2_quotient (by decide) nothing
    show ((mantissa * 2 ^ places / (1000 * 2 ^ 43)).log2 : Int) + target ≤ 1022
    omega

theorem unpack_endless (endless : x.toBits.toNat / 2 ^ 52 % 2048 = 2047) :
    x.toModel.unpack = .notANumber ∨ ∃ sign, x.toModel.unpack = .infinity sign := by
  have power : @unpackExponent Format.binary64 x.toModel.toBits.toBitVec = -1#11 := by
    apply BitVec.eq_of_toNat_eq
    show (BitVec.extractLsb 62 52 x.toModel.toBits.toBitVec).toNat = 2047
    rw [BitVec.extractLsb_toNat, Nat.shiftRight_eq_div_pow]
    exact endless
  unfold Float.Model.unpack unpack
  dsimp only
  rw [if_pos power]
  split
  · exact .inr ⟨_, rfl⟩
  · exact .inl rfl

theorem thousandth_finite_iff :
    (∃ d, classify (x / 1000) = .finite d) ↔ ∃ d, classify x = .finite d := by
  constructor
  · intro last
    rw [finite_iff_power] at last ⊢
    intro endless
    apply last
    show (pack Format.binary64 (div Format.binary64 x.toModel.unpack
      (1000 : Float).toModel.unpack)).toNat / 2 ^ 52 % 2048 = 2047
    rcases unpack_endless endless with unknown | ⟨sign, infinite⟩
    · rw [unknown]
      rfl
    · rw [infinite]
      exact components_power (sign / .positive) (-1#11) 0#52
  · rintro ⟨d, finite⟩
    rcases finite_cases finite with ⟨rfl, -⟩ | ⟨rfl, -⟩ | ⟨canonical, rfl⟩
    · exact ⟨⟨false, 0, -1074⟩, by decide⟩
    · exact ⟨⟨true, 0, -1074⟩, by decide⟩
    · exact thousandth_finite canonical d.negative

end Quotient

section NotNegative
variable {x y : Float} {d e : Dyadic}

theorem unsigned_iff (finite : classify x = .finite d) :
    0 ≤ x ∧ x ≠ -0.0 ↔ d.negative = false := by
  rcases finite_cases finite with ⟨rfl, plain⟩ | ⟨rfl, minus⟩ | ⟨canonical, rfl⟩
  · exact iff_of_true ⟨by decide, by decide⟩ plain
  · exact iff_of_false (fun both => both.2 rfl) (by rw [minus]; decide)
  · rw [and_iff_left (canonical.double_ne _).2, le_iff, canonical.unpack_double]
    cases d.negative with
    | false => exact iff_of_true rfl rfl
    | true => exact iff_of_false Bool.false_ne_true Bool.true_eq_false.mp

theorem signOf_positive {negative : Bool} : signOf negative = .positive ↔ negative = false := by
  cases negative with
  | false => exact iff_of_true rfl rfl
  | true => exact iff_of_false Sign.noConfusion Bool.true_eq_false.mp

theorem classify_pack {unpacked : Float.Model.UnpackedFloat} {sign : Sign}
    (signed : signOf? unpacked = some sign)
    (finite : classify (.ofModel (.pack unpacked)) = .finite d) : signOf d.negative = sign := by
  obtain ⟨negative, mantissa, exponent⟩ := d
  obtain ⟨low, high, small, _, bits⟩ := classify_bits finite
  have top : (pack Format.binary64 unpacked).toNat =
    (if negative then 2 ^ 63 else 0) + (exponent + 1074).toNat * 2 ^ 52 + mantissa := bits
  have sign_bit := pack_sign signed
  rw [top] at sign_bit
  cases negative with
  | false =>
    cases sign with
    | positive => rfl
    | negative =>
      rw [if_neg Bool.false_ne_true] at sign_bit
      have one : Sign.negative.toBitVec.toNat = 1 := rfl
      omega
  | true =>
    cases sign with
    | negative => rfl
    | positive =>
      rw [if_pos rfl] at sign_bit
      have none_set : Sign.positive.toBitVec.toNat = 0 := rfl
      omega

theorem sub_unsigned (finite : classify x = .finite d) (other_finite : classify y = .finite e)
    {difference : Dyadic} (last : classify (x - y) = .finite difference) :
    0 ≤ x - y ∧ x - y ≠ -0.0 ↔ y ≤ x ∧ ¬ (x = -0.0 ∧ y = 0.0) := by
  have sign := classify_pack (sub_sign finite other_finite) last
  rw [unsigned_iff last]
  by_cases order : y ≤ x ∧ ¬ (x = -0.0 ∧ y = 0.0)
  · rw [if_pos order] at sign
    exact iff_of_true (signOf_positive.mp sign) order
  · rw [if_neg order] at sign
    refine iff_of_false (fun plain => ?_) order
    rw [plain] at sign
    cases sign

theorem thousandth_unsigned (finite : classify x = .finite d) :
    0 ≤ x / 1000 ∧ x / 1000 ≠ -0.0 ↔ 0 ≤ x ∧ x ≠ -0.0 := by
  obtain ⟨part, last⟩ := thousandth_finite_iff.mpr ⟨d, finite⟩
  have signed : signOf? x.toModel.unpack = some (signOf d.negative) := by
    rcases finite_cases finite with ⟨rfl, plain⟩ | ⟨rfl, minus⟩ | ⟨canonical, rfl⟩
    · rw [plain]
      rfl
    · rw [minus]
      rfl
    · rw [canonical.unpack_double]
      rfl
  have same := classify_pack (div_sign signed) last
  rw [unsigned_iff last, unsigned_iff finite, ← signOf_positive, same, signOf_positive]

end NotNegative

end VirtualInstrument
