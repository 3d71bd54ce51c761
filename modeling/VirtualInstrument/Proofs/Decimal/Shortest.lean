import VirtualInstrument.Proofs.Decimal.Nearest
/- The shortest digits of a double lie in its interval. A multiple of a power of ten that is small
   enough lies there, next to the double, and seventeen digits are always fine enough. -/
namespace VirtualInstrument.Decimal

theorem pow_toNat {base : ℚ} (positive : 0 < base) (n : Int) :
    base ^ n.toNat = base ^ (-n).toNat * base ^ n := by
  rcases Int.le_total 0 n with up | down
  · obtain ⟨m, rfl⟩ := Int.eq_ofNat_of_zero_le up
    have none : (-(m : Int)).toNat = 0 := by omega
    rw [none, pow_zero, one_mul, Int.toNat_natCast, zpow_natCast]
  · obtain ⟨m, same⟩ : ∃ m : Nat, n = -(m : Int) := ⟨(-n).toNat, by omega⟩
    have none : (-(m : Int)).toNat = 0 := by omega
    have some : (- -(m : Int)).toNat = m := by omega
    rw [same, none, some, pow_zero, zpow_neg, zpow_natCast,
      mul_inv_cancel₀ (pow_pos positive m).ne']

def gridFactor (i : Interval) (power : Int) : ℚ := 2 ^ (-i.exponent).toNat * 10 ^ (-power).toNat

theorem gridFactor_pos (i : Interval) (power : Int) : 0 < gridFactor i power := by
  unfold gridFactor
  positivity

theorem scale_up (i : Interval) (power : Int) (n : Nat) :
    ((n * (Nat.pow 2 i.exponent.toNat * Nat.pow 10 (-power).toNat) : Nat) : ℚ) =
      gridFactor i power * (n * 2 ^ i.exponent) := by
  have two := pow_toNat (two_pos : (0 : ℚ) < 2) i.exponent
  unfold gridFactor
  simp only [Nat.pow_eq]
  push_cast
  rw [two]
  ring

theorem scale_unit (i : Interval) (power : Int) (steps : Nat) :
    ((steps * (i.scale power).unit : Nat) : ℚ) = gridFactor i power * (steps * 10 ^ power) := by
  have ten := pow_toNat (by norm_num : (0 : ℚ) < 10) power
  unfold gridFactor Interval.scale
  simp only [Nat.pow_eq]
  push_cast
  rw [ten]
  ring

theorem scale_holds_iff (i : Interval) (power : Int) (steps : Nat) :
    (i.scale power).holds steps = true ↔ i.Holds (steps * 10 ^ power) := by
  have factor := gridFactor_pos i power
  have place := scale_unit i power steps
  have low := scale_up i power i.low
  have high := scale_up i power i.high
  have least_le : (i.scale power).low ≤ steps * (i.scale power).unit ↔
      (i.low : ℚ) * 2 ^ i.exponent ≤ steps * 10 ^ power := by
    rw [← Nat.cast_le (α := ℚ), place]
    exact low ▸ mul_le_mul_iff_of_pos_left factor
  have le_most : steps * (i.scale power).unit ≤ (i.scale power).high ↔
      (steps : ℚ) * 10 ^ power ≤ i.high * 2 ^ i.exponent := by
    rw [← Nat.cast_le (α := ℚ), place]
    exact high ▸ mul_le_mul_iff_of_pos_left factor
  have least_lt : (i.scale power).low < steps * (i.scale power).unit ↔
      (i.low : ℚ) * 2 ^ i.exponent < steps * 10 ^ power := by
    rw [← Nat.cast_lt (α := ℚ), place]
    exact low ▸ mul_lt_mul_iff_of_pos_left factor
  have lt_most : steps * (i.scale power).unit < (i.scale power).high ↔
      (steps : ℚ) * 10 ^ power < i.high * 2 ^ i.exponent := by
    rw [← Nat.cast_lt (α := ℚ), place]
    exact high ▸ mul_lt_mul_iff_of_pos_left factor
  have closed : (i.scale power).closed = i.closed := rfl
  unfold Scaled.holds Interval.Holds
  rw [closed]
  split
  · rw [Bool.and_eq_true, decide_eq_true_iff, decide_eq_true_iff, least_le, le_most]
  · rw [Bool.and_eq_true, decide_eq_true_iff, decide_eq_true_iff, least_lt, lt_most]

theorem holds_of_pick? {s : Scaled} {steps : Nat} (picked : s.pick? = some steps) :
    s.holds steps = true := by
  unfold Scaled.pick? at picked
  dsimp only at picked
  split at picked
  · cases picked
  · rename_i here _
    cases picked
    exact here
  · rename_i _ next
    cases picked
    exact next
  · rename_i here next
    split at picked
    · cases picked
      exact here
    · cases picked
      exact next

theorem unheld_of_pick? {s : Scaled} (picked : s.pick? = none) :
    s.holds (s.value / s.unit) = false ∧ s.holds (s.value / s.unit + 1) = false := by
  unfold Scaled.pick? at picked
  dsimp only at picked
  split at picked
  · rename_i here next
    exact ⟨here, next⟩
  · cases picked
  · cases picked
  · split at picked
    · cases picked
    · cases picked

section Point

theorem ten_pow_le_two_pow {tens twos : Nat} (slope : 10 * tens ≤ 3 * twos) :
    10 ^ tens ≤ 2 ^ twos := by
  have powers : (10 ^ tens) ^ 10 ≤ (2 ^ twos) ^ 10 := by
    calc (10 ^ tens) ^ 10 = 10 ^ (10 * tens) := by rw [← Nat.pow_mul, Nat.mul_comm]
      _ ≤ 10 ^ (3 * twos) := Nat.pow_le_pow_right (by decide) slope
      _ = (10 ^ 3) ^ twos := Nat.pow_mul 10 3 twos
      _ ≤ (2 ^ 10) ^ twos := Nat.pow_le_pow_left (by decide) twos
      _ = (2 ^ twos) ^ 10 := by rw [← Nat.pow_mul, ← Nat.pow_mul, Nat.mul_comm]
  exact (Nat.pow_le_pow_iff_left (by decide)).mp powers

theorem two_pow_le_ten_pow {tens twos : Nat} (slope : 28 * twos ≤ 93 * tens) :
    2 ^ twos ≤ 10 ^ tens := by
  have powers : (2 ^ twos) ^ 93 ≤ (10 ^ tens) ^ 93 := by
    calc (2 ^ twos) ^ 93 = (2 ^ 93) ^ twos := by rw [← Nat.pow_mul, ← Nat.pow_mul, Nat.mul_comm]
      _ ≤ (10 ^ 28) ^ twos := Nat.pow_le_pow_left (by decide) twos
      _ = 10 ^ (28 * twos) := (Nat.pow_mul 10 28 twos).symm
      _ ≤ 10 ^ (93 * tens) := Nat.pow_le_pow_right (by decide) slope
      _ = (10 ^ tens) ^ 93 := by rw [← Nat.pow_mul, Nat.mul_comm]
  exact (Nat.pow_le_pow_iff_left (by decide)).mp powers

theorem guess_le {bits : Int} (low : -1076 ≤ bits) (high : bits ≤ 1100) :
    (10 : ℚ) ^ (Int.fdiv (bits * 30103) 100000 - 2) ≤ 2 ^ bits := by
  rw [Int.fdiv_eq_ediv_of_nonneg _ (by decide)]
  rcases Int.le_total 0 bits with up | down
  · obtain ⟨twos, rfl⟩ := Int.eq_ofNat_of_zero_le up
    have slope : 10 ^ (3 * twos / 10) ≤ 2 ^ twos := ten_pow_le_two_pow (by omega)
    calc (10 : ℚ) ^ ((twos : Int) * 30103 / 100000 - 2) ≤ 10 ^ ((3 * twos / 10 : Nat) : Int) :=
          zpow_le_zpow_right₀ (by norm_num) (by omega)
      _ ≤ 2 ^ (twos : Int) := by exact_mod_cast slope
  · obtain ⟨twos, same⟩ : ∃ twos : Nat, bits = -(twos : Int) := ⟨(-bits).toNat, by omega⟩
    obtain ⟨tens, count⟩ : ∃ tens : Nat, bits * 30103 / 100000 - 2 = -(tens : Int) :=
      ⟨(-(bits * 30103 / 100000 - 2)).toNat, by omega⟩
    have slope : 2 ^ twos ≤ 10 ^ tens := two_pow_le_ten_pow (by omega)
    rw [count, same, zpow_neg, zpow_neg]
    exact inv_anti₀ (zpow_pos two_pos _) (by exact_mod_cast slope)

theorem scale_value_lt_iff (i : Interval) (power : Int) :
    (i.scale power).value < (i.scale power).unit ↔
      (i.value : ℚ) * 2 ^ i.exponent < 10 ^ power := by
  have factor := gridFactor_pos i power
  have value := scale_up i power i.value
  have unit := scale_unit i power 1
  rw [Nat.one_mul, Nat.cast_one, one_mul] at unit
  rw [← Nat.cast_lt (α := ℚ), unit]
  exact value ▸ mul_lt_mul_iff_of_pos_left factor

theorem Interval.point_le (i : Interval) (positive : 0 < i.value)
    (low : -1076 ≤ i.value.log2 + i.exponent) (high : i.value.log2 + i.exponent ≤ 1100) :
    (10 : ℚ) ^ (i.point - 1) ≤ i.value * 2 ^ i.exponent := by
  obtain ⟨guess, guessed⟩ :
      ∃ guess, Int.fdiv ((i.value.log2 + i.exponent) * 30103) 100000 = guess :=
    ⟨_, rfl⟩
  have least : (10 : ℚ) ^ (guess - 2) ≤ i.value * 2 ^ i.exponent := by
    have size : (2 : ℚ) ^ i.value.log2 ≤ i.value := by
      exact_mod_cast Nat.log2_self_le positive.ne'
    calc (10 : ℚ) ^ (guess - 2) ≤ 2 ^ ((i.value.log2 : Int) + i.exponent) :=
          guessed ▸ guess_le low high
      _ = 2 ^ i.value.log2 * 2 ^ i.exponent := by rw [zpow_add₀ two_ne_zero, zpow_natCast]
      _ ≤ i.value * 2 ^ i.exponent := mul_le_mul_of_nonneg_right size (zpow_pos two_pos _).le
  unfold Interval.point
  rw [guessed]
  dsimp only
  -- a trial that fails puts its power of ten below the value
  have failed (power : Int) (fails : ¬ (i.scale power).value < (i.scale power).unit) :
      (10 : ℚ) ^ power ≤ i.value * 2 ^ i.exponent :=
    not_lt.mp fun below => fails ((scale_value_lt_iff i power).mpr below)
  cases found : (List.range 5).find? fun (k : Nat) =>
      decide ((i.scale (guess - 1 + k)).value < (i.scale (guess - 1 + k)).unit) with
  | none =>
    have fails := List.find?_range_eq_none.mp found 3 (by decide)
    have below := failed (guess - 1 + (3 : Nat)) (by simpa using fails)
    have last : guess - 1 + ((none.getD 4 : Nat) : Int) - 1 = guess - 1 + (3 : Nat) := by
      show guess - 1 + ((4 : Nat) : Int) - 1 = _
      omega
    exact last ▸ below
  | some k =>
    cases k with
    | zero =>
      have first : guess - 1 + (((some 0).getD 4 : Nat) : Int) - 1 = guess - 2 := by
        show guess - 1 + ((0 : Nat) : Int) - 1 = _
        omega
      exact first ▸ least
    | succ k =>
      have fails := (List.find?_range_eq_some.mp found).2.2 k (Nat.lt_succ_self k)
      have below := failed (guess - 1 + (k : Nat)) (by simpa using fails)
      have last : guess - 1 + (((some (k + 1)).getD 4 : Nat) : Int) - 1 =
          guess - 1 + (k : Nat) := by
        show guess - 1 + ((k + 1 : Nat) : Int) - 1 = _
        omega
      exact last ▸ below

end Point

section Digits
variable {mantissa : Nat} {exponent : Int}

theorem Interval.le_of_unheld {i : Interval} {x : ℚ} (unheld : ¬ i.Holds x)
    (below : x < i.high * 2 ^ i.exponent) : x ≤ i.low * 2 ^ i.exponent := by
  by_contra above
  unfold Interval.Holds at unheld
  split at unheld
  · exact unheld ⟨(not_le.mp above).le, below.le⟩
  · exact unheld ⟨not_le.mp above, below⟩

theorem Interval.ge_of_unheld {i : Interval} {x : ℚ} (unheld : ¬ i.Holds x)
    (above : i.low * 2 ^ i.exponent < x) : i.high * 2 ^ i.exponent ≤ x := by
  by_contra below
  unfold Interval.Holds at unheld
  split at unheld
  · exact unheld ⟨above.le, (not_le.mp below).le⟩
  · exact unheld ⟨above, not_le.mp below⟩

theorem scaled_neighbours (i : Interval) (power : Int) :
    (((i.scale power).value / (i.scale power).unit : Nat) : ℚ) * 10 ^ power ≤
        i.value * 2 ^ i.exponent ∧
      (i.value : ℚ) * 2 ^ i.exponent <
        (((i.scale power).value / (i.scale power).unit + 1 : Nat) : ℚ) * 10 ^ power := by
  have factor := gridFactor_pos i power
  have value : ((i.scale power).value : ℚ) = _ := scale_up i power i.value
  have unit : 0 < (i.scale power).unit :=
    Nat.mul_pos (Nat.pow_pos (by decide)) (Nat.pow_pos (by decide))
  have least := Nat.div_mul_le_self (i.scale power).value (i.scale power).unit
  have most := Nat.lt_mul_of_div_lt
    (Nat.lt_succ_self ((i.scale power).value / (i.scale power).unit)) unit
  rw [← Nat.cast_le (α := ℚ), scale_unit, value] at least
  rw [← Nat.cast_lt (α := ℚ), scale_unit, value] at most
  exact ⟨le_of_mul_le_mul_left least factor, lt_of_mul_lt_mul_left most factor.le⟩

/-- A grid with sixteen digits to the value is narrower than the interval, so one of the two
    neighbours of the value is held. -/
theorem pick?_fine (canonical : Canonical mantissa exponent) {power : Int}
    (fine : (10 : ℚ) ^ power * 10 ^ 16 ≤ mantissa * 2 ^ exponent) :
    ∃ steps, ((interval mantissa exponent).scale power).pick? = some steps := by
  cases picked : ((interval mantissa exponent).scale power).pick? with
  | some steps => exact ⟨steps, rfl⟩
  | none =>
    exfalso
    obtain ⟨here, next⟩ := unheld_of_pick? picked
    obtain ⟨least, most⟩ := scaled_neighbours (interval mantissa exponent) power
    rw [← Bool.not_eq_true, scale_holds_iff] at here next
    generalize ((interval mantissa exponent).scale power).value /
      ((interval mantissa exponent).scale power).unit = steps at *
    obtain ⟨value, high, below, low, size, -⟩ := canonical.interval_ends
    rw [value] at least most
    have unit : (0 : ℚ) < 2 ^ exponent := zpow_pos two_pos _
    have under : (steps : ℚ) * 10 ^ power ≤ (mantissa - below) * 2 ^ exponent := by
      refine low ▸ Interval.le_of_unheld here (lt_of_le_of_lt least ?_)
      rw [high]
      exact mul_lt_mul_of_pos_right (by linarith) unit
    have beyond : (mantissa + 1 / 2) * 2 ^ exponent ≤ ((steps + 1 : Nat) : ℚ) * 10 ^ power := by
      refine high ▸ Interval.ge_of_unheld next (lt_of_le_of_lt ?_ most)
      rw [low]
      refine mul_le_mul_of_nonneg_right ?_ unit.le
      rcases size with half | ⟨quarter, _⟩
      · linarith
      · linarith
    -- the interval would lie between two steps
    have wide : (1 / 2 + below) * 2 ^ exponent ≤ 10 ^ power := by
      push_cast at beyond
      linarith
    have narrow : (1 / 2 + below) * 10 ^ 16 ≤ mantissa := by
      refine le_of_mul_le_mul_right ?_ unit
      linarith
    have small : (mantissa : ℚ) < 2 ^ 53 := by exact_mod_cast canonical.small
    rcases size with rfl | ⟨rfl, power_of_two⟩
    · norm_num at narrow small
      linarith
    · rw [power_of_two] at narrow
      norm_num at narrow

theorem digitCount_scaled {n : Nat} (positive : 0 < n) (zeros : Nat) :
    digitCount (n * 10 ^ zeros) = digitCount n + zeros := by
  have some := digitCount_pos n
  have least := Nat.mul_le_mul_right (10 ^ zeros) (pow_digitCount_le positive)
  have most := Nat.mul_lt_mul_of_pos_right ((digitCount_le_iff some).mp (le_refl _))
    (Nat.pow_pos (by decide) : 0 < 10 ^ zeros)
  rw [← Nat.pow_add] at least most
  obtain ⟨count, same⟩ : ∃ count, digitCount n + zeros = count + 1 :=
    ⟨digitCount n + zeros - 1, by omega⟩
  have shorter : digitCount n - 1 + zeros = count := by omega
  rw [same] at most ⊢
  rw [shorter] at least
  exact digitCount_eq least most

theorem stripZeros_spec (fuel : Nat) {n : Nat} (positive : 0 < n) :
    0 < stripZeros fuel n ∧ ∃ zeros, n = stripZeros fuel n * 10 ^ zeros := by
  induction fuel generalizing n with
  | zero => exact ⟨positive, 0, (Nat.mul_one n).symm⟩
  | succ fuel ih =>
    unfold stripZeros
    split
    · rename_i more
      obtain ⟨some, zeros, rest⟩ := ih (n := n / 10) (by omega)
      refine ⟨some, zeros + 1, ?_⟩
      rw [Nat.pow_succ, ← Nat.mul_assoc, ← rest]
      omega
    · exact ⟨positive, 0, (Nat.mul_one n).symm⟩

theorem interval_point_le (canonical : Canonical mantissa exponent) :
    (10 : ℚ) ^ ((interval mantissa exponent).point - 1) ≤ mantissa * 2 ^ exponent := by
  obtain ⟨value, -⟩ := canonical.interval_ends
  have positive : 0 < 4 * mantissa := Nat.mul_pos (by decide) canonical.pos
  have bits : (4 * mantissa).log2 < 55 :=
    (Nat.log2_lt positive.ne').mpr (by have := canonical.small; omega)
  have low := canonical.low
  have high := canonical.high
  rw [← value]
  refine Interval.point_le _ positive ?_ ?_
  · show -1076 ≤ ((4 * mantissa).log2 : Int) + (exponent - 2)
    omega
  · show ((4 * mantissa).log2 : Int) + (exponent - 2) ≤ 1100
    omega

/-- The digits that are written stand for a number of the interval. -/
theorem shortest_holds (canonical : Canonical mantissa exponent) :
    ∃ digits point, shortest mantissa exponent = ⟨digits, point⟩ ∧ 0 < digits ∧
      (interval mantissa exponent).Holds (digits * 10 ^ (point - digitCount digits)) := by
  unfold shortest
  dsimp only
  cases found : (List.range 17).findSome? fun (k : Nat) =>
      ((interval mantissa exponent).scale
        ((interval mantissa exponent).point - (k + 1))).pick?.map fun steps =>
          Digits.mk (stripZeros 20 steps) ((interval mantissa exponent).point - (k + 1) + digitCount steps) with
  | none =>
    have coarse := List.findSome?_eq_none_iff.mp found 16 (by decide)
    have fine : (10 : ℚ) ^ ((interval mantissa exponent).point - ((16 : Nat) + 1)) * 10 ^ 16 ≤
        mantissa * 2 ^ exponent := by
      refine le_trans (le_of_eq ?_) (interval_point_le canonical)
      rw [← zpow_natCast, ← zpow_add₀ (by norm_num)]
      congr 1
      push_cast
      ring
    obtain ⟨steps, picked⟩ := pick?_fine canonical fine
    rw [picked] at coarse
    cases coarse
  | some d =>
    obtain ⟨k, -, chosen⟩ := List.exists_of_findSome?_eq_some found
    obtain ⟨steps, picked, rfl⟩ := Option.map_eq_some_iff.mp chosen
    have held := (scale_holds_iff _ _ _).mp (holds_of_pick? picked)
    have positive : 0 < steps := by
      rcases Nat.eq_zero_or_pos steps with rfl | positive
      · have zero : ((0 : Nat) : ℚ) * 10 ^ ((interval mantissa exponent).point - (k + 1)) =
            0 * 2 ^ exponent := by simp
        rw [zero] at held
        have least := (canonical.interval_bounds held).1
        have one : (1 : ℚ) ≤ mantissa := by exact_mod_cast canonical.pos
        linarith
      · exact positive
    obtain ⟨some_left, zeros, stripped⟩ := stripZeros_spec 20 positive
    have count := digitCount_scaled some_left zeros
    rw [← stripped] at count
    refine ⟨_, _, rfl, some_left, ?_⟩
    have same : (stripZeros 20 steps : ℚ) * 10 ^ ((interval mantissa exponent).point - (k + 1) +
        digitCount steps - digitCount (stripZeros 20 steps)) =
          steps * 10 ^ ((interval mantissa exponent).point - ((k : Int) + 1)) := by
      have power : (interval mantissa exponent).point - ((k : Int) + 1) + digitCount steps -
          digitCount (stripZeros 20 steps) =
            zeros + ((interval mantissa exponent).point - (k + 1)) := by
        rw [count]
        push_cast
        ring
      have cast : (steps : ℚ) = stripZeros 20 steps * 10 ^ zeros := by exact_mod_cast stripped
      rw [power, zpow_add₀ (by norm_num), zpow_natCast, cast, mul_assoc]
    exact same ▸ held

end Digits

end VirtualInstrument.Decimal
