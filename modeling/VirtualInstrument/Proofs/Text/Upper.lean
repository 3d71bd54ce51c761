import VirtualInstrument.Proofs.Text.Trim
import VirtualInstrument.Proofs.Text.Utf8
import VirtualInstrument.Text.Upper
/- Upper case is final: a text in upper case stays as it is when it is put into upper case again.
   The table is checked run against run: no image of one run is a letter of another. Letters that
   are put into upper case bring neither blanks nor halves of pairs with them, so a text without
   blanks at its ends has none there in upper case either. -/
namespace VirtualInstrument.Text

def UpperRun.lastImage (run : UpperRun) : Nat := run.target + (run.last - run.first)

/-- Whether no image of the first run is a letter of the second: the images lie before or behind
    its letters, or fall between them. -/
def UpperRun.clears (run letters : UpperRun) : Bool :=
  Nat.blt run.lastImage letters.first || Nat.blt letters.last run.target ||
    (Nat.beq letters.stride 2 && (Nat.beq run.stride 2 || Nat.beq run.first run.last) &&
      Nat.beq ((run.target + letters.first) % 2) 1)

theorem image?_eq_some {run : UpperRun} {point image : Nat} (found : run.image? point = some image) :
    run.first ≤ point ∧ point ≤ run.last ∧ (point - run.first) % run.stride = 0 ∧
      image = run.target + (point - run.first) := by
  unfold UpperRun.image? at found
  split at found
  · rename_i inside
    simp only [Bool.and_eq_true, decide_eq_true_eq, beq_iff_eq] at inside
    exact ⟨inside.1.1, inside.1.2, inside.2, (Option.some.inj found).symm⟩
  · cases found

theorem image?_of_clears {run letters : UpperRun} {point image : Nat}
    (found : run.image? point = some image) (clear : run.clears letters = true) :
    letters.image? image = none := by
  obtain ⟨low, high, step, rfl⟩ := image?_eq_some found
  cases again : letters.image? (run.target + (point - run.first)) with
  | none => rfl
  | some other =>
    obtain ⟨above, below, even, _⟩ := image?_eq_some again
    unfold UpperRun.clears UpperRun.lastImage at clear
    simp only [Bool.or_eq_true, Bool.and_eq_true, Nat.blt_eq, Nat.beq_eq] at clear
    rcases clear with (before | behind) | ⟨⟨two, whole⟩, odd⟩
    · omega
    · omega
    · rw [two] at even
      rcases whole with two | single
      · rw [two] at step
        omega
      · omega

theorem runs_clear : upperRuns.all (fun run => upperRuns.all run.clears) = true := by
  decide +kernel

structure PointRange where
  first : Nat
  last : Nat

def PointRange.misses (range : PointRange) (run : UpperRun) : Bool :=
  Nat.blt run.lastImage range.first || Nat.blt range.last run.target

/-- What no image of a run is: a blank, a half of a pair, or a point beyond the last one. -/
def barredRanges : List PointRange := [
  ⟨0x09, 0x0D⟩, ⟨0x20, 0x20⟩, ⟨0xA0, 0xA0⟩, ⟨0x1680, 0x1680⟩, ⟨0x2000, 0x200A⟩,
  ⟨0x2028, 0x2029⟩, ⟨0x202F, 0x202F⟩, ⟨0x205F, 0x205F⟩, ⟨0x3000, 0x3000⟩, ⟨0xFEFF, 0xFEFF⟩,
  ⟨0xD800, 0xDFFF⟩]

/-- A point in upper case: it is its own upper-case form, and no blank. -/
structure Final (point : Nat) : Prop where
  settled : upperPoint point = [point]
  scalar : Scalar point
  visible : point < 0x10000 → isBlank point.toUInt16 = false

theorem runs_miss : upperRuns.all (fun run => (barredRanges.all (·.misses run)) &&
    (upperExpansions.all fun expansion => PointRange.misses ⟨expansion.1, expansion.1⟩ run) &&
    Nat.blt run.lastImage 0x110000) = true := by
  decide +kernel
theorem barred_of_blank {u : CodeUnit} (blank : isBlank u = true) :
    ∃ range ∈ barredRanges, range.first ≤ u.toNat ∧ u.toNat ≤ range.last := by
  simp only [isBlank, Bool.or_eq_true, Bool.and_eq_true, decide_eq_true_eq, beq_iff_eq,
    UInt16.le_iff_toNat_le, ← UInt16.toNat_inj, UInt16.reduceToNat] at blank
  simp only [barredRanges, List.mem_cons, List.not_mem_nil, or_false, exists_eq_or_imp,
    exists_eq_left]
  omega

theorem visible_of_missed {point : Nat}
    (missed : ∀ range ∈ barredRanges, ¬ (range.first ≤ point ∧ point ≤ range.last)) :
    point < 0x10000 → isBlank point.toUInt16 = false := by
  intro small
  cases blank : isBlank point.toUInt16 with
  | false => rfl
  | true =>
    obtain ⟨range, member, inside⟩ := barred_of_blank blank
    rw [Nat.toUInt16, UInt16.toNat_ofNat', Nat.mod_eq_of_lt small] at inside
    exact absurd inside (missed range member)

theorem settled_of_untouched {point : Nat}
    (unmoved : ∀ run ∈ upperRuns, run.image? point = none)
    (whole : upperExpansions.lookup point = none) : upperPoint point = [point] := by
  unfold upperPoint
  split
  · split
    · rename_i letter
      -- the first run holds these letters
      have still := unmoved ⟨97, 122, 1, 65⟩ List.mem_cons_self
      simp only [Bool.and_eq_true, decide_eq_true_eq] at letter
      simp [UpperRun.image?, letter, Nat.mod_one] at still
    · rfl
  · rw [List.findSome?_eq_none_iff.mpr unmoved, whole]
    rfl

theorem run_image_final {run : UpperRun} (member : run ∈ upperRuns) {point image : Nat}
    (found : run.image? point = some image) : Final image := by
  obtain ⟨low, high, _, same⟩ := image?_eq_some found
  have inside : run.target ≤ image ∧ image ≤ run.lastImage := by
    unfold UpperRun.lastImage
    omega
  have clear := List.all_eq_true.mp runs_clear run member
  have miss := List.all_eq_true.mp runs_miss run member
  simp only [Bool.and_eq_true, List.all_eq_true, PointRange.misses, Bool.or_eq_true,
    Nat.blt_eq] at miss
  have missed : ∀ range ∈ barredRanges, ¬ (range.first ≤ image ∧ image ≤ range.last) := by
    intro range listed
    have apart := miss.1.1 range listed
    omega
  refine ⟨settled_of_untouched ?_ ?_, ?_, visible_of_missed missed⟩
  · intro letters listed
    exact image?_of_clears found (List.all_eq_true.mp clear letters listed)
  · rw [List.lookup_eq_none_iff]
    intro expansion listed
    have apart := miss.1.2 expansion listed
    simp only [bne_iff_ne, ne_eq]
    omega
  · have surrogates : ¬ (0xD800 ≤ image ∧ image ≤ 0xDFFF) :=
      missed ⟨0xD800, 0xDFFF⟩ (by simp [barredRanges])
    unfold Scalar
    omega

theorem expansions_final : ∀ expansion ∈ upperExpansions, expansion.2 ≠ [] ∧
    ∀ image ∈ expansion.2, Final image := by
  have checked : upperExpansions.all (fun expansion => !expansion.2.isEmpty &&
      expansion.2.all fun image => (upperRuns.all fun run => (run.image? image).isNone) &&
        (upperExpansions.lookup image).isNone && Nat.blt image 0xD800 &&
        !isBlank image.toUInt16) = true := by
    decide +kernel
  intro expansion member
  have whole := List.all_eq_true.mp checked expansion member
  simp only [Bool.and_eq_true, List.all_eq_true, Bool.not_eq_true', List.isEmpty_eq_false_iff,
    Option.isNone_iff_eq_none, Nat.blt_eq] at whole
  refine ⟨whole.1, fun image listed => ?_⟩
  obtain ⟨⟨⟨unmoved, single⟩, small⟩, visible⟩ := whole.2 image listed
  exact ⟨settled_of_untouched unmoved single, .inl small, fun _ => visible⟩

/-- The upper-case form of a point is the point itself, or some points in upper case. -/
theorem upperPoint_cases (point : Nat) : upperPoint point = [point] ∨
    upperPoint point ≠ [] ∧ ∀ image ∈ upperPoint point, Final image := by
  unfold upperPoint
  split
  · split
    · rename_i letter
      simp only [Bool.and_eq_true, decide_eq_true_eq] at letter
      have found : UpperRun.image? ⟨97, 122, 1, 65⟩ point = some (point - 32) := by
        simp only [UpperRun.image?, Nat.mod_one, letter, decide_true, beq_self_eq_true,
          Bool.and_self, if_true, Option.some.injEq]
        omega
      have final : Final (point - 32) := run_image_final List.mem_cons_self found
      exact .inr ⟨by simp, by simpa using final⟩
    · exact .inl rfl
  · split
    · rename_i image found
      obtain ⟨run, member, sent⟩ := List.exists_of_findSome?_eq_some found
      exact .inr ⟨by simp, by simpa using run_image_final member sent⟩
    · cases listed : upperExpansions.lookup point with
      | none => exact .inl rfl
      | some images =>
        obtain ⟨before, after, whole, _⟩ := List.lookup_eq_some_iff.mp listed
        have member : (point, images) ∈ upperExpansions := by simp [whole]
        exact .inr (expansions_final _ member)

def opensLow (t : Text) : Bool := t.head?.any isLowSurrogate

theorem upper_cons {u : CodeUnit} {t : Text} (alone : (isHighSurrogate u && opensLow t) = false) :
    upper (u :: t) = (upperPoint u.toNat).flatMap ofPoint ++ upper t := by
  cases t with
  | nil => simp [upper]
  | cons v t =>
    have apart : (isHighSurrogate u && isLowSurrogate v) = false := by simpa [opensLow] using alone
    rw [upper, apart, if_neg Bool.false_ne_true]

theorem upper_pair {u v : CodeUnit} (pair : (isHighSurrogate u && isLowSurrogate v) = true)
    (t : Text) :
    upper (u :: v :: t) = (upperPoint (pairPoint u v)).flatMap ofPoint ++ upper t := by
  rw [upper, if_pos pair]

theorem ofPoint_pair {point : Nat} (beyond : 0x10000 ≤ point) (within : point < 0x110000) :
    ∃ u v, ofPoint point = [u, v] ∧ isHighSurrogate u = true ∧ isLowSurrogate v = true ∧
      pairPoint u v = point := by
  obtain ⟨u, high⟩ : ∃ u : CodeUnit, u.toNat = 0xD800 + (point - 0x10000) / 0x400 :=
    ⟨UInt16.ofNat _, UInt16.toNat_ofNat_of_lt' (show _ < 65536 by omega)⟩
  obtain ⟨v, low⟩ : ∃ v : CodeUnit, v.toNat = 0xDC00 + (point - 0x10000) % 0x400 :=
    ⟨UInt16.ofNat _, UInt16.toNat_ofNat_of_lt' (show _ < 65536 by omega)⟩
  refine ⟨u, v, ?_, ?_, ?_, ?_⟩
  · rw [ofPoint, if_neg (by omega), ← high, ← low, toUInt16_toNat, toUInt16_toNat]
  · rw [(surrogate_ranges u).1]
    omega
  · rw [(surrogate_ranges v).2]
    omega
  · unfold pairPoint
    omega

theorem ofPoint_unit {point : Nat} (small : point < 0x10000) :
    ofPoint point = [point.toUInt16] ∧ point.toUInt16.toNat = point := by
  refine ⟨by rw [ofPoint, if_pos small], ?_⟩
  rw [Nat.toUInt16, UInt16.toNat_ofNat', Nat.mod_eq_of_lt small]

theorem scalar_unit {point : Nat} (scalar : Scalar point) (small : point < 0x10000) :
    isHighSurrogate point.toUInt16 = false ∧ isLowSurrogate point.toUInt16 = false := by
  have same := (ofPoint_unit small).2
  unfold Scalar at scalar
  constructor
  · rw [Bool.eq_false_iff, ne_eq, (surrogate_ranges _).1, same]
    omega
  · rw [Bool.eq_false_iff, ne_eq, (surrogate_ranges _).2, same]
    omega

theorem upper_final {point : Nat} (final : Final point) (t : Text) :
    upper (ofPoint point ++ t) = ofPoint point ++ upper t := by
  have scalar := final.scalar
  by_cases small : point < 0x10000
  · obtain ⟨units, same⟩ := ofPoint_unit small
    rw [units, List.singleton_append, upper_cons (by simp [scalar_unit scalar small]), same,
      final.settled, List.flatMap_singleton, units]
  · unfold Scalar at scalar
    obtain ⟨u, v, units, high, low, point_same⟩ := ofPoint_pair (by omega) (by omega : point < _)
    rw [units, List.cons_append, List.singleton_append, upper_pair (by simp [high, low]),
      point_same, final.settled, List.flatMap_singleton, units]

theorem upper_finals {points : List Nat} (finals : ∀ point ∈ points, Final point) (t : Text) :
    upper (points.flatMap ofPoint ++ t) = points.flatMap ofPoint ++ upper t := by
  induction points with
  | nil => rfl
  | cons point rest ih =>
    obtain ⟨here, later⟩ := List.forall_mem_cons.mp finals
    rw [List.flatMap_cons, List.append_assoc, upper_final here, ih later, List.append_assoc]

theorem opensLow_final {point : Nat} (final : Final point) (t : Text) :
    opensLow (ofPoint point ++ t) = false := by
  have scalar := final.scalar
  by_cases small : point < 0x10000
  · rw [(ofPoint_unit small).1]
    simp [opensLow, (scalar_unit scalar small).2]
  · unfold Scalar at scalar
    obtain ⟨u, v, units, high, _, _⟩ := ofPoint_pair (by omega) (by omega : point < _)
    rw [units]
    have apart : isLowSurrogate u = false := by
      rw [(surrogate_ranges u).1] at high
      rw [Bool.eq_false_iff, ne_eq, (surrogate_ranges u).2]
      omega
    simp [opensLow, apart]

/-- Putting a point into upper case in front of a text does not bring the second half of a pair
    to its start. -/
theorem opensLow_upperPoint {point : Nat} {t : Text} (closed : opensLow (ofPoint point ++ t) = false) :
    opensLow ((upperPoint point).flatMap ofPoint ++ t) = false := by
  rcases upperPoint_cases point with same | ⟨some, finals⟩
  · rw [same, List.flatMap_singleton]
    exact closed
  · cases images : upperPoint point with
    | nil => exact absurd images some
    | cons image rest =>
      rw [images] at finals
      rw [List.flatMap_cons, List.append_assoc]
      exact opensLow_final (finals image List.mem_cons_self) _

theorem opensLow_upper {t : Text} (closed : opensLow t = false) : opensLow (upper t) = false := by
  induction t using upper.induct with
  | case1 => rfl
  | case2 u =>
    rw [upper_cons (by simp [opensLow])]
    apply opensLow_upperPoint
    rw [(ofPoint_unit (UInt16.toNat_lt u)).1, toUInt16_toNat]
    exact closed
  | case3 u v rest pair _ =>
    obtain ⟨high, low⟩ := Bool.and_eq_true_iff.mp pair
    rw [upper_pair pair]
    apply opensLow_upperPoint
    rw [(pairPoint_cases high low).2]
    exact closed
  | case4 u v rest alone _ =>
    rw [upper_cons (by simpa [opensLow] using alone)]
    apply opensLow_upperPoint
    rw [(ofPoint_unit (UInt16.toNat_lt u)).1, toUInt16_toNat]
    exact closed

theorem upper_upper (t : Text) : upper (upper t) = upper t := by
  induction t using upper.induct with
  | case1 => rfl
  | case2 u =>
    rw [upper_cons (by simp [opensLow])]
    rcases upperPoint_cases u.toNat with same | ⟨_, finals⟩
    · rw [same, List.flatMap_singleton, (ofPoint_unit (UInt16.toNat_lt u)).1, toUInt16_toNat,
        List.singleton_append, upper_cons (by simp [opensLow, upper]), same,
        List.flatMap_singleton, (ofPoint_unit (UInt16.toNat_lt u)).1, toUInt16_toNat]
      rfl
    · exact upper_finals finals _
  | case3 u v rest pair ih =>
    obtain ⟨high, low⟩ := Bool.and_eq_true_iff.mp pair
    rw [upper_pair pair]
    rcases upperPoint_cases (pairPoint u v) with same | ⟨_, finals⟩
    · rw [same, List.flatMap_singleton, (pairPoint_cases high low).2, List.cons_append,
        List.singleton_append, upper_pair pair, same, List.flatMap_singleton,
        (pairPoint_cases high low).2, ih]
      rfl
    · rw [upper_finals finals, ih]
  | case4 u v rest alone ih =>
    have closed : (isHighSurrogate u && opensLow (v :: rest)) = false := by
      simpa [opensLow] using alone
    rw [upper_cons closed]
    rcases upperPoint_cases u.toNat with same | ⟨_, finals⟩
    · have still : (isHighSurrogate u && opensLow (upper (v :: rest))) = false := by
        cases high : isHighSurrogate u with
        | false => rfl
        | true => simpa using opensLow_upper (by simpa [high] using closed)
      rw [same, List.flatMap_singleton, (ofPoint_unit (UInt16.toNat_lt u)).1, toUInt16_toNat,
        List.singleton_append, upper_cons still, same, List.flatMap_singleton,
        (ofPoint_unit (UInt16.toNat_lt u)).1, toUInt16_toNat, ih, List.singleton_append]
    · rw [upper_finals finals, ih]

def Visible (t : Text) : Prop := ∀ u ∈ t, isBlank u = false

theorem surrogate_visible {u : CodeUnit} (low : 0xD800 ≤ u.toNat) (high : u.toNat < 0xE000) :
    isBlank u = false := by
  cases blank : isBlank u with
  | false => rfl
  | true =>
    simp only [isBlank, Bool.or_eq_true, Bool.and_eq_true, decide_eq_true_eq, beq_iff_eq,
      UInt16.le_iff_toNat_le, ← UInt16.toNat_inj, UInt16.reduceToNat] at blank
    omega

theorem final_visible {point : Nat} (final : Final point) : Visible (ofPoint point) := by
  by_cases small : point < 0x10000
  · rw [(ofPoint_unit small).1]
    simpa [Visible] using final.visible small
  · have scalar := final.scalar
    unfold Scalar at scalar
    obtain ⟨u, v, units, high, low, _⟩ := ofPoint_pair (by omega) (by omega : point < _)
    rw [(surrogate_ranges u).1] at high
    rw [(surrogate_ranges v).2] at low
    rw [units]
    have first := surrogate_visible high.1 (by omega)
    have second := surrogate_visible (by omega) low.2
    simp [Visible, first, second]

theorem ofPoint_ne_nil (point : Nat) : ofPoint point ≠ [] := by
  unfold ofPoint
  split
  · simp
  · simp

theorem upperPoint_ne_nil (point : Nat) : (upperPoint point).flatMap ofPoint ≠ [] := by
  rcases upperPoint_cases point with same | ⟨some, _⟩
  · rw [same, List.flatMap_singleton]
    exact ofPoint_ne_nil point
  · cases images : upperPoint point with
    | nil => exact absurd images some
    | cons image rest => simp [ofPoint_ne_nil image]

theorem upperPoint_visible {point : Nat} (visible : Visible (ofPoint point)) :
    Visible ((upperPoint point).flatMap ofPoint) := by
  rcases upperPoint_cases point with same | ⟨_, finals⟩
  · rw [same, List.flatMap_singleton]
    exact visible
  · intro u member
    obtain ⟨image, listed, inside⟩ := List.mem_flatMap.mp member
    exact final_visible (finals image listed) u inside

/-- The first point of a text, and what follows it. A point that is not one unit is not blank. -/
theorem upper_step (u : CodeUnit) (rest : Text) : ∃ point tail, u :: rest = ofPoint point ++ tail ∧
    upper (u :: rest) = (upperPoint point).flatMap ofPoint ++ upper tail ∧
      (ofPoint point = [u] ∨ Visible (ofPoint point)) := by
  by_cases pair : (isHighSurrogate u && opensLow rest) = true
  · cases rest with
    | nil => simp [opensLow] at pair
    | cons v rest =>
      have both : (isHighSurrogate u && isLowSurrogate v) = true := by
        simpa [opensLow] using pair
      obtain ⟨high, low⟩ := Bool.and_eq_true_iff.mp both
      have units := (pairPoint_cases high low).2
      refine ⟨pairPoint u v, rest, by rw [units]; rfl, upper_pair both rest, .inr ?_⟩
      rw [(surrogate_ranges u).1] at high
      rw [(surrogate_ranges v).2] at low
      rw [units]
      have first := surrogate_visible high.1 (by omega)
      have second := surrogate_visible (by omega) low.2
      simp [Visible, first, second]
  · have units : ofPoint u.toNat = [u] := by
      rw [(ofPoint_unit (UInt16.toNat_lt u)).1, toUInt16_toNat]
    refine ⟨u.toNat, rest, by rw [units]; rfl, ?_, .inl units⟩
    exact upper_cons (Bool.eq_false_iff.mpr pair)

theorem upper_head_visible {t : Text} (bare : ∀ u ∈ t.head?, isBlank u = false) :
    ∀ u ∈ (upper t).head?, isBlank u = false := by
  cases t with
  | nil => simp [upper]
  | cons u rest =>
    obtain ⟨point, tail, _, images, units⟩ := upper_step u rest
    have visible : Visible (ofPoint point) := by
      rcases units with single | visible
      · simpa [single, Visible] using bare u rfl
      · exact visible
    intro w first
    rw [images, List.head?_append_of_ne_nil _ (upperPoint_ne_nil point)] at first
    exact upperPoint_visible visible w (List.mem_of_mem_head? first)

theorem upper_ne_nil {t : Text} (some : t ≠ []) : upper t ≠ [] := by
  cases t with
  | nil => exact absurd rfl some
  | cons u rest =>
    obtain ⟨point, tail, _, images, _⟩ := upper_step u rest
    simp [images, upperPoint_ne_nil point]

theorem upper_last_visible {t : Text} (bare : ∀ u ∈ t.getLast?, isBlank u = false) :
    ∀ u ∈ (upper t).getLast?, isBlank u = false := by
  induction size : t.length using Nat.strongRecOn generalizing t with
  | ind n ih =>
    cases t with
    | nil => simp [upper]
    | cons u rest =>
      obtain ⟨point, tail, whole, images, units⟩ := upper_step u rest
      rw [images]
      rw [whole] at bare size
      by_cases last : tail = []
      · subst last
        rw [List.append_nil] at bare
        have visible : Visible (ofPoint point) := by
          rcases units with single | visible
          · simpa [single, Visible] using bare
          · exact visible
        intro w final
        rw [show upper [] = [] from rfl, List.append_nil] at final
        exact upperPoint_visible visible w (List.mem_of_mem_getLast? final)
      · have shorter : tail.length < n := by
          have some := List.length_pos_of_ne_nil (ofPoint_ne_nil point)
          rw [List.length_append] at size
          omega
        rw [List.getLast?_append_of_ne_nil _ last] at bare
        rw [List.getLast?_append_of_ne_nil _ (upper_ne_nil last)]
        exact ih tail.length shorter bare rfl

theorem trim_upper {t : Text} (bare : trim t = t) : trim (upper t) = upper t := by
  obtain ⟨first, last⟩ := (trim_eq_self_iff t).mp bare
  exact (trim_eq_self_iff _).mpr ⟨upper_head_visible first, upper_last_visible last⟩

end VirtualInstrument.Text
