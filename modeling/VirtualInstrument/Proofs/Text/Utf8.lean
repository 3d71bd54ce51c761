import VirtualInstrument.Text.Utf8
/- Writing a text as UTF-8 and reading it back mends it: every surrogate without its partner
   becomes the replacement character. The bytes of a mended text are those of the text. -/
namespace VirtualInstrument.Text

def Scalar (point : Nat) : Prop := point < 0xD800 ∨ 0xE000 ≤ point ∧ point < 0x110000

theorem toNat_byte {n : Nat} (small : n < 256) : n.toUInt8.toNat = n := by
  rw [Nat.toUInt8, UInt8.toNat_ofNat', Nat.mod_eq_of_lt small]

theorem byte_lt {n : Nat} (small : n < 256) (b : UInt8) : n.toUInt8 < b ↔ n < b.toNat := by
  rw [UInt8.lt_iff_toNat_lt, toNat_byte small]

theorem byte_eq {n : Nat} (small : n < 256) (b : UInt8) : (n.toUInt8 == b) = (n == b.toNat) := by
  rw [Bool.eq_iff_iff, beq_iff_eq, beq_iff_eq, ← UInt8.toNat_inj, toNat_byte small]

theorem lead_byte {n : Nat} (small : n < 256) :
    lead n.toUInt8 =
      if n < 0x80 then .whole n
      else if n < 0xC2 then .stray
      else if n < 0xE0 then .opens ⟨n - 0xC0, 1, 0x80, 0xBF⟩
      else if n = 0xE0 then .opens ⟨0, 2, 0xA0, 0xBF⟩
      else if n = 0xED then .opens ⟨13, 2, 0x80, 0x9F⟩
      else if n < 0xF0 then .opens ⟨n - 0xE0, 2, 0x80, 0xBF⟩
      else if n = 0xF0 then .opens ⟨0, 3, 0x90, 0xBF⟩
      else if n < 0xF4 then .opens ⟨n - 0xF0, 3, 0x80, 0xBF⟩
      else if n = 0xF4 then .opens ⟨4, 3, 0x80, 0x8F⟩
      else .stray := by
  simp only [lead, byte_lt small, byte_eq small, toNat_byte small, beq_iff_eq]
  rfl

theorem read_inner {value owed n : Nat} {low high : UInt8} (small : n < 256)
    (above : low.toNat ≤ n) (below : n ≤ high.toNat) (rest : List UInt8) :
    ofUtf8Within (some ⟨value, owed, low, high⟩) (n.toUInt8 :: rest) =
      if owed ≤ 1 then ofPoint (value * 64 + (n - 0x80)) ++ ofUtf8Within none rest
      else ofUtf8Within (some ⟨value * 64 + (n - 0x80), owed - 1, 0x80, 0xBF⟩) rest := by
  have within : (low ≤ n.toUInt8 && n.toUInt8 ≤ high) = true := by
    simp [UInt8.le_iff_toNat_le, toNat_byte small, above, below]
  simp only [ofUtf8Within, within, if_true, toNat_byte small]

theorem read_opening {n : Nat} {state : PartialPoint} (opens : lead n.toUInt8 = .opens state)
    (rest : List UInt8) :
    ofUtf8Within none (n.toUInt8 :: rest) = ofUtf8Within (some state) rest := by
  simp only [ofUtf8Within, readLead, opens, List.nil_append]

theorem read_last {value y : Nat} (small : y < 64) (rest : List UInt8) :
    ofUtf8Within (some ⟨value, 1, 0x80, 0xBF⟩) ((0x80 + y).toUInt8 :: rest) =
      ofPoint (value * 64 + y) ++ ofUtf8Within none rest := by
  have above : (0x80 : UInt8).toNat ≤ 0x80 + y := Nat.le_add_right _ _
  have below : 0x80 + y ≤ (0xBF : UInt8).toNat := by
    simp
    omega
  rw [read_inner (by omega) above below, if_pos (Nat.le_refl 1), Nat.add_sub_cancel_left]

theorem read_two {value x y : Nat} {low high : UInt8} (above : low.toNat ≤ 0x80 + x)
    (below : 0x80 + x ≤ high.toNat) (small : y < 64) (rest : List UInt8) :
    ofUtf8Within (some ⟨value, 2, low, high⟩) ((0x80 + x).toUInt8 :: (0x80 + y).toUInt8 :: rest) =
      ofPoint ((value * 64 + x) * 64 + y) ++ ofUtf8Within none rest := by
  have bound := UInt8.toNat_lt high
  rw [read_inner (by omega) above below, if_neg (by omega), Nat.add_sub_cancel_left,
    show 2 - 1 = 1 from rfl, read_last small]

theorem read_three {value w x y : Nat} {low high : UInt8} (above : low.toNat ≤ 0x80 + w)
    (below : 0x80 + w ≤ high.toNat) (smallX : x < 64) (smallY : y < 64) (rest : List UInt8) :
    ofUtf8Within (some ⟨value, 3, low, high⟩)
        ((0x80 + w).toUInt8 :: (0x80 + x).toUInt8 :: (0x80 + y).toUInt8 :: rest) =
      ofPoint (((value * 64 + w) * 64 + x) * 64 + y) ++ ofUtf8Within none rest := by
  have bound := UInt8.toNat_lt high
  have inner : (0x80 : UInt8).toNat ≤ 0x80 + x := Nat.le_add_right _ _
  have belowX : 0x80 + x ≤ (0xBF : UInt8).toNat := by
    simp
    omega
  rw [read_inner (by omega) above below, if_neg (by omega), Nat.add_sub_cancel_left,
    show 3 - 1 = 2 from rfl, read_two inner belowX smallY]

theorem lead_of_three {point : Nat} (scalar : Scalar point) (low : 0x800 ≤ point)
    (high : point < 0x10000) : ∃ least most : UInt8,
      lead (0xE0 + point / 4096).toUInt8 = .opens ⟨point / 4096, 2, least, most⟩ ∧
        least.toNat ≤ 0x80 + point / 64 % 64 ∧ 0x80 + point / 64 % 64 ≤ most.toNat := by
  unfold Scalar at scalar
  rw [lead_byte (by omega), if_neg (by omega), if_neg (by omega), if_neg (by omega)]
  by_cases first : point / 4096 = 0
  · exact ⟨0xA0, 0xBF, by simp [first], by simp; omega, by simp; omega⟩
  by_cases surrogates : point / 4096 = 13
  · exact ⟨0x80, 0x9F, by simp [surrogates], by simp, by simp; omega⟩
  refine ⟨0x80, 0xBF, ?_, by simp, by simp; omega⟩
  rw [if_neg (by omega), if_neg (by omega), if_pos (by omega), Nat.add_sub_cancel_left]

theorem lead_of_four {point : Nat} (scalar : Scalar point) (low : 0x10000 ≤ point) :
    ∃ least most : UInt8,
      lead (0xF0 + point / 262144).toUInt8 = .opens ⟨point / 262144, 3, least, most⟩ ∧
        least.toNat ≤ 0x80 + point / 4096 % 64 ∧ 0x80 + point / 4096 % 64 ≤ most.toNat := by
  unfold Scalar at scalar
  rw [lead_byte (by omega), if_neg (by omega), if_neg (by omega), if_neg (by omega),
    if_neg (by omega), if_neg (by omega), if_neg (by omega)]
  by_cases first : point / 262144 = 0
  · exact ⟨0x90, 0xBF, by simp [first], by simp; omega, by simp; omega⟩
  by_cases last : point / 262144 = 4
  · exact ⟨0x80, 0x8F, by simp [last], by simp, by simp; omega⟩
  refine ⟨0x80, 0xBF, ?_, by simp, by simp; omega⟩
  rw [if_neg (by omega), if_pos (by omega), Nat.add_sub_cancel_left]

theorem read_pointBytes {point : Nat} (scalar : Scalar point) (rest : List UInt8) :
    ofUtf8Within none (pointBytes point ++ rest) = ofPoint point ++ ofUtf8Within none rest := by
  by_cases one : point < 0x80
  · have whole : lead point.toUInt8 = .whole point := by
      rw [lead_byte (by omega), if_pos one]
    rw [pointBytes, if_pos one]
    simp only [List.singleton_append, ofUtf8Within, readLead, whole]
  by_cases two : point < 0x800
  · have opens : lead (0xC0 + point / 64).toUInt8 = .opens ⟨point / 64, 1, 0x80, 0xBF⟩ := by
      rw [lead_byte (by omega), if_neg (by omega), if_neg (by omega), if_pos (by omega),
        Nat.add_sub_cancel_left]
    have value : point / 64 * 64 + point % 64 = point := by omega
    rw [pointBytes, if_neg one, if_pos two]
    simp only [List.cons_append, List.nil_append]
    rw [read_opening opens, read_last (by omega), value]
  by_cases three : point < 0x10000
  · obtain ⟨least, most, opens, above, below⟩ := lead_of_three scalar (by omega) three
    have value : (point / 4096 * 64 + point / 64 % 64) * 64 + point % 64 = point := by omega
    rw [pointBytes, if_neg one, if_neg two, if_pos three]
    simp only [List.cons_append, List.nil_append]
    rw [read_opening opens, read_two above below (by omega), value]
  · obtain ⟨least, most, opens, above, below⟩ := lead_of_four scalar (by omega)
    have value : ((point / 262144 * 64 + point / 4096 % 64) * 64 + point / 64 % 64) * 64 +
        point % 64 = point := by omega
    rw [pointBytes, if_neg one, if_neg two, if_neg three]
    simp only [List.cons_append, List.nil_append]
    rw [read_opening opens, read_three above below (by omega) (by omega), value]

def mendUnit (u : CodeUnit) : CodeUnit := if isSurrogate u then replacement else u

/-- The text in which every surrogate that has no partner is the replacement character. -/
def mend : Text → Text
  | [] => []
  | [u] => [mendUnit u]
  | u :: v :: rest =>
    if isHighSurrogate u && isLowSurrogate v then u :: v :: mend rest
    else mendUnit u :: mend (v :: rest)

theorem surrogate_ranges (u : CodeUnit) :
    (isHighSurrogate u = true ↔ 0xD800 ≤ u.toNat ∧ u.toNat < 0xDC00) ∧
      (isLowSurrogate u = true ↔ 0xDC00 ≤ u.toNat ∧ u.toNat < 0xE000) := by
  simp [isHighSurrogate, isLowSurrogate, UInt16.le_iff_toNat_le, UInt16.lt_iff_toNat_lt]

theorem isSurrogate_iff (u : CodeUnit) :
    isSurrogate u = true ↔ 0xD800 ≤ u.toNat ∧ u.toNat < 0xE000 := by
  rw [isSurrogate, Bool.or_eq_true, (surrogate_ranges u).1, (surrogate_ranges u).2]
  omega

theorem toUInt16_toNat (u : CodeUnit) : u.toNat.toUInt16 = u := by
  rw [← UInt16.toNat_inj, Nat.toUInt16, UInt16.toNat_ofNat', Nat.mod_eq_of_lt (UInt16.toNat_lt u)]

theorem read_unitBytes (u : CodeUnit) (rest : List UInt8) :
    ofUtf8Within none (unitBytes u ++ rest) = mendUnit u :: ofUtf8Within none rest := by
  have small := UInt16.toNat_lt u
  by_cases alone : isSurrogate u = true
  · rw [unitBytes, if_pos alone, mendUnit, if_pos alone, read_pointBytes (Or.inr (by decide))]
    rfl
  · have scalar : Scalar u.toNat := by
      rw [isSurrogate_iff] at alone
      unfold Scalar
      omega
    rw [unitBytes, if_neg alone, mendUnit, if_neg alone, read_pointBytes scalar, ofPoint,
      if_pos small, toUInt16_toNat]
    rfl

theorem pairPoint_cases {u v : CodeUnit} (high : isHighSurrogate u = true)
    (low : isLowSurrogate v = true) :
    Scalar (pairPoint u v) ∧ ofPoint (pairPoint u v) = [u, v] := by
  rw [(surrogate_ranges u).1] at high
  rw [(surrogate_ranges v).2] at low
  have first : 0xD800 + (pairPoint u v - 0x10000) / 0x400 = u.toNat := by
    unfold pairPoint
    omega
  have second : 0xDC00 + (pairPoint u v - 0x10000) % 0x400 = v.toNat := by
    unfold pairPoint
    omega
  constructor
  · unfold Scalar pairPoint
    omega
  · have beyond : ¬ pairPoint u v < 0x10000 := by
      unfold pairPoint
      omega
    rw [ofPoint, if_neg beyond, first, second, toUInt16_toNat, toUInt16_toNat]

theorem ofUtf8_toUtf8 (t : Text) : ofUtf8 (toUtf8 t) = mend t := by
  unfold ofUtf8
  induction t using toUtf8.induct with
  | case1 => rfl
  | case2 u =>
    have read := read_unitBytes u []
    rw [List.append_nil] at read
    exact read
  | case3 u v rest pair ih =>
    obtain ⟨high, low⟩ := Bool.and_eq_true_iff.mp pair
    obtain ⟨scalar, units⟩ := pairPoint_cases high low
    rw [toUtf8, if_pos pair, read_pointBytes scalar, units, ih, mend, if_pos pair]
    rfl
  | case4 u v rest alone ih =>
    rw [toUtf8, if_neg alone, read_unitBytes, ih, mend, if_neg alone]

/-- A text in which every surrogate has its partner. -/
def Whole (t : Text) : Prop := mend t = t

theorem mend_cons {u : CodeUnit} (plain : isSurrogate u = false) (t : Text) :
    mend (u :: t) = u :: mend t := by
  have alone : mendUnit u = u := if_neg (Bool.eq_false_iff.mp plain)
  have high : isHighSurrogate u = false := (Bool.or_eq_false_iff.mp plain).1
  cases t with
  | nil => exact congrArg (fun w => [w]) alone
  | cons v t => rw [mend, high, Bool.false_and, if_neg Bool.false_ne_true, alone]

theorem mendUnit_eq_self {u : CodeUnit} (same : mendUnit u = u) : isSurrogate u = false := by
  rw [← Bool.not_eq_true]
  intro surrogate
  rw [mendUnit, if_pos surrogate] at same
  subst same
  cases surrogate

/-- Nothing behind a whole text is drawn into it. -/
theorem Whole.mend_append {s : Text} (whole : Whole s) (t : Text) : mend (s ++ t) = s ++ mend t := by
  unfold Whole at whole
  induction s using mend.induct with
  | case1 => rfl
  | case2 u =>
    have plain := mendUnit_eq_self (List.cons.inj whole).1
    exact mend_cons plain t
  | case3 u v rest pair ih =>
    rw [mend, if_pos pair] at whole
    have behind := ih (List.cons.inj (List.cons.inj whole).2).2
    rw [List.cons_append, List.cons_append, mend, if_pos pair, behind]
    rfl
  | case4 u v rest alone ih =>
    rw [mend, if_neg alone] at whole
    obtain ⟨first, others⟩ := List.cons.inj whole
    rw [List.cons_append, mend_cons (mendUnit_eq_self first), ih others]
    rfl

theorem Whole.append {s t : Text} (first : Whole s) (second : Whole t) : Whole (s ++ t) := by
  have both := first.mend_append t
  rwa [second] at both

theorem Whole.of_plain {t : Text} (plain : ∀ u ∈ t, isSurrogate u = false) : Whole t := by
  induction t with
  | nil => rfl
  | cons u t ih =>
    obtain ⟨first, others⟩ := List.forall_mem_cons.mp plain
    rw [Whole, mend_cons first, ih others]

theorem Whole.join {separator : Text} (between : Whole separator) {parts : List Text}
    (each : ∀ part ∈ parts, Whole part) : Whole (Text.join separator parts) := by
  induction parts with
  | nil => rfl
  | cons part parts ih =>
    obtain ⟨first, others⟩ := List.forall_mem_cons.mp each
    cases parts with
    | nil => simpa [Text.join] using first
    | cons next parts =>
      have rest := ih others
      rw [Text.join] at rest ⊢
      rw [List.intercalate_cons_cons]
      exact (first.append between).append rest

/-- A whole text survives being written as bytes. -/
theorem Whole.ofUtf8_toUtf8 {t : Text} (whole : Whole t) : ofUtf8 (toUtf8 t) = t :=
  (Text.ofUtf8_toUtf8 t).trans whole

theorem toUtf8_cons {u : CodeUnit} (alone : isHighSurrogate u = false) (t : Text) :
    toUtf8 (u :: t) = unitBytes u ++ toUtf8 t := by
  cases t with
  | nil => simp [toUtf8]
  | cons v t => rw [toUtf8, alone, Bool.false_and, if_neg Bool.false_ne_true]

theorem toUtf8_append {v : CodeUnit} (alone : isLowSurrogate v = false) (s t : Text) :
    toUtf8 (s ++ v :: t) = toUtf8 s ++ toUtf8 (v :: t) := by
  induction s using toUtf8.induct with
  | case1 => rfl
  | case2 u =>
    show toUtf8 (u :: v :: t) = unitBytes u ++ toUtf8 (v :: t)
    rw [toUtf8, alone, Bool.and_false, if_neg Bool.false_ne_true]
  | case3 u w rest pair ih =>
    rw [List.cons_append, List.cons_append, toUtf8, if_pos pair, ih, toUtf8, if_pos pair,
      List.append_assoc]
  | case4 u w rest apart ih =>
    rw [List.cons_append, List.cons_append, toUtf8, if_neg apart, ← List.cons_append, ih, toUtf8,
      if_neg apart, List.append_assoc]

theorem unitBytes_mendUnit (u : CodeUnit) : unitBytes (mendUnit u) = unitBytes u := by
  by_cases alone : isSurrogate u = true
  · rw [mendUnit, if_pos alone, unitBytes, unitBytes, if_pos alone]
    rfl
  · rw [mendUnit, if_neg alone]

theorem mendUnit_opens_no_pair (u : CodeUnit) : isHighSurrogate (mendUnit u) = false := by
  by_cases alone : isSurrogate u = true
  · rw [mendUnit, if_pos alone]
    rfl
  · rw [mendUnit, if_neg alone]
    rw [isSurrogate, Bool.or_eq_true, not_or] at alone
    exact Bool.eq_false_iff.mpr alone.1

theorem toUtf8_mend (t : Text) : toUtf8 (mend t) = toUtf8 t := by
  induction t using toUtf8.induct with
  | case1 => rfl
  | case2 u => exact unitBytes_mendUnit u
  | case3 u v rest pair ih =>
    rw [mend, if_pos pair, toUtf8, if_pos pair, ih, toUtf8, if_pos pair]
  | case4 u v rest alone ih =>
    rw [mend, if_neg alone, toUtf8_cons (mendUnit_opens_no_pair u), unitBytes_mendUnit, ih, toUtf8,
      if_neg alone]

/-- Bytes of a text survive being read and written again. -/
theorem toUtf8_ofUtf8_toUtf8 (t : Text) : toUtf8 (ofUtf8 (toUtf8 t)) = toUtf8 t := by
  rw [ofUtf8_toUtf8, toUtf8_mend]

end VirtualInstrument.Text
