import VirtualInstrument.Proofs.Decimal.Difference
import VirtualInstrument.Proofs.Document.Spelling
/- Documents that are the same value, and documents that look the same in their texts. A map is the
   same whatever the order of its names, but its text is not; and what is written as null looks like
   null. Nothing else tells the two apart: where two values are compared by their texts, the answer
   is wrong for maps in another order and for what is written as null without being null, and only
   for these. -/
namespace VirtualInstrument

section Numbers
open Decimal
variable {x y : Float} {d e : Dyadic} {mantissa other : Nat} {exponent power : Int}

theorem beq_iff_compare : (x == y) = true ↔
    Float.Model.UnpackedFloat.compare x.toModel.unpack y.toModel.unpack = some .eq := by
  show Float.Model.UnpackedFloat.beq x.toModel.unpack y.toModel.unpack = true ↔ _
  rw [Float.Model.UnpackedFloat.beq, beq_iff_eq]

theorem Canonical.eq_of_beq (first : Canonical mantissa exponent) (second : Canonical other power)
    {negative negative' : Bool}
    (equal : (first.double negative == second.double negative') = true) :
    first.double negative = second.double negative' := by
  rw [beq_iff_compare, first.unpack_double, second.unpack_double] at equal
  have parts (same : (compare exponent power).then (compare mantissa other) = .eq) :
      mantissa = other ∧ exponent = power := by
    obtain ⟨one, two⟩ := Ordering.then_eq_eq.mp same
    exact ⟨Nat.compare_eq_eq.mp two, Int.compare_eq_eq.mp one⟩
  cases negative with
  | false =>
    cases negative' with
    | false =>
      obtain ⟨rfl, rfl⟩ := parts (Option.some.inj equal)
      rfl
    | true => cases equal
  | true =>
    cases negative' with
    | false => cases equal
    | true =>
      obtain ⟨rfl, rfl⟩ := parts (Ordering.swap_eq_eq.mp (Option.some.inj equal))
      rfl

theorem Canonical.apart_from_zero (canonical : Canonical mantissa exponent) (negative : Bool)
    (zero : x = 0.0 ∨ x = -0.0) :
    (x == canonical.double negative) = false ∧ (canonical.double negative == x) = false := by
  obtain ⟨sign, shown⟩ : ∃ sign, x.toModel.unpack = .zero sign := by
    rcases zero with rfl | rfl
    · exact ⟨.positive, rfl⟩
    · exact ⟨.negative, rfl⟩
  rw [← Bool.not_eq_true, ← Bool.not_eq_true, beq_iff_compare, beq_iff_compare,
    canonical.unpack_double, shown]
  constructor
  · intro equal
    cases negative with
    | _ => cases equal
  · intro equal
    cases negative with
    | _ => cases equal

theorem unsigned_cases (finite : classify x = .finite d) :
    (x = 0.0 ∨ x = -0.0) ∧ unsigned x d = 0.0 ∨
      ∃ canonical : Canonical d.mantissa d.exponent,
        x = canonical.double d.negative ∧ unsigned x d = x := by
  rcases finite_cases finite with ⟨rfl, _⟩ | ⟨rfl, _⟩ | ⟨canonical, same⟩
  · exact .inl ⟨.inl rfl, by rw [unsigned, ite_self]⟩
  · have zero : classify (-0.0) = .finite ⟨true, 0, -1074⟩ := by decide
    rw [zero] at finite
    cases finite
    exact .inl ⟨.inr rfl, rfl⟩
  · exact .inr ⟨canonical, same, if_neg canonical.pos.ne'⟩

theorem unsigned_eq_iff (finite : classify x = .finite d) (finite' : classify y = .finite e) :
    unsigned x d = unsigned y e ↔ x = y ∨ (x == y) = true := by
  rcases unsigned_cases finite with ⟨zero, one⟩ | ⟨canonical, rfl, one⟩
  · rcases unsigned_cases finite' with ⟨zero', two⟩ | ⟨canonical', rfl, two⟩
    · rw [one, two]
      refine iff_of_true rfl (.inr ?_)
      rcases zero with rfl | rfl
      · rcases zero' with rfl | rfl
        · decide
        · decide
      · rcases zero' with rfl | rfl
        · decide
        · decide
    · rw [one, two, (canonical'.apart_from_zero _ zero).1]
      have apart := canonical'.double_ne e.negative
      refine iff_of_false apart.1.symm (not_or.mpr ⟨?_, Bool.false_ne_true⟩)
      rcases zero with rfl | rfl
      · exact apart.1.symm
      · exact apart.2.symm
  · rcases unsigned_cases finite' with ⟨zero', two⟩ | ⟨canonical', rfl, two⟩
    · rw [one, two, (canonical.apart_from_zero _ zero').2]
      have apart := canonical.double_ne d.negative
      refine iff_of_false apart.1 (not_or.mpr ⟨?_, Bool.false_ne_true⟩)
      rcases zero' with rfl | rfl
      · exact apart.1
      · exact apart.2
    · rw [one, two]
      exact (or_iff_left_of_imp (canonical.eq_of_beq canonical')).symm

theorem finite_unpack (finite : classify x = .finite d) :
    (∃ sign, x.toModel.unpack = .zero sign) ∨
      ∃ sign mantissa exponent pos, x.toModel.unpack = .finite sign mantissa exponent pos := by
  rcases finite_cases finite with ⟨rfl, _⟩ | ⟨rfl, _⟩ | ⟨canonical, rfl⟩
  · exact .inl ⟨.positive, rfl⟩
  · exact .inl ⟨.negative, rfl⟩
  · exact .inr ⟨_, _, _, _, canonical.unpack_double _⟩

theorem finite_of_beq (finite : classify x = .finite d)
    (equal : (x == y) = true ∨ (y == x) = true) : ∃ e, classify y = .finite e := by
  rw [finite_iff_power]
  intro endless
  rw [beq_iff_compare, beq_iff_compare] at equal
  rcases unpack_endless endless with unknown | ⟨sign, infinite⟩
  · rw [unknown] at equal
    rcases finite_unpack finite with ⟨_, zero⟩ | ⟨_, _, _, _, some⟩
    · rw [zero] at equal
      rcases equal with ⟨⟨⟩⟩ | ⟨⟨⟩⟩
    · rw [some] at equal
      rcases equal with ⟨⟨⟩⟩ | ⟨⟨⟩⟩
  · rw [infinite] at equal
    rcases finite_unpack finite with ⟨_, zero⟩ | ⟨_, _, _, _, some⟩
    · rw [zero] at equal
      cases sign with
      | _ => rcases equal with ⟨⟨⟩⟩ | ⟨⟨⟩⟩
    · rw [some] at equal
      cases sign with
      | _ => rcases equal with ⟨⟨⟩⟩ | ⟨⟨⟩⟩

end Numbers

namespace Document

def SameNumber (x y : Float) : Prop := x = y ∨ (x == y) = true

/-- The same JSON value. The order of the names in a map does not count. -/
inductive Same : Document → Document → Prop
  | null : Same .null .null
  | boolean (b : Bool) : Same (.boolean b) (.boolean b)
  | number {x y : Float} (same : SameNumber x y) : Same (.number x) (.number y)
  | string (t : Text) : Same (.string t) (.string t)
  | list {items others : List Document} (length : items.length = others.length)
      (each : ∀ (place : Nat) (item other : Document), items[place]? = some item →
        others[place]? = some other → Same item other) : Same (.list items) (.list others)
  | map {fields others : Fields Document}
      (names : ∀ name, name ∈ fields.names ↔ name ∈ others.names)
      (each : ∀ name value other, fields.get? name = some value → others.get? name = some other →
        Same value other) : Same (.map fields) (.map others)

/-- Two documents in the same place of two others: at one place of their lists, or under one name of
    their maps. -/
inductive Opposite : Document → Document → Document → Document → Prop
  | here (d e : Document) : Opposite d e d e
  | item {items others : List Document} {place : Nat} {item other p q : Document}
      (one : items[place]? = some item) (two : others[place]? = some other)
      (inner : Opposite item other p q) : Opposite (.list items) (.list others) p q
  | value {fields others : Fields Document} {name : Text} {value other p q : Document}
      (one : fields.get? name = some value) (two : others.get? name = some other)
      (inner : Opposite value other p q) : Opposite (.map fields) (.map others) p q

def Reordered (d e : Document) : Prop :=
  ∃ fields others : Fields Document, Opposite d e (.map fields) (.map others) ∧
    fields.names.Perm others.names ∧ fields.names ≠ others.names

/-- In some place, two values that are not the same are both written as null. -/
def Masked (d e : Document) : Prop :=
  ∃ p q, Opposite d e p q ∧ p.shown = .null ∧ q.shown = .null ∧ ¬ Same p q

inductive Once : Document → Prop
  | null : Once .null
  | boolean (b : Bool) : Once (.boolean b)
  | number (x : Float) : Once (.number x)
  | string (t : Text) : Once (.string t)
  | list {items : List Document} (each : ∀ item ∈ items, Once item) : Once (.list items)
  | map {fields : Fields Document} (once : fields.names.Nodup)
      (each : ∀ entry ∈ fields, Once entry.2) : Once (.map fields)

section Opposites
variable {d e p q : Document}

theorem Same.same_across (same : Same d e) (opposite : Opposite d e p q) : Same p q := by
  induction opposite with
  | here => exact same
  | item one two _ ih =>
    cases same with
    | list _ each => exact ih (each _ _ _ one two)
  | value one two _ ih =>
    cases same with
    | map _ each => exact ih (each _ _ _ one two)

theorem shown_getElem? {items others : List Document} (same : shownItems items = shownItems others)
    (place : Nat) : items[place]?.map shown = others[place]?.map shown := by
  rw [shownItems_eq, shownItems_eq] at same
  rw [← List.getElem?_map, same, List.getElem?_map]

theorem shown_get? {fields others : Fields Document} (same : shownFields fields = shownFields others)
    (name : Text) : (fields.get? name).map shown = (others.get? name).map shown := by
  rw [shownFields_eq, shownFields_eq] at same
  rw [← Fields.get?_map, same, Fields.get?_map]

theorem shown_names {fields others : Fields Document} (same : shownFields fields = shownFields others) :
    fields.names = others.names := by
  have names (entries : Fields Document) : Fields.names (shownFields entries) = entries.names := by
    rw [shownFields_eq, Fields.names, List.map_map]
    rfl
  rw [← names fields, same, names others]

theorem shown_opposite (same : d.shown = e.shown) (opposite : Opposite d e p q) :
    p.shown = q.shown := by
  induction opposite with
  | here => exact same
  | @item _ _ place _ _ _ _ one two _ ih =>
    have there := shown_getElem? (Document.list.inj same) place
    rw [one, two] at there
    exact ih (Option.some.inj there)
  | @value _ _ name _ _ _ _ one two _ ih =>
    have there := shown_get? (Document.map.inj same) name
    rw [one, two] at there
    exact ih (Option.some.inj there)

end Opposites

section Telling

theorem number_shown (x : Float) : (Document.number x).shown = .null ∨
    ∃ d, classify x = .finite d ∧ (Document.number x).shown = .number (unsigned x d) := by
  rw [shown, settledNumber]
  cases finite : classify x with
  | finite d => exact .inr ⟨d, rfl, rfl⟩
  | nan => exact .inl rfl
  | infinite negative => exact .inl rfl

theorem same_of_null {d e : Document} (one : d.shown = .null) (two : e.shown = .null)
    (plain : ¬ Masked d e) : Same d e := by
  by_contra other
  exact plain ⟨d, e, .here d e, one, two, other⟩

theorem same_of_number {x : Float} {e : Document} (alike : (Document.number x).shown = e.shown)
    (plain : ¬ Masked (.number x) e) : Same (.number x) e := by
  rcases number_shown x with null | ⟨d, finite, number⟩
  · exact same_of_null null (alike ▸ null) plain
  · rw [number] at alike
    cases e with
    | number y =>
      rcases number_shown y with null | ⟨d', finite', number'⟩
      · rw [null] at alike
        cases alike
      · rw [number'] at alike
        exact .number ((unsigned_eq_iff finite finite').mp (Document.number.inj alike))
    | _ => cases alike

theorem not_shown_number {d : Document} {y : Float} (null : d.shown ≠ .null)
    (number : ∀ x, d.shown ≠ .number x) : d.shown ≠ (Document.number y).shown := by
  rcases number_shown y with same | ⟨_, _, same⟩
  · exact same ▸ null
  · exact same ▸ number _

/-- Documents that look the same are the same, unless something that is not null is written so. -/
theorem same_of_shown : ∀ d e : Document, d.shown = e.shown → ¬ Masked d e → Same d e
  | .null, e, alike, plain => same_of_null rfl alike.symm plain
  | .number x, e, alike, plain => same_of_number alike plain
  | .boolean b, e, alike, plain => by
    cases e with
    | boolean c =>
      cases alike
      exact .boolean b
    | number y => exact absurd alike (not_shown_number (by simp [shown]) (by simp [shown]))
    | _ => cases alike
  | .string t, e, alike, plain => by
    cases e with
    | string u =>
      cases alike
      exact .string t
    | number y => exact absurd alike (not_shown_number (by simp [shown]) (by simp [shown]))
    | _ => cases alike
  | .list items, e, alike, plain => by
    cases e with
    | list others =>
      have inside : shownItems items = shownItems others := Document.list.inj alike
      refine .list ?_ fun place item other one two => ?_
      · rw [shownItems_eq, shownItems_eq] at inside
        simpa using congrArg List.length inside
      · have there := shown_getElem? inside place
        rw [one, two] at there
        have smaller := List.sizeOf_lt_of_mem (List.mem_of_getElem? one)
        refine same_of_shown item other (Option.some.inj there) ?_
        rintro ⟨p, q, opposite, null⟩
        exact plain ⟨p, q, .item one two opposite, null⟩
    | number y => exact absurd alike (not_shown_number (by simp [shown]) (by simp [shown]))
    | _ => cases alike
  | .map fields, e, alike, plain => by
    cases e with
    | map others =>
      have inside : shownFields fields = shownFields others := Document.map.inj alike
      refine .map (fun name => by rw [shown_names inside]) fun name value other one two => ?_
      have there := shown_get? inside name
      rw [one, two] at there
      have smaller := List.sizeOf_lt_of_mem (Fields.mem_of_get? one)
      refine same_of_shown value other (Option.some.inj there) ?_
      rintro ⟨p, q, opposite, null⟩
      exact plain ⟨p, q, .value one two opposite, null⟩
    | number y => exact absurd alike (not_shown_number (by simp [shown]) (by simp [shown]))
    | _ => cases alike
termination_by d => sizeOf d
decreasing_by
  · simp only [Document.list.sizeOf_spec]
    omega
  · simp only [Prod.mk.sizeOf_spec] at smaller
    simp only [Document.map.sizeOf_spec]
    omega

end Telling

section Ordering

theorem settledNumber_endless {x : Float} (endless : ∀ d, classify x ≠ .finite d) :
    settledNumber x = .null := by
  rw [settledNumber]
  cases finite : classify x with
  | finite d => exact absurd finite (endless d)
  | _ => rfl

theorem settledNumber_of_same {x y : Float} (same : SameNumber x y) :
    settledNumber x = settledNumber y := by
  rcases same with rfl | equal
  · rfl
  · by_cases finite : ∃ d, classify x = .finite d
    · obtain ⟨d, finite⟩ := finite
      obtain ⟨e, finite'⟩ := finite_of_beq finite (.inl equal)
      rw [settledNumber, settledNumber, finite, finite']
      exact congrArg Document.number ((unsigned_eq_iff finite finite').mpr (.inr equal))
    · have endless (d : Dyadic) : classify x ≠ .finite d := fun found => finite ⟨d, found⟩
      have endless' (e : Dyadic) : classify y ≠ .finite e :=
        fun found => finite (finite_of_beq found (.inr equal))
      rw [settledNumber_endless endless, settledNumber_endless endless']

theorem shownItems_of_places {items others : List Document} (length : items.length = others.length)
    (each : ∀ (place : Nat) (item other : Document), items[place]? = some item →
      others[place]? = some other → item.shown = other.shown) :
    shownItems items = shownItems others := by
  rw [shownItems_eq, shownItems_eq]
  refine List.ext_getElem (by simpa using length) fun place inside inside' => ?_
  rw [List.getElem_map, List.getElem_map]
  exact each place _ _ (List.getElem?_eq_getElem _) (List.getElem?_eq_getElem _)

theorem shownFields_of_names {fields others : Fields Document} (names : fields.names = others.names)
    (once : fields.names.Nodup) (each : ∀ name value other, fields.get? name = some value →
      others.get? name = some other → value.shown = other.shown) :
    shownFields fields = shownFields others := by
  have size : fields.length = others.length := by
    simpa [Fields.names] using congrArg List.length names
  rw [shownFields_eq, shownFields_eq]
  refine List.ext_getElem (by simpa using size) fun place inside inside' => ?_
  rw [List.length_map] at inside inside'
  have name : fields[place].1 = others[place].1 := by
    have there := congrArg (·[place]?) names
    simpa [Fields.names, inside, inside'] using there
  have one := Fields.get?_of_mem once (List.getElem_mem inside)
  have two := Fields.get?_of_mem (names ▸ once) (List.getElem_mem inside')
  rw [List.getElem_map, List.getElem_map]
  exact Prod.ext name (each _ _ _ one (name ▸ two))

/-- The same documents look the same, unless a map lists its names in another order. -/
theorem shown_of_same {d e : Document} (same : Same d e) (once : d.Once) (once' : e.Once)
    (ordered : ¬ Reordered d e) : d.shown = e.shown := by
  induction same with
  | number same => exact settledNumber_of_same same
  | list length _ ih =>
    cases once with
    | list each =>
      cases once' with
      | list each' =>
        refine congrArg Document.list (shownItems_of_places length fun place item other one two => ?_)
        refine ih place item other one two (each item (List.mem_of_getElem? one))
          (each' other (List.mem_of_getElem? two)) ?_
        rintro ⟨p, q, opposite, order⟩
        exact ordered ⟨p, q, .item one two opposite, order⟩
  | @map fields others names _ ih =>
    cases once with
    | map once each =>
      cases once' with
      | map once' each' =>
        have order : fields.names = others.names := by
          by_contra apart
          have perm := (List.perm_ext_iff_of_nodup once once').mpr fun name => names name
          exact ordered ⟨fields, others, .here _ _, perm, apart⟩
        refine congrArg Document.map (shownFields_of_names order once fun name value other one two => ?_)
        refine ih name value other one two (each _ (Fields.mem_of_get? one))
          (each' _ (Fields.mem_of_get? two)) ?_
        rintro ⟨p, q, opposite, order⟩
        exact ordered ⟨p, q, .value one two opposite, order⟩
  | _ => rfl

end Ordering

/-- Whether two documents look the same tells whether they are the same, but where a map lists its
    names in another order, and where something that is not null is written so. -/
theorem shown_tells_iff {d e : Document} (once : d.Once) (once' : e.Once) :
    (d.shown = e.shown ↔ Same d e) ↔
      ¬ (Same d e ∧ Reordered d e) ∧ ¬ (d.shown = e.shown ∧ Masked d e) := by
  constructor
  · intro tells
    constructor
    · rintro ⟨same, fields, others, opposite, _, apart⟩
      have alike := shown_opposite (tells.mpr same) opposite
      exact apart (shown_names (Document.map.inj alike))
    · rintro ⟨alike, p, q, opposite, _, _, other⟩
      exact other ((tells.mp alike).same_across opposite)
  · rintro ⟨ordered, plain⟩
    constructor
    · exact fun alike => same_of_shown d e alike fun masked => plain ⟨alike, masked⟩
    · exact fun same => shown_of_same same once once' fun order => ordered ⟨same, order⟩

end Document

end VirtualInstrument
