import VirtualInstrument.Proofs.Document.Reading
/- What the compact text of a document tells about it. It tells everything but which number that is
   not finite, or whether null, was written as null, and with which sign a zero was written: two
   documents have the same text when they are the same otherwise, their maps with the same names in
   the same order. The induction is on one of two documents whose texts begin one text. -/
namespace VirtualInstrument.Document
open Text Decimal

mutual

/-- What the text of a document shows of it. -/
def shown : Document → Document
  | .null => .null
  | .boolean b => .boolean b
  | .number x => settledNumber x
  | .string t => .string t
  | .list items => .list (shownItems items)
  | .map fields => .map (shownFields fields)

def shownItems : List Document → List Document
  | [] => []
  | item :: rest => item.shown :: shownItems rest

def shownFields : List (Text × Document) → List (Text × Document)
  | [] => []
  | (name, value) :: rest => (name, value.shown) :: shownFields rest

end

theorem shownItems_eq (items : List Document) : shownItems items = items.map shown := by
  induction items with
  | nil => rfl
  | cons item rest ih => rw [shownItems, ih, List.map_cons]

theorem shownFields_eq (fields : List (Text × Document)) :
    shownFields fields = fields.map fun entry => (entry.1, entry.2.shown) := by
  induction fields with
  | nil => rfl
  | cons entry rest ih => rw [shownFields, ih, List.map_cons]

section Text

theorem numberBody_unsigned {x : Float} {d : Dyadic} (finite : classify x = .finite d) :
    numberBody (unsigned x d) = numberBody x := by
  unfold unsigned
  split
  · rename_i zero
    rw [zero_of_mantissa finite zero]
    split
    · decide
    · rfl
  · rfl

theorem compact_settledNumber (x : Float) : (settledNumber x).compact = numberBody x := by
  cases finite : classify x with
  | finite d =>
    rw [settledNumber, finite]
    exact numberBody_unsigned finite
  | nan => rw [settledNumber, numberBody, finite]; rfl
  | infinite negative => rw [settledNumber, numberBody, finite]; rfl

mutual

theorem compact_shown (d : Document) : d.shown.compact = d.compact := by
  cases d with
  | number x => exact compact_settledNumber x
  | list items => rw [shown, compact, compact, compactItems_shown items]
  | map fields => rw [shown, compact, compact, compactFields_shown fields]
  | _ => rfl

theorem compactItems_shown (items : List Document) :
    compactItems (shownItems items) = compactItems items := by
  cases items with
  | nil => rfl
  | cons item rest =>
    rw [shownItems, compactItems, compactItems, compact_shown item, compactItems_shown rest]

theorem compactFields_shown (fields : List (Text × Document)) :
    compactFields (shownFields fields) = compactFields fields := by
  cases fields with
  | nil => rfl
  | cons entry rest =>
    rw [shownFields, compactFields, compactFields, compact_shown entry.2, compactFields_shown rest]

end

end Text

theorem scalar_read {d : Document} (list : ∀ items, d ≠ .list items)
    (map : ∀ fields, d ≠ .map fields) {rest : Text} (ends : Ends rest) :
    readValue 1 (d.compact ++ rest) = some (d.shown, rest) := by
  cases d with
  | null => exact readValue_null 0 rest
  | boolean b => exact readValue_boolean b 0 rest
  | number x => exact readValue_number x 0 ends
  | string t => exact readValue_quote t 0 rest
  | list items => exact absurd rfl (list items)
  | map fields => exact absurd rfl (map fields)

structure Heads (d : Document) (u : CodeUnit) : Prop where
  inside : u ≠ unit ']'
  list : u = unit '[' ↔ ∃ items, d = .list items
  map : u = 123 ↔ ∃ fields, d = .map fields

theorem heads_scalar {d : Document} {u : CodeUnit} (list : ∀ items, d ≠ .list items)
    (map : ∀ fields, d ≠ .map fields) (first : u ∉ [unit ']', unit '[', 123]) : Heads d u := by
  simp only [List.mem_cons, List.not_mem_nil, or_false, not_or] at first
  obtain ⟨inside, bracket, brace⟩ := first
  exact ⟨inside, iff_of_false bracket fun ⟨items, same⟩ => list items same,
    iff_of_false brace fun ⟨fields, same⟩ => map fields same⟩

theorem compact_head (d : Document) : ∃ u more, d.compact = u :: more ∧ Heads d u := by
  cases d with
  | null => exact ⟨unit 'n', _, rfl, heads_scalar (by simp) (by simp) (by decide)⟩
  | boolean b =>
    cases b with
    | false => exact ⟨unit 'f', _, rfl, heads_scalar (by simp) (by simp) (by decide)⟩
    | true => exact ⟨unit 't', _, rfl, heads_scalar (by simp) (by simp) (by decide)⟩
  | number x =>
    rw [compact]
    cases finite : classify x with
    | finite d =>
      obtain ⟨u, more, written, numeric⟩ := numberBody_head finite
      have bounds := numeric_toNat numeric
      refine ⟨u, more, written, heads_scalar (by simp) (by simp) ?_⟩
      intro bracket
      simp only [List.mem_cons, List.not_mem_nil, or_false] at bracket
      rcases bracket with rfl | rfl | rfl
      · exact absurd bounds (by decide)
      · exact absurd bounds (by decide)
      · exact absurd bounds (by decide)
    | nan =>
      rw [numberBody, finite]
      exact ⟨unit 'n', _, rfl, heads_scalar (by simp) (by simp) (by decide)⟩
    | infinite negative =>
      rw [numberBody, finite]
      exact ⟨unit 'n', _, rfl, heads_scalar (by simp) (by simp) (by decide)⟩
  | string t => exact ⟨unit '"', _, rfl, heads_scalar (by simp) (by simp) (by decide)⟩
  | list items => exact ⟨unit '[', _, rfl, by decide, by simp, by simpa using by decide⟩
  | map fields => exact ⟨123, _, rfl, by decide, by simpa using by decide, by simp⟩

theorem heads_same {d e : Document} {rest rest' : Text}
    (same : d.compact ++ rest = e.compact ++ rest') :
    ((∃ items, d = .list items) ↔ ∃ items, e = .list items) ∧
      ((∃ fields, d = .map fields) ↔ ∃ fields, e = .map fields) := by
  obtain ⟨u, more, one, first⟩ := compact_head d
  obtain ⟨v, others, two, second⟩ := compact_head e
  rw [one, two] at same
  obtain rfl : u = v := (List.cons.inj same).1
  exact ⟨first.list.symm.trans second.list, first.map.symm.trans second.map⟩

section Parts
variable {parts : List Text} {t rest : Text}

def following : List Text → Text → Text
  | [], t => t
  | part :: parts, t => unit ',' :: (part ++ following parts t)

theorem join_following (part : Text) (parts : List Text) (t : Text) :
    join (text ",") (part :: parts) ++ t = part ++ following parts t := by
  induction parts generalizing part with
  | nil => simp [join, following]
  | cons next parts ih =>
    have further := ih next
    rw [join] at further ⊢
    rw [List.intercalate_cons_cons, List.append_assoc, List.append_assoc, further]
    rfl

theorem following_of_join {closing : CodeUnit} {parts others : List Text} {rest rest' : Text}
    (one : ∀ part ∈ parts, ∃ u more, part = u :: more ∧ u ≠ closing)
    (two : ∀ part ∈ others, ∃ u more, part = u :: more ∧ u ≠ closing)
    (same : join (text ",") parts ++ closing :: rest =
      join (text ",") others ++ closing :: rest') :
    following parts (closing :: rest) = following others (closing :: rest') := by
  cases parts with
  | nil =>
    cases others with
    | nil => exact same
    | cons other others =>
      obtain ⟨u, more, rfl, inside⟩ := two other List.mem_cons_self
      rw [join_following] at same
      exact absurd (List.cons.inj same).1.symm inside
  | cons part parts =>
    cases others with
    | nil =>
      obtain ⟨u, more, rfl, inside⟩ := one part List.mem_cons_self
      rw [join_following] at same
      exact absurd (List.cons.inj same).1 inside
    | cons other others =>
      rw [join_following, join_following] at same
      exact congrArg (unit ',' :: ·) same

theorem ends_following {closing : CodeUnit} (bracket : closing = unit ']' ∨ closing = 125)
    (parts : List Text) (rest : Text) : Ends (following parts (closing :: rest)) := by
  cases parts with
  | nil =>
    intro u first
    obtain rfl : closing = u := by simpa [following] using first
    rcases bracket with rfl | rfl
    · decide
    · decide
  | cons part parts => exact ends_comma _

theorem quote_append (s t : Text) : quote s ++ t = unit '"' :: (quoteBody s ++ unit '"' :: t) := by
  simp [quote, text, ofString, ofPoint, unit]

theorem quote_inj {s s' t t' : Text} (same : quote s ++ t = quote s' ++ t') : s = s' ∧ t = t' := by
  rw [quote_append, quote_append] at same
  have read := readQuoted_quoteBody s t
  rw [(List.cons.inj same).2, readQuoted_quoteBody s' t'] at read
  obtain ⟨text, left⟩ := Prod.mk.inj (Option.some.inj read)
  exact ⟨text.symm, left.symm⟩

end Parts

theorem compact_list (items : List Document) (rest : Text) :
    (Document.list items).compact ++ rest =
      unit '[' :: (join (text ",") (compactItems items) ++ unit ']' :: rest) := by
  rw [compact, bracketed, List.cons_append, List.append_assoc]
  rfl

theorem compact_map (fields : List (Text × Document)) (rest : Text) :
    (Document.map fields).compact ++ rest =
      123 :: (join (text ",") (compactFields fields) ++ 125 :: rest) := by
  rw [compact, bracketed, List.cons_append, List.append_assoc]
  rfl

theorem scalars_same {d e : Document} (list : ∀ items, d ≠ .list items)
    (map : ∀ fields, d ≠ .map fields) {rest rest' : Text} (ends : Ends rest) (ends' : Ends rest')
    (same : d.compact ++ rest = e.compact ++ rest') : d.shown = e.shown ∧ rest = rest' := by
  obtain ⟨lists, maps⟩ := heads_same same
  have list' : ∀ items, e ≠ .list items := fun items other =>
    have ⟨others, equal⟩ := lists.mpr ⟨items, other⟩
    list others equal
  have map' : ∀ fields, e ≠ .map fields := fun fields other =>
    have ⟨others, equal⟩ := maps.mpr ⟨fields, other⟩
    map others equal
  have read := scalar_read list map ends
  rw [same, scalar_read list' map' ends'] at read
  obtain ⟨value, left⟩ := Prod.mk.inj (Option.some.inj read)
  exact ⟨value.symm, left.symm⟩

theorem item_heads (items : List Document) :
    ∀ part ∈ compactItems items, ∃ u more, part = u :: more ∧ u ≠ unit ']' := by
  induction items with
  | nil => exact List.forall_mem_nil _
  | cons item items ih =>
    obtain ⟨u, more, written, heads⟩ := compact_head item
    exact List.forall_mem_cons.mpr ⟨⟨u, more, written, heads.inside⟩, ih⟩

theorem field_heads (fields : List (Text × Document)) :
    ∀ part ∈ compactFields fields, ∃ u more, part = u :: more ∧ u ≠ 125 := by
  induction fields with
  | nil => exact List.forall_mem_nil _
  | cons entry fields ih =>
    exact List.forall_mem_cons.mpr ⟨⟨unit '"', _, rfl, by decide⟩, ih⟩

mutual

/-- Two documents whose texts begin one text show the same, and leave the same of it. -/
theorem shown_of_compact (d e : Document) {rest rest' : Text} (ends : Ends rest)
    (ends' : Ends rest') (same : d.compact ++ rest = e.compact ++ rest') :
    d.shown = e.shown ∧ rest = rest' := by
  obtain ⟨lists, maps⟩ := heads_same same
  cases d with
  | list items =>
    obtain ⟨others, rfl⟩ := lists.mp ⟨items, rfl⟩
    rw [compact_list, compact_list] at same
    have inside := following_of_join (item_heads items) (item_heads others) (List.cons.inj same).2
    obtain ⟨all, left⟩ := shown_of_items items others inside
    exact ⟨congrArg Document.list all, left⟩
  | map fields =>
    obtain ⟨others, rfl⟩ := maps.mp ⟨fields, rfl⟩
    rw [compact_map, compact_map] at same
    have inside := following_of_join (field_heads fields) (field_heads others) (List.cons.inj same).2
    obtain ⟨all, left⟩ := shown_of_fields fields others inside
    exact ⟨congrArg Document.map all, left⟩
  | null => exact scalars_same (by simp) (by simp) ends ends' same
  | boolean b => exact scalars_same (by simp) (by simp) ends ends' same
  | number x => exact scalars_same (by simp) (by simp) ends ends' same
  | string t => exact scalars_same (by simp) (by simp) ends ends' same

theorem shown_of_items (items others : List Document) {rest rest' : Text}
    (same : following (compactItems items) (unit ']' :: rest) =
      following (compactItems others) (unit ']' :: rest')) :
    shownItems items = shownItems others ∧ rest = rest' := by
  cases items with
  | nil =>
    cases others with
    | nil => exact ⟨rfl, (List.cons.inj same).2⟩
    | cons other others => exact absurd (List.cons.inj same).1 (by decide)
  | cons item items =>
    cases others with
    | nil => exact absurd (List.cons.inj same).1 (by decide)
    | cons other others =>
      obtain ⟨first, further⟩ := shown_of_compact item other (ends_following (.inl rfl) _ _)
        (ends_following (.inl rfl) _ _) (List.cons.inj same).2
      obtain ⟨all, left⟩ := shown_of_items items others further
      exact ⟨by rw [shownItems, shownItems, first, all], left⟩

theorem shown_of_fields (fields others : List (Text × Document)) {rest rest' : Text}
    (same : following (compactFields fields) (125 :: rest) =
      following (compactFields others) (125 :: rest')) :
    shownFields fields = shownFields others ∧ rest = rest' := by
  cases fields with
  | nil =>
    cases others with
    | nil => exact ⟨rfl, (List.cons.inj same).2⟩
    | cons other others => exact absurd (List.cons.inj same).1 (by decide)
  | cons entry fields =>
    cases others with
    | nil => exact absurd (List.cons.inj same).1 (by decide)
    | cons other others =>
      obtain ⟨name, value⟩ := entry
      obtain ⟨name', value'⟩ := other
      have parts := (List.cons.inj same).2
      rw [List.append_assoc, List.append_assoc, List.append_assoc, List.append_assoc] at parts
      obtain ⟨rfl, behind⟩ := quote_inj parts
      obtain ⟨first, further⟩ := shown_of_compact value value' (ends_following (.inr rfl) _ _)
        (ends_following (.inr rfl) _ _) (List.append_cancel_left behind)
      obtain ⟨all, left⟩ := shown_of_fields fields others further
      exact ⟨by rw [shownFields, shownFields, first, all], left⟩

end

/-- Documents have the same text exactly when their texts show the same. -/
theorem compact_eq_iff (d e : Document) : d.compact = e.compact ↔ d.shown = e.shown := by
  constructor
  · intro same
    have ends : Ends [] := by
      intro u first
      cases first
    exact (shown_of_compact d e ends ends (congrArg (· ++ []) same)).1
  · intro same
    rw [← compact_shown d, ← compact_shown e, same]

example : (Document.list [.number infinity]).compact = (Document.list [.null]).compact := by decide

end VirtualInstrument.Document
