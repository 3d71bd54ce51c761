import VirtualInstrument.Proofs.Decimal.Written
import VirtualInstrument.Proofs.Document.Listing
import VirtualInstrument.Proofs.Document.Quoted
/- Documents read from the text they were written as. Every document comes back, but for numbers
   that have no text of their own: those that are not finite come back as null, and zero comes back
   without its sign. -/
namespace VirtualInstrument.Document
open Text Decimal

def settledNumber (x : Float) : Document :=
  match classify x with
  | .finite d => .number (unsigned x d)
  | _ => .null

mutual

/-- What a document is after it was written and read. -/
def settled : Document → Document
  | .null => .null
  | .boolean b => .boolean b
  | .number x => settledNumber x
  | .string t => .string t
  | .list items => .list (settledItems items)
  | .map fields => .map (Fields.ofList (settledFields fields))

def settledItems : List Document → List Document
  | [] => []
  | item :: rest => item.settled :: settledItems rest

def settledFields : List (Text × Document) → List (Text × Document)
  | [] => []
  | (name, value) :: rest => (name, value.settled) :: settledFields rest

end

section Spaces
variable {spaces : Text}

theorem skipSpace_append (blank : ∀ u ∈ spaces, isSpace u = true) (t : Text) :
    skipSpace (spaces ++ t) = skipSpace t := List.dropWhile_append_of_pos blank

theorem skipSpace_cons {u : CodeUnit} (solid : isSpace u = false) (t : Text) :
    skipSpace (u :: t) = u :: t := by
  rw [skipSpace, List.dropWhile_cons, if_neg (Bool.eq_false_iff.mp solid)]

theorem isSpace_lineStart (level : Nat) : ∀ u ∈ lineStart level, isSpace u = true := by
  intro u member
  rcases List.mem_cons.mp member with rfl | blank
  · decide
  · rw [List.eq_of_mem_replicate blank]
    decide

theorem readValue_spaces (blank : ∀ u ∈ spaces, isSpace u = true) (fuel : Nat) (t : Text) :
    readValue fuel (spaces ++ t) = readValue fuel t := by
  cases fuel with
  | zero => rw [readValue, readValue]
  | succ fuel => rw [readValue, readValue, skipSpace_append blank]

theorem readItems_spaces (blank : ∀ u ∈ spaces, isSpace u = true) (fuel : Nat) (t : Text) :
    readItems fuel (spaces ++ t) = readItems fuel t := by
  cases fuel with
  | zero => rw [readItems, readItems]
  | succ fuel => rw [readItems, readItems, readValue_spaces blank]

theorem readEntries_spaces (blank : ∀ u ∈ spaces, isSpace u = true) (fuel : Nat)
    (fields : Fields Document) (t : Text) :
    readEntries fuel fields (spaces ++ t) = readEntries fuel fields t := by
  cases fuel with
  | zero => rw [readEntries, readEntries]
  | succ fuel => rw [readEntries, readEntries, skipSpace_append blank]

end Spaces

section Values

theorem isSpace_of_printed {u : CodeUnit} (printed : 33 ≤ u.toNat) : isSpace u = false := by
  rw [← Bool.not_eq_true]
  intro blank
  simp only [isSpace, Bool.or_eq_true, beq_iff_eq, ← UInt16.toNat_inj, UInt16.reduceToNat] at blank
  omega

theorem numeric_toNat {u : CodeUnit} (numeric : isDigit u = true ∨ u = unit '-') :
    45 ≤ u.toNat ∧ u.toNat ≤ 57 := by
  rcases numeric with digit | rfl
  · have bounds := (isDigit_iff u).mp digit
    omega
  · decide

theorem readValue_null (fuel : Nat) (rest : Text) :
    readValue (fuel + 1) (text "null" ++ rest) = some (.null, rest) := by
  rfl

theorem readValue_boolean (b : Bool) (fuel : Nat) (rest : Text) :
    readValue (fuel + 1) (booleanBody b ++ rest) = some (.boolean b, rest) := by
  cases b with
  | false => rfl
  | true => rfl

theorem readValue_quote (t : Text) (fuel : Nat) (rest : Text) :
    readValue (fuel + 1) (quote t ++ rest) = some (.string t, rest) := by
  have shape : quote t ++ rest = unit '"' :: (quoteBody t ++ unit '"' :: rest) := by
    simp [quote, text, ofString, ofPoint, unit]
  rw [shape, readValue, skipSpace_cons (by decide)]
  show (readQuoted (quoteBody t ++ unit '"' :: rest)).map _ = _
  rw [readQuoted_quoteBody]
  rfl

theorem readValue_numeric {u : CodeUnit} (numeric : isDigit u = true ∨ u = unit '-') (fuel : Nat)
    (t : Text) : readValue (fuel + 1) (u :: t) =
      (readNumber (u :: t)).map fun (x, after) => (.number x, after) := by
  have other {c : Char} (plain : c ≠ '\uFFFD') (neither : isDigit (unit c) = false)
      (sign : unit c ≠ unit '-') : glyph u ≠ c := by
    intro shown
    rw [eq_unit_of_glyph shown plain] at numeric
    rcases numeric with digit | minus
    · rw [neither] at digit
      cases digit
    · exact sign minus
  have solid : isSpace u = false :=
    isSpace_of_printed (by have bounds := numeric_toNat numeric; omega)
  rw [readValue, skipSpace_cons solid]
  dsimp only
  split
  · exact absurd ‹glyph u = _› (other (by decide) (by decide) (by decide))
  · exact absurd ‹glyph u = _› (other (by decide) (by decide) (by decide))
  · exact absurd ‹glyph u = _› (other (by decide) (by decide) (by decide))
  · exact absurd ‹glyph u = _› (other (by decide) (by decide) (by decide))
  · exact absurd ‹glyph u = _› (other (by decide) (by decide) (by decide))
  · exact absurd ‹glyph u = _› (other (by decide) (by decide) (by decide))
  · rfl

theorem readValue_number (x : Float) (fuel : Nat) {rest : Text} (ends : Ends rest) :
    readValue (fuel + 1) (numberBody x ++ rest) = some (settledNumber x, rest) := by
  cases finite : classify x with
  | finite d =>
    obtain ⟨u, more, shown, numeric⟩ := numberBody_head finite
    have read := readNumber_numberBody finite ends
    rw [shown, List.cons_append] at read ⊢
    rw [readValue_numeric numeric, read, settledNumber, finite]
    rfl
  | nan =>
    have body : numberBody x = text "null" := by rw [numberBody, finite]
    rw [body, readValue_null, settledNumber, finite]
  | infinite negative =>
    have body : numberBody x = text "null" := by rw [numberBody, finite]
    rw [body, readValue_null, settledNumber, finite]

theorem laidOut_head (level : Nat) (opening closing : CodeUnit) (parts : List Text) :
    ∃ more, laidOut level opening closing parts = opening :: more := by
  unfold laidOut
  split
  · exact ⟨_, rfl⟩
  · exact ⟨_, rfl⟩

theorem indented_head (d : Document) (level : Nat) :
    ∃ u more, d.indented level = u :: more ∧ isSpace u = false ∧ u ≠ unit ']' := by
  cases d with
  | null => exact ⟨unit 'n', _, rfl, by decide, by decide⟩
  | boolean b =>
    cases b with
    | false => exact ⟨unit 'f', _, rfl, by decide, by decide⟩
    | true => exact ⟨unit 't', _, rfl, by decide, by decide⟩
  | number x =>
    rw [indented]
    cases finite : classify x with
    | finite d =>
      obtain ⟨u, more, shown, numeric⟩ := numberBody_head finite
      have bounds := numeric_toNat numeric
      refine ⟨u, more, shown, isSpace_of_printed (by omega), ?_⟩
      rintro rfl
      exact absurd bounds (by decide)
    | nan =>
      rw [numberBody, finite]
      exact ⟨unit 'n', _, rfl, by decide, by decide⟩
    | infinite negative =>
      rw [numberBody, finite]
      exact ⟨unit 'n', _, rfl, by decide, by decide⟩
  | string t => exact ⟨unit '"', _, rfl, by decide, by decide⟩
  | list items =>
    obtain ⟨more, shown⟩ :=
      laidOut_head level (unit '[') (unit ']') (indentedItems (level + 1) items)
    exact ⟨unit '[', more, shown, by decide, by decide⟩
  | map fields =>
    obtain ⟨more, shown⟩ := laidOut_head level 123 125 (indentedFields (level + 1) fields)
    exact ⟨123, more, shown, by decide, by decide⟩

end Values

def between (level : Nat) : Text := text "," ++ lineStart (level + 1)

theorem ends_comma (rest : Text) : Ends (unit ',' :: rest) := by
  intro u first
  have comma : u = unit ',' := by simpa using first.symm
  subst comma
  decide

theorem ends_lineStart (level : Nat) (rest : Text) : Ends (lineStart level ++ rest) := by
  intro u first
  have line : u = unit '\n' := by simpa [lineStart] using first.symm
  subst line
  decide

section Steps
variable {fuel : Nat} {spaces t more after rest : Text} {u : CodeUnit}

theorem readValue_list {items : List Document} (blank : ∀ u ∈ spaces, isSpace u = true)
    (solid : isSpace u = false) (some_item : u ≠ unit ']')
    (read : readItems fuel (u :: more) = some (items, rest)) :
    readValue (fuel + 1) (unit '[' :: (spaces ++ u :: more)) = some (.list items, rest) := by
  have inside : skipSpace (spaces ++ u :: more) = u :: more := by
    rw [skipSpace_append blank, skipSpace_cons solid]
  have bracket : glyph (unit '[') = '[' := by decide
  rw [readValue, skipSpace_cons (by decide)]
  simp only [bracket, inside, if_neg some_item, read]
  rfl

theorem readValue_map {fields : Fields Document} (blank : ∀ u ∈ spaces, isSpace u = true)
    (read : readEntries fuel [] (unit '"' :: more) = some (fields, rest)) :
    readValue (fuel + 1) (123 :: (spaces ++ unit '"' :: more)) = some (.map fields, rest) := by
  have inside : skipSpace (spaces ++ unit '"' :: more) = unit '"' :: more := by
    rw [skipSpace_append blank, skipSpace_cons (by decide)]
  have brace : glyph 123 = '\x7b' := by decide
  have some_entry : unit '"' ≠ 125 := by decide
  rw [readValue, skipSpace_cons (by decide)]
  simp only [brace, inside, if_neg some_entry, read]
  rfl

theorem readItems_last {item : Document} (read : readValue fuel t = some (item, after))
    (closes : skipSpace after = unit ']' :: rest) :
    readItems (fuel + 1) t = some ([item], rest) := by
  rw [readItems, read]
  simp only [Option.bind_eq_bind, Option.bind_some, closes]
  rfl

theorem readItems_more {item : Document} {items : List Document}
    (read : readValue fuel t = some (item, unit ',' :: more))
    (others : readItems fuel more = some (items, rest)) :
    readItems (fuel + 1) t = some (item :: items, rest) := by
  rw [readItems, read]
  simp only [Option.bind_eq_bind, Option.bind_some, skipSpace_cons (by decide : isSpace (unit ',') =
    false), if_true, others]

theorem readEntries_entry (done : Fields Document) (name : Text) {value : Document}
    (read : readValue fuel t = some (value, after)) :
    readEntries (fuel + 1) done (quote name ++ (text ": " ++ t)) =
      match skipSpace after with
      | [] => none
      | u :: rest =>
        if u = unit ',' then readEntries fuel (done.set name value) rest
        else if u = 125 then some (done.set name value, rest)
        else none := by
  have shape : quote name ++ (text ": " ++ t) =
      unit '"' :: (quoteBody name ++ unit '"' :: (unit ':' :: ([unit ' '] ++ t))) := by
    simp [quote, text, ofString, ofPoint, unit]
  have blank : ∀ u ∈ [unit ' '], isSpace u = true := by
    intro u member
    rw [List.mem_singleton.mp member]
    decide
  rw [shape, readEntries, skipSpace_cons (by decide)]
  cases further : skipSpace after with
  | nil | cons =>
    simp only [ne_eq, not_true_eq_false, if_false, readQuoted_quoteBody, Option.bind_eq_bind,
      Option.bind_some, skipSpace_cons (by decide : isSpace (unit ':') = false),
      readValue_spaces blank, read, further]

end Steps

theorem join_cons (separator first : Text) (parts : List Text) :
    ∃ tail, join separator (first :: parts) = first ++ tail := by
  cases parts with
  | nil => exact ⟨[], by simp [join]⟩
  | cons next parts =>
    rw [join, List.intercalate_cons_cons, List.append_assoc]
    exact ⟨_, rfl⟩

mutual

theorem readValue_indented (d : Document) (level fuel : Nat) {rest : Text} (ends : Ends rest)
    (enough : (d.indented level).length < fuel) :
    readValue fuel (d.indented level ++ rest) = some (d.settled, rest) := by
  cases fuel with
  | zero => exact absurd enough (Nat.not_lt_zero _)
  | succ fuel =>
  cases d with
  | null => exact readValue_null fuel rest
  | boolean b => exact readValue_boolean b fuel rest
  | number x => exact readValue_number x fuel ends
  | string t => exact readValue_quote t fuel rest
  | list items =>
    cases items with
    | nil => rfl
    | cons item items =>
      have shape : (Document.list (item :: items)).indented level = unit '[' ::
          (lineStart (level + 1) ++
            join (between level) (indentedItems (level + 1) (item :: items)) ++
              lineStart level ++ [unit ']']) := rfl
      rw [shape] at enough ⊢
      simp only [List.length_cons, List.length_append, List.length_nil] at enough
      have read := readItems_indented item items level fuel rest (by
        have some_blank : 0 < (lineStart level).length := Nat.succ_pos _
        have other_blank : 0 < (lineStart (level + 1)).length := Nat.succ_pos _
        omega)
      obtain ⟨u, head, shown, solid, some_item⟩ := indented_head item (level + 1)
      obtain ⟨tail, joined⟩ := join_cons (between level) (item.indented (level + 1))
        (indentedItems (level + 1) items)
      rw [indentedItems, joined, shown] at read ⊢
      simp only [List.cons_append, List.append_assoc] at read ⊢
      exact readValue_list (isSpace_lineStart (level + 1)) solid some_item read
  | map fields =>
    cases fields with
    | nil => rfl
    | cons entry fields =>
      obtain ⟨name, value⟩ := entry
      have shape : (Document.map ((name, value) :: fields)).indented level = 123 ::
          (lineStart (level + 1) ++
            join (between level) (indentedFields (level + 1) ((name, value) :: fields)) ++
              lineStart level ++ [125]) := rfl
      rw [shape] at enough ⊢
      simp only [List.length_cons, List.length_append, List.length_nil] at enough
      have read := readEntries_indented name value fields level fuel [] rest (by
        have some_blank : 0 < (lineStart level).length := Nat.succ_pos _
        have other_blank : 0 < (lineStart (level + 1)).length := Nat.succ_pos _
        omega)
      have quoted : quote name = unit '"' :: (quoteBody name ++ text "\"") := rfl
      obtain ⟨tail, joined⟩ := join_cons (between level)
        (quote name ++ text ": " ++ value.indented (level + 1)) (indentedFields (level + 1) fields)
      rw [indentedFields, joined, quoted] at read ⊢
      simp only [List.cons_append, List.append_assoc] at read ⊢
      exact readValue_map (isSpace_lineStart (level + 1)) read
termination_by fuel

theorem readItems_indented (item : Document) (items : List Document) (level fuel : Nat)
    (rest : Text)
    (enough :
      (join (between level) (indentedItems (level + 1) (item :: items))).length + 1 < fuel) :
    readItems fuel (join (between level) (indentedItems (level + 1) (item :: items)) ++
      (lineStart level ++ unit ']' :: rest)) = some (settledItems (item :: items), rest) := by
  cases fuel with
  | zero => exact absurd enough (Nat.not_lt_zero _)
  | succ fuel =>
  cases items with
  | nil =>
    have single : join (between level) (indentedItems (level + 1) [item]) =
        item.indented (level + 1) := by simp [indentedItems, join]
    rw [single] at enough ⊢
    have read := readValue_indented item (level + 1) fuel
      (ends_lineStart level (unit ']' :: rest)) (by omega)
    refine readItems_last read ?_
    rw [skipSpace_append (isSpace_lineStart level), skipSpace_cons (by decide)]
  | cons next items =>
    have split : join (between level) (indentedItems (level + 1) (item :: next :: items)) =
        item.indented (level + 1) ++ (unit ',' :: (lineStart (level + 1) ++
          join (between level) (indentedItems (level + 1) (next :: items)))) := by
      simp only [indentedItems, join, List.intercalate_cons_cons, List.append_assoc]
      rfl
    rw [split] at enough ⊢
    simp only [List.length_append, List.length_cons] at enough
    rw [List.append_assoc, List.cons_append, List.append_assoc]
    refine readItems_more (readValue_indented item (level + 1) fuel (ends_comma _) (by omega)) ?_
    rw [readItems_spaces (isSpace_lineStart (level + 1))]
    exact readItems_indented next items level fuel rest (by omega)
termination_by fuel

theorem readEntries_indented (name : Text) (value : Document) (fields : List (Text × Document))
    (level fuel : Nat) (done : Fields Document) (rest : Text)
    (enough : (join (between level)
      (indentedFields (level + 1) ((name, value) :: fields))).length + 1 < fuel) :
    readEntries fuel done (join (between level)
      (indentedFields (level + 1) ((name, value) :: fields)) ++ (lineStart level ++ 125 :: rest)) =
        some ((settledFields ((name, value) :: fields)).foldl (fun all e => all.set e.1 e.2) done,
          rest) := by
  cases fuel with
  | zero => exact absurd enough (Nat.not_lt_zero _)
  | succ fuel =>
  cases fields with
  | nil =>
    have single : join (between level) (indentedFields (level + 1) [(name, value)]) =
        quote name ++ text ": " ++ value.indented (level + 1) := by simp [indentedFields, join]
    rw [single] at enough ⊢
    rw [List.length_append] at enough
    have read := readValue_indented value (level + 1) fuel
      (ends_lineStart level (125 :: rest)) (by omega)
    rw [List.append_assoc, List.append_assoc, readEntries_entry done name read,
      skipSpace_append (isSpace_lineStart level), skipSpace_cons (by decide)]
    rfl
  | cons next fields =>
    obtain ⟨other, more⟩ := next
    have split : join (between level)
        (indentedFields (level + 1) ((name, value) :: (other, more) :: fields)) =
          quote name ++ text ": " ++ (value.indented (level + 1) ++ (unit ',' ::
            (lineStart (level + 1) ++
              join (between level) (indentedFields (level + 1) ((other, more) :: fields))))) := by
      simp only [indentedFields, join, List.intercalate_cons_cons, List.append_assoc]
      rfl
    rw [split] at enough ⊢
    simp only [List.length_append, List.length_cons] at enough
    simp only [List.append_assoc, List.cons_append]
    have read := readValue_indented value (level + 1) fuel (ends_comma
      (lineStart (level + 1) ++ (join (between level)
        (indentedFields (level + 1) ((other, more) :: fields)) ++
          (lineStart level ++ 125 :: rest)))) (by omega)
    rw [readEntries_entry done name read, skipSpace_cons (by decide)]
    dsimp only
    rw [if_pos rfl, readEntries_spaces (isSpace_lineStart (level + 1))]
    exact readEntries_indented other more fields level fuel (done.set name value.settled) rest
      (by omega)
termination_by fuel

end

/-- A document that is written is read as it is settled. -/
theorem read?_indented (d : Document) : read? (d.indented 0) = some d.settled := by
  have ends : Ends [] := by
    intro u first
    cases first
  have read := readValue_indented d 0 ((d.indented 0).length + 1) ends (Nat.lt_succ_self _)
  rw [List.append_nil] at read
  rw [read?, read]
  rfl

section Bytes

theorem whole_of_ascii {t : Text} (ascii : ∀ u ∈ t, u.toNat < 128) : Whole t := by
  apply Whole.of_plain
  intro u member
  have small := ascii u member
  rw [← Bool.not_eq_true, isSurrogate_iff]
  omega

theorem numeric_ascii {t : Text} (numeric : Numeric t) : ∀ u ∈ t, u.toNat < 128 := by
  intro u member
  rcases numeric u member with word | mark
  · have bounds := (isWordUnit_iff u).mp word
    omega
  · have marks : text ".+-" = [46, 43, 45] := by decide
    rw [marks] at mark
    have cases : u = 46 ∨ u = 43 ∨ u = 45 := by simpa using mark
    rcases cases with rfl | rfl | rfl
    · decide
    · decide
    · decide

theorem numberBody_whole (x : Float) : Whole (numberBody x) := by
  unfold numberBody
  split
  · exact whole_of_ascii (numeric_ascii (numberText_numeric x))
  · rfl

theorem lineStart_whole (level : Nat) : Whole (lineStart level) := by
  apply whole_of_ascii
  intro u member
  rcases List.mem_cons.mp member with rfl | blank
  · decide
  · rw [List.eq_of_mem_replicate blank]
    decide

theorem laidOut_whole (level : Nat) {opening closing : CodeUnit} (first : opening.toNat < 128)
    (last : closing.toNat < 128) {parts : List Text} (each : ∀ part ∈ parts, Whole part) :
    Whole (laidOut level opening closing parts) := by
  have opens : Whole [opening] := whole_of_ascii (by simpa using first)
  have closes : Whole [closing] := whole_of_ascii (by simpa using last)
  have comma : Whole (text ",") := rfl
  unfold laidOut
  split
  · exact opens.append closes
  · have inside := Whole.join (comma.append (lineStart_whole (level + 1))) each
    exact opens.append ((((lineStart_whole (level + 1)).append inside).append
      (lineStart_whole level)).append closes)

mutual

theorem indented_whole (d : Document) (level : Nat) : Whole (d.indented level) := by
  cases d with
  | null => rfl
  | boolean b =>
    cases b with
    | false => rfl
    | true => rfl
  | number x => exact numberBody_whole x
  | string t => exact quote_whole t
  | list items => exact laidOut_whole level (by decide) (by decide) (indentedItems_whole items _)
  | map fields => exact laidOut_whole level (by decide) (by decide) (indentedFields_whole fields _)

theorem indentedItems_whole (items : List Document) (level : Nat) :
    ∀ part ∈ indentedItems level items, Whole part := by
  cases items with
  | nil => exact List.forall_mem_nil _
  | cons item items =>
    exact List.forall_mem_cons.mpr ⟨indented_whole item level, indentedItems_whole items level⟩

theorem indentedFields_whole (fields : List (Text × Document)) (level : Nat) :
    ∀ part ∈ indentedFields level fields, Whole part := by
  cases fields with
  | nil => exact List.forall_mem_nil _
  | cons entry fields =>
    obtain ⟨name, value⟩ := entry
    have colon : Whole (text ": ") := rfl
    exact List.forall_mem_cons.mpr ⟨((quote_whole name).append colon).append
      (indented_whole value level), indentedFields_whole fields level⟩

end

theorem read?_bytes (d : Document) : read? (ofUtf8 (toUtf8 (d.indented 0))) = some d.settled := by
  rw [(indented_whole d 0).ofUtf8_toUtf8, read?_indented]

end Bytes

theorem readEntries_listed {fuel : Nat} {fields found : Fields Document} {t rest : Text}
    (listed : fields.Listed) (read : readEntries fuel fields t = some (found, rest)) :
    found.Listed := by
  induction fuel generalizing fields t with
  | zero => cases read
  | succ fuel ih =>
    rw [readEntries] at read
    split at read
    · cases read
    · rename_i q body _
      by_cases opens : q ≠ unit '"'
      · rw [if_pos opens] at read
        cases read
      · rw [if_neg opens] at read
        obtain ⟨⟨name, after⟩, -, read⟩ := Option.bind_eq_some_iff.mp read
        dsimp only at read
        split at read
        · cases read
        · rename_i colon behind _
          by_cases parts : colon ≠ unit ':'
          · rw [if_pos parts] at read
            cases read
          · rw [if_neg parts] at read
            obtain ⟨⟨value, more⟩, -, read⟩ := Option.bind_eq_some_iff.mp read
            have set := Fields.set_listed listed name value
            dsimp only at read
            split at read
            · cases read
            · split at read
              · exact ih set read
              · split at read
                · cases read
                  exact set
                · cases read

theorem readWord_plain {t rest : Text} {fields : Fields Document} :
    readWord t ≠ some (.map fields, rest) := by
  unfold readWord
  split
  · simp
  · simp
  · simp
  · simp

theorem readValue_listed {fuel : Nat} {fields : Fields Document} {t rest : Text}
    (read : readValue fuel t = some (.map fields, rest)) : fields.Listed := by
  have empty : Fields.Listed ([] : Fields Document) := List.Pairwise.nil
  cases fuel with
  | zero => cases read
  | succ fuel =>
    rw [readValue] at read
    split at read
    · cases read
    · split at read
      · simp at read
      · split at read
        · cases read
        · split at read
          · cases read
          · simp at read
      · split at read
        · cases read
        · split at read
          · cases read
            exact empty
          · obtain ⟨⟨entries, after⟩, inside, same⟩ := Option.map_eq_some_iff.mp read
            cases same
            exact readEntries_listed empty inside
      · exact absurd read readWord_plain
      · exact absurd read readWord_plain
      · exact absurd read readWord_plain
      · simp at read

theorem read?_listed {t : Text} {fields : Fields Document} (read : read? t = some (.map fields)) :
    fields.Listed := by
  unfold read? at read
  split at read
  · rename_i d rest value
    split at read
    · cases read
      exact readValue_listed value
    · cases read
  · cases read

end VirtualInstrument.Document
