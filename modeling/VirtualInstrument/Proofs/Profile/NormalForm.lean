import VirtualInstrument.Dispatch.Entry
import VirtualInstrument.Profile.File
import VirtualInstrument.Proofs.Schema.NormalForm
import VirtualInstrument.Proofs.State.Heap
/- The normal form of profiles. Reading a profile leaves out what its form does not know, fills in
   what is missing and takes up the older names; what comes out, written as a document, is read as
   itself. Older names and older marks of expressions mean what the newer ones do. -/
namespace VirtualInstrument

namespace Fields
variable {α : Type}

theorem get?_append (one other : Fields α) (name : Text) :
    get? (one ++ other) name = (get? one name).or (get? other name) := by
  induction one with
  | nil => rfl
  | cons entry rest ih =>
    rw [List.cons_append, get?, get?]
    split
    · rfl
    · exact ih

theorem get?_filter_other {old name : Text} (apart : name ≠ old) (fields : Fields α) :
    get? (fields.filter (·.1 != old)) name = fields.get? name := by
  induction fields with
  | nil => rfl
  | cons entry rest ih =>
    by_cases dropped : entry.1 = old
    · rw [List.filter_cons_of_neg (by simpa using dropped), ih, get?,
        if_neg (dropped ▸ Ne.symm apart)]
    · rw [List.filter_cons_of_pos (by simpa using dropped), get?, get?, ih]

end Fields

namespace Profile
open Schema

theorem get?_present {α : Type} (name : String) (value : Option α) (shown : α → Document)
    (sought : Text) :
    Fields.get? (present name value shown) sought =
      if text name = sought then value.map shown else none := by
  cases value with
  | none => simp [present, Fields.get?]
  | some a => simp [present, Fields.get?]

theorem names_present {α : Type} (name : String) (value : Option α) (shown : α → Document) :
    ∀ entry ∈ present name value shown, entry.1 = text name := by
  cases value with
  | none => simp [present]
  | some a => simp [present]

namespace Form

theorem amount_settles : Settles amount some := by
  intro path document value sound other
  rcases Verdict.orElse_sound sound with number | string
  · obtain ⟨x, found, rfl⟩ := Verdict.map_sound number
    rfl
  · obtain ⟨t, found, rfl⟩ := Verdict.map_sound string
    rfl

theorem mem_names_actions (spec : ActionSpec) {fields : Fields Document}
    (shown : spec.toDocument = .map fields) : ∀ name ∈ fields.names, name ∈ actionNames := by
  intro name member
  obtain ⟨entry, listed, rfl⟩ := List.mem_map.mp member
  cases shown
  simp only [List.mem_append] at listed
  rcases listed with ((((one | one) | one) | one) | one) | one
  all_goals
    rw [names_present _ _ _ entry one]
    decide

theorem unknownNames_nil {known : List Text} {fields : Fields Document} (path : List Segment)
    (all : ∀ name ∈ fields.names, name ∈ known) : unknownNames known path fields = [] := by
  have none : fields.names.filter (fun name => !known.contains name) = [] := by
    rw [List.filter_eq_nil_iff]
    intro name member
    simpa using all name member
  rw [unknownNames, none]
  rfl

theorem get?_actions (spec : ActionSpec) {fields : Fields Document}
    (shown : spec.toDocument = .map fields) :
    fields.get? (text "delay") = spec.delay.map .number ∧
      fields.get? (text "set") = spec.set.map .map ∧
      fields.get? (text "inc") = spec.inc.map .map ∧
      fields.get? (text "dec") = spec.dec.map .map ∧
      fields.get? (text "get") = spec.get.map .string ∧
      fields.get? (text "response") = spec.response.map .string := by
  cases shown
  simp +decide only [Fields.get?_append, get?_present, if_true, if_false, Option.or_none,
    Option.none_or, and_self]

theorem actions_sound_iff {path : List Segment} {fields : Fields Document} {spec : ActionSpec} :
    actions path (some (.map fields)) = .sound spec ↔
      (field (maybe nonNegative) (text "delay") path fields = .sound spec.delay ∧
        field (maybe (recordOf anything)) (text "set") path fields = .sound spec.set ∧
        field (maybe (recordOf amount)) (text "inc") path fields = .sound spec.inc ∧
        field (maybe (recordOf amount)) (text "dec") path fields = .sound spec.dec ∧
        field (maybe string) (text "get") path fields = .sound spec.get ∧
        field (maybe string) (text "response") path fields = .sound spec.response) ∧
      unknownNames actionNames path fields = [] := by
  rw [actions, form]
  simp only [Verdict.flawedBy_sound_iff, Verdict.map_sound_iff, Verdict.both_sound]
  refine and_congr_left' ⟨?_, fun parts =>
    ⟨(spec.delay, spec.set, spec.inc, spec.dec, spec.get, spec.response), parts, rfl⟩⟩
  rintro ⟨_, parts, rfl⟩
  exact parts

theorem actions_settle : Settles actions fun spec => some spec.toDocument := by
  intro path document spec sound other
  obtain ⟨fields, rfl, _⟩ := form_sound sound
  obtain ⟨⟨delay, set, inc, dec, get, response⟩, _⟩ := actions_sound_iff.mp sound
  obtain ⟨entries, shown⟩ : ∃ entries, spec.toDocument = .map entries := ⟨_, rfl⟩
  obtain ⟨atDelay, atSet, atInc, atDec, atGet, atResponse⟩ := get?_actions spec shown
  have seconds := maybe_settles (require_settles number_settles (fun x => 0 ≤ x) .negative)
  have values := maybe_settles (recordOf_settles_plain anything_settles)
  have amounts := maybe_settles (recordOf_settles_plain amount_settles)
  have texts := maybe_settles string_settles
  simp only [shown]
  exact actions_sound_iff.mpr ⟨⟨field_again seconds delay atDelay other,
    field_again values set atSet other, field_again amounts inc atInc other,
    field_again amounts dec atDec other, field_again texts get atGet other,
    field_again texts response atResponse other⟩,
    unknownNames_nil other (mem_names_actions spec shown)⟩

theorem entrySpec_settles : Settles entrySpec fun spec => some spec.toDocument := by
  intro path document spec sound other
  rcases Verdict.orElse_sound sound with plain | listed
  · obtain ⟨t, _, rfl⟩ := Verdict.map_sound plain
    rfl
  · obtain ⟨list, found, rfl⟩ := Verdict.map_sound listed
    have again := actions_settle path document list found other
    simp only [entrySpec, EntrySpec.toDocument, again]
    rfl

theorem errorSpec_sound_iff {path : List Segment} {fields : Fields Document} {document : Document}
    {spec : ErrorSpec}
    (renamed : renameField (text "scpi") (text "pattern") document = .map fields) :
    errorSpec path (some document) = .sound spec ↔
      field nonEmptyString (text "pattern") path fields = .sound spec.pattern ∧
        field (withDefault (text "false") string) (text "condition") path fields =
          .sound spec.condition ∧
        field integer (text "code") path fields = .sound spec.code ∧
        field string (text "message") path fields = .sound spec.message := by
  rw [errorSpec, Option.map_some, renamed, form]
  simp only [Verdict.map_sound_iff, Verdict.both_sound]
  refine ⟨?_, fun parts =>
    ⟨(spec.pattern, spec.condition, spec.code, spec.message), parts, rfl⟩⟩
  rintro ⟨_, parts, rfl⟩
  exact parts

theorem errorSpec_settles : Settles errorSpec fun spec => some spec.toDocument := by
  intro path document spec sound other
  obtain ⟨fields, given, _⟩ := form_sound sound
  obtain ⟨document, rfl, renamed⟩ := Option.map_eq_some_iff.mp given
  obtain ⟨pattern, condition, code, message⟩ := (errorSpec_sound_iff renamed).mp sound
  have patterns := require_settles string_settles (!·.isEmpty) .emptyString
  have conditions : Settles (withDefault (text "false") string) fun t => some (.string t) :=
    withDefault_settles string_settles fun _ => rfl
  have codes := require_settles number_settles (fun x => (wholeOf? x).isSome) .notInteger
  exact (errorSpec_sound_iff rfl).mpr ⟨field_again patterns pattern rfl other,
    field_again conditions condition rfl other, field_again codes code rfl other,
    field_again string_settles message rfl other⟩

theorem simulation_sound_iff {path : List Segment} {fields : Fields Document}
    {spec : Simulation} :
    simulation path (some (.map fields)) = .sound spec ↔
      field (withDefault [] (recordOf anything)) (text "initial_state") path fields =
          .sound spec.initialState ∧
        field (withDefault [] (recordOf entrySpec)) (text "scpi") path fields =
          .sound spec.commands ∧
        field (withDefault [] (listOf errorSpec)) (text "errors") path fields =
          .sound spec.errors := by
  rw [simulation, form]
  simp only [Verdict.map_sound_iff, Verdict.both_sound]
  refine ⟨?_, fun parts => ⟨(spec.initialState, spec.commands, spec.errors), parts, rfl⟩⟩
  rintro ⟨_, parts, rfl⟩
  exact parts

theorem simulation_settles : Settles simulation fun spec => some spec.toDocument := by
  intro path document spec sound other
  obtain ⟨fields, rfl, _⟩ := form_sound sound
  obtain ⟨initial, commands, errors⟩ := simulation_sound_iff.mp sound
  have values : Settles (withDefault [] (recordOf anything)) fun found => some (.map found) :=
    withDefault_settles (recordOf_settles_plain anything_settles) fun _ => rfl
  have entries : Settles (withDefault [] (recordOf entrySpec)) fun found =>
      some (.map (found.map fun entry => (entry.1, entry.2.toDocument))) :=
    withDefault_settles (recordOf_settles entrySpec_settles) fun _ => rfl
  have rules : Settles (withDefault [] (listOf errorSpec)) fun found =>
      some (.list (found.map (·.toDocument))) :=
    withDefault_settles (listOf_settles errorSpec_settles) fun _ => rfl
  exact simulation_sound_iff.mpr ⟨field_again values initial rfl other,
    field_again entries commands rfl other, field_again rules errors rfl other⟩

theorem draft_sound_iff {path : List Segment} {fields : Fields Document} {found : Draft} :
    draft path (some (.map fields)) = .sound found ↔
      field (maybe string) (text "model") path fields = .sound found.model ∧
        field (maybe string) (text "identification") path fields = .sound found.identification ∧
        field (maybe simulation) (text "simulation") path fields = .sound found.simulation := by
  rw [draft, form]
  simp only [Verdict.map_sound_iff, Verdict.both_sound]
  refine ⟨?_, fun parts =>
    ⟨(found.model, found.identification, found.simulation), parts, rfl⟩⟩
  rintro ⟨_, parts, rfl⟩
  exact parts

end Form

theorem get?_profile (profile : Profile) {fields : Fields Document}
    (shown : profile.toDocument = .map fields) :
    fields.get? (text "model") = profile.model.map .string ∧
      fields.get? (text "identification") = profile.identification.map .string ∧
      fields.get? (text "simulation") = some profile.simulation.toDocument := by
  cases shown
  simp +decide only [Fields.get?_append, get?_present, if_true, if_false, Option.or_none,
    Option.none_or, Fields.get?, and_self]

theorem ofDocument_toDocument {document : Option Document} {source : Text} {profile : Profile}
    {events : List Event} (read : ofDocument document source = (.ok profile, events))
    (other : Text) : ofDocument (some profile.toDocument) other = (.ok profile, []) := by
  cases drafted : Form.draft [] document with
  | flawed issues =>
    rw [ofDocument, drafted] at read
    cases read
  | unfit issues =>
    rw [ofDocument, drafted] at read
    cases read
  | sound found =>
    rw [ofDocument, drafted] at read
    cases read
    obtain ⟨fields, rfl, _⟩ := form_sound drafted
    obtain ⟨model, identification, simulation⟩ := Form.draft_sound_iff.mp drafted
    obtain ⟨entries, shown⟩ : ∃ entries, Profile.toDocument ⟨found.model, found.identification,
      found.simulation.getD .empty⟩ = .map entries := ⟨_, rfl⟩
    obtain ⟨atModel, atIdentification, atSimulation⟩ := get?_profile _ shown
    have texts := maybe_settles string_settles
    have again : field (maybe Form.simulation) (text "simulation") [] entries =
        .sound (some (found.simulation.getD .empty)) := by
      rw [field, atSimulation]
      cases given : found.simulation with
      | none => rfl
      | some spec =>
        rw [given] at simulation
        exact maybe_settles Form.simulation_settles _ _ (some spec) simulation _
    have whole : Form.draft [] (some (.map entries)) = .sound ⟨found.model, found.identification,
        some (found.simulation.getD .empty)⟩ :=
      Form.draft_sound_iff.mpr ⟨field_again texts model atModel [],
        field_again texts identification atIdentification [], again⟩
    rw [shown, ofDocument, whole]
    rfl

/-- An error rule as an older profile has it: what stands under the pattern's name stands under the
    name that now holds the commands, and the order of the entries is free. -/
structure OlderRule (fields older : Fields Document) : Prop where
  unused : fields.has (text "scpi") = false
  moved : older.get? (text "pattern") = none
  pattern : older.get? (text "scpi") = fields.get? (text "pattern")
  others : ∀ name, name ≠ text "pattern" → name ≠ text "scpi" →
    older.get? name = fields.get? name

inductive Respelled : Document → Document → Prop
  | same (rule : Document) : Respelled rule rule
  | older {fields others : Fields Document} (older : OlderRule fields others) :
      Respelled (.map fields) (.map others)

/-- A profile document some of whose error rules have the pattern under the older name. -/
inductive OlderSpelling : Document → Document → Prop
  | same (document : Document) : OlderSpelling document document
  | rules {fields simulation : Fields Document} {rules others : List Document}
      (simulated : fields.get? (text "simulation") = some (.map simulation))
      (listed : simulation.get? (text "errors") = some (.list rules))
      (respelled : List.Forall₂ Respelled rules others) :
      OlderSpelling (.map fields)
        (.map (fields.set (text "simulation") (.map (simulation.set (text "errors") (.list others)))))

namespace Form

theorem renameField_new {old new : Text} {fields : Fields Document} {value : Document}
    (absent : fields.get? new = none) (present : fields.get? old = some value) :
    renameField old new (.map fields) =
      .map (Fields.set (fields.filter (·.1 != old)) new value) := by
  have free : fields.has new = false := by rw [Fields.has, absent]; rfl
  simp only [renameField, free, present]

theorem renameField_same {old new : Text} {fields : Fields Document}
    (same : fields.has new = true ∨ fields.get? old = none) :
    renameField old new (.map fields) = .map fields := by
  rcases same with used | absent
  · simp only [renameField, used]
  · rw [renameField]
    rw [absent]
    split
    · rename_i impossible
      cases impossible
    · rfl

theorem renamed_alike {fields older : Fields Document} (rule : OlderRule fields older) :
    ∃ one other : Fields Document,
      renameField (text "scpi") (text "pattern") (.map fields) = .map one ∧
      renameField (text "scpi") (text "pattern") (.map older) = .map other ∧
      ∀ name, name ≠ text "scpi" → other.get? name = one.get? name := by
  have free : fields.get? (text "scpi") = none := by
    simpa [Fields.has] using rule.unused
  refine ⟨fields, ?_⟩
  cases pattern : fields.get? (text "pattern") with
  | none =>
    have nothing : older.get? (text "scpi") = none := rule.pattern.trans pattern
    refine ⟨older, renameField_same (.inr free), renameField_same (.inr nothing), ?_⟩
    intro name apart
    by_cases here : name = text "pattern"
    · rw [here, rule.moved, pattern]
    · exact rule.others name here apart
  | some value =>
    have given : older.get? (text "scpi") = some value := rule.pattern.trans pattern
    refine ⟨_, renameField_same (.inr free), renameField_new rule.moved given, ?_⟩
    intro name apart
    rw [Fields.get?_set, Fields.get?_filter_other apart]
    by_cases here : text "pattern" = name
    · rw [if_pos here, ← here, pattern]
    · rw [if_neg here]
      exact rule.others name (Ne.symm here) apart

theorem errorSpec_respelled {rule other : Document} (respelled : Respelled rule other)
    (path : List Segment) : errorSpec path (some other) = errorSpec path (some rule) := by
  cases respelled with
  | same => rfl
  | older older =>
    obtain ⟨one, two, here, there, alike⟩ := renamed_alike older
    rw [errorSpec, errorSpec, Option.map_some, Option.map_some, here, there, form, form, field,
      field, field, field, field, field, field, field, alike _ (by decide), alike _ (by decide),
      alike _ (by decide), alike _ (by decide)]

theorem mapIdx_respelled {rules others : List Document}
    (respelled : List.Forall₂ Respelled rules others) {check : Nat → Document → Verdict ErrorSpec}
    (same : ∀ i rule other, Respelled rule other → check i other = check i rule) :
    others.mapIdx check = rules.mapIdx check := by
  induction respelled generalizing check with
  | nil => rfl
  | cons first _ ih =>
    rw [List.mapIdx_cons, List.mapIdx_cons, same 0 _ _ first, ih fun i => same (i + 1)]

theorem rules_respelled {rules others : List Document}
    (respelled : List.Forall₂ Respelled rules others) (path : List Segment) :
    listOf errorSpec path (some (.list others)) = listOf errorSpec path (some (.list rules)) := by
  rw [listOf, listOf, mapIdx_respelled respelled fun i rule other same =>
    errorSpec_respelled same (path ++ [.index i])]

theorem simulation_respelled {fields : Fields Document} {rules others : List Document}
    (listed : fields.get? (text "errors") = some (.list rules))
    (respelled : List.Forall₂ Respelled rules others) (path : List Segment) :
    simulation path (some (.map (fields.set (text "errors") (.list others)))) =
      simulation path (some (.map fields)) := by
  have apart : text "errors" ≠ text "initial_state" ∧ text "errors" ≠ text "scpi" := by decide
  simp only [simulation, form, field, Fields.get?_set, if_neg apart.1, if_neg apart.2, if_true,
    listed, withDefault, rules_respelled respelled]

theorem draft_respelled {document older : Document} (spelling : OlderSpelling document older)
    (path : List Segment) : draft path (some older) = draft path (some document) := by
  cases spelling with
  | same => rfl
  | rules simulated listed respelled =>
    have apart : text "simulation" ≠ text "model" ∧
        text "simulation" ≠ text "identification" := by decide
    simp only [draft, form, field, Fields.get?_set, if_neg apart.1, if_neg apart.2, if_true,
      simulated, maybe, simulation_respelled listed respelled]

end Form

/-- A profile is read alike in both spellings. -/
theorem ofDocument_respelled {document older : Document} (spelling : OlderSpelling document older)
    (source : Text) : ofDocument (some older) source = ofDocument (some document) source := by
  rw [ofDocument, ofDocument, Form.draft_respelled spelling]

end Profile

namespace Dispatch
open Profile Text

theorem expressionBody?_marked {blanks : Text} (blank : ∀ u ∈ blanks, isBlank u = true)
    (body : Text) :
    expressionBody? (blanks ++ (text "py:" ++ body)) = some body ∧
      expressionBody? (blanks ++ (text "expr:" ++ body)) = some body := by
  have bare (mark : Text) (first : ∀ u ∈ mark.head?, isBlank u = false) (some_mark : mark ≠ []) :
      trimStart (blanks ++ (mark ++ body)) = mark ++ body := by
    rw [trimStart, List.dropWhile_append_of_pos blank]
    cases mark with
    | nil => exact absurd rfl some_mark
    | cons u rest => exact List.dropWhile_cons_of_neg (by simpa using first u rfl)
  constructor
  · rw [expressionBody?, bare _ (by rintro _ ⟨⟩; decide) (by decide)]
    rfl
  · rw [expressionBody?, bare _ (by rintro _ ⟨⟩; decide) (by decide)]
    rfl

theorem compileEntry_of_body {t body : Text} (marked : expressionBody? t = some body)
    (place : Text) : compileEntry (.plain t) place =
      match Expression.read body with
      | .ok expression => .ok (.dynamic expression)
      | .error fault => .error (.badExpression place fault) := by
  rw [compileEntry, compileString, marked]
  cases read : Expression.read body with
  | ok expression => simp only [read]; rfl
  | error fault => simp only [read]; rfl

/-- Both marks of an expression make the same entry and the same source of a value. -/
theorem compile_marked {blanks : Text} (blank : ∀ u ∈ blanks, isBlank u = true)
    (body place : Text) :
    compileEntry (.plain (blanks ++ (text "py:" ++ body))) place =
        compileEntry (.plain (blanks ++ (text "expr:" ++ body))) place ∧
      compileValue (.string (blanks ++ (text "py:" ++ body))) place =
        compileValue (.string (blanks ++ (text "expr:" ++ body))) place := by
  obtain ⟨older, newer⟩ := expressionBody?_marked blank body
  constructor
  · rw [compileEntry_of_body older, compileEntry_of_body newer]
  · rw [compileValue, compileValue, compileString, compileString, older, newer]

end Dispatch

/-- A profile is read from its own document as itself; older names of patterns and older marks of
    expressions change nothing. -/
theorem Profile.normal_form_in_every_spelling :
    (∀ document source profile events,
        Profile.ofDocument (some document) source = (.ok profile, events) →
          ∀ other, Profile.ofDocument (some profile.toDocument) other = (.ok profile, [])) ∧
      (∀ document older source, Profile.OlderSpelling document older →
        Profile.ofDocument (some older) source = Profile.ofDocument (some document) source) ∧
      ∀ blanks body place : Text, (∀ u ∈ blanks, Text.isBlank u = true) →
        Dispatch.compileEntry (.plain (blanks ++ (text "py:" ++ body))) place =
            Dispatch.compileEntry (.plain (blanks ++ (text "expr:" ++ body))) place ∧
          Dispatch.compileValue (.string (blanks ++ (text "py:" ++ body))) place =
            Dispatch.compileValue (.string (blanks ++ (text "expr:" ++ body))) place := by
  refine ⟨?_, ?_, ?_⟩
  · intro document source profile events read other
    exact Profile.ofDocument_toDocument read other
  · intro document older source spelling
    exact Profile.ofDocument_respelled spelling source
  · intro blanks body place blank
    exact Dispatch.compile_marked blank body place

/-- A profile with one error rule, which is given its condition, and a field that is left out. -/
theorem Profile.lone_rule_read_in_both_spellings :
    let message : Text × Document := (text "message", .string (text "High"))
    let code : Text × Document := (text "code", .number 5)
    let document (rule : Fields Document) : Document :=
      .map [(text "vendor", .null), (text "simulation", .map [(text "errors", .list [.map rule])])]
    let newer := document [(text "pattern", .string (text "X")), code, message]
    let older := document [message, (text "scpi", .string (text "X")), code]
    let profile : Profile := ⟨none, none, ⟨[], [], [⟨text "X", text "false", 5, text "High"⟩]⟩⟩
    (Profile.ofDocument (some newer) [] = (.ok profile, []) ∧ Profile.OlderSpelling newer older ∧
        ∀ u ∈ text " ", Text.isBlank u = true) ∧
      Profile.ofDocument (some profile.toDocument) [] = (.ok profile, []) ∧
      Profile.ofDocument (some older) [] = (.ok profile, []) ∧
      Dispatch.compileEntry (.plain (text " " ++ (text "py:" ++ text "g1"))) [] =
        Dispatch.compileEntry (.plain (text " " ++ (text "expr:" ++ text "g1"))) [] := by
  intro message code document newer older profile
  obtain ⟨again, respelled, marked⟩ := Profile.normal_form_in_every_spelling
  have read : Profile.ofDocument (some newer) [] = (.ok profile, []) := by rfl
  have rule : Profile.OlderRule [(text "pattern", .string (text "X")), code, message]
      [message, (text "scpi", .string (text "X")), code] := by
    refine ⟨by decide, by rfl, by rfl, ?_⟩
    intro name first second
    by_cases third : text "message" = name
    · subst third
      rfl
    · simp only [Fields.get?, message, if_neg third, if_neg (Ne.symm first),
        if_neg (Ne.symm second)]
  have spelling : Profile.OlderSpelling newer older :=
    @Profile.OlderSpelling.rules
      [(text "vendor", .null), (text "simulation", .map [(text "errors", .list [.map _])])]
      [(text "errors", .list [.map _])] [.map _] [.map _] rfl rfl (.cons (.older rule) .nil)
  have blank : ∀ u ∈ text " ", Text.isBlank u = true := by
    intro u listed
    obtain rfl := List.mem_singleton.mp listed
    decide
  exact ⟨⟨read, spelling, blank⟩, again newer [] profile [] read [],
    (respelled newer older [] spelling).trans read, (marked (text " ") (text "g1") [] blank).1⟩

end VirtualInstrument
