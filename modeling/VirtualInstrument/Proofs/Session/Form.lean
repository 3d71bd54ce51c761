import VirtualInstrument.Proofs.Document.Reading
import VirtualInstrument.Proofs.Schema.Acceptance
import VirtualInstrument.Session.File
/- What the form of a session file makes of a session that was written and read. It accepts the
   session as long as all times are finite and not negative, and then finds in it what was written,
   up to the sign of a time of zero. -/
namespace VirtualInstrument
open Schema

section Times
variable {x : Float} {d : Dyadic}

def Timely (x : Float) : Prop := 0 ≤ x ∧ ∃ d, classify x = .finite d

/-- A time that is read as it was written. The zero with a minus is not: it is read as the zero
    without. -/
def Lasting (x : Float) : Prop := Timely x ∧ x ≠ -0.0

def settledTime (x : Float) : Float := if x = -0.0 then 0.0 else x

theorem unsigned_eq (finite : classify x = .finite d) : unsigned x d = settledTime x := by
  unfold unsigned settledTime
  split
  · rename_i zero
    rw [zero_of_mantissa finite zero]
    cases d.negative with
    | false => exact (ite_self _).symm
    | true => exact (if_pos rfl).symm
  · rename_i some_bits
    rw [if_neg]
    rintro rfl
    have zero : classify (-0.0) = .finite ⟨true, 0, -1074⟩ := by decide
    rw [zero] at finite
    cases finite
    exact some_bits rfl

theorem settledTime_settledTime (x : Float) : settledTime (settledTime x) = settledTime x := by
  by_cases minus : x = -0.0
  · subst minus
    rfl
  · have same : settledTime x = x := if_neg minus
    rw [same, same]

theorem timely_settledTime : Timely (settledTime x) ↔ Timely x := by
  by_cases minus : x = -0.0
  · subst minus
    have plain : Timely 0.0 := ⟨by decide, ⟨false, 0, -1074⟩, by decide⟩
    have signed : Timely (-0.0) := ⟨by decide, ⟨true, 0, -1074⟩, by decide⟩
    exact iff_of_true plain signed
  · rw [settledTime, if_neg minus]

theorem lasting_iff : Lasting x ↔ Timely x ∧ settledTime x = x := by
  refine and_congr_right fun _ => ?_
  by_cases minus : x = -0.0
  · subst minus
    exact iff_of_false (fun other => other rfl) (by decide)
  · exact iff_of_true minus (if_neg minus)

theorem null_finds (endless : ∀ d, classify x ≠ .finite d) (path : List Segment) :
    (withDefault 0 nonNegative path (some .null)).Finds (Timely x) (settledTime x) := by
  have late : ¬ Timely x := by
    rintro ⟨-, d, finite⟩
    exact endless d finite
  exact (Verdict.unfit_finds _ _).congr (iff_of_false id late)

theorem time_finds (path : List Segment) (x : Float) :
    (withDefault 0 nonNegative path (some (Document.settledNumber x))).Finds (Timely x)
      (settledTime x) := by
  cases finite : classify x with
  | finite d =>
    have read : Document.settledNumber x = .number (settledTime x) := by
      rw [Document.settledNumber, finite, ← unsigned_eq finite]
    have timely : Timely x ↔ 0 ≤ settledTime x := by
      by_cases minus : x = -0.0
      · subst minus
        exact iff_of_true ⟨by decide, d, finite⟩ (by decide)
      · rw [settledTime, if_neg minus]
        exact and_iff_left ⟨d, finite⟩
    intro found
    rw [read, timely]
    by_cases positive : 0 ≤ settledTime x
    · simp [withDefault, nonNegative, require, number, positive]
    · simp [withDefault, nonNegative, require, number, positive]
  | nan =>
    have read : Document.settledNumber x = .null := by rw [Document.settledNumber, finite]
    rw [read]
    exact null_finds (by simp [finite]) path
  | infinite negative =>
    have read : Document.settledNumber x = .null := by rw [Document.settledNumber, finite]
    rw [read]
    exact null_finds (by simp [finite]) path

end Times

namespace Fields
variable {α : Type}

def listing (value : Text → Option α) (names : List Text) : Fields α :=
  names.filterMap fun name => (value name).map (name, ·)

theorem get?_listing (value : Text → Option α) (names : List Text) (sought : Text) :
    get? (listing value names) sought = if sought ∈ names then value sought else none := by
  induction names with
  | nil => rfl
  | cons name rest ih =>
    unfold listing at ih ⊢
    rw [List.filterMap_cons]
    by_cases same : name = sought
    · subst same
      cases found : value name with
      | none => simp [found, ih]
      | some a => simp [get?]
    · have member : sought ∈ name :: rest ↔ sought ∈ rest := by simp [Ne.symm same]
      rw [if_congr member rfl rfl, ← ih]
      cases value name with
      | none => rfl
      | some a => exact if_neg same

theorem names_listing_sublist (value : Text → Option α) (names : List Text) :
    (listing value names).names.Sublist names := by
  induction names with
  | nil => exact .slnil
  | cons name rest ih =>
    unfold listing at ih ⊢
    rw [List.filterMap_cons]
    cases value name with
    | none => exact ih.cons name
    | some a => exact ih.cons_cons name

end Fields

structure LogEntry.HeldBy (entry : LogEntry) (fields : Fields Document) : Prop where
  listed : fields.Listed
  kind : fields.get? (text "kind") = some (.string entry.kind.label)
  command : fields.get? (text "command") = some (.string entry.command)
  response : fields.get? (text "response") = entry.response.map .string
  timestamp : fields.get? (text "timestamp") = some (.number entry.timestamp)

def Document.Tells (document : Document) (entry : LogEntry) : Prop :=
  ∃ fields, document = .map fields ∧ entry.HeldBy fields

def LogEntry.under? (entry : LogEntry) (name : Text) : Option Document :=
  if name = text "kind" then some (.string entry.kind.label)
  else if name = text "command" then some (.string entry.command)
  else if name = text "response" then entry.response.map .string
  else if name = text "timestamp" then some (.number entry.timestamp)
  else none

theorem LogEntry.tells_listing (entry : LogEntry) {names : List Text}
    (ordered : Fields.Ordered names)
    (all : [text "kind", text "command", text "response", text "timestamp"] ⊆ names) :
    (Document.map (Fields.listing entry.under? names)).Tells entry := by
  have held {name : Text}
      (one : name ∈ [text "kind", text "command", text "response", text "timestamp"]) :
      (Fields.listing entry.under? names).get? name = entry.under? name := by
    rw [Fields.get?_listing, if_pos (all one)]
  refine ⟨_, rfl, ordered.sublist (Fields.names_listing_sublist _ _), ?_, ?_, ?_, ?_⟩
  · exact held (by simp)
  · exact held (by simp)
  · exact held (by simp)
  · exact held (by simp)

theorem LogEntry.tells_toDocument (entry : LogEntry) : entry.toDocument.Tells entry := by
  have written : entry.toDocument = .map (Fields.listing entry.under?
      [text "kind", text "command", text "response", text "timestamp"]) := by
    obtain ⟨kind, command, response, timestamp⟩ := entry
    cases response with
    | none => rfl
    | some t => rfl
  rw [written]
  exact entry.tells_listing (by decide) (List.Subset.refl _)

theorem LogEntry.tells_recorded (entry : LogEntry) : entry.recorded.Tells entry := by
  have written : entry.recorded = .map (Fields.listing entry.under?
      [text "kind", text "command", text "timestamp", text "response"]) := by
    obtain ⟨kind, command, response, timestamp⟩ := entry
    cases response with
    | none => rfl
    | some t => rfl
  rw [written]
  exact entry.tells_listing (by decide) (by decide)

namespace Document

theorem settledItems_eq (items : List Document) : settledItems items = items.map settled := by
  induction items with
  | nil => rfl
  | cons item rest ih => rw [settledItems, List.map_cons, ih]

theorem settled_map {fields : Fields Document} (listed : fields.Listed) :
    (Document.map fields).settled = .map (fields.map fun entry => (entry.1, entry.2.settled)) := by
  have each : settledFields fields = fields.map fun entry => (entry.1, entry.2.settled) := by
    clear listed
    induction fields with
    | nil => rfl
    | cons entry rest ih =>
      obtain ⟨name, value⟩ := entry
      rw [settledFields, List.map_cons, ih]
  have names : Fields.Listed (settledFields fields) := by
    rw [each, Fields.Listed, Fields.names, List.map_map]
    exact listed
  rw [settled, Fields.ofList_eq names, each]

end Document

def LogEntry.settled (entry : LogEntry) : LogEntry :=
  { entry with timestamp := settledTime entry.timestamp }

namespace Session.Form

theorem fields_find {fields : Fields Document} {entry : LogEntry} {x : Float}
    (kind : fields.get? (text "kind") = some (.string entry.kind.label))
    (command : fields.get? (text "command") = some (.string entry.command))
    (response : fields.get? (text "response") = entry.response.map .string)
    (timestamp : fields.get? (text "timestamp") = some (Document.settledNumber x))
    (path : List Segment) :
    (logEntry path (some (.map fields))).Finds (Timely x)
      { entry with timestamp := settledTime x } := by
  have current :
      Profile.Form.renameField (text "type") (text "kind") (.map fields) = .map fields := by
    rw [Profile.Form.renameField, Fields.has, kind]
    rfl
  have listed : kinds.lookup entry.kind.label = some entry.kind := by
    cases entry.kind with
    | write => rfl
    | query => rfl
    | rawQuery => rfl
  unfold logEntry
  rw [Option.map_some, current]
  simp only [form, field, kind, command, response, timestamp]
  have parts := (word_finds listed (path ++ [.name (text "kind")])).both
    ((string_finds (path ++ [.name (text "command")]) entry.command).both
      ((maybe_string_finds (path ++ [.name (text "response")]) entry.response).both
        (time_finds (path ++ [.name (text "timestamp")]) x)))
  refine (parts.map fun part => LogEntry.mk part.1 part.2.1 part.2.2.1 part.2.2.2).congr ?_
  simp only [true_and]

theorem logEntry_finds {document : Document} {entry : LogEntry} (tells : document.Tells entry)
    (path : List Segment) :
    (logEntry path (some document.settled)).Finds (Timely entry.timestamp) entry.settled := by
  obtain ⟨fields, rfl, held⟩ := tells
  have shows {name : Text} {document : Option Document}
      (value : Fields.get? fields name = document) :
      Fields.get? (fields.map fun entry => (entry.1, entry.2.settled)) name =
        document.map (·.settled) := by
    rw [← value]
    exact Fields.get?_map Document.settled fields name
  have response : (entry.response.map Document.string).map (·.settled) =
      entry.response.map .string := by
    cases entry.response with
    | none => rfl
    | some t => rfl
  rw [Document.settled_map held.listed]
  exact fields_find (shows held.kind) (shows held.command)
    ((shows held.response).trans response) (shows held.timestamp) path

end Session.Form

def Document.TellsRecord (document : Document) (record : SessionRecord) : Prop :=
  ∃ entries, document = recordDocument record.profile entries ∧
    List.Forall₂ Document.Tells entries record.log

theorem SessionRecord.tells_toDocument (record : SessionRecord) :
    record.toDocument.TellsRecord record := by
  refine ⟨_, rfl, ?_⟩
  rw [List.forall₂_map_left_iff, List.forall₂_same]
  intro entry _
  exact entry.tells_toDocument

def SessionRecord.settled (record : SessionRecord) : SessionRecord :=
  { record with log := record.log.map (·.settled) }

def SessionRecord.Times (record : SessionRecord) (holds : Float → Prop) : Prop :=
  ∀ entry ∈ record.log, holds entry.timestamp

theorem map_eq_self {α : Type} (f : α → α) (list : List α) :
    list.map f = list ↔ ∀ a ∈ list, f a = a := by
  conv_lhs => rw [← List.map_id list, List.map_map]
  exact List.map_inj_left

namespace SessionRecord

theorem settled_settled (record : SessionRecord) : record.settled.settled = record.settled := by
  simp only [settled, List.map_map, mk.injEq, true_and]
  refine List.map_congr_left fun entry _ => ?_
  simp only [Function.comp, LogEntry.settled, settledTime_settledTime]

theorem times_settled (record : SessionRecord) :
    record.settled.Times Timely ↔ record.Times Timely := by
  simp only [Times, settled, List.forall_mem_map, LogEntry.settled, timely_settledTime]

theorem times_lasting (record : SessionRecord) :
    record.Times Lasting ↔ record.Times Timely ∧ record.settled = record := by
  have fixed : record.settled = record ↔ ∀ entry ∈ record.log, entry.settled = entry := by
    rw [← map_eq_self]
    exact ⟨congrArg log, fun same => congrArg (mk record.profile) same⟩
  have each (entry : LogEntry) : Lasting entry.timestamp ↔
      Timely entry.timestamp ∧ entry.settled = entry := by
    rw [lasting_iff]
    refine and_congr_right fun _ => ⟨fun same => ?_, congrArg LogEntry.timestamp⟩
    rw [LogEntry.settled, same]
  rw [fixed, Times, Times, ← forall₂_and]
  exact forall₂_congr fun entry _ => each entry

end SessionRecord

namespace Session

def settled (session : Session) : Session := session.map fun entry => (entry.1, entry.2.settled)

def Times (session : Session) (holds : Float → Prop) : Prop :=
  ∀ entry ∈ session, entry.2.Times holds

/-- A session as it can be read: its names are in order, and none of them is the reserved one. -/
structure Proper (session : Session) : Prop where
  listed : session.Listed
  unreserved : Fields.reservedName ∉ session.names

theorem times_lasting (session : Session) :
    session.Times Lasting ↔ session.Times Timely ∧ session.settled = session := by
  have fixed : session.settled = session ↔ ∀ entry ∈ session, entry.2.settled = entry.2 := by
    rw [settled, map_eq_self]
    exact forall₂_congr fun entry _ => ⟨congrArg Prod.snd, fun same => Prod.ext rfl same⟩
  rw [fixed, Times, Times, ← forall₂_and]
  exact forall₂_congr fun entry _ => entry.2.times_lasting

theorem times_settled (session : Session) :
    session.settled.Times Timely ↔ session.Times Timely := by
  rw [Times, settled, List.forall_mem_map]
  exact forall₂_congr fun entry _ => entry.2.times_settled

theorem settled_settled (session : Session) : session.settled.settled = session.settled := by
  rw [settled, settled, List.map_map]
  refine List.map_congr_left fun entry _ => ?_
  exact congrArg (entry.1, ·) entry.2.settled_settled

theorem related_toFields (session : Session) :
    Fields.Related Document.TellsRecord session.toFields session := by
  rw [Fields.Related, toFields, List.forall₂_map_left_iff, List.forall₂_same]
  intro entry _
  exact ⟨rfl, entry.2.tells_toDocument⟩

theorem Form.record_finds {document : Document} {record : SessionRecord}
    (tells : document.TellsRecord record) (path : List Segment) :
    (Form.record path (some document.settled)).Finds (record.Times Timely) record.settled := by
  obtain ⟨entries, rfl, log⟩ := tells
  have ordered : Fields.Ordered [text "profile", text "log"] := by
    unfold Fields.Ordered
    decide
  have listed : Fields.Listed [(text "profile", Document.string record.profile),
      (text "log", .list entries)] := ordered
  rw [recordDocument, Document.settled_map listed]
  have items : (Document.list entries).settled = .list (entries.map (·.settled)) := by
    rw [Document.settled, Document.settledItems_eq]
  simp only [List.map_cons, List.map_nil, items]
  have profile := string_finds (path ++ [.name (text "profile")]) record.profile
  have each : (listOf Form.logEntry (path ++ [.name (text "log")])
      (some (.list (entries.map (·.settled))))).Finds (record.Times Timely)
        (record.log.map (·.settled)) := by
    refine listOf_finds ?_ _
    rw [List.forall₂_map_left_iff]
    exact log.imp fun _ _ tells => Form.logEntry_finds tells
  refine ((profile.both each).map fun part => SessionRecord.mk part.1 part.2).congr ?_
  exact and_iff_right trivial

theorem Form.session_finds {fields : Fields Document} {session : Session}
    (tells : Fields.Related Document.TellsRecord fields session) (proper : session.Proper)
    (path : List Segment) :
    (Form.session path (some (Document.map fields).settled)).Finds (session.Times Timely)
      session.settled := by
  have listed : fields.Listed := by
    rw [Fields.Listed, tells.names_eq]
    exact proper.listed
  rw [Document.settled_map listed]
  refine recordOf_finds (fun record : SessionRecord => record.Times Timely) SessionRecord.settled ?_
    proper.unreserved path
  rw [List.forall₂_map_left_iff]
  exact tells.imp fun _ _ told => ⟨told.1, Form.record_finds told.2⟩

end Session

end VirtualInstrument
