import VirtualInstrument.Proofs.Session.Failures
import VirtualInstrument.Proofs.Session.Form
/- What a session file holds after logs were saved to it. A name that was saved holds the record
   that was saved under it last, and every other name what it held before. -/
namespace VirtualInstrument.Session

section Loading
variable {disk : Disk} {path : Text} {session : Session}

theorem ofDocument_ok {document : Document} : ofDocument document path = .ok session ↔
    Form.session [] (some document) = .sound session := by
  unfold ofDocument
  split
  · rename_i found sound
    rw [sound, Except.ok.injEq, Schema.Verdict.sound.injEq]
  · rename_i verdict unsound
    refine iff_of_false ?_ (unsound session)
    split
    · simp
    · simp

theorem load_ok_iff : load disk path = .ok session ↔ ∃ bytes document,
    disk.read path = .ok bytes ∧ Document.read? (Text.ofUtf8 bytes) = some document ∧
      Form.session [] (some document) = .sound session := by
  unfold load
  cases disk.read path with
  | error fault => simp
  | ok bytes =>
    cases parsed : Document.read? (Text.ofUtf8 bytes) with
    | none => simp [parsed]
    | some document => simp [parsed, ofDocument_ok]

theorem load_proper (loaded : load disk path = .ok session) : session.Proper := by
  obtain ⟨bytes, document, -, parsed, sound⟩ := load_ok_iff.mp loaded
  obtain ⟨fields, rfl, fewer, unreserved⟩ := Schema.recordOf_sound sound
  exact ⟨(Document.read?_listed parsed).sublist fewer, unreserved⟩

theorem existing_of_read {bytes : List UInt8} (read : disk.read path = .ok bytes) :
    existing disk path = load disk path := by
  have there : disk.access path = .ok () := by
    unfold Disk.read at read
    unfold Disk.access
    split at read
    · rename_i found
      rw [found]
    · cases read
    · cases read
    · cases read
  rw [existing, there]

theorem existing_proper (held : existing disk path = .ok session) : session.Proper := by
  unfold existing at held
  split at held
  · exact load_proper held
  · cases held
    exact ⟨List.Pairwise.nil, List.not_mem_nil⟩
  · cases held

end Loading

section Saving
variable {disk : Disk} {clock : Feed Float} {path name profile : Text} {log : List Document}

theorem save_ok (saved : (save disk clock path name profile log).result = .ok ()) :
    ∃ session, existing disk path = .ok session ∧
      (save disk clock path name profile log).disk.read path =
        .ok (Text.toUtf8 (contentWith session name profile log)) := by
  rw [← saveThrough_plain] at saved ⊢
  obtain ⟨-, prepared, -, ⟨fault, failed, -⟩ | ⟨-, session, drafted, held, wrote, renamed⟩⟩ :=
    @saveThrough_cases .plain disk clock path name profile log FileCalls.plain_lawful
  · rw [saved] at failed
    cases failed
  · exact ⟨session, held, Disk.read_of_rename (Disk.read_of_write wrote) renamed⟩

end Saving

/-- A record that is saved under a name, with the documents that its entries are handed over as. -/
structure Saving where
  name : Text
  record : SessionRecord
  entries : List Document
  unreserved : name ≠ Fields.reservedName
  tells : List.Forall₂ Document.Tells entries record.log

namespace Saving

def run (saving : Saving) (disk : Disk) (clock : Feed Float) (path : Text) : SaveOutcome :=
  save disk clock path saving.name saving.record.profile saving.entries

def into (saving : Saving) (session : Session) : Session :=
  session.set saving.name saving.record

theorem into_proper (saving : Saving) {session : Session} (proper : session.Proper) :
    (saving.into session).Proper := by
  refine ⟨Fields.set_listed proper.listed _ _, ?_⟩
  intro reserved
  have present := (Fields.has_iff _ _).mpr reserved
  rw [Fields.has, into, Fields.get?_set, if_neg saving.unreserved] at present
  exact proper.unreserved ((Fields.has_iff _ _).mp present)

theorem settled_into (saving : Saving) (session : Session) :
    (saving.into session).settled = session.settled.set saving.name saving.record.settled :=
  Fields.map_set SessionRecord.settled session saving.name saving.record

end Saving

section Runs
variable {disk after : Disk} {clock : Feed Float} {path : Text} {session loaded : Session}

theorem load_after_save (saving : Saving) (held : existing disk path = .ok session)
    (saved : (saving.run disk clock path).result = .ok ()) :
    load (saving.run disk clock path).disk path = .ok loaded ↔
      (saving.into session).Times Timely ∧ (saving.into session).settled = loaded := by
  obtain ⟨before, same, (read : (saving.run disk clock path).disk.read path = _)⟩ := save_ok saved
  rw [held, Except.ok.injEq] at same
  subst same
  have tells : Fields.Related Document.TellsRecord
      (session.toFields.set saving.name (recordDocument saving.record.profile saving.entries))
      (saving.into session) :=
    (related_toFields session).set saving.name ⟨_, rfl, saving.tells⟩
  have finds := Form.session_finds tells (saving.into_proper (existing_proper held)) [] loaded
  rw [← finds, load_ok_iff]
  constructor
  · rintro ⟨bytes, document, again, parsed, sound⟩
    rw [read, Except.ok.injEq] at again
    subst again
    rw [contentWith, Document.read?_bytes, Option.some.injEq] at parsed
    subst parsed
    exact sound
  · intro sound
    exact ⟨_, _, read, Document.read?_bytes _, sound⟩

theorem loadRecord_ok_iff {name : Text} {record : SessionRecord} :
    loadRecord disk path name = .ok record ↔
      ∃ session, load disk path = .ok session ∧ session.get? name = some record := by
  unfold loadRecord
  split
  · rename_i fault unloaded
    simp [unloaded]
  · rename_i session loaded
    split
    · rename_i found there
      simp [loaded, there]
    · rename_i absent
      simp [loaded, absent]

/-- What is loaded of the name that was saved. The times of all other names have to be accepted
    too. -/
theorem loadRecord_after_save (saving : Saving) (held : existing disk path = .ok session)
    (saved : (saving.run disk clock path).result = .ok ()) {record : SessionRecord} :
    loadRecord (saving.run disk clock path).disk path saving.name = .ok record ↔
      (saving.into session).Times Timely ∧ saving.record.settled = record := by
  have read : (saving.into session).settled.get? saving.name = some saving.record.settled := by
    rw [saving.settled_into]
    exact (Fields.get?_set _ _ _ _).trans (if_pos rfl)
  rw [loadRecord_ok_iff]
  constructor
  · rintro ⟨after, loaded, found⟩
    obtain ⟨timely, rfl⟩ := (load_after_save saving held saved).mp loaded
    rw [read, Option.some.injEq] at found
    exact ⟨timely, found⟩
  · rintro ⟨timely, rfl⟩
    exact ⟨_, (load_after_save saving held saved).mpr ⟨timely, rfl⟩, read⟩

theorem times_into (saving : Saving) (proper : session.Proper) (holds : Float → Prop) :
    (saving.into session).Times holds ↔ saving.record.Times holds ∧
      ∀ other record, other ≠ saving.name → session.get? other = some record →
        record.Times holds := by
  have named (name : Text) : (saving.into session).get? name =
      if saving.name = name then some saving.record else session.get? name :=
    Fields.get?_set session saving.name saving.record name
  constructor
  · intro all
    have each {name : Text} {record : SessionRecord}
        (found : (saving.into session).get? name = some record) : record.Times holds :=
      all _ (Fields.mem_of_get? found)
    refine ⟨each ((named saving.name).trans (if_pos rfl)), ?_⟩
    intro other record apart found
    exact each ((named other).trans ((if_neg (Ne.symm apart)).trans found))
  · rintro ⟨own, others⟩ ⟨name, record⟩ member
    have found := Fields.get?_of_mem (saving.into_proper proper).listed.names_nodup member
    rw [named name] at found
    split at found
    · cases found
      exact own
    · rename_i apart
      exact others name record (Ne.symm apart) found

inductive Saves (path : Text) : Disk → List Saving → Disk → Prop
  | none (disk : Disk) : Saves path disk [] disk
  | more {disk after : Disk} {saving : Saving} {savings : List Saving} (clock : Feed Float)
      (saved : (saving.run disk clock path).result = .ok ())
      (later : Saves path (saving.run disk clock path).disk savings after) :
      Saves path disk (saving :: savings) after

def intoAll (savings : List Saving) (session : Session) : Session :=
  savings.foldl (fun session saving => saving.into session) session

theorem intoAll_congr {session other : Session} (same : session.settled = other.settled)
    (savings : List Saving) :
    (intoAll savings session).settled = (intoAll savings other).settled := by
  induction savings generalizing session other with
  | nil => exact same
  | cons saving savings ih =>
    refine ih ?_
    rw [saving.settled_into, saving.settled_into, same]

/-- What is loaded after saves that all succeeded. A save reads what the one before it left. -/
theorem load_after_saves {savings : List Saving} (saves : Saves path disk savings after)
    (held : existing disk path = .ok session) (some_save : savings ≠ []) :
    load after path = .ok loaded ↔
      (intoAll savings session).Times Timely ∧ (intoAll savings session).settled = loaded := by
  induction saves generalizing session with
  | none disk => exact absurd rfl some_save
  | @more disk after saving savings clock saved later ih =>
    cases later with
    | none => exact load_after_save saving held saved
    | @more _ _ next rest clock' again last =>
      obtain ⟨between, there, -⟩ := save_ok again
      obtain ⟨_, _, read⟩ := save_ok saved
      have reloaded : load (saving.run disk clock path).disk path = .ok between := by
        rw [← there]
        exact (existing_of_read read).symm
      obtain ⟨-, rfl⟩ := (load_after_save saving held saved).mp reloaded
      have same := intoAll_congr (saving.into session).settled_settled (next :: rest)
      rw [ih there (List.cons_ne_nil _ _), ← times_settled, same, times_settled]
      rfl

def savedLast (savings : List Saving) (name : Text) : Option SessionRecord :=
  (savings.reverse.find? (·.name = name)).map (·.record)

theorem intoAll_get? (savings : List Saving) (session : Session) (name : Text) :
    (intoAll savings session).get? name = (savedLast savings name).or (session.get? name) := by
  induction savings generalizing session with
  | nil => rfl
  | cons saving savings ih =>
    have step : (saving.into session).get? name =
        if saving.name = name then some saving.record else session.get? name :=
      Fields.get?_set session saving.name saving.record name
    have whole : savedLast (saving :: savings) name = (savedLast savings name).or
        (if saving.name = name then some saving.record else none) := by
      unfold savedLast
      rw [List.reverse_cons, List.find?_append, Option.map_or]
      by_cases same : saving.name = name
      · simp [same]
      · simp [same]
    rw [whole, Option.or_assoc]
    refine (ih (saving.into session)).trans (congrArg _ ?_)
    rw [step]
    split
    · rfl
    · rfl

/-- After saves that succeed, the session is loaded with the saved names changed, each to its last
    record, and no other. This is so exactly when all times of the changed session last, those of
    the other names among them. -/
theorem saved_names_change_iff {savings : List Saving} (saves : Saves path disk savings after)
    (held : existing disk path = .ok session) (some_save : savings ≠ []) :
    (load after path = .ok (intoAll savings session) ↔
      (intoAll savings session).Times Lasting) ∧
    ∀ name, (intoAll savings session).get? name =
      (savedLast savings name).or (session.get? name) := by
  refine ⟨?_, intoAll_get? savings session⟩
  rw [load_after_saves saves held some_save, times_lasting]

def diskWith (content : Text) : Disk :=
  ⟨[([Text.toUtf8 (text "s.json")], .file (Text.toUtf8 content))]⟩

def oldRecord : Text :=
  text "\x7b\"a\":\x7b\"profile\":\"p\",\"log\":[" ++
    text "\x7b\"type\":\"query\",\"command\":\"V?\"\x7d]\x7d\x7d"

def halfSecond : LogEntry := ⟨.write, text "X", none, 0.5⟩

def savingOfB : Saving :=
  ⟨text "b", ⟨text "q", [halfSecond]⟩, [halfSecond.recorded], by decide,
    .cons halfSecond.tells_recorded .nil⟩

theorem old_record_stays :
    load (savingOfB.run (diskWith oldRecord) (.constant 0) (text "/s.json")).disk (text "/s.json") =
      .ok [(text "a", ⟨text "p", [⟨.query, text "V?", none, 0⟩]⟩),
        (text "b", ⟨text "q", [halfSecond]⟩)] := by
  have held : existing (diskWith oldRecord) (text "/s.json") =
      .ok [(text "a", ⟨text "p", [⟨.query, text "V?", none, 0⟩]⟩)] := by decide +kernel
  have saves : Saves (text "/s.json") (diskWith oldRecord) [savingOfB]
      (savingOfB.run (diskWith oldRecord) (.constant 0) (text "/s.json")).disk :=
    .more (.constant 0) (by decide +kernel) (.none _)
  have now : Lasting 0 := ⟨⟨by decide, ⟨false, 0, -1074⟩, by decide⟩, by decide⟩
  have later : Lasting 0.5 := ⟨⟨by decide, ⟨false, 2 ^ 52, -53⟩, by decide⟩, by decide⟩
  refine (saved_names_change_iff saves held (List.cons_ne_nil _ _)).1.mpr ?_
  refine List.forall_mem_cons.mpr ⟨?_, List.forall_mem_cons.mpr ⟨?_, List.forall_mem_nil _⟩⟩
  · exact List.forall_mem_singleton.mpr now
  · exact List.forall_mem_singleton.mpr later

def endlessRecord : Text :=
  text "\x7b\"a\":\x7b\"profile\":\"p\",\"log\":[" ++
    text "\x7b\"kind\":\"write\",\"command\":\"X\",\"timestamp\":1e999\x7d]\x7d\x7d"

def endlessSession : Session := [(text "a", ⟨text "p", [⟨.write, text "X", none, 1 / 0⟩]⟩)]

/-- A record of another name is not kept when its time is infinite: it is written as null, which
    the form refuses. -/
theorem endless_time_is_not_kept :
    existing (diskWith endlessRecord) (text "/s.json") = .ok endlessSession ∧
      let outcome := save (diskWith endlessRecord) (.constant 0) (text "/s.json") (text "b")
        (text "q") []
      outcome.result = .ok () ∧ load outcome.disk (text "/s.json") ≠
        .ok (endlessSession.set (text "b") ⟨text "q", []⟩) := by
  refine ⟨?_, ?_, ?_⟩
  · decide +kernel
  · decide +kernel
  · decide +kernel

end Runs

end VirtualInstrument.Session
