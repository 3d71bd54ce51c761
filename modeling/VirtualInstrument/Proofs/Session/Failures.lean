import VirtualInstrument.Proofs.Decimal.Written
import VirtualInstrument.Proofs.Files.Calls
import VirtualInstrument.Proofs.Files.Growth
import VirtualInstrument.Session.File
/- Saving when any of the calls may fail. Until the draft takes the name of the session file only
   directories and the draft are new, so what the file held is still there; when it has taken the
   name, the whole document is. -/
namespace VirtualInstrument.Session

def ofReading (path : Text) : Except FileFault (List UInt8) → Except SessionFault Session
  | .error fault => .error ⟨path, causeOf fault⟩
  | .ok bytes =>
    match Document.read? (Text.ofUtf8 bytes) with
    | none => .error ⟨path, .notADocument⟩
    | some document => ofDocument document path

def existingThrough (calls : FileCalls) (disk : Disk) (path : Text) :
    Except SessionFault Session :=
  match calls.access disk path with
  | .ok () => ofReading path (calls.read disk path)
  | .error .missing => .ok []
  | .error .refused => .error ⟨path, .unreadable⟩

def saveThrough (calls : FileCalls) (disk : Disk) (clock : Feed Float) (path name profile : Text)
    (log : List Document) : SaveOutcome :=
  match existingThrough calls disk path with
  | .error fault => ⟨.error fault, [], disk, clock⟩
  | .ok session =>
    match calls.makeDirectories disk (Path.directory path) with
    | (.error _, after) => ⟨.error ⟨path, .unwritable⟩, [], after, clock⟩
    | (.ok (), prepared) =>
      let (time, later) := clock.next
      let content := contentWith session name profile log
      match calls.write prepared (draftPath path time) (Text.toUtf8 content) with
      | (.error _, after) => ⟨.error ⟨path, .unwritable⟩, [], after, later⟩
      | (.ok (), drafted) =>
        match calls.rename drafted (draftPath path time) path with
        | (.error _, after) => ⟨.error ⟨path, .unwritable⟩, [], after, later⟩
        | (.ok (), renamed) => ⟨.ok (), [saved log name path], renamed, later⟩

section Plain
variable (disk : Disk) (clock : Feed Float) (path name profile : Text) (log : List Document)

theorem ofReading_read : ofReading path (disk.read path) = load disk path := by
  unfold load
  cases disk.read path with
  | error fault => rfl
  | ok bytes => rfl

theorem existingThrough_plain : existingThrough .plain disk path = existing disk path := by
  unfold existingThrough existing
  rw [← ofReading_read]
  rfl

theorem saveThrough_plain :
    saveThrough .plain disk clock path name profile log =
      save disk clock path name profile log := by
  unfold saveThrough save
  rw [existingThrough_plain]
  cases existing disk path with
  | error fault => rfl
  | ok session =>
    dsimp only [FileCalls.plain, FileCalls.wholly]
    cases disk.makeDirectories (Path.directory path) with
    | error fault => rfl
    | ok prepared =>
      dsimp only
      generalize Text.toUtf8 (contentWith session name profile log) = bytes
      cases prepared.write (draftPath path clock.next.1) bytes with
      | error fault => rfl
      | ok drafted =>
        dsimp only
        cases drafted.rename (draftPath path clock.next.1) path with
        | error fault => rfl
        | ok renamed => rfl

end Plain

section Outcomes
variable {calls : FileCalls} {disk : Disk} {clock : Feed Float} {path name profile : Text}
  {log : List Document} {session : Session}

theorem existing_of_through (lawful : calls.Lawful)
    (held : existingThrough calls disk path = .ok session) : existing disk path = .ok session := by
  unfold existingThrough at held
  unfold existing
  split at held
  · rename_i there
    cases reading : calls.read disk path with
    | error fault =>
      rw [reading] at held
      cases held
    | ok bytes =>
      rw [reading] at held
      rw [lawful.access_done there]
      refine Eq.trans ?_ held
      rw [← ofReading_read, lawful.read_done reading]
  · rename_i missing
    rw [lawful.access_missing missing]
    exact held
  · cases held

theorem draft_lengthens (time : Float) :
    Disk.Lengthens (text ".tmp." ++ Decimal.numberText time) := by
  constructor
  · intro member
    rcases List.mem_append.mp member with mark | digit
    · exact absurd mark (by decide)
    · have numeric := numberText_numeric time _ digit
      exact absurd numeric (by decide)
  · intro name same
    have apart := Text.toUtf8_append (by decide) name
      (text "tmp." ++ Decimal.numberText time) (v := Text.unit '.')
    have nothing := List.append_right_eq_self.mp (apart.symm.trans same)
    rw [Text.toUtf8_cons (by decide)] at nothing
    exact absurd (List.append_eq_nil_iff.mp nothing).1 (by decide)

/-- What a save can do. One that fails has made directories, and perhaps written a draft or part of it;
    one that succeeds has made directories, written the whole document to a draft and given it the
    name of the file. -/
theorem saveThrough_cases (lawful : calls.Lawful) :
    let outcome := saveThrough calls disk clock path name profile log
    let draft := draftPath path clock.next.1
    ∃ names prepared, disk.makeWay [] names = .ok prepared ∧
      ((∃ fault, outcome.result = .error fault ∧ (outcome.disk = prepared ∨
        ∃ part, prepared.write draft part = .ok outcome.disk)) ∨
      outcome.result = .ok () ∧ ∃ session drafted, existing disk path = .ok session ∧
        prepared.write draft (Text.toUtf8 (contentWith session name profile log)) = .ok drafted ∧
        drafted.rename draft path = .ok outcome.disk) := by
  dsimp only
  unfold saveThrough
  split
  · exact ⟨[], disk, rfl, .inl ⟨_, rfl, .inl rfl⟩⟩
  · rename_i session held
    split
    · rename_i after way
      obtain ⟨front, -, made⟩ := lawful.directories_failed way
      exact ⟨front, after, made, .inl ⟨_, rfl, .inl rfl⟩⟩
    · rename_i prepared way
      refine ⟨_, prepared, Disk.makeWay_of_makeDirectories (lawful.directories_done way), ?_⟩
      dsimp only
      split
      · rename_i after wrote
        refine .inl ⟨_, rfl, ?_⟩
        rcases lawful.write_failed wrote with same | ⟨part, -, begun⟩
        · exact .inl same
        · exact .inr ⟨part, begun⟩
      · rename_i drafted wrote
        have whole := lawful.write_done wrote
        split
        · rename_i after moved
          rw [lawful.rename_failed moved]
          exact .inl ⟨_, rfl, .inr ⟨_, whole⟩⟩
        · rename_i renamed moved
          exact .inr ⟨rfl, session, drafted, existing_of_through lawful held, whole,
            lawful.rename_done moved⟩

theorem saveThrough_rooted (lawful : calls.Lawful) (rooted : disk.Rooted) :
    (saveThrough calls disk clock path name profile log).disk.Rooted := by
  obtain ⟨names, prepared, made, outcome⟩ :=
    @saveThrough_cases calls disk clock path name profile log lawful
  have ready := rooted.makeWay made
  rcases outcome with ⟨-, -, same | ⟨part, begun⟩⟩ | ⟨-, session, drafted, -, wrote, renamed⟩
  · exact same ▸ ready
  · exact ready.write begun
  · exact (ready.write wrote).rename renamed

/-- When a save fails, the file at the path is what it was, unless the path goes up from a directory
    that was not there and now leads to another file. When it succeeds, the whole document is at the
    path. Beside that, only directories and a draft are new. -/
theorem failed_save_keeps_file (lawful : calls.Lawful) (rooted : disk.Rooted) :
    let outcome := saveThrough calls disk clock path name profile log
    let draft := draftPath path clock.next.1
    (match outcome.result with
    | .error _ => (outcome.disk.bytes? path = disk.bytes? path ∨
          disk.Uncovers outcome.disk path) ∧ disk.Drafted outcome.disk draft
    | .ok () => ∃ session target temporary, existing disk path = .ok session ∧
        outcome.disk.find path = .ok (.present target
          (.file (Text.toUtf8 (contentWith session name profile log)))) ∧
        outcome.disk.find draft = .ok (.free temporary) ∧
        ∀ place, place ≠ target → place ≠ temporary → disk.GrowsAt outcome.disk place) ∧
      outcome.disk.Rooted ∧
      saveThrough .plain disk clock path name profile log =
        save disk clock path name profile log := by
  intro outcome draft
  refine ⟨?_, saveThrough_rooted lawful rooted,
    saveThrough_plain disk clock path name profile log⟩
  have near : draftPath path clock.next.1 =
      path ++ (text ".tmp." ++ Decimal.numberText clock.next.1) := List.append_assoc _ _ _
  have lengthens := draft_lengthens clock.next.1
  obtain ⟨names, prepared, made, account⟩ :=
    @saveThrough_cases calls disk clock path name profile log lawful
  have grows := Disk.makeWay_grows made
  rcases account with ⟨fault, failed, left⟩ | ⟨done, session, drafted, held, wrote, renamed⟩
  · rw [show outcome.result = .error fault from failed]
    have beside : disk.Drafted outcome.disk (draftPath path clock.next.1) := by
      rcases left with same | ⟨part, begun⟩
      · rw [show outcome.disk = prepared from same]
        exact grows.drafted _
      · exact Disk.drafted_of_write grows begun
    refine ⟨?_, beside⟩
    rw [near] at beside
    exact beside.bytes_kept lengthens rooted
  · rw [show outcome.result = .ok () from done]
    rw [near] at wrote renamed
    obtain ⟨target, temporary, found, gone, others⟩ :=
      Disk.find_of_replacement lengthens grows wrote renamed
    rw [← near] at gone
    exact ⟨session, target, temporary, held, found, gone, others⟩

def alone (name : Text) : Disk :=
  Disk.empty.put [Text.toUtf8 name] (.file (Text.toUtf8 (text "\x7b\x7d")))

theorem alone_rooted (name : Text) : (alone name).Rooted := by
  have free : Disk.empty.content? [Text.toUtf8 name] ≠ some .directory := by
    simp [Disk.content?, Disk.empty]
  exact Disk.rooted_empty.put ⟨⟨[], Text.toUtf8 name, rfl, rfl⟩, free⟩ _

def halting : FileCalls :=
  { FileCalls.plain with
    write := fun disk path bytes =>
      match disk.write path (bytes.take 1) with
      | .ok after => (.error .refused, after)
      | .error fault => (.error fault, disk) }

theorem halting_lawful : halting.Lawful :=
  { FileCalls.plain_lawful with
    write_done := by
      intro disk path bytes after done
      simp only [halting] at done
      split at done
      · cases done
      · cases done
    write_failed := by
      intro disk path bytes fault after failed
      simp only [halting] at failed
      split at failed
      · rename_i next begun
        cases failed
        exact .inr ⟨_, List.take_prefix 1 bytes, begun⟩
      · cases failed
        exact .inl rfl }

theorem halted_write_keeps_file :
    halting.Lawful ∧ (alone (text "s.json")).Rooted ∧
      let outcome := saveThrough halting (alone (text "s.json")) (.constant 0) (text "/s.json")
        (text "b") (text "q") []
      outcome.result = .error ⟨text "/s.json", .unwritable⟩ ∧
        outcome.disk.bytes? (text "/s.json") = some (Text.toUtf8 (text "\x7b\x7d")) ∧
        outcome.disk.bytes? (text "/s.json.tmp.0") = some (Text.toUtf8 (text "\x7b")) := by
  have rooted := alone_rooted (text "s.json")
  have kept := @failed_save_keeps_file halting (alone (text "s.json")) (.constant 0)
    (text "/s.json") (text "b") (text "q") [] halting_lawful rooted
  have failed : (saveThrough halting (alone (text "s.json")) (.constant 0) (text "/s.json")
      (text "b") (text "q") []).result = .error ⟨text "/s.json", .unwritable⟩ := by
    decide +kernel
  refine ⟨halting_lawful, rooted, failed, ?_, by decide +kernel⟩
  dsimp only at kept
  rw [failed] at kept
  rcases kept.1.1 with same | uncovers
  · rw [same]
    decide +kernel
  · exact absurd uncovers.1 (by decide +kernel)

def longName : Text := List.replicate 254 (Text.unit 'n')

/-- A save to a path through a directory that is not there, and up from it again, finds no file. It
    fails, but leaves the directory, and now the path leads to a file that was out of its reach. -/
theorem failed_save_uncovers_file :
    (alone longName).Rooted ∧
      let path := text "/a/../" ++ longName
      let outcome := save (alone longName) (.constant 0) path (text "b") (text "q") []
      outcome.result = .error ⟨path, .unwritable⟩ ∧ (alone longName).bytes? path = none ∧
        outcome.disk.bytes? path = some (Text.toUtf8 (text "\x7b\x7d")) :=
  ⟨alone_rooted longName, by decide +kernel, by decide +kernel, by decide +kernel⟩

end Outcomes

end VirtualInstrument.Session
