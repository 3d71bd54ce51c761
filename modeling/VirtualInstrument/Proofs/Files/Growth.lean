import VirtualInstrument.Proofs.Files.Rooted
import VirtualInstrument.Proofs.Text.Utf8
/- What becomes of the ways through a disk when directories are added to it, and a draft beside a file.
   A way without a step to the parent goes down, so the file at its end was there before and was found
   before; only a way that goes up again from a new directory can lead to a file that was out of
   reach. A draft has a name of its own, so the file is found and held as it was until the draft takes
   its place. -/
namespace VirtualInstrument.Disk

def GrowsAt (disk after : Disk) (place : Place) : Prop :=
  after.content? place = disk.content? place ∨
    disk.content? place = none ∧ after.content? place = some .directory

def Grows (disk after : Disk) : Prop := ∀ place, GrowsAt disk after place

section Growth
variable {disk between after : Disk} {place target : Place}

theorem Grows.refl (disk : Disk) : Grows disk disk := fun _ => .inl rfl

theorem Grows.trans (first : Grows disk between) (second : Grows between after) :
    Grows disk after := by
  intro place
  rcases second place with same | ⟨nothing, made⟩
  · rw [GrowsAt, same]
    exact first place
  · rcases first place with before | ⟨_, directory⟩
    · exact .inr ⟨before.symm.trans nothing, made⟩
    · rw [directory] at nothing
      cases nothing

theorem Grows.content_kept (grows : Grows disk after) {content : Content}
    (held : disk.content? place = some content) : after.content? place = some content := by
  rcases grows place with same | ⟨nothing, _⟩
  · rw [same, held]
  · rw [held] at nothing
    cases nothing

theorem grows_put (inside : place ≠ []) (nothing : disk.content? place = none) :
    Grows disk (disk.put place .directory) := by
  intro other
  rw [GrowsAt, content?_put disk inside]
  split
  · rename_i same
    exact .inr ⟨same ▸ nothing, rfl⟩
  · exact .inl rfl

theorem step_free {segment : FileName} (stepped : disk.step place segment = .ok (.free target)) :
    target ≠ [] ∧ disk.content? target = none := by
  obtain ⟨-, free, -, onward⟩ := step_takes stepped rfl
  obtain ⟨directory, -⟩ := step_cases stepped
  have same := stepped.symm.trans (onward disk directory)
  refine ⟨free.place_ne_nil, ?_⟩
  cases held : disk.content? target with
  | none => rfl
  | some content => simp [targetAt, held] at same

theorem makeWay_grows {names : List FileName} (made : disk.makeWay place names = .ok after) :
    Grows disk after := by
  induction names generalizing disk place with
  | nil =>
    cases made
    exact .refl _
  | cons segment rest ih =>
    rw [makeWay] at made
    split at made
    · exact ih made
    · cases made
    · rename_i next stepped
      obtain ⟨inside, nothing⟩ := step_free stepped
      exact (grows_put inside nothing).trans (ih made)
    · cases made

theorem makeWay_of_makeDirectories {path : Text} (made : disk.makeDirectories path = .ok after) :
    disk.makeWay [] (segments path) = .ok after := by
  unfold makeDirectories at made
  split at made
  · cases made
  · split at made
    · cases made
    · split at made
      · cases made
      · exact made

end Growth

section Descent
variable {disk after : Disk} {place target : Place} {bytes : List UInt8} {names : List FileName}

theorem step_down {segment : FileName} {content : Content}
    (downward : segment ≠ Text.toUtf8 Path.parent)
    (stepped : after.step place segment = .ok (.present target content)) :
    (target = place ∧ ∀ disk : Disk, disk.content? place = some .directory →
        disk.step place segment = .ok (.present place .directory)) ∨
      target = place ++ [segment] ∧ ∀ disk : Disk, disk.content? place = some .directory →
        disk.step place segment = .ok (disk.targetAt target) := by
  obtain ⟨directory, ⟨there, leads, onward⟩ | onward⟩ := step_cases stepped
  · have same := stepped.symm.trans (onward after directory)
    cases same
    obtain rfl := leads.resolve_right downward
    exact .inl ⟨rfl, onward⟩
  · have same := stepped.symm.trans (onward after directory)
    unfold targetAt at same
    split at same
    · cases same
      exact .inr ⟨rfl, onward⟩
    · cases same

/-- A way without a step to the parent ends at a file below its beginning. -/
theorem walk_down (downward : Text.toUtf8 Path.parent ∉ names) (named : names ≠ [])
    (reached : after.walk place names = .ok (.present target (.file bytes))) :
    ∃ down, down ≠ [] ∧ target = place ++ down := by
  induction names generalizing place with
  | nil => exact absurd rfl named
  | cons segment rest ih =>
    obtain ⟨first, others⟩ := not_or.mp fun member => downward (List.mem_cons.mpr member)
    by_cases last : rest = []
    · subst last
      obtain ⟨-, -, entry, -⟩ := step_takes reached rfl
      exact ⟨[segment], by simp, entry⟩
    · rw [walk_cons after place segment last] at reached
      split at reached
      · rename_i next content stepped
        obtain ⟨down, below, leads⟩ := ih others last reached
        rcases step_down (Ne.symm first) stepped with ⟨rfl, -⟩ | ⟨rfl, -⟩
        · exact ⟨down, below, leads⟩
        · exact ⟨segment :: down, by simp, by rw [leads, List.append_assoc, List.singleton_append]⟩
      · cases reached
      · cases reached

/-- Where a way without a step to the parent ends at a file that is there in a rooted disk too, it
    ends there in this one. -/
theorem walk_rooted (rooted : disk.Rooted) (downward : Text.toUtf8 Path.parent ∉ names)
    (named : names ≠ []) (here : disk.content? place = some .directory)
    (reached : after.walk place names = .ok (.present target (.file bytes)))
    (held : disk.content? target = some (.file bytes)) :
    disk.walk place names = .ok (.present target (.file bytes)) := by
  induction names generalizing place with
  | nil => exact absurd rfl named
  | cons segment rest ih =>
    obtain ⟨first, others⟩ := not_or.mp fun member => downward (List.mem_cons.mpr member)
    by_cases last : rest = []
    · subst last
      obtain ⟨-, -, -, onward⟩ := step_takes reached rfl
      exact (onward disk here).trans (by rw [targetAt_file held])
    · rw [walk_cons after place segment last] at reached
      rw [walk_cons disk place segment last]
      split at reached
      · rename_i next content stepped
        obtain ⟨down, below, rfl⟩ := walk_down others last reached
        have directory := rooted.directory_above held below
        rcases step_down (Ne.symm first) stepped with ⟨rfl, onward⟩ | ⟨rfl, onward⟩
        · rw [onward disk here]
          exact ih others last directory reached
        · rw [onward disk here, targetAt, directory]
          exact ih others last directory reached
      · cases reached
      · cases reached

theorem find_rooted (rooted : disk.Rooted) {path : Text}
    (downward : Text.toUtf8 Path.parent ∉ segments path)
    (found : after.find path = .ok (.present target (.file bytes)))
    (held : disk.content? target = some (.file bytes)) :
    disk.find path = .ok (.present target (.file bytes)) := by
  obtain ⟨walked, again⟩ := find_eq_walk found
  rw [again disk]
  exact walk_rooted rooted downward (segments_ne_nil path) rfl walked held

end Descent

section Beside
variable {disk : Disk} {place target other : Place} {found beside : Target} {path suffix : Text}

structure Lengthens (suffix : Text) : Prop where
  whole : Path.slash ∉ suffix
  longer : ∀ name, Text.toUtf8 (name ++ suffix) ≠ Text.toUtf8 name

theorem walk_last (front : List FileName) {last : FileName}
    (reached : disk.walk place (front ++ [last]) = .ok found) :
    ∃ directory, ∀ segment, disk.walk place (front ++ [segment]) = disk.step directory segment := by
  induction front generalizing place with
  | nil => exact ⟨place, fun _ => rfl⟩
  | cons first front ih =>
    rw [List.cons_append, walk_cons disk place first (by simp)] at reached
    split at reached
    · rename_i next content stepped
      obtain ⟨directory, all⟩ := ih reached
      refine ⟨directory, fun segment => ?_⟩
      rw [List.cons_append, walk_cons disk place first (by simp), stepped]
      exact all segment
    · cases reached
    · cases reached

theorem find_beside (lengthens : Lengthens suffix) (reached : disk.find path = .ok found)
    (takes : found.Takes target) (near : disk.find (path ++ suffix) = .ok beside)
    (takes_near : beside.Takes other) : target ≠ other := by
  obtain ⟨front, last, before, behind⟩ := Text.split_behind path lengthens.whole
  obtain ⟨walked, -⟩ := find_eq_walk reached
  obtain ⟨walked_near, -⟩ := find_eq_walk near
  rw [segments, before, List.map_append] at walked
  rw [segments, behind, List.map_append] at walked_near
  obtain ⟨directory, all⟩ := walk_last _ walked
  obtain ⟨-, -, rfl, -⟩ := step_takes ((all _).symm.trans walked) takes
  obtain ⟨-, -, rfl, -⟩ := step_takes ((all _).symm.trans walked_near) takes_near
  intro same
  have names := List.append_cancel_left same
  exact lengthens.longer last (List.singleton_inj.mp names).symm

end Beside

section Drafts
variable {disk prepared written after : Disk} {path suffix draft : Text} {place : Place}
  {bytes : List UInt8}

/-- Everything is as it was, except that there are new directories, and that there may be a file at
    one path. -/
def Drafted (disk after : Disk) (draft : Text) : Prop := ∀ place, GrowsAt disk after place ∨
  disk.content? place ≠ some .directory ∧
    ∃ bytes, after.find draft = .ok (.present place (.file bytes))

theorem Grows.drafted (grows : Grows disk after) (draft : Text) : Drafted disk after draft :=
  fun place => .inl (grows place)

theorem drafted_of_write (grows : Grows disk prepared)
    (wrote : prepared.write draft bytes = .ok after) : Drafted disk after draft := by
  obtain ⟨target, free, found, others⟩ := find_of_write wrote
  intro place
  by_cases here : place = target
  · subst here
    exact .inr ⟨fun directory => free.free (grows.content_kept directory), bytes, found⟩
  · rw [GrowsAt, others place here]
    exact .inl (grows place)

theorem Drafted.directory_kept (drafted : Drafted disk after draft)
    (directory : disk.content? place = some .directory) :
    after.content? place = some .directory := by
  rcases drafted place with (same | ⟨-, made⟩) | ⟨free, -⟩
  · rw [same, directory]
  · exact made
  · exact absurd directory free

theorem content?_of_find (found : disk.find path = .ok (.present place (.file bytes))) :
    disk.content? place = some (.file bytes) := by
  obtain ⟨-, onward⟩ := find_takes found rfl
  have same := found.symm.trans (onward disk fun _ directory => directory)
  unfold targetAt at same
  split at same
  · rename_i content held
    cases same
    exact held
  · cases same

theorem Drafted.file_was_there (drafted : Drafted disk after (path ++ suffix))
    (lengthens : Lengthens suffix) (found : after.find path = .ok (.present place (.file bytes))) :
    disk.content? place = some (.file bytes) := by
  have held := content?_of_find found
  rcases drafted place with (same | ⟨-, directory⟩) | ⟨-, part, near⟩
  · exact same.symm.trans held
  · rw [held] at directory
    cases directory
  · exact absurd rfl (find_beside lengthens found rfl near rfl)

def bytes? (disk : Disk) (path : Text) : Option (List UInt8) := (disk.read path).toOption

theorem bytes?_eq_some : disk.bytes? path = some bytes ↔
    ∃ place, disk.find path = .ok (.present place (.file bytes)) := by
  unfold bytes? read
  split
  · rename_i place old found
    simp [found, Except.toOption]
  · rename_i place found
    simp [found, Except.toOption]
  · rename_i place found
    simp [found, Except.toOption]
  · rename_i fault found
    simp [found, Except.toOption]

theorem Drafted.bytes_stay (drafted : Drafted disk after (path ++ suffix))
    (lengthens : Lengthens suffix)
    (here : disk.bytes? path = some bytes) : after.bytes? path = some bytes := by
  obtain ⟨place, found⟩ := bytes?_eq_some.mp here
  obtain ⟨-, onward⟩ := find_takes found rfl
  have leads := onward after fun _ => drafted.directory_kept
  have held := content?_of_find found
  refine bytes?_eq_some.mpr ⟨place, ?_⟩
  rcases drafted place with (same | ⟨nothing, -⟩) | ⟨-, part, near⟩
  · rw [leads, targetAt_file (same.trans held)]
  · rw [held] at nothing
    cases nothing
  · rw [targetAt_file (content?_of_find near)] at leads
    exact absurd rfl (find_beside lengthens leads rfl near rfl)

/-- A path that goes up again from a directory that was not there leads through it, once it is
    made, to a file that was there all along. -/
def Uncovers (disk after : Disk) (path : Text) : Prop :=
  Text.toUtf8 Path.parent ∈ segments path ∧ disk.bytes? path = none ∧
    ∃ place bytes, after.find path = .ok (.present place (.file bytes)) ∧
      disk.content? place = some (.file bytes)

/-- A file at a path is not changed by new directories and by what is put beside it. -/
theorem Drafted.bytes_kept (drafted : Drafted disk after (path ++ suffix))
    (lengthens : Lengthens suffix) (rooted : disk.Rooted) :
    after.bytes? path = disk.bytes? path ∨ Uncovers disk after path := by
  cases before : disk.bytes? path with
  | some bytes => exact .inl (drafted.bytes_stay lengthens before)
  | none =>
    cases now : after.bytes? path with
    | none => exact .inl rfl
    | some bytes =>
      obtain ⟨place, found⟩ := bytes?_eq_some.mp now
      have held := drafted.file_was_there lengthens found
      refine .inr ⟨Decidable.byContradiction fun downward => ?_, before, place, bytes, found, held⟩
      have there := bytes?_eq_some.mpr ⟨place, find_rooted rooted downward found held⟩
      rw [before] at there
      cases there

theorem find_of_replacement (lengthens : Lengthens suffix) (grows : Grows disk prepared)
    (wrote : prepared.write (path ++ suffix) bytes = .ok written)
    (renamed : written.rename (path ++ suffix) path = .ok after) : ∃ target temporary,
    after.find path = .ok (.present target (.file bytes)) ∧
      after.find (path ++ suffix) = .ok (.free temporary) ∧
      ∀ place, place ≠ target → place ≠ temporary → GrowsAt disk after place := by
  obtain ⟨draft, -, near, before⟩ := find_of_write wrote
  obtain ⟨found, old, target, moved, source, ⟨reached, takes⟩, leads, gone, others⟩ :=
    find_of_rename renamed
  have same := near.symm.trans source
  cases same
  have apart := find_beside lengthens reached takes near rfl
  refine ⟨target, draft, leads, gone (Ne.symm apart), fun place new left => ?_⟩
  rw [GrowsAt, others place left new, before place left]
  exact grows place

end Drafts

end VirtualInstrument.Disk
