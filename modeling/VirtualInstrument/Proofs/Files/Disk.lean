import VirtualInstrument.Files.Disk
import VirtualInstrument.Proofs.Text.Split
/- What is written to a path is read from it, and a file that is given another name is read under
   that name. A way leads to the same place as long as the directories on it are there. -/
namespace VirtualInstrument.Disk

theorem lookup_filter (entries : List (Place × Content)) (place sought : Place) :
    (entries.filter (·.1 != place)).lookup sought =
      if sought = place then none else entries.lookup sought := by
  induction entries with
  | nil => simp
  | cons entry rest ih =>
    obtain ⟨here, content⟩ := entry
    by_cases removed : here = place
    · subst removed
      rw [List.filter_cons_of_neg (by simp), ih, List.lookup_cons]
      split
      · rfl
      · rename_i apart
        rw [beq_false_of_ne apart]
    · rw [List.filter_cons_of_pos (by simpa using removed), List.lookup_cons, List.lookup_cons, ih]
      by_cases found : sought = here
      · subst found
        simp [removed]
      · rw [beq_false_of_ne found]

theorem content?_put (disk : Disk) {place : Place} (inside : place ≠ []) (content : Content)
    (sought : Place) : (disk.put place content).content? sought =
      if sought = place then some content else disk.content? sought := by
  unfold content? put
  by_cases here : sought = place
  · subst here
    rw [if_neg (by simpa using inside), if_pos rfl, List.lookup_cons, beq_self_eq_true]
  · rw [if_neg here, List.lookup_cons, beq_false_of_ne here, lookup_filter, if_neg here]

theorem content?_remove (disk : Disk) {place sought : Place} (other : sought ≠ place) :
    (disk.remove place).content? sought = disk.content? sought := by
  unfold content? remove
  rw [lookup_filter, if_neg other]

theorem content?_remove_self (disk : Disk) {place : Place} (inside : place ≠ []) :
    (disk.remove place).content? place = none := by
  unfold content? remove
  rw [if_neg (by simpa using inside), lookup_filter, if_pos rfl]

def Target.Takes (place : Place) : Target → Prop
  | .present there (.file _) => there = place
  | .present _ .directory => False
  | .free there => there = place

structure TakesFile (disk : Disk) (place : Place) : Prop where
  within : ∃ holder name, place = holder ++ [name] ∧ disk.content? holder = some .directory
  free : disk.content? place ≠ some .directory

section Ways
variable {disk next : Disk} {place target : Place} {bytes : List UInt8}

theorem TakesFile.place_ne_nil (takes : disk.TakesFile place) : place ≠ [] := by
  obtain ⟨holder, name, rfl, -⟩ := takes.within
  exact List.concat_ne_nil name holder

def targetAt (disk : Disk) (place : Place) : Target :=
  match disk.content? place with
  | some content => .present place content
  | none => .free place

theorem targetAt_takes (takes : (disk.targetAt place).Takes target) :
    place = target ∧ disk.content? target ≠ some .directory := by
  unfold targetAt at takes
  split at takes
  · rename_i content held
    cases content with
    | directory => cases takes
    | file old =>
      cases takes
      exact ⟨rfl, by simp [held]⟩
  · rename_i held
    cases takes
    exact ⟨rfl, by simp [held]⟩

/-- A step that leads on from a place leads in every disk with a directory there to the same
    directory of the way, or else to the entry of that disk. Only a step to the parent leads up. -/
theorem step_cases {segment : FileName} {found : Target}
    (reached : disk.step place segment = .ok found) : disk.content? place = some .directory ∧
      ((∃ there, (there = place ∨ segment = Text.toUtf8 Path.parent) ∧
        ∀ next : Disk, next.content? place = some .directory →
          next.step place segment = .ok (.present there .directory)) ∨
      ∀ next : Disk, next.content? place = some .directory →
        next.step place segment = .ok (next.targetAt (place ++ [segment]))) := by
  unfold step at reached
  split at reached
  · cases reached
  · rename_i open_place
    refine ⟨Decidable.not_not.mp open_place, ?_⟩
    split at reached
    · rename_i still
      refine .inl ⟨place, .inl rfl, fun next here => ?_⟩
      rw [step, if_neg (Decidable.not_not.mpr here), if_pos still]
    · rename_i proper
      split at reached
      · rename_i parent
        refine .inl ⟨place.dropLast, .inr parent, fun next here => ?_⟩
        rw [step, if_neg (Decidable.not_not.mpr here), if_neg proper, if_pos parent]
      · rename_i no_parent
        split at reached
        · cases reached
        · rename_i short
          refine .inr fun next here => ?_
          rw [step, if_neg (Decidable.not_not.mpr here), if_neg proper, if_neg no_parent,
            if_neg short, targetAt]
          cases next.content? (place ++ [segment]) with
          | none => rfl
          | some content => rfl

theorem step_takes {segment : FileName} {found : Target}
    (reached : disk.step place segment = .ok found) (takes : found.Takes target) :
    disk.content? place = some .directory ∧ disk.TakesFile target ∧ target = place ++ [segment] ∧
      ∀ next : Disk, next.content? place = some .directory →
        next.step place segment = .ok (next.targetAt target) := by
  obtain ⟨directory, ⟨there, -, onward⟩ | onward⟩ := step_cases reached
  · have same := reached.symm.trans (onward disk directory)
    cases same
    cases takes
  · have same := reached.symm.trans (onward disk directory)
    cases same
    obtain ⟨rfl, free⟩ := targetAt_takes takes
    exact ⟨directory, ⟨⟨place, segment, rfl, directory⟩, free⟩, rfl, onward⟩

theorem step_onward {segment : FileName} {content : Content}
    (stepped : disk.step place segment = .ok (.present target content))
    (directory : disk.content? target = some .directory) :
    disk.content? place = some .directory ∧
      ∀ next : Disk, (∀ other, disk.content? other = some .directory →
        next.content? other = some .directory) →
          ∃ content, next.step place segment = .ok (.present target content) := by
  obtain ⟨here, ⟨there, -, onward⟩ | onward⟩ := step_cases stepped
  · refine ⟨here, fun next ways => ⟨.directory, ?_⟩⟩
    have same := stepped.symm.trans (onward disk here)
    cases same
    exact onward next (ways place here)
  · refine ⟨here, fun next ways => ⟨.directory, ?_⟩⟩
    have same := stepped.symm.trans (onward disk here)
    have entry : target = place ++ [segment] := by
      unfold targetAt at same
      split at same
      · cases same
        rfl
      · cases same
    rw [onward next (ways place here), targetAt, ← entry, ways target directory]

theorem walk_cons (disk : Disk) (place : Place) (segment : FileName) {rest : List FileName}
    (more : rest ≠ []) : disk.walk place (segment :: rest) =
      match disk.step place segment with
      | .ok (.present next _) => disk.walk next rest
      | .ok (.free _) => .error .missing
      | .error fault => .error fault := by
  cases rest with
  | nil => exact absurd rfl more
  | cons other rest =>
    exact walk.eq_def _ _ _

/-- A way that ends at a file, or where one could be, ends at the same place in every disk that has
    the directories of this one. -/
theorem walk_takes {names : List FileName} {found : Target} (named : names ≠ [])
    (reached : disk.walk place names = .ok found) (takes : found.Takes target) :
    disk.content? place = some .directory ∧ disk.TakesFile target ∧
      ∀ next : Disk, (∀ other, disk.content? other = some .directory →
        next.content? other = some .directory) →
          next.walk place names = .ok (next.targetAt target) := by
  induction names generalizing place with
  | nil => exact absurd rfl named
  | cons segment rest ih =>
    by_cases last : rest = []
    · subst last
      obtain ⟨directory, free, -, onward⟩ := step_takes reached takes
      exact ⟨directory, free, fun next ways => onward next (ways place directory)⟩
    · rw [walk_cons disk place segment last] at reached
      split at reached
      · rename_i between content stepped
        obtain ⟨inner, free, onward⟩ := ih last reached
        obtain ⟨directory, again⟩ := step_onward stepped inner
        refine ⟨directory, free, ?_⟩
        intro next ways
        obtain ⟨content, same⟩ := again next ways
        rw [walk_cons next place segment last, same]
        exact onward next ways
      · cases reached
      · cases reached

theorem segments_ne_nil (path : Text) : segments path ≠ [] := by
  rw [segments, ne_eq, List.map_eq_nil_iff]
  exact Text.split_ne_nil _ path

/-- A path that leads anywhere leads there by its segments, and so it does in every disk where they
    lead on. -/
theorem find_eq_walk {path : Text} {found : Target} (reached : disk.find path = .ok found) :
    disk.walk [] (segments path) = .ok found ∧
      ∀ next : Disk, next.find path = next.walk [] (segments path) := by
  unfold find at reached
  split at reached
  · cases reached
  · rename_i zero
    split at reached
    · cases reached
    · rename_i empty
      split at reached
      · cases reached
      · rename_i short
        refine ⟨reached, fun next => ?_⟩
        rw [find, if_neg zero, if_neg empty, if_neg short]

theorem find_takes {path : Text} {found : Target} (reached : disk.find path = .ok found)
    (takes : found.Takes target) : disk.TakesFile target ∧
      ∀ next : Disk, (∀ other, disk.content? other = some .directory →
        next.content? other = some .directory) → next.find path = .ok (next.targetAt target) := by
  obtain ⟨walked, again⟩ := find_eq_walk reached
  obtain ⟨-, free, onward⟩ := walk_takes (segments_ne_nil path) walked takes
  exact ⟨free, fun next ways => (again next).trans (onward next ways)⟩

theorem targetAt_file (held : disk.content? place = some (.file bytes)) :
    disk.targetAt place = .present place (.file bytes) := by
  rw [targetAt, held]

theorem targetAt_free (nothing : disk.content? place = none) :
    disk.targetAt place = .free place := by
  rw [targetAt, nothing]

theorem read_of_find {path : Text} (found : disk.find path = .ok (.present place (.file bytes))) :
    disk.read path = .ok bytes := by
  rw [read, found]

end Ways

section Files
variable {disk written : Disk} {path source : Text} {place : Place} {bytes : List UInt8}

theorem put_keeps_directories (free : disk.TakesFile place) (bytes : List UInt8) {other : Place}
    (directory : disk.content? other = some .directory) :
    (disk.put place (.file bytes)).content? other = some .directory := by
  rw [content?_put disk free.place_ne_nil, if_neg]
  · exact directory
  · rintro rfl
    exact free.free directory

theorem write_cases (wrote : disk.write path bytes = .ok written) : ∃ found place,
    disk.find path = .ok found ∧ found.Takes place ∧ written = disk.put place (.file bytes) := by
  unfold write at wrote
  split at wrote
  · rename_i place old reached
    cases wrote
    exact ⟨_, place, reached, rfl, rfl⟩
  · cases wrote
  · rename_i place reached
    cases wrote
    exact ⟨_, place, reached, rfl, rfl⟩
  · cases wrote

theorem rename_cases (renamed : disk.rename source path = .ok written) :
    ∃ found old place bytes, disk.find source = .ok (.present old (.file bytes)) ∧
      disk.find path = .ok found ∧ found.Takes place ∧
        written = (disk.remove old).put place (.file bytes) := by
  unfold rename at renamed
  split at renamed
  · rename_i old bytes place _ from_source reached
    cases renamed
    exact ⟨_, old, place, bytes, from_source, reached, rfl, rfl⟩
  · rename_i old bytes place from_source reached
    cases renamed
    exact ⟨_, old, place, bytes, from_source, reached, rfl, rfl⟩
  · cases renamed
  · cases renamed
  · cases renamed
  · cases renamed

theorem find_of_write (wrote : disk.write path bytes = .ok written) : ∃ place,
    disk.TakesFile place ∧ written.find path = .ok (.present place (.file bytes)) ∧
      ∀ other, other ≠ place → written.content? other = disk.content? other := by
  obtain ⟨found, place, reached, takes, rfl⟩ := write_cases wrote
  obtain ⟨free, onward⟩ := find_takes reached takes
  refine ⟨place, free, ?_, fun other apart => ?_⟩
  · rw [onward _ fun _ => put_keeps_directories free bytes, targetAt_file]
    rw [content?_put disk free.place_ne_nil, if_pos rfl]
  · rw [content?_put disk free.place_ne_nil, if_neg apart]

theorem read_of_write (wrote : disk.write path bytes = .ok written) :
    written.read path = .ok bytes := by
  obtain ⟨place, -, found, -⟩ := find_of_write wrote
  exact read_of_find found

theorem move_keeps_directories {old : Place} (leaves : disk.TakesFile old)
    (free : disk.TakesFile place) (bytes : List UInt8) {other : Place}
    (directory : disk.content? other = some .directory) :
    ((disk.remove old).put place (.file bytes)).content? other = some .directory := by
  rw [content?_put _ free.place_ne_nil, if_neg, content?_remove disk]
  · exact directory
  · rintro rfl
    exact leaves.free directory
  · rintro rfl
    exact free.free directory

/-- What a rename leaves: the file is found under the new path, nothing is left under the old one,
    and everything else is as it was. -/
theorem find_of_rename (renamed : disk.rename source path = .ok written) :
    ∃ found old place bytes, disk.find source = .ok (.present old (.file bytes)) ∧
      (disk.find path = .ok found ∧ found.Takes place) ∧
      written.find path = .ok (.present place (.file bytes)) ∧
      (old ≠ place → written.find source = .ok (.free old)) ∧
      ∀ other, other ≠ old → other ≠ place → written.content? other = disk.content? other := by
  obtain ⟨found, old, place, bytes, from_source, reached, takes, rfl⟩ := rename_cases renamed
  obtain ⟨leaves, still⟩ := find_takes from_source rfl
  obtain ⟨free, onward⟩ := find_takes reached takes
  refine ⟨found, old, place, bytes, from_source, ⟨reached, takes⟩, ?_, fun apart => ?_,
    fun other new behind => ?_⟩
  · rw [onward _ fun _ => move_keeps_directories leaves free bytes, targetAt_file]
    rw [content?_put _ free.place_ne_nil, if_pos rfl]
  · rw [still _ fun _ => move_keeps_directories leaves free bytes, targetAt_free]
    rw [content?_put _ free.place_ne_nil, if_neg apart, content?_remove_self disk leaves.place_ne_nil]
  · rw [content?_put _ free.place_ne_nil, if_neg behind, content?_remove disk new]

theorem read_of_rename (held : disk.read source = .ok bytes)
    (renamed : disk.rename source path = .ok written) : written.read path = .ok bytes := by
  obtain ⟨-, old, place, content, from_source, -, found, -, -⟩ := find_of_rename renamed
  rw [← held, read_of_find from_source]
  exact read_of_find found

end Files

end VirtualInstrument.Disk
