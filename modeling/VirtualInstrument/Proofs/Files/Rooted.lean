import VirtualInstrument.Proofs.Files.Disk
/- A disk has the directory of everything that is on it. All that is done on a disk keeps it so: files
   and directories are made in directories, and only files are taken away. -/
namespace VirtualInstrument.Disk

/-- The directory of everything on the disk is on the disk. -/
def Rooted (disk : Disk) : Prop := ∀ place segment content,
  disk.content? (place ++ [segment]) = some content → disk.content? place = some .directory

section Rooted
variable {disk after : Disk} {place : Place}

theorem rooted_empty : empty.Rooted := by
  intro place segment content held
  have listed : (place ++ [segment]).isEmpty = false := by simp
  rw [content?, listed] at held
  cases held

theorem Rooted.directory_above (rooted : disk.Rooted) {down : Place} {content : Content}
    (held : disk.content? (place ++ down) = some content) (below : down ≠ []) :
    disk.content? place = some .directory := by
  induction down generalizing place with
  | nil => exact absurd rfl below
  | cons segment down ih =>
    rw [List.append_cons] at held
    by_cases last : down = []
    · subst last
      rw [List.append_nil] at held
      exact rooted place segment content held
    · exact rooted place segment .directory (ih held last)

theorem Rooted.put (rooted : disk.Rooted) (takes : disk.TakesFile place) (content : Content) :
    (disk.put place content).Rooted := by
  intro holder name found held
  have here : disk.content? holder = some .directory := by
    rw [content?_put disk takes.place_ne_nil] at held
    split at held
    · rename_i same
      obtain ⟨other, last, rfl, directory⟩ := takes.within
      rw [(List.append_inj' same rfl).1]
      exact directory
    · exact rooted holder name found held
  rw [content?_put disk takes.place_ne_nil, if_neg]
  · exact here
  · rintro rfl
    exact takes.free here

theorem Rooted.remove (rooted : disk.Rooted) (takes : disk.TakesFile place) :
    (disk.remove place).Rooted := by
  intro holder name found held
  have apart : holder ++ [name] ≠ place := by
    rintro rfl
    rw [content?_remove_self disk takes.place_ne_nil] at held
    cases held
  rw [content?_remove disk apart] at held
  have here := rooted holder name found held
  rw [content?_remove disk]
  · exact here
  · rintro rfl
    exact takes.free here

theorem TakesFile.remove (takes : disk.TakesFile place) {old : Place}
    (leaves : disk.TakesFile old) : (disk.remove old).TakesFile place := by
  constructor
  · obtain ⟨holder, name, entry, directory⟩ := takes.within
    refine ⟨holder, name, entry, ?_⟩
    rw [content?_remove disk]
    · exact directory
    · rintro rfl
      exact leaves.free directory
  · by_cases same : place = old
    · subst same
      rw [content?_remove_self disk takes.place_ne_nil]
      exact Option.some_ne_none _ ∘ Eq.symm
    · rw [content?_remove disk same]
      exact takes.free

theorem Rooted.makeWay {names : List FileName} (rooted : disk.Rooted)
    (made : disk.makeWay place names = .ok after) : after.Rooted := by
  induction names generalizing disk place with
  | nil =>
    cases made
    exact rooted
  | cons segment rest ih =>
    rw [Disk.makeWay] at made
    split at made
    · exact ih rooted made
    · cases made
    · rename_i next stepped
      obtain ⟨-, takes, -⟩ := step_takes stepped rfl
      exact ih (rooted.put takes .directory) made
    · cases made

theorem Rooted.write {path : Text} {bytes : List UInt8} (rooted : disk.Rooted)
    (wrote : disk.write path bytes = .ok after) : after.Rooted := by
  obtain ⟨found, target, reached, takes, rfl⟩ := write_cases wrote
  exact rooted.put (find_takes reached takes).1 _

theorem Rooted.rename {source path : Text} (rooted : disk.Rooted)
    (renamed : disk.rename source path = .ok after) : after.Rooted := by
  obtain ⟨found, old, target, bytes, from_source, reached, takes, rfl⟩ := rename_cases renamed
  have leaves := (find_takes from_source rfl).1
  exact (rooted.remove leaves).put ((find_takes reached takes).1.remove leaves) _

end Rooted

end VirtualInstrument.Disk
