import VirtualInstrument.Files.Disk
/- The calls by which a program reaches its files, with every outcome that each of them may have. A
   call that succeeds does what it does on the disk. One that fails may have begun its work: some of
   the directories are there, or the beginning of what was to be written. Only a rename is done at
   once or not at all. -/
namespace VirtualInstrument

/-- What each call returns; those that change the disk leave another one, whether they succeed or
    fail. -/
structure FileCalls where
  access : Disk → Text → Except FileFault Unit
  read : Disk → Text → Except FileFault (List UInt8)
  makeDirectories : Disk → Text → Except FileFault Unit × Disk
  write : Disk → Text → List UInt8 → Except FileFault Unit × Disk
  rename : Disk → Text → Text → Except FileFault Unit × Disk

namespace FileCalls

/-- A call may fail for any reason; only that nothing is there at a path is found no more often than
    it is so. -/
structure Lawful (calls : FileCalls) : Prop where
  access_done {disk path} (done : calls.access disk path = .ok ()) : disk.access path = .ok ()
  access_missing {disk path} (missing : calls.access disk path = .error .missing) :
    disk.access path = .error .missing
  read_done {disk path bytes} (done : calls.read disk path = .ok bytes) :
    disk.read path = .ok bytes
  directories_done {disk path after} (done : calls.makeDirectories disk path = (.ok (), after)) :
    disk.makeDirectories path = .ok after
  directories_failed {disk path fault after}
    (failed : calls.makeDirectories disk path = (.error fault, after)) :
    ∃ front, front <+: Disk.segments path ∧ disk.makeWay [] front = .ok after
  write_done {disk path bytes after} (done : calls.write disk path bytes = (.ok (), after)) :
    disk.write path bytes = .ok after
  write_failed {disk path bytes fault after}
    (failed : calls.write disk path bytes = (.error fault, after)) :
    after = disk ∨ ∃ part, part <+: bytes ∧ disk.write path part = .ok after
  rename_done {disk source path after} (done : calls.rename disk source path = (.ok (), after)) :
    disk.rename source path = .ok after
  rename_failed {disk source path fault after}
    (failed : calls.rename disk source path = (.error fault, after)) : after = disk

def wholly (disk : Disk) : Except FileFault Disk → Except FileFault Unit × Disk
  | .ok after => (.ok (), after)
  | .error fault => (.error fault, disk)

def plain : FileCalls where
  access := Disk.access
  read := Disk.read
  makeDirectories disk path := wholly disk (disk.makeDirectories path)
  write disk path bytes := wholly disk (disk.write path bytes)
  rename disk source path := wholly disk (disk.rename source path)

section Plain
variable {disk after : Disk} {outcome : Except FileFault Disk}

theorem wholly_done (done : wholly disk outcome = (.ok (), after)) : outcome = .ok after := by
  cases outcome with
  | ok next =>
    cases done
    rfl
  | error fault => cases done

theorem wholly_failed {fault : FileFault} (failed : wholly disk outcome = (.error fault, after)) :
    after = disk := by
  cases outcome with
  | ok next => cases failed
  | error fault =>
    cases failed
    rfl

theorem plain_lawful : plain.Lawful where
  access_done done := done
  access_missing missing := missing
  read_done done := done
  directories_done := wholly_done
  directories_failed failed := ⟨[], List.nil_prefix, congrArg Except.ok (wholly_failed failed).symm⟩
  write_done := wholly_done
  write_failed failed := .inl (wholly_failed failed)
  rename_done := wholly_done
  rename_failed := wholly_failed

end Plain

end FileCalls

end VirtualInstrument
