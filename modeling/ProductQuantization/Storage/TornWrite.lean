import ProductQuantization.Storage.Disk

/-!
# Writes that stop half-way

On a `Disk` a write that fails by mishap has written nothing.  A real one can stop anywhere, with
the first bytes in the file already.  A `FragileDisk` is a disk with such writes: `torn` says of
each write to come that fails by mishap how many bytes it gets written before it does.  All other
steps are those of the disk.
-/

set_option autoImplicit false

namespace ProductQuantization

/-- A disk on which writes can stop half-way. -/
structure FragileDisk where
  disk : Disk
  /-- How many bytes are written by the writes to come that fail by mishap; none when the list has
  run out. -/
  torn : List Nat

namespace FragileDisk

/-- A step of the disk. -/
def onDisk {α : Type} (f : Disk → α × Disk) (d : FragileDisk) : α × FragileDisk :=
  ((f d.disk).1, { d with disk := (f d.disk).2 })

/-- Replace the contents of a file.  If that fails by mishap, the first bytes are there. -/
def fillFile (path : String) (bytes : List UInt8) (d : FragileDisk) : Bool × FragileDisk :=
  match d.disk.mishaps with
  | true :: rest =>
    let begun := bytes.take (d.torn.headD 0)
    (false, ⟨(Disk.fillFile path begun { d.disk with mishaps := rest }).2, d.torn.tail⟩)
  | _ => onDisk (Disk.step false (Disk.fillFile path bytes)) d

instance : FileSystem (StateM FragileDisk) where
  isThere path := onDisk (Disk.step false (Disk.isThere path))
  readFile path := onDisk (Disk.step none (Disk.readFile path))
  createFile path := onDisk (Disk.step false (Disk.createFile path))
  fillFile := fillFile
  syncFile path := onDisk (Disk.step false (Disk.syncFile path))
  renameFile source target := onDisk (Disk.step false (Disk.renameFile source target))
  removeFile path := onDisk (Disk.removeFile path)
  makeDirectories path := onDisk (Disk.step false (Disk.makeDirectories path))

end FragileDisk
end ProductQuantization
