import ProductQuantization.CommandLine.Run

/-!
# The program

The command line run on the disk of the machine.
-/

set_option autoImplicit false

namespace ProductQuantization
namespace Machine

/-- The answer of an action, if it succeeds. -/
def attempt? {α : Type} (action : IO α) : IO (Option α) := do
  try return some (← action) catch _ => return none

/-- Whether an action succeeds. -/
def succeeds (action : IO Unit) : IO Bool := do
  return (← attempt? action).isSome

/-- Open a file without reading or changing it. -/
def openFile (path : String) (mode : IO.FS.Mode) : IO Unit := do
  let _ ← IO.FS.Handle.mk path mode

instance : FileSystem IO where
  isThere path := succeeds (openFile path .read)
  readFile path := do
    let bytes ← attempt? (IO.FS.readBinFile path)
    return bytes.map ByteArray.toList
  createFile path := succeeds (openFile path .write)
  fillFile path bytes := succeeds (IO.FS.writeBinFile path ⟨bytes.toArray⟩)
  syncFile path := succeeds do
    let file ← IO.FS.Handle.mk path .append
    file.flush
  renameFile source target := succeeds (IO.FS.rename source target)
  removeFile path := succeeds (IO.FS.removeFile path)
  makeDirectories path := succeeds (IO.FS.createDirAll path)

end Machine
end ProductQuantization

/-- Run the program and print what it comes to. -/
def main (arguments : List String) : IO UInt32 := do
  let outcome ← (ProductQuantization.CommandLine.run arguments : IO ProductQuantization.Outcome)
  IO.print outcome.output
  IO.eprint outcome.errors
  return outcome.exitCode.toUInt32
