import ProductQuantization.Error

/-!
# Steps on stored files

Everything that the library does to files is made of the steps of the class `FileSystem`, so that a
job can be run on a real disk and reasoned about on a `Disk`.  Every step can fail, and a step that
fails says no more than that.

`readFile` gives the contents of a file in one piece.  A file is written in three steps: it is made
empty, it is filled, and what was written is made to last.
-/

set_option autoImplicit false

namespace ProductQuantization

/-- A monad in which files can be read and changed. -/
class FileSystem (m : Type → Type) where
  /-- Whether there is a file or a directory under this path. -/
  isThere : String → m Bool
  /-- The contents of a file. -/
  readFile : String → m (Option (List UInt8))
  /-- Make a file empty, new or not. -/
  createFile : String → m Bool
  /-- Fill an empty file. -/
  fillFile : String → List UInt8 → m Bool
  /-- Make the contents of a file last. -/
  syncFile : String → m Bool
  /-- Give a file another path, in place of whatever file has that path. -/
  renameFile : String → String → m Bool
  /-- Remove a file. -/
  removeFile : String → m Bool
  /-- Make a directory, and those above it, where they are not there yet. -/
  makeDirectories : String → m Bool

namespace Storage

variable {m : Type → Type} [Monad m] {ε : Type}

/-- A step that must not fail. -/
def require (error : ε) (step : m Bool) : ExceptT ε m Unit := do
  if ← step then pure () else throw error

/-- The contents of a file that must be there. -/
def contents [FileSystem m] (error : ε) (path : String) : ExceptT ε m (List UInt8) := do
  match ← (FileSystem.readFile path : m (Option (List UInt8))) with
  | some bytes => pure bytes
  | none => throw error

end Storage
end ProductQuantization
