import ProductQuantization.Storage.FileSystem
import ProductQuantization.Storage.Path

/-!
# Disks

A `Disk` says what is where: a place is the list of the names on the way to it from the root, and
there can be a file with its contents or a directory.  One directory is the working directory.  A
path in text is followed from the root if it is absolute and from the working directory if it is
not, so that one place can be reached by many paths; everything on the way must be a directory.
`follow` tells apart whether one is missing or the way is blocked, because a missing one can be
made: `makeDirectories` tries the whole path first, and goes one directory up as long as that is
what is wrong.

Steps can also fail by mishap.  `mishaps` says for each step to come whether that happens; when the
list has run out, nothing fails any more except for a reason.  A step that fails by mishap changes
nothing.  Removing a file fails for a reason only.
-/

set_option autoImplicit false

namespace ProductQuantization

/-- What can be at a path. -/
inductive Entry where
  | file (bytes : List UInt8)
  | directory
deriving DecidableEq, Repr

/-- The names on the way to a place from the root. -/
abbrev Place := List String

/-- The directory that a place is in.  The root is in itself. -/
def Place.up (place : Place) : Place := place.dropLast

/-- Why a path does not lead to a place. -/
inductive Obstacle where
  /-- There is nothing where a directory should be. -/
  | missing
  /-- There is a file where a directory should be, or the path is none. -/
  | blocked
deriving DecidableEq, Repr

/-- Files and directories, and where relative paths begin. -/
structure Files where
  /-- What is where. -/
  tree : List (Place × Entry)
  /-- The working directory. -/
  here : Place
deriving DecidableEq

/-- Files and directories that steps are taken on. -/
structure Disk extends Files where
  /-- Which of the steps to come fail by mishap. -/
  mishaps : List Bool
deriving DecidableEq

namespace Disk

/-! ## Looking and changing -/

/-- Nothing but a working directory, directly below the root, and no mishaps. -/
def empty : Disk := ⟨⟨[], ["work"]⟩, []⟩

/-- What is in the working directory, as seen from there. -/
def entries (d : Disk) : List (Place × Entry) :=
  d.tree.filterMap fun (p, e) =>
    if d.here <+: p then some (p.drop d.here.length, e) else none

/-- What is at a place.  The working directory is there, and so are those above it. -/
def find? (d : Disk) (place : Place) : Option Entry :=
  if place <+: d.here then some .directory else d.tree.lookup place

/-- Whether there is a directory at a place. -/
def isDirectory (d : Disk) (place : Place) : Bool := d.find? place = some .directory

/-- Nothing at a place any more. -/
def erase (d : Disk) (place : Place) : Disk :=
  { d with tree := d.tree.filter fun (p, _) => p ≠ place }

/-- Put a file or a directory at a place. -/
def put (d : Disk) (place : Place) (e : Entry) : Disk :=
  { d with tree := (place, e) :: (d.erase place).tree }

/-! ## Paths -/

/-- The most bytes in a name. -/
def maxNameBytes : Nat := 255

/-- Follow what is left of a path from a place on.  There need not be anything at the end of it. -/
def follow (d : Disk) : Place → List String → Except Obstacle Place
  | here, [] => .ok here
  | here, piece :: rest =>
    match d.find? here with
    | none => .error .missing
    | some (.file _) => .error .blocked
    | some .directory =>
      if piece = "" ∨ piece = "." then d.follow here rest
      else if piece = ".." then d.follow here.up rest
      else if piece.utf8ByteSize ≤ maxNameBytes then d.follow (here ++ [piece]) rest
      else .error .blocked

/-- Where a path begins. -/
def start (d : Disk) (path : String) : Place := if Path.isAbsolute path then [] else d.here

/-- Where a path leads, if it leads anywhere.  The empty path does not. -/
def resolve (d : Disk) (path : String) : Option Place :=
  if path.isEmpty || !Path.wellFormed path then none
  else (d.follow (d.start path) (Path.pieces path)).toOption

/-- Make the directory at the end of what is left of a path, unless it is there.  Slashes at the end
do not count. -/
def makeDirectory (d : Disk) (start : Place) (pieces : List String) : Except Obstacle Disk := do
  let place ← d.follow start (pieces.reverse.dropWhile (· = "")).reverse
  match d.find? place with
  | some .directory => .ok d
  | some (.file _) => .error .blocked
  | none => .ok (d.put place .directory)

/-- Make the first of the given directories.  If something on the way to it is missing, the others
are made first, each of which is on the way to the one before it. -/
def makeFirst (d : Disk) (start : Place) : List (List String) → Bool × Disk
  | [] => (true, d)
  | pieces :: above =>
    match d.makeDirectory start pieces with
    | .ok d => (true, d)
    | .error .blocked => (false, d)
    | .error .missing =>
      match d.makeFirst start above with
      | (false, d) => (false, d)
      | (true, d) =>
        match d.makeDirectory start pieces with
        | .ok d => (true, d)
        | .error _ => (false, d)

/-! ## Steps -/

/-- A step that may fail by mishap. -/
def step {α : Type} (failed : α) (f : Disk → α × Disk) (d : Disk) : α × Disk :=
  match d.mishaps with
  | [] => f d
  | true :: rest => (failed, { d with mishaps := rest })
  | false :: rest => f { d with mishaps := rest }

/-- Whether there is a file or a directory under this path. -/
def isThere (path : String) (d : Disk) : Bool × Disk :=
  ((d.resolve path >>= d.find?).isSome, d)

/-- The contents of a file. -/
def readFile (path : String) (d : Disk) : Option (List UInt8) × Disk :=
  match d.resolve path >>= d.find? with
  | some (.file bytes) => (some bytes, d)
  | _ => (none, d)

/-- Make a file empty, new or not. -/
def createFile (path : String) (d : Disk) : Bool × Disk :=
  match d.resolve path with
  | none => (false, d)
  | some p => if d.isDirectory p then (false, d) else (true, d.put p (.file []))

/-- Replace the contents of a file. -/
def fillFile (path : String) (bytes : List UInt8) (d : Disk) : Bool × Disk :=
  match d.resolve path with
  | none => (false, d)
  | some p =>
    match d.find? p with
    | some (.file _) => (true, d.put p (.file bytes))
    | _ => (false, d)

/-- Nothing more is needed for the contents of a file to last. -/
def syncFile (path : String) (d : Disk) : Bool × Disk := isThere path d

/-- Give a file another path. -/
def renameFile (source target : String) (d : Disk) : Bool × Disk :=
  match d.resolve source, d.resolve target with
  | some p, some q =>
    match d.find? p with
    | some (.file bytes) =>
      if d.isDirectory q then (false, d) else (true, (d.erase p).put q (.file bytes))
    | _ => (false, d)
  | _, _ => (false, d)

/-- Remove a file. -/
def removeFile (path : String) (d : Disk) : Bool × Disk :=
  match d.resolve path with
  | none => (false, d)
  | some p =>
    match d.find? p with
    | some (.file _) => (true, d.erase p)
    | _ => (false, d)

/-- Make a directory and those above it.  For the empty path there is nothing to make. -/
def makeDirectories (path : String) (d : Disk) : Bool × Disk :=
  if path.isEmpty then (true, d)
  else if Path.wellFormed path then
    d.makeFirst (d.start path) (Path.pieces path :: Path.above path)
  else (false, d)

instance : FileSystem (StateM Disk) where
  isThere path := step false (isThere path)
  readFile path := step none (readFile path)
  createFile path := step false (createFile path)
  fillFile path bytes := step false (fillFile path bytes)
  syncFile path := step false (syncFile path)
  renameFile source target := step false (renameFile source target)
  removeFile := removeFile
  makeDirectories path := step false (makeDirectories path)

end Disk
end ProductQuantization
