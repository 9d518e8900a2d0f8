import ProductQuantization.Text.Split

/-!
# Paths

A path is text whose components stand between slashes.  Empty components and the component `.`
stand for nothing; `..` goes one directory up.  The file name of a path is its last component,
unless that is `..`; the extension is what follows the last dot of the file name, provided that
something comes before the dot.

A path that begins with a slash is absolute: its components lead from the root.  Those of any other
path lead from the working directory.

A file system takes a path only if it is `wellFormed`: short enough, and without the character that
ends a text there.
-/

set_option autoImplicit false

namespace ProductQuantization
namespace Path

/-- What stands between the slashes. -/
def pieces (path : String) : List String :=
  (Text.splitAt '/' path.toList).map String.ofList

/-- The components that stand for something. -/
def components (path : String) : List String :=
  (pieces path).filter fun c => c ≠ "" ∧ c ≠ "."

/-- The ways to the directories above, the nearest first, as lists of components. -/
def above (path : String) : List (List String) :=
  let directory := (components path).dropLast
  (List.range directory.length).reverse.map fun k => directory.take (k + 1)

/-- Whether the components lead from the root. -/
def isAbsolute (path : String) : Bool := path.toList.head? = some '/'

/-- The least number of bytes that is too much for a path. -/
def tooManyBytes : Nat := 4096

/-- Whether a file system takes the path. -/
def wellFormed (path : String) : Bool :=
  path.utf8ByteSize < tooManyBytes && path.toList.all (· ≠ '\x00')

/-- The last component, if it is a name. -/
def fileName? (path : String) : Option String :=
  match (components path).getLast? with
  | some name => if name = ".." then none else some name
  | none => none

/-- What follows the last dot of the file name. -/
def extension? (path : String) : Option String := do
  let name ← fileName? path
  match (Text.splitAt '.' name.toList).reverse with
  | last :: before =>
    if before.all List.isEmpty && before.length ≤ 1 then none else some (String.ofList last)
  | [] => none

/-- The path of a file in a directory.  The empty path is that of the working directory. -/
def join (directory name : String) : String :=
  if directory.isEmpty || directory.endsWith "/" then directory ++ name
  else directory ++ "/" ++ name

end Path
end ProductQuantization
