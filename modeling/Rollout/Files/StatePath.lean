import Rollout.Files.Tree

/-!
# Where state is kept

State is kept in one file, named by a text or by a default. If the name leads to a directory, the
file lies inside it under a name of its own. The directory of the file is made if it is missing, and
nothing else is touched, so resolving a name again leads to the same file.
-/

namespace Rollout.StatePath

variable {κ : Type}

/-- The name of a state file inside a directory that was named in its place. -/
def fileName : String := "relman.db"

/-- The file that a path leads to. The tree is looked at for this, so the same path may lead
elsewhere when a directory comes to stand in its place. -/
def settle (tree : FileTree κ) (path : Path) : Path :=
  if tree.findsDirectory path then path.inside fileName else path

/-- Makes the directory of a path if it is missing. -/
def prepare (tree : FileTree κ) (path : Path) : Except Failure Unit × FileTree κ :=
  if tree.finds path.parent then (.ok (), tree)
  else tree.makeDirectories path.doubled path.parent.place

/-- The state file of a text. -/
def ofText (workingDirectory : Place) (tree : FileTree κ) (text : String) :
    Except Failure Path × FileTree κ :=
  let path := settle tree (.ofText workingDirectory text)
  let prepared := prepare tree path
  (prepared.1.map fun _ => path, prepared.2)

/-- The state file of a name that may be absent or empty; then the default counts. A name that is
neither a text nor absent is refused before anything is made. -/
def resolve (workingDirectory : Place) (default given : Value) (tree : FileTree κ) :
    Except Failure Path × FileTree κ :=
  match if given.isTrue then given else default with
  | .text text => ofText workingDirectory tree text
  | _ => (.error .unsuitable, tree)

/-- A directory that is there needs no preparation. -/
theorem prepare_of_finds {tree : FileTree κ} {path : Path}
    (h : tree.finds path.parent = true) : prepare tree path = (.ok (), tree) := by
  simp [prepare, h]

end Rollout.StatePath
