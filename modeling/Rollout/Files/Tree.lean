import Rollout.Failure
import Rollout.Order
import Rollout.Files.Path

/-!
# File trees

Directories and files by place, in the order in which they were made. The root is always there. The
content of files is left open: the trees of this library hold databases, and texts that are none.

`FileTree.makeDirectories` makes a directory together with the ancestors that are missing. What it
made before it failed stays.
-/

namespace Rollout

/-- What is at a place. -/
inductive Entry (κ : Type) where
  | directory
  | file (content : κ)

/-- What is where, in order of making; of two entries of one place the first counts. -/
abbrev FileTree (κ : Type) := List (Place × Entry κ)

namespace FileTree

variable {κ : Type}

/-! ### Looking -/

/-- What is at a place. -/
def node? (tree : FileTree κ) (place : Place) : Option (Entry κ) :=
  match place with
  | [] => some .directory
  | place => tree.lookup place

/-- Something is at the place. -/
def holds (tree : FileTree κ) (place : Place) : Bool := (tree.node? place).isSome

/-- A directory is at the place. -/
def isDirectory (tree : FileTree κ) (place : Place) : Bool :=
  match tree.node? place with
  | some .directory => true
  | _ => false

/-- The content of the file at a place. -/
def content? (tree : FileTree κ) (place : Place) : Option κ :=
  match tree.node? place with
  | some (.file content) => some content
  | _ => none

/-! ### Paths that are too long -/

/-- The most bytes that a name may have. -/
def nameLimit : Nat := 255

/-- The most bytes that a path may have. -/
def pathLimit : Nat := 4095

/-- The name or the whole path is longer than a file system takes. Lengths are those of the encoded
text, and only the last name is looked at: the names before it were, when their directories were
made. -/
def isTooLong (path : Path) : Bool :=
  path.text.utf8ByteSize > pathLimit || (path.place.headD "").utf8ByteSize > nameLimit

/-- Something is found under a path. Nothing is found under one that is too long, even where a
place lies that deep. -/
def finds (tree : FileTree κ) (path : Path) : Bool := !isTooLong path && tree.holds path.place

/-- A directory is found under a path. -/
def findsDirectory (tree : FileTree κ) (path : Path) : Bool :=
  !isTooLong path && tree.isDirectory path.place

/-! ### Writing -/

/-- Adds an entry at a place where nothing is. -/
def add (place : Place) (entry : Entry κ) (tree : FileTree κ) : FileTree κ :=
  tree ++ [(place, entry)]

/-- Gives a file its content; a new file is added. -/
def write (place : Place) (content : κ) : FileTree κ → FileTree κ
  | [] => [(place, .file content)]
  | entry :: rest =>
    if entry.1 = place then (place, .file content) :: rest else entry :: write place content rest

/-- Takes away what is at a place. -/
def remove (place : Place) (tree : FileTree κ) : FileTree κ :=
  tree.filter fun entry => entry.1 ≠ place

/-! ### Making directories -/

/-- The null character, which no name may hold. -/
def hasNull (name : String) : Bool := name.toList.contains '\x00'

/-- Why a directory cannot be made, if so. The length of the whole path is looked at before the way
there is, that of the name only afterwards. -/
def obstacle? (tree : FileTree κ) (path : Path) : Option Failure :=
  if hasNull (path.place.headD "") then some .nullCharacter
  else if path.text.utf8ByteSize > pathLimit then some (.nameTooLong path.text)
  else if !tree.isDirectory path.parent.place then some (.notADirectory path.text)
  else if isTooLong path then some (.nameTooLong path.text)
  else none

/-- Makes one directory in a directory that is there. -/
def makeDirectory (tree : FileTree κ) (path : Path) : Except Failure Unit × FileTree κ :=
  match tree.obstacle? path with
  | some failure => (.error failure, tree)
  | none => (.ok (), tree.add path.place .directory)

/-- Makes a directory, and before it all ancestors that are missing. -/
def makeDirectories (doubled : Bool) (tree : FileTree κ) :
    Place → Except Failure Unit × FileTree κ
  | [] => (.ok (), tree)
  | name :: parent =>
    -- A parent that is found may still be a file, and then it is in the way.
    if tree.finds ⟨doubled, parent⟩ then tree.makeDirectory ⟨doubled, name :: parent⟩
    else
      -- What was made of the way stays, also when the rest fails.
      match makeDirectories doubled tree parent with
      | (.error failure, tree) => (.error failure, tree)
      | (.ok (), tree) => tree.makeDirectory ⟨doubled, name :: parent⟩

/-- Makes a directory of a name at a place, if it can be made there. -/
def makeNext (tree : FileTree κ) (place : Place) (name : String) : FileTree κ :=
  let next := Path.step place name
  if tree.holds next then tree else (tree.makeDirectory ⟨false, next⟩).2

/-- Makes the directories on the way of a text, from a working directory. They are made one by one,
so a name stays even where the text goes up again. -/
def makeAlong (tree : FileTree κ) (workingDirectory : Place) (text : String) : FileTree κ :=
  let start := (Path.ofText workingDirectory (if text.startsWith "/" then "/" else "")).place
  ((Text.pieces '/' text.toList).foldl (fun (tree, place) name =>
    (makeNext tree place (String.ofList name), Path.step place (String.ofList name)))
    (tree, start)).1

/-! ### Listing -/

/-- The text of an entry as seen from a directory, if it is below it. A directory ends in a
slash. -/
def line? (root : Place) (entry : Place × Entry κ) : Option String :=
  let path := entry.1.reverse
  -- What is at the root itself is not below it.
  if root.length < entry.1.length && root.reverse.isPrefixOf path then
    let text := "/".intercalate (path.drop root.length)
    match entry.2 with
    | .directory => some (text ++ "/")
    | .file _ => some text
  else none

/-- All that is below a directory, in the order of the texts. -/
def listing (tree : FileTree κ) (root : Place) : List String :=
  inOrder (fun s t => s < t) (tree.filterMap (line? root))

/-! ### Interface lemmas -/

@[simp] theorem node?_root (tree : FileTree κ) : tree.node? [] = some .directory := rfl

@[simp] theorem isDirectory_root (tree : FileTree κ) : tree.isDirectory [] = true := rfl

/-- The root is always found. -/
@[simp] theorem finds_root (tree : FileTree κ) (doubled : Bool) :
    tree.finds ⟨doubled, []⟩ = true := by cases doubled <;> rfl

/-- What is not the root is found among the entries. -/
theorem node?_eq_lookup {place : Place} (h : place ≠ []) (tree : FileTree κ) :
    tree.node? place = tree.lookup place := by
  cases place with
  | nil => exact absurd rfl h
  | cons name parent => rfl

/-- What is at a place is a matter of the entries of that place. -/
theorem node?_congr {tree other : FileTree κ} {place : Place}
    (h : tree.lookup place = other.lookup place) : tree.node? place = other.node? place := by
  cases place with
  | nil => rfl
  | cons name parent => exact h

/-- A place that holds nothing is one at which nothing is. -/
theorem node?_eq_none_iff {tree : FileTree κ} {place : Place} :
    tree.node? place = none ↔ tree.holds place = false := by
  rw [holds, Option.isSome_eq_false_iff, Option.isNone_iff_eq_none]

/-- Something is at the root. -/
theorem ne_root_of_missing {tree : FileTree κ} {place : Place} (h : tree.holds place = false) :
    place ≠ [] := by
  intro hroot
  rw [hroot] at h
  cases h

/-- What is there hides all that comes later. -/
theorem node?_append_of_holds {tree : FileTree κ} {place : Place} (h : tree.holds place = true)
    (added : FileTree κ) : node? (tree ++ added) place = tree.node? place := by
  cases place with
  | nil => rfl
  | cons name parent =>
    rw [holds, node?_eq_lookup (List.cons_ne_nil _ _)] at h
    rw [node?_eq_lookup (List.cons_ne_nil _ _), node?_eq_lookup (List.cons_ne_nil _ _),
      List.lookup_append, Option.or_of_isSome h]

/-- Where nothing is, the entries that come later are looked at. -/
theorem node?_append_of_missing {tree : FileTree κ} {place : Place} (h : tree.holds place = false)
    (added : FileTree κ) : node? (tree ++ added) place = added.lookup place := by
  have hroot := ne_root_of_missing h
  rw [node?_eq_lookup hroot, List.lookup_append, ← node?_eq_lookup hroot,
    node?_eq_none_iff.mpr h, Option.none_or]

/-- Where nothing was, the entry that is added is found. -/
theorem node?_add_self {tree : FileTree κ} {place : Place} (h : tree.holds place = false)
    (entry : Entry κ) : (tree.add place entry).node? place = some entry := by
  rw [add, node?_append_of_missing h, List.lookup_cons_self]

/-- Adding an entry changes nothing elsewhere. -/
theorem node?_add_of_ne {place other : Place} (h : other ≠ place) (tree : FileTree κ)
    (entry : Entry κ) : (tree.add place entry).node? other = tree.node? other := by
  cases hholds : tree.holds other with
  | true => exact node?_append_of_holds hholds _
  | false =>
    rw [add, node?_append_of_missing hholds, node?_eq_none_iff.mpr hholds, List.lookup_cons,
      beq_eq_false_iff_ne.mpr h]
    rfl

/-- Where an entry was added something is. -/
theorem holds_add_self (tree : FileTree κ) (place : Place) (entry : Entry κ) :
    (tree.add place entry).holds place = true := by
  cases hholds : tree.holds place with
  | true =>
    rw [holds, add, node?_append_of_holds hholds]
    exact hholds
  | false =>
    rw [holds, node?_add_self hholds]
    rfl

/-- A directory is something. -/
theorem holds_of_isDirectory {tree : FileTree κ} {place : Place}
    (h : tree.isDirectory place = true) : tree.holds place = true := by
  unfold isDirectory at h
  unfold holds
  split at h <;> simp_all

end FileTree

end Rollout
