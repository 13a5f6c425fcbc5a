import Rollout.Text.Pieces

/-!
# Paths

An absolute path is the names on the way to a place in the file tree. A `Place` lists them from the
inside out, so that the parent of a place is the tail of the list and the root is the empty list.

Relative texts start from a working directory. The normal form is found by looking at the text only:
empty names and `.` are dropped, and `..` takes the name before it away, whether or not anything is
there. Exactly two slashes in front are kept as two; they still mean the same place.
-/

namespace Rollout

/-- The names on the way to a place in the file tree, from the inside out. -/
abbrev Place := List String

/-- An absolute path in normal form. A path may begin with a doubled stroke, which is kept and shows
only in its text. -/
structure Path where
  doubled : Bool
  place : Place
deriving DecidableEq, Repr

namespace Path

/-! ### Normal form -/

/-- Goes on from a place by one name. Going up from the root stays there, as the tail of no names is
no names. -/
def step (place : Place) (name : String) : Place :=
  if name = "" ∨ name = "." then place
  else if name = ".." then place.tail
  else name :: place

/-- Goes on from a place by the names of a text. -/
def walk (place : Place) (text : String) : Place :=
  (Text.pieces '/' text.toList).foldl (fun place name => step place (String.ofList name)) place

/-- Exactly two slashes stand in front. More than two are one. -/
def isDoubled : List Char → Bool
  | '/' :: '/' :: '/' :: _ => false
  | '/' :: '/' :: _ => true
  | _ => false

/-- The path of a text, from a working directory. -/
def ofText (workingDirectory : Place) (text : String) : Path :=
  match text.toList with
  | '/' :: _ => ⟨isDoubled text.toList, walk [] text⟩
  | _ => ⟨false, walk workingDirectory text⟩

/-! ### Parts and text -/

/-- The path one level up. -/
def parent (path : Path) : Path := { path with place := path.place.tail }

/-- The path of a name inside a directory. -/
def inside (path : Path) (name : String) : Path := { path with place := name :: path.place }

/-- The text of a path. -/
def text (path : Path) : String :=
  (if path.doubled then "//" else "/") ++ "/".intercalate path.place.reverse

@[simp] theorem parent_inside (path : Path) (name : String) :
    (path.inside name).parent = path := rfl

@[simp] theorem step_empty (place : Place) : step place "" = place := by simp [step]

@[simp] theorem step_dot (place : Place) : step place "." = place := by simp [step]

@[simp] theorem step_dots (place : Place) : step place ".." = place.tail := by simp [step]

end Path

end Rollout
