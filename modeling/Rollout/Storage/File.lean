import Rollout.Calendar
import Rollout.Files.StatePath
import Rollout.Storage.Companion

/-!
# Access to database files

Every access finds its file anew (`Disk.connect`): it resolves the name, makes the directory if it
is missing, and makes an empty file if there is none. A statement that fails leaves the file as it
was.

Statements that write rows ask for leave to write before they look for any (`Disk.transact`);
statements that make and take away whole tables write only what is to be changed (`Disk.reshape`).
-/

namespace Rollout

/-- Where and when a store is used. The moment is part of it because the stores write it down; it
does not change while a store is used. -/
structure Surroundings where
  workingDirectory : Place
  /-- The name of the file that is used if none is named. -/
  databasePath : Value
  now : Int

/-- What is done to files. A failure keeps what was done before it: directories that were made on
the way to a file stay. -/
abbrev Disk (α : Type) := ExceptT Failure (StateM Files) α

namespace Disk

/-- The most bytes that the path of a database file may have. -/
def pathLimit : Nat := 504

/-- A function on files as something that is done to them. -/
def ofFunction {α : Type} (f : Files → Except Failure α × Files) : Disk α := f

/-- The file at a path cannot be opened or made. -/
def isUnopenable (files : Files) (path : Path) : Bool :=
  files.isDirectory path.place || !files.isDirectory path.parent.place ||
    FileTree.isTooLong path || path.text.utf8ByteSize > pathLimit

/-- Opens the file at a path; a new file is empty. -/
def openFile (path : Path) (files : Files) : Except Failure Place × Files :=
  -- The null character is refused before the file system is asked.
  if path.place.any FileTree.hasNull then (.error .nullCharacter, files)
  else if isUnopenable files path then (.error (.storage .unopenable), files)
  else if files.holds path.place then (.ok path.place, files)
  else (.ok path.place, files.add path.place (.file (.text "")))

/-- Finds and opens the file of a name. It is done at the beginning of every access, so a store
holds nothing but a name from one access to the next. -/
def connect (site : Surroundings) (name : Value) : Disk Place := do
  let path ← ofFunction (StatePath.resolve site.workingDirectory site.databasePath name)
  ofFunction (openFile path)

/-- The database in the file at a place, and how it is accessed. -/
def databaseAt (place : Place) : Disk (Access × Database) := do
  match (← get).content? place with
  | none => throw (.storage .unopenable)
  | some content =>
    -- What others have left beside the file is dealt with before its content is looked at.
    let access ← ofFunction (Companion.settle place content)
    return (access, ← content.database?)

/-- Answers from the database at a place. -/
def query {α : Type} (place : Place) (f : Database → Except Failure α) : Disk α := do
  f (← databaseAt place).2

/-- Writes a database to the file at a place, if it was changed. -/
def store (access : Access) (place : Place) (before after : Database) : Disk Unit := do
  -- A database that is the same is not written, and then no leave is needed.
  if after ≠ before then ofFunction (Companion.store access place after)

/-- Writes rows of the database at a place, unless that fails. What must be there or be unique is
checked row by row, and so only after there is leave to write. -/
def transact {α : Type} (place : Place) (f : Database → Except Failure (α × Database)) :
    Disk α := do
  let (access, database) ← databaseAt place
  let result := f database
  -- Without leave to write, a statement without a table or with a value that no parameter takes
  -- still says so; one that would have come to the rows says that it may not write.
  if access = .logged false then
    match result with
    | .error failure => if failure.kind ≠ .integrity then throw failure
    | .ok _ => pure ()
    throw (.storage .readOnly)
  let (answer, changed) ← result
  store access place database changed
  return answer

/-- Writes rows of the database at a place, without an answer. -/
def change (place : Place) (f : Database → Except Failure Database) : Disk Unit :=
  transact place fun database => (f database).map ((), ·)

/-- Makes or takes away tables of the database at a place. -/
def reshape (place : Place) (f : Database → Except Failure Database) : Disk Unit := do
  let (access, database) ← databaseAt place
  store access place database (← f database)

/-- Makes the tables that are missing in the file of a name. -/
def initialise (site : Surroundings) (name : Value) : Disk Unit := do
  reshape (← connect site name) fun database => .ok database.initialise

/-- Fails with the cause, or goes on with the answer. -/
def ofExcept {α : Type} (result : Except Failure α) : Disk α :=
  ofFunction fun files => (result, files)

/-- A statement that was read. -/
def ofStatement {α : Type} (read : Except StorageFault α) : Disk α :=
  ofExcept (read.mapError .storage)

/-- The moment as a text. -/
def timestamp (site : Surroundings) : Disk String := ofExcept (Calendar.timestamp site.now)

/-- Words failures of the database by what a store was doing. Working out what that was may fail
itself. -/
def during {α : Type} (action : Except Failure StoreAction) (work : Disk α) : Disk α :=
  ofFunction fun files =>
    -- Only faults of the database are worded; any other failure passes as it is.
    match work files with
    | (.error (.storage fault), files) =>
      match action with
      | .ok action => (.error (.repository action fault), files)
      | .error failure => (.error failure, files)
    | result => result

/-- The action on a value, if the value can be worded. -/
def actionOn (action : Value → StoreAction) (subject : Value) : Except Failure StoreAction :=
  if subject.writable then .ok (action subject) else .error .unwritable

end Disk

end Rollout
