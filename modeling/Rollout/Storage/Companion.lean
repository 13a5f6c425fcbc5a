import Rollout.Files.Tree
import Rollout.Storage.Database

/-!
# Database files and their companions

The files of a tree hold databases, texts, or bytes that are neither; a file of at most one byte is
taken for a database without tables.

Three companions may stand beside a file, under its name with an ending: the journal, which is
needed while the file is changed; the log of changes that are to be brought into the file; and the
index of that log. They may have been left behind by others, so they are looked at before every
access (`Companion.settle`):

* what was left of a journal is brought back and taken away, unless it starts with the null
  character;
* a log that was left turns the access into a logged one, for which the index of the log is made; a
  file without content has nothing to be logged, so its log is taken away;
* a directory in the place of a companion is in the way.

`Access` says what may be done afterwards.
-/

namespace Rollout

/-- What is in a file: a text, a database, or bytes that are neither. Only the length of a text and
its first character matter to the database. -/
inductive Content where
  | text (s : String)
  | database (database : Database)
  | bytes

namespace Content

/-- The file has no bytes. -/
def isEmpty : Content → Bool
  | .text s => s.isEmpty
  | _ => false

/-- The file is taken for one without bytes. -/
def isBlank : Content → Bool
  | .text s => s.utf8ByteSize ≤ 1
  | _ => false

/-- The file has bytes, and does not start with the null character. -/
def isStarted : Content → Bool
  | .text s => s.toList.head?.any (· ≠ '\x00')
  | _ => true

/-- The database in a file. -/
def database? (content : Content) : Except Failure Database :=
  match content with
  | .database stored => .ok stored
  | content => if content.isBlank then .ok .blank else .error (.storage .notDatabase)

end Content

/-- A file tree with databases. -/
abbrev Files := FileTree Content

/-- How a file is accessed. -/
inductive Access where
  | journalled
  /-- Changes are logged, unless the log has no index. -/
  | logged (isIndexed : Bool)
deriving DecidableEq, Repr

namespace Companion

/-! ### Places -/

/-- The place beside a file under its name with an ending. -/
def beside (ending : String) : Place → Place
  | [] => []
  | name :: parent => (name ++ ending) :: parent

/-- Where the journal of a file is. -/
def journal (place : Place) : Place := beside "-journal" place

/-- Where the log of a file is. -/
def log (place : Place) : Place := beside "-wal" place

/-- Where the index of the log of a file is. -/
def index (place : Place) : Place := beside "-shm" place

/-! ### Before an access -/

/-- What is at the place of a companion; a file without bytes is as good as none. -/
def left? (place : Place) (files : Files) : Option (Entry Content) :=
  (files.node? place).filter fun
    | .file content => !content.isEmpty
    | .directory => true

/-- Looks at the journal of a file. A file without content has nothing to be brought back, so its
journal is taken away, and a directory in its place is not noticed. -/
def settleJournal (place : Place) (content : Content) (files : Files) :
    Except Failure Unit × Files :=
  match left? (journal place) files with
  | none => (.ok (), files)
  | some .directory =>
    if content.isBlank then (.ok (), files) else (.error (.storage .unreadable), files)
  | some (.file left) =>
    if content.isBlank || left.isStarted then (.ok (), files.remove (journal place))
    else (.ok (), files)

/-- Looks at the log of a file. -/
def settleLog (place : Place) (content : Content) (files : Files) :
    Except Failure Access × Files :=
  match left? (log place) files with
  | none => (.ok .journalled, files)
  | some .directory =>
    (.error (.storage (if content.isBlank then .unreadable else .unopenable)), files)
  | some (.file _) =>
    -- A log of nothing is taken away.
    if content.isBlank then (.ok .journalled, files.remove (log place))
    -- The index cannot be made where a directory stands, so changes cannot be logged.
    else if files.isDirectory (index place) then (.ok (.logged false), files)
    else (.ok (.logged true), files.write (index place) .bytes)

/-- Looks at the companions of a file before it is accessed. The journal comes first, and if it is
in the way the log is not looked at. -/
def settle (place : Place) (content : Content) (files : Files) : Except Failure Access × Files :=
  match settleJournal place content files with
  | (.ok (), files) => settleLog place content files
  | (.error failure, files) => (.error failure, files)

/-! ### Changes -/

/-- The journal of a file has no place. -/
def isUnjournalled (place : Place) (files : Files) : Bool :=
  files.isDirectory (journal place) ||
    ((journal place).headD "").utf8ByteSize > FileTree.nameLimit

/-- Writes a changed database to the file at a place. The journal is gone afterwards; a log
stays. -/
def store (access : Access) (place : Place) (database : Database) (files : Files) :
    Except Failure Unit × Files :=
  match access with
  | .journalled =>
    -- A change needs a journal, so it fails where the journal has no place.
    if isUnjournalled place files then (.error (.storage .unopenable), files)
    else (.ok (), FileTree.write place (.database database) (files.remove (journal place)))
  | .logged true =>
    (.ok (), FileTree.write place (.database database) (FileTree.write (log place) .bytes files))
  -- Without an index there can be reading only.
  | .logged false => (.error (.storage .readOnly), files)

/-- What is below a directory. Journals come and go, and are left out. -/
def listing (files : Files) (root : Place) : List String :=
  let isJournal : Place × Entry Content → Bool
    | (name :: _, .file _) => name.endsWith "-journal"
    | _ => false
  FileTree.listing (files.filter fun entry => !isJournal entry) root

/-! ### Interface lemmas -/

/-- A file has no companions. -/
def IsAlone (place : Place) (files : Files) : Prop :=
  files.node? (journal place) = none ∧ files.node? (log place) = none

/-- A file without companions is accessed as it is. -/
theorem settle_of_isAlone {place : Place} {files : Files} (content : Content)
    (h : IsAlone place files) : settle place content files = (.ok .journalled, files) := by
  simp [settle, settleJournal, settleLog, left?, h.1, h.2]

@[simp] theorem store_unindexed (place : Place) (database : Database) (files : Files) :
    store (.logged false) place database files = (.error (.storage .readOnly), files) := rfl

end Companion

end Rollout
