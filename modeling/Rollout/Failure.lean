import Rollout.Value

/-!
# Failures

Why an operation fails. A failure is a cause; `Failure.kind` groups the causes into the kinds that
callers tell apart, and `Failure.message` words them. Handlers look at kinds only:

* the event log is best effort, so failures of the database and of the system are dropped there
  (`Kind.isStorage`, `Kind.isSystem`);
* stores turn failures of the database into repository failures;
* the container adapter turns failures of the daemon into rejections (`Kind.isDaemon`).
-/

namespace Rollout

/-! ### Kinds -/

/-- The kinds of failure that callers tell apart. They are what exception classes are to handlers: a
handler asks for a kind or a family of kinds and never for a cause. -/
inductive Kind where
  | value
  | type
  | member
  | key
  | overflow
  | runtime
  | document
  | recursion
  | validation
  | system
  | notADirectory
  | database
  | operational
  | integrity
  | programming
  | daemon
  | daemonRequest
  | daemonMissing
  | rejection
  | repository
  | consistency
deriving DecidableEq, Repr

namespace Kind

/-- The name of a kind, as event messages give it. -/
def label : Kind → String
  | value => "ValueError"
  | type => "TypeError"
  | member => "AttributeError"
  | key => "KeyError"
  | overflow => "OverflowError"
  | runtime => "RuntimeError"
  | document => "JSONDecodeError"
  | recursion => "RecursionError"
  | validation => "ValidationError"
  | system => "OSError"
  | notADirectory => "NotADirectoryError"
  | database => "DatabaseError"
  | operational => "OperationalError"
  | integrity => "IntegrityError"
  | programming => "ProgrammingError"
  | daemon => "DockerException"
  | daemonRequest => "APIError"
  | daemonMissing => "NotFound"
  | rejection => "SchedulerRejection"
  | repository => "RepositoryFailure"
  | consistency => "ConsistencyViolation"

/-- A failure of the database underneath the stores. Stores turn these into repository failures, and
the event log drops them. -/
def isStorage : Kind → Bool
  | database | operational | integrity | programming => true
  | _ => false

/-- A failure of the file system. Stores let these pass as they are, and the event log drops
them. -/
def isSystem : Kind → Bool
  | system | notADirectory => true
  | _ => false

/-- A failure of the container daemon. A request that fails and a thing that is missing are failures
of the daemon, too. -/
def isDaemon : Kind → Bool
  -- A missing thing is a request that failed, and that is a failure of the daemon: all three match.
  | daemon | daemonRequest | daemonMissing => true
  | _ => false

end Kind

/-! ### Causes -/

/-- What can go wrong inside a database file. -/
inductive StorageFault where
  /-- The file cannot be opened or made. -/
  | unopenable
  /-- The file cannot be read. -/
  | unreadable
  /-- The file holds something else. -/
  | notDatabase
  /-- A statement holds the null character. -/
  | nullInStatement
  /-- A statement ends too early. -/
  | incomplete
  /-- A word of a statement stands where it must not. -/
  | misplaced (word : String)
  /-- A part of a statement is no word. -/
  | unreadableToken (part : String)
  /-- There is no join of that kind. -/
  | unknownJoin (words : String)
  /-- Something follows a statement. -/
  | severalStatements
  /-- The table is not there. -/
  | missingTable (table : String)
  /-- The table cannot be called. -/
  | notFunction (table : String)
  /-- The index is not there. -/
  | missingIndex (index : String)
  /-- The column is not there. -/
  | missingColumn (column : String)
  /-- The table belongs to the database itself. -/
  | protectedTable (table : String)
  /-- The file cannot be changed. -/
  | readOnly
  /-- A parameter is of a kind that no column holds. -/
  | unsupported (position : Nat) (kind : String)
  /-- A column that must have a value has none. -/
  | missingValue (table column : String)
  /-- A value that must be unique is there already. -/
  | duplicate (table column : String)
  /-- A row limit is not an integer. -/
  | badLimit
deriving DecidableEq, Repr

/-- The kind of a storage fault. What a statement gets wrong about the schema and what the file
denies is operational; only a row that breaks a constraint is a matter of integrity. -/
def StorageFault.kind : StorageFault → Kind
  | unopenable | unreadable | incomplete | misplaced _ | unreadableToken _ | unknownJoin _
  | missingTable _ | notFunction _ | missingIndex _ | missingColumn _ | protectedTable _
  | readOnly =>
    .operational
  | notDatabase => .database
  | nullInStatement | severalStatements | unsupported _ _ => .programming
  | missingValue _ _ | duplicate _ _ | badLimit => .integrity

/-- The wording of a storage fault. -/
def StorageFault.message : StorageFault → String
  | unopenable => "unable to open database file"
  | unreadable => "disk I/O error"
  | notDatabase => "file is not a database"
  | nullInStatement => "the query contains a null character"
  | incomplete => "incomplete input"
  | misplaced word => s!"near \"{word}\": syntax error"
  | unreadableToken part => s!"unrecognized token: \"{part}\""
  | unknownJoin words => s!"unknown join type: {words}"
  | severalStatements => "You can only execute one statement at a time."
  | missingTable table => s!"no such table: {table}"
  | notFunction table => s!"'{table}' is not a function"
  | missingIndex index => s!"no such index: {index}"
  | missingColumn column => s!"no such column: {column}"
  | protectedTable table => s!"table {table} may not be dropped"
  | readOnly => "attempt to write a readonly database"
  | unsupported position kind =>
    s!"Error binding parameter {position}: type '{kind}' is not supported"
  | missingValue table column => s!"NOT NULL constraint failed: {table}.{column}"
  | duplicate table column => s!"UNIQUE constraint failed: {table}.{column}"
  | badLimit => "datatype mismatch"

/-- What a store was doing when the database failed. It is how the failure is worded for the caller,
and so it holds what the message shows. -/
inductive StoreAction where
  | openJobs
  | openProcesses
  | listJobs (app : Value)
  | addJob (name : String)
  | removeJob (name : String)
  | updateProcess (type : Value)
  | readFormation (app : Value)

/-- The wording of a store action that failed. -/
def StoreAction.message : StoreAction → String
  | openJobs => "cannot open job store"
  | openProcesses => "cannot open process store"
  | listJobs app => s!"failed to list jobs for {app.shown}"
  | addJob name => s!"failed to add job {name}"
  | removeJob name => s!"failed to remove job {name}"
  | updateProcess type => s!"failed to update process {type.shown}"
  | readFormation app => s!"failed to read formation for {app.shown}"

/-- Why a scheduler refuses a request. The scheduler in memory has one reason only; all others are
those of the container adapter, which words the causes of the daemon. -/
inductive Rejection where
  /-- No job of that name is scheduled. -/
  | unknownJob (name : Value)
  /-- The name is no container name. -/
  | badContainerName (name : String)
  /-- The name is no job name. -/
  | notJobName (name : String)
  /-- The daemon cannot be reached. -/
  | unavailable (cause : String)
  /-- The daemon failed to start the container. -/
  | notScheduled (name cause : String)
  /-- The daemon failed to remove the container. -/
  | notUnscheduled (name cause : String)
  /-- The daemon failed to report. -/
  | notListed (cause : String)

/-- A text that is no job name. -/
def notJobNameMessage (given : String) : String := s!"Not a job name: {Text.quoted given}"

/-- The wording of a rejection. -/
def Rejection.message : Rejection → String
  | unknownJob name => s!"unknown job '{name.shown}'"
  | badContainerName name => s!"{Text.quoted name} is not a valid Docker container name"
  | notJobName name => notJobNameMessage name
  | unavailable cause => s!"Docker is not available: {cause}"
  | notScheduled name cause => s!"failed to schedule {name}: {cause}"
  | notUnscheduled name cause => s!"failed to unschedule {name}: {cause}"
  | notListed cause => s!"failed to list jobs: {cause}"

/-- What is wrong with one part of a scale request. -/
inductive IssueKind where
  | fieldMissing
  | notDictionary
  | notText
  | notInteger
  | notFinite
  | fraction
  | tooLarge
  | unreadable
  | negative
  /-- An issue that a validator has with objects which are no values. -/
  | other (label message : String)
deriving DecidableEq, Repr

/-- The short name of an issue. -/
def IssueKind.label : IssueKind → String
  | fieldMissing => "missing"
  | notDictionary => "dict_type"
  | notText => "string_type"
  | notInteger => "int_type"
  | notFinite => "finite_number"
  | fraction => "int_from_float"
  | tooLarge => "int_parsing_size"
  | unreadable => "int_parsing"
  | negative => "greater_than_equal"
  | other label _ => label

/-- The wording of an issue. -/
def IssueKind.message : IssueKind → String
  | fieldMissing => "Field required"
  | notDictionary => "Input should be a valid dictionary"
  | notText => "Input should be a valid string"
  | notInteger => "Input should be a valid integer"
  | notFinite => "Input should be a finite number"
  | fraction => "Input should be a valid integer, got a number with a fractional part"
  | tooLarge => "Unable to parse input string as an integer, exceeded maximum size"
  | unreadable => "Input should be a valid integer, unable to parse string as an integer"
  | negative => "Input should be greater than or equal to 0"
  | other _ message => message

/-- An issue and where it is. The location is what a caller needs to find the part that is wrong:
the field, the key, and whether it is the key itself. -/
structure Issue where
  /-- What is wrong. -/
  kind : IssueKind
  /-- The way from the whole request to the part. -/
  location : List Value

/-- Why an operation fails. There is one cause for each way in which the program or what it runs on
can refuse to go on, with all that its message tells; causes of the same kind are told apart by
callers only through their messages. -/
inductive Failure where
  /-- A name is no text, is empty, or has a dot. -/
  | invalidName (what : String) (given : Value)
  /-- A number is no integer. -/
  | invalidNumber (what : String) (given : Value)
  /-- A text is no job name. -/
  | notJobName (given : String)
  /-- A process is wanted a negative number of times. -/
  | negativeQuantity (type quantity : Value)
  /-- A text is no integer numeral. -/
  | notInteger (given : String)
  /-- An integer numeral is over the digit limit. -/
  | numeralTooLong (digits : Nat)
  /-- An integer has too many digits to be written. -/
  | unwritable
  /-- A text is no number. -/
  | notReal (given : String)
  /-- "Not a number" has no integer part. -/
  | nanToInteger
  /-- Infinity has no integer part. -/
  | infinityToInteger
  /-- An integer is beyond the largest floating-point number. -/
  | integerTooLarge
  /-- An integer does not fit a column. -/
  | integerTooWide
  /-- A wait is longer than the platform can wait. -/
  | waitTooLong
  /-- A value is of a kind that the operation does not take. -/
  | unsuitable
  /-- An item that should be a pair, key and value, has another length. -/
  | notPair (index length : Nat)
  /-- A value lacks what the operation asks of it. -/
  | lacking
  /-- A store is asked for something and is not there. -/
  | noStore (verb : String)
  /-- Nothing is kept under the key. -/
  | unknownKey
  /-- A stored document cannot be read. -/
  | malformedDocument
  /-- A list or a dictionary of a stored document lies too deep inside others. -/
  | tooDeep (container : String)
  /-- The year of a moment is beyond the calendar. -/
  | yearOutOfRange (year : Int)
  /-- A moment is so far away that its year cannot be counted. -/
  | momentTooFar
  /-- The seconds of a moment do not fit 64 bits. -/
  | momentTooWide
  /-- A text that the system is given holds the null character. -/
  | nullCharacter
  /-- A variable has an equals sign in its name. -/
  | badVariableName
  /-- A variable has no name. -/
  | namelessVariable
  /-- A directory would have to be made inside something else. -/
  | notADirectory (path : String)
  /-- A directory's name is too long. -/
  | nameTooLong (path : String)
  /-- The database failed. -/
  | storage (fault : StorageFault)
  /-- The database failed inside a store. -/
  | repository (action : StoreAction) (fault : StorageFault)
  /-- The scheduler refused. -/
  | rejected (rejection : Rejection)
  /-- A job that should be tracked is not. -/
  | untracked (name : Value)
  /-- A scale request is not valid. -/
  | invalidQuantities (issues : List Issue)
  /-- A container name is taken. -/
  | containerExists (name : String)
  /-- There is no such container. -/
  | noContainer (name : Value)
  /-- There is no such network. -/
  | noNetwork (name : Value)
  /-- A collaborator failed in a way of its own. -/
  | reported (kind : Kind) (message : String)

namespace Failure

instance : Inhabited Failure := ⟨.unsuitable⟩

/-- The kind of a failure. Failures that collaborators report bring theirs with them. -/
def kind : Failure → Kind
  | invalidName _ _ | invalidNumber _ _ | notJobName _ | negativeQuantity _ _ | notInteger _
  | numeralTooLong _ | unwritable | notReal _ | nanToInteger | yearOutOfRange _ | nullCharacter
  | badVariableName | notPair _ _ =>
    .value
  | infinityToInteger | integerTooLarge | integerTooWide | waitTooLong | momentTooWide => .overflow
  | unsuitable => .type
  | lacking | noStore _ => .member
  | unknownKey => .key
  | malformedDocument => .document
  | tooDeep _ => .recursion
  | notADirectory _ => .notADirectory
  | nameTooLong _ | momentTooFar | namelessVariable => .system
  | storage fault => fault.kind
  | repository _ _ => .repository
  | rejected _ => .rejection
  | untracked _ => .consistency
  | invalidQuantities _ => .validation
  | containerExists _ => .daemonRequest
  | noContainer _ | noNetwork _ => .daemonMissing
  | reported kind _ => kind

/-- The wording of a job that should be tracked and is not. -/
def untrackedMessage (name : String) : String := s!"Job not found to unschedule: {name}"

/-- The wording of a failure. -/
def message : Failure → String
  | invalidName what given =>
    s!"Invalid {what} {given.quoted}. Must be non-empty and contain no dots."
  | invalidNumber what given => s!"Invalid {what} {given.quoted}. Must be an int."
  | notJobName given => notJobNameMessage given
  | negativeQuantity type quantity =>
    s!"quantity for process {type.quoted} must be >= 0, got {quantity.shown}"
  | notInteger given =>
    "invalid literal for int() with base 10: " ++ String.ofList
      ((Text.quoted given).toList.take 200)
  | numeralTooLong digits =>
    s!"Exceeds the limit (4300 digits) for integer string conversion: value has {digits} " ++
      "digits; use sys.set_int_max_str_digits() to increase the limit"
  | unwritable =>
    "Exceeds the limit (4300 digits) for integer string conversion; " ++
      "use sys.set_int_max_str_digits() to increase the limit"
  | notReal given => s!"could not convert string to float: {Text.quoted given}"
  | nanToInteger => "cannot convert float NaN to integer"
  | infinityToInteger => "cannot convert float infinity to integer"
  | integerTooLarge => "int too large to convert to float"
  | integerTooWide => "Python int too large to convert to SQLite INTEGER"
  | waitTooLong => "timestamp too large to convert to C _PyTime_t"
  | unsuitable => "a value of another kind is needed"
  | notPair index length =>
    s!"dictionary update sequence element #{index} has length {length}; 2 is required"
  | lacking => "the value lacks a part"
  | noStore verb => s!"'NoneType' object has no attribute '{verb}'"
  | unknownKey => "nothing is kept under the key"
  | malformedDocument => "the document cannot be read"
  | tooDeep container =>
    s!"maximum recursion depth exceeded while decoding a JSON {container} from a unicode string"
  | yearOutOfRange year => s!"year {year} is out of range"
  | momentTooFar => "[Errno 75] Value too large for defined data type"
  | momentTooWide => "timestamp out of range for platform time_t"
  | nullCharacter => "embedded null byte"
  | badVariableName => "illegal environment variable name"
  | namelessVariable => "[Errno 22] Invalid argument"
  | notADirectory path => s!"[Errno 20] Not a directory: {Text.quoted path}"
  | nameTooLong path => s!"[Errno 36] File name too long: {Text.quoted path}"
  | storage fault => fault.message
  | repository action fault => s!"{action.message}: {fault.message}"
  | rejected rejection => rejection.message
  | untracked name => untrackedMessage name.shown
  | invalidQuantities issues => s!"{issues.length} validation errors"
  | containerExists name => s!"Conflict: {name} is already in use"
  | noContainer name => s!"No such container: {name.shown}"
  | noNetwork name => s!"network {name.shown} not found"
  | reported _ message => message

/-- Failures that the event log, being best effort, lets pass: those of the database and of the file
system, and no others. An integer that fits no column is not among them. -/
def isForgiven (failure : Failure) : Bool := failure.kind.isStorage || failure.kind.isSystem

@[simp] theorem kind_reported (kind : Kind) (message : String) :
    (reported kind message).kind = kind := rfl

@[simp] theorem message_rejected (rejection : Rejection) :
    (rejected rejection).message = rejection.message := rfl

end Failure

/-- The text of a value, unless an integer in it has too many digits. -/
def Value.shown? (value : Value) : Except Failure String :=
  if value.writable then .ok value.shown else .error .unwritable

/-- The failure for a job that should be tracked and is not, if its name can be worded. -/
def Failure.untracked? (name : Value) : Except Failure Failure := do
  let _ ← name.shown?
  return .untracked name

/-- A text is always shown. -/
@[simp] theorem Value.shown?_text (s : String) : (Value.text s).shown? = .ok s := by
  simp [Value.shown?]

end Rollout
