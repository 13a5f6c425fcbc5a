import Rollout.Document.Reader
import Rollout.Job.Basic
import Rollout.Storage.Cell
import Rollout.Storage.Table

/-!
# The database

Three tables: the jobs that are believed to be scheduled, the quantities wanted by process type, and
the events. Each of them may be missing from a file; `Database.initialise` makes those that are.

A statement is a function on databases that may fail. Values are bound to parameters from left to
right first; then columns that must have a value are checked in their order; uniqueness comes last.
-/

namespace Rollout

/-! ### Rows -/

/-- A tracked job. Version and ordinal are cells, since a column of integers keeps what it cannot
turn into one. -/
structure JobRow where
  name : String
  app : String
  version : Cell
  type : String
  ordinal : Cell
  environment : String
  repo : String
  imageId : String
  command : String
  createdAt : String
deriving DecidableEq, Repr

/-- What is wanted of a process type. The quantity is a cell, since what is read need not be an
integer. -/
structure ProcessRow where
  app : String
  type : String
  command : String
  quantity : Cell
  updatedAt : String
deriving DecidableEq, Repr

/-- An event. Application and version are empty if the event did not say them. -/
structure EventRow where
  time : String
  level : String
  app : Option String
  version : Cell
  message : String
deriving DecidableEq, Repr

namespace JobRow

/-- The row of a job, given its name and environment as texts. All values are bound before any
column is checked, so a value that no parameter takes is told before one that is missing. -/
def ofJob (name environment createdAt : String) (job : Job) : Except Failure JobRow := do
  let name ← Cell.bind 1 (.text name)
  let app ← Cell.bind 2 job.app
  let version ← Cell.bind 3 job.version
  let type ← Cell.bind 4 job.type
  let ordinal ← Cell.bind 5 job.ordinal
  let environment ← Cell.bind 6 (.text environment)
  let repo ← Cell.bind 7 job.image.repo
  let imageId ← Cell.bind 8 job.image.id
  let command ← Cell.bind 9 job.command
  let createdAt ← Cell.bind 10 (.text createdAt)
  return {
    name := ← name.requireText "jobs" "name"
    app := ← app.requireText "jobs" "app_name"
    version := ← version.requireInteger "jobs" "release_version"
    type := ← type.requireText "jobs" "process_type"
    ordinal := ← ordinal.requireInteger "jobs" "instance"
    environment := ← environment.requireText "jobs" "environment"
    repo := ← repo.requireText "jobs" "image_repo"
    imageId := ← imageId.requireText "jobs" "image_id"
    command := ← command.requireText "jobs" "command"
    createdAt := ← createdAt.requireText "jobs" "created_at" }

/-- The job of a row. It fails if the stored environment cannot be read; all else reads back as a
value of some kind. -/
def job? (row : JobRow) : Except Failure Job := do
  return {
    app := .text row.app
    version := row.version.toValue
    type := .text row.type
    ordinal := row.ordinal.toValue
    environment := ← Document.read row.environment
    image := ⟨.text row.repo, .text row.imageId⟩
    command := .text row.command }

/-- The columns of a row. -/
def columns (row : JobRow) : List Cell :=
  [.text row.name, .text row.app, row.version, .text row.type, row.ordinal, .text row.environment,
    .text row.repo, .text row.imageId, .text row.command, .text row.createdAt]

end JobRow

namespace ProcessRow

/-- The row of a process. -/
def ofProcess (updatedAt : String) (process : ProcessType) : Except Failure ProcessRow := do
  let app ← Cell.bind 1 process.app
  let type ← Cell.bind 2 process.type
  let command ← Cell.bind 3 process.command
  let quantity ← Cell.bind 4 process.quantity.toValue
  let updatedAt ← Cell.bind 5 (.text updatedAt)
  return {
    app := ← app.requireText "processes" "app_name"
    type := ← type.requireText "processes" "type"
    command := ← command.requireText "processes" "command"
    quantity := ← quantity.requireInteger "processes" "quantity"
    updatedAt := ← updatedAt.requireText "processes" "updated_at" }

/-- The process of a row. -/
def process? (row : ProcessRow) : Except Failure ProcessType :=
  ProcessType.make? (.text row.type) (.text row.command) row.quantity.toValue (.text row.app)

/-- The row is about a process type of an application. -/
def isOf (app type : String) (row : ProcessRow) : Bool := row.app = app && row.type = type

/-- The columns of a row. -/
def columns (row : ProcessRow) : List Cell :=
  [.text row.app, .text row.type, .text row.command, row.quantity, .text row.updatedAt]

end ProcessRow

namespace EventRow

/-- The row of an event. -/
def ofEvent (time level : String) (app version message : Value) : Except Failure EventRow := do
  let time ← Cell.bind 1 (.text time)
  let level ← Cell.bind 2 (.text level)
  let app ← Cell.bind 3 app
  let version ← Cell.bind 4 version
  let message ← Cell.bind 5 message
  return {
    time := ← time.requireText "events" "ts"
    level := ← level.requireText "events" "level"
    -- Application and version may be missing from an event, so they are not required.
    app := app.asText
    version := version.asInteger
    message := ← message.requireText "events" "message" }

/-- The columns of a row. -/
def columns (row : EventRow) : List Cell :=
  [.text row.time, .text row.level, (row.app.map Cell.text).getD .null, row.version,
    .text row.message]

end EventRow

/-! ### Databases -/

/-- The tables that a file holds. The flag says whether tables were ever made in it, which outlasts
the tables. -/
structure Database where
  jobs : Option (Table JobRow)
  processes : Option (Table ProcessRow)
  events : Option (Table EventRow)
  isFounded : Bool
deriving DecidableEq

namespace Database

/-- A database without tables. -/
def blank : Database := ⟨none, none, none, false⟩

/-- Makes the tables that are missing. -/
def initialise (database : Database) : Database where
  jobs := some (database.jobs.getD .empty)
  processes := some (database.processes.getD .empty)
  events := some (database.events.getD .empty)
  isFounded := true

/-- A table that must be there. Each statement asks for its table first, whatever else is wrong with
it. -/
def require {ρ : Type} (name : String) (table : Option (Table ρ)) : Except Failure (Table ρ) :=
  match table with
  | some table => .ok table
  | none => .error (.storage (.missingTable name))

/-- The table of jobs. -/
def jobs? (database : Database) : Except Failure (Table JobRow) := require "jobs" database.jobs

/-- The table of processes. -/
def processes? (database : Database) : Except Failure (Table ProcessRow) :=
  require "processes" database.processes

/-- The table of events. -/
def events? (database : Database) : Except Failure (Table EventRow) :=
  require "events" database.events

/-! ### Statements about jobs -/

/-- Adds a job. The row is worked out only if there is a table for it. -/
def addJob (row : Except Failure JobRow) (database : Database) : Except Failure Database := do
  let table ← database.jobs?
  -- What is wrong with the row is told only now, when the table was found.
  let row ← row
  -- Nothing has been written so far, so a refusal uses up no number.
  if table.any (·.name = row.name) then throw (.storage (.duplicate "jobs" "name"))
  return { database with jobs := some (table.append row) }

/-- Takes the job of a name away, if it is there. -/
def removeJob (name : String) (database : Database) : Except Failure Database := do
  let table ← database.jobs?
  return { database with jobs := some (table.remove (·.name = name)) }

/-- The jobs of an application, in the order in which they were added. -/
def jobsOf (app : Value) (database : Database) : Except Failure (List JobRow) := do
  let table ← database.jobs?
  let app ← Cell.bind 1 app
  return table.select fun row => app.asText = some row.app

/-- Overwrites the stored environment of a job. -/
def setEnvironment (name environment : String) (database : Database) : Except Failure Database := do
  let table ← database.jobs?
  return { database with
    jobs := some (table.update (·.name = name) fun row => { row with environment }) }

/-! ### Statements about processes -/

/-- Writes what is wanted of a process type, over what was wanted before. -/
def putProcess (row : Except Failure ProcessRow) (database : Database) :
    Except Failure (ProcessRow × Database) := do
  let table ← database.processes?
  let row ← row
  -- There is one row for each pair of application and process type.
  let table := table.put (ProcessRow.isOf row.app row.type) row
  return (row, { database with processes := some table })

/-- What is wanted of the process types of an application, in the order of the types. The order is
that of code points, which is the one that the database has for texts. -/
def processesOf (app : Value) (database : Database) : Except Failure (List ProcessRow) := do
  let table ← database.processes?
  let app ← Cell.bind 1 app
  let rows := table.select fun row => app.asText = some row.app
  return inOrder (fun a b => a.type < b.type) rows

/-! ### Statements about events -/

/-- Adds an event. -/
def addEvent (row : Except Failure EventRow) (database : Database) : Except Failure Database := do
  let table ← database.events?
  let row ← row
  return { database with events := some (table.append row) }

/-- The bound on a number of rows; none if it is negative. -/
def limit? (given : Value) : Except Failure (Option Nat) := do
  match (← Cell.bind 1 given).asInteger with
  | .int (.ofNat n) => return some n
  | .int (.negSucc _) => return none
  | _ => throw (.storage .badLimit)

/-- The latest events with their numbers, the latest first. Numbers are never given twice, so the
order of the numbers is that of the events. -/
def latestEvents (limit : Value) (database : Database) :
    Except Failure (List (Nat × EventRow)) := do
  let table ← database.events?
  let newestFirst := table.rows.reverse
  match ← limit? limit with
  | some count => return newestFirst.take count
  | none => return newestFirst

/-! ### Interface lemmas -/

/-- Making the tables twice is making them once. -/
@[simp] theorem initialise_initialise (database : Database) :
    database.initialise.initialise = database.initialise := by
  simp [initialise]

@[simp] theorem jobs?_initialise (database : Database) :
    database.initialise.jobs? = .ok (database.jobs.getD .empty) := rfl

@[simp] theorem processes?_initialise (database : Database) :
    database.initialise.processes? = .ok (database.processes.getD .empty) := rfl

@[simp] theorem events?_initialise (database : Database) :
    database.initialise.events? = .ok (database.events.getD .empty) := rfl

end Database

end Rollout
