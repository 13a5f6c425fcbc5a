import Rollout.Storage.Database
import Rollout.Inspection.Statement

/-!
# What names mean in a database

Besides the three tables there are tables that the database keeps for itself, and functions that may
be listed like tables. Names are the same in small and in capital letters; a name that was given no
place is looked for among the tables first, whereas functions are found in any place.

`Database.list` and `Database.drop` carry out the statements about whole tables.
-/

namespace Rollout

/-- What a name means: one of the three tables, a table that the database keeps for itself, or a
function. A function may have a column of numbers, which decides whether it can be listed in
order. -/
inductive Entity where
  | jobs
  | processes
  | events
  | own (name : String)
  | function (name : String) (isNumbered : Bool)
deriving DecidableEq, Repr

namespace Entity

/-! ### Names -/

/-- The tables in which the database keeps what tables there are. -/
def schemaTables : List String := ["sqlite_master", "sqlite_schema"]

/-- The same for tables that do not last. -/
def passingSchemaTables : List String := ["sqlite_temp_master", "sqlite_temp_schema"]

/-- The table of what tables there are. -/
def schemaTable : Entity := own "sqlite_master"

/-- The same for tables that do not last. -/
def passingSchemaTable : Entity := own "sqlite_temp_master"

/-- Functions with a column of numbers. -/
def numberedFunctions : List String := ["json_each", "json_tree"]

/-- Functions without a column of numbers. -/
def plainFunctions : List String := ["dbstat", "sqlite_stmt", "fts3tokenize"]

/-- Functions for settings of the database, with a column of numbers. -/
def numberedSettings : List String := ["pragma_foreign_key_list"]

/-- Functions for settings of the database, without a column of numbers. -/
def plainSettings : List String := List.map ("pragma_" ++ ·)
  ["analysis_limit", "application_id", "auto_vacuum", "automatic_index", "busy_timeout",
    "cache_size", "cache_spill", "cell_size_check", "checkpoint_fullfsync", "collation_list",
    "compile_options", "count_changes", "data_version", "database_list", "default_cache_size",
    "defer_foreign_keys", "empty_result_callbacks", "encoding", "foreign_key_check", "foreign_keys",
    "freelist_count", "full_column_names", "fullfsync", "function_list", "hard_heap_limit",
    "ignore_check_constraints", "index_info", "index_list", "index_xinfo", "integrity_check",
    "journal_mode", "journal_size_limit", "legacy_alter_table", "locking_mode", "max_page_count",
    "module_list", "optimize", "page_count", "page_size", "pragma_list", "query_only",
    "quick_check", "read_uncommitted", "recursive_triggers", "reverse_unordered_selects",
    "schema_version", "secure_delete", "short_column_names", "soft_heap_limit", "synchronous",
    "table_info", "table_list", "table_xinfo", "temp_store", "threads", "trusted_schema",
    "user_version", "writable_schema"]

/-- The function of a name. Only those of settings keep the letters of the name. -/
def function? (name : String) : Option Entity :=
  let lower := name.toLower
  if numberedFunctions.contains lower then some (function lower true)
  else if plainFunctions.contains lower then some (function lower false)
  else if numberedSettings.contains lower then some (function name true)
  else if plainSettings.contains lower then some (function name false)
  else none

/-- The entity is a function. -/
def isFunction : Entity → Bool
  | function _ _ => true
  | _ => false

/-- The indices of an entity. -/
def indices : Entity → List String
  | jobs => ["idx_jobs_app_name", "sqlite_autoindex_jobs_1"]
  | processes => ["sqlite_autoindex_processes_1"]
  | events => ["idx_events_ts"]
  | _ => []

end Entity

/-! ### Looking names up -/

namespace Database

open Entity

/-- The table of a name, in small letters, among those that last. -/
def lasting? (lower : String) (database : Database) : Option Entity :=
  if lower = "jobs" then database.jobs.map fun _ => .jobs
  else if lower = "processes" then database.processes.map fun _ => .processes
  else if lower = "events" then database.events.map fun _ => .events
  else if schemaTables.contains lower then some schemaTable
  -- The table of the numbers given so far is made along with the first of the three.
  else if lower = "sqlite_sequence" && database.isFounded then some (.own lower)
  else none

/-- The table that a name means. -/
def table? (table : TableName) (database : Database) : Option Entity :=
  let lower := table.name.toLower
  match table.schema.map String.toLower with
  -- Without a place the passing tables come first, since their names are none of the lasting ones.
  | none =>
    if passingSchemaTables.contains lower then some passingSchemaTable
    else database.lasting? lower
  | some "main" => database.lasting? lower
  | some "temp" =>
    if (schemaTables ++ passingSchemaTables).contains lower then some passingSchemaTable else none
  | some _ => none

/-- What a name means. -/
def entity? (table : TableName) (database : Database) : Option Entity :=
  database.table? table <|> function? table.name

/-! ### Listing rows -/

/-- Rows as they are listed, and how wide they are. The width is needed where no row tells it. -/
structure Listed where
  width : Nat
  isNumbered : Bool
  rows : List (List Cell)
deriving DecidableEq

/-- The rows of a table behind their numbers. -/
def Listed.ofTable {ρ : Type} (width : Nat) (columns : ρ → List Cell)
    (table : Option (Table ρ)) : Listed where
  width := width
  isNumbered := true
  rows := (table.map (·.rows)).getD [] |>.map fun entry => .int entry.1 :: columns entry.2

/-- Rows side by side. A side without rows is filled up if the other side is kept. -/
def Listed.join (left : Listed) (kind : JoinKind) (right : Listed) : Listed where
  width := left.width + right.width
  isNumbered := left.isNumbered || right.isNumbered
  rows :=
    if kind.keepsLeft && right.rows.isEmpty then
      left.rows.map (· ++ List.replicate right.width .null)
    else if kind.keepsRight && left.rows.isEmpty then
      right.rows.map (List.replicate left.width .null ++ ·)
    else left.rows.flatMap fun row => right.rows.map (row ++ ·)

/-- The rows of an entity. Only those of the three tables are kept. -/
def listed (database : Database) : Entity → Listed
  | .jobs => .ofTable 11 JobRow.columns database.jobs
  | .processes => .ofTable 6 ProcessRow.columns database.processes
  | .events => .ofTable 6 EventRow.columns database.events
  | .own _ => ⟨5, false, []⟩
  | .function _ isNumbered => ⟨8, isNumbered, []⟩

/-- The rows of the sources of a statement. -/
def listedFrom (database : Database) : Sources → Except Failure Listed
  | .table source => do
    let some entity := database.entity? source.table
      | throw (.storage (.missingTable source.table.shown))
    -- A table in the place of a function is told before its index is looked for.
    if source.isCall && !entity.isFunction then
      throw (.storage (.notFunction source.table.name))
    if let some index := source.index then
      if !entity.indices.contains index.toLower then throw (.storage (.missingIndex index))
    return database.listed entity
  | .join left kind right => do
    let left ← database.listedFrom left
    return left.join kind (← database.listedFrom right)

/-- Nothing may follow a statement. It is looked at last, so whatever is wrong with the statement
itself is told in its place. -/
def endStatement (isFollowed : Bool) : Except Failure Unit :=
  if isFollowed then .error (.storage .severalStatements) else .ok ()

/-- Lists rows. -/
def list (listing : Listing) (database : Database) : Except Failure (List (List Cell)) := do
  let listed ← database.listedFrom listing.sources
  if listing.isOrdered && !listed.isNumbered then throw (.storage (.missingColumn "id"))
  endStatement listing.isFollowed
  return listed.rows

/-! ### Taking tables away -/

/-- The database without a table; the numbers of the table start again. -/
def without (database : Database) : Entity → Except Failure Database
  | .jobs => .ok { database with jobs := none }
  | .processes => .ok { database with processes := none }
  | .events => .ok { database with events := none }
  | .own name | .function name _ => .error (.storage (.protectedTable name))

/-- Takes a table away. -/
def drop (removal : Removal) (database : Database) : Except Failure Database := do
  let changed ← match database.entity? removal.table with
    | some entity => database.without entity
    | none =>
      -- A missing table is all the same to a statement that allows for it.
      if removal.mayBeMissing then pure database
      else throw (.storage (.missingTable removal.table.shown))
  endStatement removal.isFollowed
  return changed

/-! ### Interface lemmas -/

/-- The jobs are found if there is a table of them. -/
@[simp] theorem lasting?_jobs (database : Database) :
    database.lasting? "jobs" = database.jobs.map fun _ => .jobs := by
  simp [lasting?]

@[simp] theorem width_join (left : Listed) (kind : JoinKind) (right : Listed) :
    (left.join kind right).width = left.width + right.width := rfl

@[simp] theorem endStatement_false : endStatement false = .ok () := rfl

@[simp] theorem without_own (database : Database) (name : String) :
    database.without (.own name) = .error (.storage (.protectedTable name)) := rfl

end Database

end Rollout
