import Rollout.Storage.File

/-!
# The process store

How many instances are wanted of each process type of each application, in a database file.
-/

namespace Rollout.ProcessStore

/-- Makes sure that there is a store in the file of a name. -/
def «open» (site : Surroundings) (file : Value) : Disk Unit :=
  Disk.during (.ok .openProcesses) (Disk.initialise site file)

/-- Writes what is wanted of a process type, and reads it back. The answer is the process as the
store has it, which may differ from the given one in what the columns made of it. -/
def update (site : Surroundings) (file : Value) (process : ProcessType) : Disk ProcessType := do
  let row ← Disk.during (Disk.actionOn .updateProcess process.type) do
    let place ← Disk.connect site file
    let now ← Disk.timestamp site
    Disk.transact place (Database.putProcess (ProcessRow.ofProcess now process))
  Disk.ofExcept row.process?

/-- The formation of an application: what is wanted of its process types, in their order. -/
def formation (site : Surroundings) (file app : Value) : Disk Formation := do
  let rows ← Disk.during (Disk.actionOn .readFormation app) do
    Disk.query (← Disk.connect site file) (Database.processesOf app)
  Disk.ofExcept (rows.mapM fun row => do return (.text row.type, ← row.process?))

/-- The applications, process types and quantities in the store. -/
def entries (site : Surroundings) (file : Value) : Disk (List (String × String × Cell)) := do
  Disk.query (← Disk.connect site file) fun database =>
    database.processes?.map fun table =>
      table.contents.map fun row => (row.app, row.type, row.quantity)

end Rollout.ProcessStore
