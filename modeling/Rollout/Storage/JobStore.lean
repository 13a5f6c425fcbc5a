import Rollout.Storage.File

/-!
# The job store

The jobs that are believed to be scheduled, one row per job name, in a database file. Failures of
the database become failures of the store; whatever else goes wrong passes through.
-/

namespace Rollout.JobStore

/-- Makes sure that there is a store in the file of a name. -/
def «open» (site : Surroundings) (file : Value) : Disk Unit :=
  Disk.during (.ok .openJobs) (Disk.initialise site file)

/-- The jobs of an application, in the order in which they were added. Reading the rows is work with
the database, and making jobs of them is not: a stored environment that cannot be read fails as what
it is. -/
def list (site : Surroundings) (file app : Value) : Disk (List Job) := do
  let rows ← Disk.during (Disk.actionOn .listJobs app) do
    Disk.query (← Disk.connect site file) (Database.jobsOf app)
  Disk.ofExcept (rows.mapM JobRow.job?)

/-- Tracks a job. The name is worked out twice, since the action that words a failure needs it
too. -/
def add (site : Surroundings) (file : Value) (job : Job) : Disk Unit :=
  Disk.during (job.name?.map .addJob) do
    let place ← Disk.connect site file
    let name ← Disk.ofExcept job.name?
    let environment ← Disk.ofExcept (Document.write job.environment)
    let now ← Disk.timestamp site
    Disk.change place (Database.addJob (JobRow.ofJob name environment now job))

/-- Tracks a job no longer. -/
def remove (site : Surroundings) (file : Value) (job : Job) : Disk Unit :=
  Disk.during (job.name?.map .removeJob) do
    let place ← Disk.connect site file
    let name ← Disk.ofExcept job.name?
    Disk.change place (Database.removeJob name)

/-- The names in the store. -/
def names (site : Surroundings) (file : Value) : Disk (List String) := do
  Disk.query (← Disk.connect site file) fun database =>
    database.jobs?.map fun table => table.contents.map (·.name)

end Rollout.JobStore
