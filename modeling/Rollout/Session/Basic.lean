import Rollout.Inspection.Catalogue
import Rollout.Session.Steps

/-!
# Steps around the release manager

What may be done to a session from outside, by somebody who looks into its files or tampers with
them, or with the cluster: rows are listed whatever table they are in, a table is taken away, a
stored document is overwritten, a job is lost or changes its state behind the back of its scheduler.
The release manager does none of this, and nothing that is proved of it is about these steps. They
are kept so that a session can be prepared and inspected at every moment.
-/

namespace Rollout

namespace Step

/-! ### Files -/

/-- A file, or the one of the job store if none is named. -/
def fileOr (file : Option Value) : Step Value := do
  match file with
  | some file => return file
  | none => return (← opened).jobs

/-- The rows of a table. What says which table becomes part of a statement as it is. -/
def rows (file : Option Value) (table : String) : Step (List (List Cell)) := do
  let file ← fileOr file
  onDisk fun site => do
    let place ← Disk.connect site file
    -- The file is found before the statement is looked at, and may have been made by then.
    let listing ← Disk.ofStatement (Statement.readListing table)
    Disk.query place (Database.list listing)

/-- Takes a table away. What says which table becomes part of a statement as it is. -/
def dropTable (file : Option Value) (table : String) : Step Unit := do
  let file ← fileOr file
  onDisk fun site => do
    let place ← Disk.connect site file
    let removal ← Disk.ofStatement (Statement.readRemoval table)
    Disk.reshape place (Database.drop removal)

/-- Overwrites the stored environment of a job. -/
def overwriteEnvironment (name environment : String) : Step Unit := do
  let file ← fileOr none
  onDisk fun site => do
    Disk.change (← Disk.connect site file) (Database.setEnvironment name environment)

/-! ### The cluster -/

/-- Loses a job behind the back of the scheduler. One in memory forgets it, and under an adapter the
container goes. -/
def lose (name : String) : Step Unit :=
  changeWorld fun world =>
    match world.scheduler with
    | .memory memory =>
      { world with scheduler := .memory { memory with jobs := memory.jobs.erase name } }
    | .adapter _ => { world with daemon := world.daemon.discard (.text name) }

/-- Sets the state of a container; there are containers only where a daemon is used. -/
def setStatus (name status : Value) : Step Unit :=
  onWorld fun world =>
    match world.scheduler with
    | .memory _ => (.error .lacking, world)
    | .adapter _ => World.daemonReal (Daemon.setStatus name status) world

end Step

end Rollout
