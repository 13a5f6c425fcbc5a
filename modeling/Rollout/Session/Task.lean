import Rollout.Cleanup
import Rollout.World.Basic

/-!
# Tasks

A cleanup as something that is started, watched and cancelled. A task that was started waits for its
grace period to end, if there is one, and then runs to its end without a pause; until it is started
again it is finished. A cancellation is never taken back.
-/

namespace Rollout

/-- Whether a task is at work. It waits for its grace period, and all that follows is done in one
go. -/
inductive Status where
  | idle
  | waiting
  | finished
deriving DecidableEq, Repr

/-- A cleanup that is started, watched and cancelled. What it has done is kept from one run to the
next, as is a cancellation; the failure that broke it off is that of its last run. -/
structure Task where
  cleanup : Cleanup
  /-- The file of the job store, if one was open when the task was made. -/
  jobs : Option Value
  progress : Progress
  cancelled : Bool
  crash : Option Failure
  status : Status

namespace Task

/-- A task that was never started. -/
def ofCleanup (jobs : Option Value) (cleanup : Cleanup) : Task where
  cleanup := cleanup
  jobs := jobs
  progress := .initial
  cancelled := false
  crash := none
  status := .idle

/-- Where a task finds its stores. -/
def stores (task : Task) : Stores := ⟨task.jobs, none, task.cleanup.events⟩

/-- Runs part of a task in the world. While it runs, the world knows whether it is cancelled, and
what the world knows afterwards is kept with the task. -/
def inWorld {α : Type} (task : Task) (plan : Plan Collaborators α) (world : World) :
    α × Task × World :=
  let done := World.run task.stores plan { world with cancelled := some task.cancelled }
  (done.1, { task with cancelled := done.2.isCancelled }, { done.2 with cancelled := none })

/-- Runs a task from the end of its grace period. -/
def proceed (task : Task) (grace : Except Failure Bool) (world : World) : Task × World :=
  let (outcome, task, world) := task.inWorld (task.cleanup.afterGrace task.progress grace) world
  ({ task with
      progress := outcome.progress
      crash := outcome.crash
      status := .finished }, world)

/-- Starts a task that is not at work. -/
def start (task : Task) (world : World) : Task × World :=
  match task.status with
  | .waiting => (task, world)
  | _ =>
    let task := { task with crash := none }
    -- The wait itself may fail, or may tell at once that the task is cancelled.
    let (grace, task, world) := task.inWorld (Call.ask (.wait task.cleanup.grace)) world
    match grace with
    | .ok false =>
      if task.cleanup.grace.isPositive then ({ task with status := .waiting }, world)
      else task.proceed grace world
    | _ => task.proceed grace world

/-- Lets the grace period of a task end. -/
def elapse (task : Task) (world : World) : Task × World :=
  match task.status with
  -- It is told that the time is over, and not that it was cancelled.
  | .waiting => task.proceed (.ok false) world
  | _ => (task, world)

/-- Cancels a task. -/
def cancel (task : Task) (world : World) : Task × World :=
  let task := { task with cancelled := true }
  match task.status with
  -- Who waits is woken at once, and told why.
  | .waiting => task.proceed (.ok true) world
  | _ => (task, world)

/-- A task came to its end. -/
def isFinished (task : Task) : Bool := task.status = .finished

/-- The name of the thread that a task runs on, once it was started. All cleanups of an application
share it. -/
def thread? (task : Task) : Option String :=
  match task.status with
  | .idle => none
  | _ => some s!"cleanup-{task.cleanup.release.app.shown}"

@[simp] theorem cleanup_ofCleanup (jobs : Option Value) (cleanup : Cleanup) :
    (ofCleanup jobs cleanup).cleanup = cleanup := rfl

/-- A task that waits is not started twice. -/
theorem start_of_waiting {task : Task} (world : World) (h : task.status = .waiting) :
    task.start world = (task, world) := by
  simp [start, h]

end Task

end Rollout
