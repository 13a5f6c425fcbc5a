import Rollout.Calendar
import Rollout.Collaborators
import Rollout.Conversion

/-!
# Cleanups

A cleanup retires the jobs of an old generation after a grace period: each job is taken from the
scheduler first and from the job store second, and either step is tried again a number of times with
a delay in between. It can be cancelled at any time: during the grace period, between two jobs, and
before a further try. The cancellation is looked at nowhere else, so a job that is gone from the
scheduler has at least one try in the store.

* `Cleanup.retire` removes one job, `Cleanup.sweep` all of them, one after the other.
* `Cleanup.run` is a whole run, with its grace period.
* A run ends in an `Outcome`: how far it came, and the failure that broke it off, if one did that
  could not be recorded. Failures of a removal are recorded; they end the run as *failed*.
-/

namespace Rollout

/-- How far a cleanup is. The last three are ends, of which a crash is none: it leaves the phase
where it was. -/
inductive Phase where
  | pending
  | running
  | done
  | failed
  | cancelled
deriving DecidableEq, Repr

/-- The word for a phase. -/
def Phase.label : Phase → String
  | pending => "pending"
  | running => "running"
  | done => "done"
  | failed => "failed"
  | cancelled => "cancelled"

/-- An old generation and how it is to be retired. Neither grace nor delay is made negative, but
they may be infinite; a wait that the platform cannot make breaks the run off. -/
structure Cleanup where
  /-- The jobs to be removed, in order. -/
  stale : List Job
  /-- Seconds before the first removal. -/
  grace : Binary64
  /-- How often a failed step is tried again. -/
  retries : Nat
  /-- Seconds before a further try. -/
  delay : Binary64
  /-- The release that events are about. -/
  release : Release
  /-- The file of the event log. -/
  events : Value

/-- What a cleanup has done. A run that is made again goes on from here, so the names add up. -/
structure Progress where
  /-- How far it is. -/
  phase : Phase
  /-- The names of the jobs that it removed, in order. -/
  removed : List String
  /-- The failure that ended it. -/
  error : Option Failure

/-- Nothing has been done. -/
def Progress.initial : Progress := ⟨.pending, [], none⟩

/-- How a run of a cleanup ended. A failure of a removal is part of what was done; the failure that
broke the run off is one that nothing was written down about. -/
structure Outcome where
  /-- What was done. -/
  progress : Progress
  /-- The failure that broke the run off. -/
  crash : Option Failure

namespace Cleanup

/-- A number of seconds that is not below zero. "Not a number" counts as zero as well, since it is
above nothing. -/
def secondsOf (given : Value) : Except Failure Binary64 := do
  return (← given.toReal).clampPositive

/-- A cleanup with its settings as values of any kind. -/
def make? (stale : List Job) (grace retries delay : Value) (release : Release) (events : Value) :
    Except Failure Cleanup := do
  let grace ← secondsOf grace
  let retries ← retries.toInteger
  let delay ← secondsOf delay
  return { stale, grace, retries := retries.toNat, delay, release, events }

/-! ### Removing one job -/

/-- Tries a step until it succeeds, with `retries` further tries and a delay before each. Once the
cleanup is cancelled the step is not tried again. -/
def withRetries (delay : Binary64) (step : Action Unit) : Nat → Action Unit
  | 0 => step
  | retries + 1 => .ofPlan do
    match ← step.attempt with
    | .ok () => return .ok ()
    | .error failure =>
      match ← (Action.wait delay).attempt with
      | .error failure => return .error failure
      -- A cancelled cleanup gives up with the failure of the step itself.
      | .ok true => return .error failure
      | .ok false => (withRetries delay step retries).attempt

/-- Takes a job from the scheduler. -/
def unscheduleJob (job : Job) : Action Unit := do
  let name ← Work.ofExcept job.name?
  Action.unschedule name

/-- Removes a job: from the scheduler, then from the store. Either step has all of the further tries
to itself. -/
def retire (cleanup : Cleanup) (job : Job) : Action Unit := do
  withRetries cleanup.delay (unscheduleJob job) cleanup.retries
  withRetries cleanup.delay (Action.remove job) cleanup.retries

/-! ### Removing all jobs -/

/-- Ends a run in a phase and logs the event that tells. -/
def finish (progress : Progress) (phase : Phase) (event : Event) : Plan Collaborators Outcome := do
  let progress := { progress with phase }
  match ← (Action.log event).attempt with
  | .ok () => return ⟨progress, none⟩
  | .error failure => return ⟨progress, some failure⟩

/-- Ends a run at a job that could not be removed. -/
def stopAt (cleanup : Cleanup) (progress : Progress) (job : Job) (failure : Failure) :
    Plan Collaborators Outcome := do
  let progress := { progress with error := some failure }
  -- Whether it was cancelled is asked again, as the cancellation may have come while the removal
  -- was tried.
  let cancelled ← Call.ask .cancelled
  match job.name? with
  -- Without a name there is nothing to log, so the run breaks off as it is.
  | .error crash => return ⟨progress, some crash⟩
  | .ok name =>
    if cancelled then
      finish progress .cancelled <| .info cleanup.release
        s!"Cleanup cancelled while retrying {name}: {failure.message}"
    else
      finish progress .failed <| .error cleanup.release
        s!"Error unscheduling stale job {name}: {failure.kind.label}: {failure.message}"

/-- Removes jobs one after the other, up to the first that cannot be removed. -/
def sweep (cleanup : Cleanup) (progress : Progress) : List Job → Plan Collaborators Outcome
  | [] =>
    finish progress .done <| .info cleanup.release
      s!"Removed {progress.removed.length} stale job(s)"
  | job :: rest => do
    -- Asked before each job. Within one, only the wait before a further try tells of a
    -- cancellation, so a job that is tried gets its first try.
    if ← Call.ask .cancelled then
      finish progress .cancelled <| .info cleanup.release
        s!"Cleanup cancelled after removing {progress.removed.length} job(s)"
    else
      match ← (cleanup.retire job).attempt with
      | .error failure => cleanup.stopAt progress job failure
      | .ok () =>
        let progress := { progress with removed := progress.removed ++ [job.label] }
        cleanup.sweep progress rest

/-! ### A whole run -/

/-- What follows the grace period, which ended by itself or by a cancellation. -/
def afterGrace (cleanup : Cleanup) (progress : Progress) :
    Except Failure Bool → Plan Collaborators Outcome
  | .error failure => .done ⟨progress, some failure⟩
  | .ok true =>
    finish progress .cancelled <| .info cleanup.release
      s!"Cleanup of {cleanup.stale.length} stale job(s) cancelled"
  | .ok false => cleanup.sweep { progress with phase := .running } cleanup.stale

/-- A run of a cleanup. What earlier runs did is added to. -/
def run (cleanup : Cleanup) (progress : Progress) : Plan Collaborators Outcome := do
  cleanup.afterGrace progress (← Call.ask (.wait cleanup.grace))

@[simp] theorem withRetries_zero (delay : Binary64) (step : Action Unit) :
    withRetries delay step 0 = step := rfl

end Cleanup

end Rollout
