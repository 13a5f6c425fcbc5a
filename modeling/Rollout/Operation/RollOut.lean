import Rollout.Cleanup
import Rollout.Operation.Placement
import Rollout.Settings

/-!
# Rolling out a release

All jobs of a new release are placed next to what is there. The jobs that were tracked before are
left to a cleanup, which the caller may start, watch, or ignore. The first failure ends the rollout;
what it placed until then stays, and no cleanup comes of it.
-/

namespace Rollout

/-- How old generations are retired, and where events are logged. The values are as they were handed
in, so a cleanup that cannot be made of them fails only when it is made. -/
structure Policy where
  grace : Value
  retries : Value
  delay : Value
  events : Value

/-- A policy with defaults for what is not given. Events go beside the tracked jobs if no other file
is given. -/
def Policy.make (grace retries delay events beside : Value) (settings : Settings) : Policy where
  grace := grace.orElse settings.graceSeconds
  retries := retries.orElse settings.retries
  delay := delay.orElse settings.retryDelaySeconds
  events := events.orElse beside

/-- A release with what all of its jobs share: its image and its configuration variables. How many
jobs there are of which kind is said by a formation. -/
structure Blueprint where
  release : Release
  image : Image
  vars : List (Value × Value)

/-- The jobs of a formation under a blueprint. -/
def Blueprint.jobs (blueprint : Blueprint) (formation : Formation) : Except Failure (List Job) :=
  Job.expand blueprint.release.app blueprint.release.version blueprint.image blueprint.vars
    formation

/-- Rolls a release out. The result retires the generation that was tracked before. -/
def rollOut (policy : Policy) (blueprint : Blueprint) (formation : Formation) : Action Cleanup := do
  let release := blueprint.release
  -- What is stale is decided before anything is placed, so the new jobs are never among it.
  let stale ← Action.list release.app
  let jobs ← Work.ofExcept (blueprint.jobs formation)
  Placement.placeAll jobs
  let version ← Work.ofExcept release.version.shown?
  Action.log (.info release s!"Scheduled {jobs.length} job(s) for release v{version}")
  -- A policy that makes no cleanup is found out last, when all jobs are placed.
  Work.ofExcept <|
    Cleanup.make? stale policy.grace policy.retries policy.delay release policy.events

end Rollout
