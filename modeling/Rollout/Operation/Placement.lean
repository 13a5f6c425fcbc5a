import Rollout.Collaborators

/-!
# Placing jobs

A job is placed in two steps: it is handed to the scheduler, and then it is tracked. It is withdrawn
in the same order. Nothing is undone when the second step fails: a job that was being placed is then
scheduled and not tracked, and one that was being withdrawn is tracked and no longer scheduled.
-/

namespace Rollout.Placement

/-- The job as the scheduler takes it. -/
def definition? (job : Job) : Except Failure Definition := do
  let name ← job.name?
  let environment ← Environment.ofValue? job.environment
  return ⟨name, job.command, job.image, .ofFields environment⟩

/-- Schedules and tracks a job. The definition is worked out before anything is called, so a job
without a name or an environment is not half placed. -/
def place (job : Job) : Action Unit := do
  Action.schedule (← Work.ofExcept (definition? job))
  Action.add job

/-- Schedules and tracks jobs one after the other, up to the first failure. -/
def placeAll : List Job → Action Unit
  | [] => return ()
  | job :: rest => do
    place job
    placeAll rest

/-- Takes a job from the scheduler and tracks it no longer. In between, the job is tracked and runs
no more. -/
def withdraw (job : Job) : Action Unit := do
  Action.unschedule (← Work.ofExcept job.name?)
  Action.remove job

@[simp] theorem placeAll_nil : placeAll [] = pure () := rfl

@[simp] theorem placeAll_cons (job : Job) (rest : List Job) :
    placeAll (job :: rest) = (do place job; placeAll rest) := rfl

end Rollout.Placement
