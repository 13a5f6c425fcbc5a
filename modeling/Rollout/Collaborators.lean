import Rollout.Job.Basic
import Rollout.Plan

/-!
# Collaborators

Whom the release manager works with: a cluster scheduler, the store of tracked jobs, the store of
wanted quantities, the event log, and, for a cleanup, the signal that cancels it. `Call` lists what
is asked of them and `Call.Answer` what comes back; a call of an operation is never anything else.

Nearly every call may fail. Whether a cleanup is cancelled can always be told.
-/

namespace Rollout

/-- A release of an application. Neither field is checked here; what makes a name of them is looked
at when a job is named. -/
structure Release where
  app : Value
  version : Value

/-- One unit of work as it is handed to the scheduler. The name is a text by now, while what is
handed in for the rest may still be of any kind. -/
structure Definition where
  name : String
  command : Value
  image : Image
  environment : Value

/-- What the scheduler says about a job. It says so under the name, since a scheduler knows nothing
of fields. -/
structure Report where
  name : Value
  machine : Value
  state : Value

/-- An event to be logged. Application and version may be missing, for events that are about no
release. -/
structure Event where
  /-- How grave it is; kept in capital letters. -/
  level : Value
  message : Value
  app : Value
  version : Value

namespace Event

/-- An event of a release that went as it should. -/
def info (release : Release) (message : String) : Event :=
  ⟨.text "INFO", .text message, release.app, release.version⟩

/-- An event of a release that went wrong. -/
def error (release : Release) (message : String) : Event :=
  ⟨.text "ERROR", .text message, release.app, release.version⟩

end Event

/-! ### Calls -/

/-- What is asked of a collaborator. Questions whether a cleanup is cancelled are among the calls,
because their answers depend on when they are asked. -/
inductive Call where
  | schedule (definition : Definition)
  | unschedule (name : Value)
  | report
  | list (app : Value)
  | add (job : Job)
  | remove (job : Job)
  | update (process : ProcessType)
  | log (event : Event)
  /-- Time is to pass, unless the cleanup is cancelled; the answer tells which. -/
  | wait (seconds : Binary64)
  | cancelled

/-- The word for what a collaborator is asked to do. -/
def Call.verb : Call → String
  | schedule _ => "schedule"
  | unschedule _ => "unschedule"
  | report => "job_states"
  | list _ => "list"
  | add _ => "add"
  | remove _ => "remove"
  | update _ => "update"
  | log _ => "log"
  | wait _ => "wait"
  | cancelled => "cancelled"

/-- What comes back from a collaborator. -/
abbrev Call.Answer : Call → Type
  | schedule _ | unschedule _ | add _ | remove _ | log _ => Except Failure Unit
  | report => Except Failure (List Report)
  | list _ => Except Failure (List Job)
  | update _ => Except Failure ProcessType
  | wait _ => Except Failure Bool
  | cancelled => Bool

/-- The collaborators as an interface. -/
abbrev Collaborators : Interface where
  Call := Call
  Answer := Call.Answer

/-- Makes a call. -/
def Call.ask (request : Call) : Plan Collaborators request.Answer :=
  Plan.ask (I := Collaborators) request

/-- Work with the collaborators. -/
abbrev Action (α : Type) := Work Collaborators α

namespace Action

/-- Has a job scheduled. -/
def schedule (definition : Definition) : Action Unit := .ofPlan (Call.ask (.schedule definition))

/-- Has a job no longer scheduled. -/
def unschedule (name : String) : Action Unit := .ofPlan (Call.ask (.unschedule (.text name)))

/-- What the scheduler runs. -/
def report : Action (List Report) := .ofPlan (Call.ask .report)

/-- The tracked jobs of an application. -/
def list (app : Value) : Action (List Job) := .ofPlan (Call.ask (.list app))

/-- Has a job tracked. -/
def add (job : Job) : Action Unit := .ofPlan (Call.ask (.add job))

/-- Has a job no longer tracked. -/
def remove (job : Job) : Action Unit := .ofPlan (Call.ask (.remove job))

/-- Keeps what is wanted of a process type. -/
def update (process : ProcessType) : Action ProcessType := .ofPlan (Call.ask (.update process))

/-- Lets time pass; true if the cleanup is cancelled. -/
def wait (seconds : Binary64) : Action Bool := .ofPlan (Call.ask (.wait seconds))

/-- Logs an event. The log is best effort: failures of the database and of the file system are
dropped. -/
def log (event : Event) : Action Unit := .ofPlan do
  match ← Call.ask (.log event) with
  | .ok () => return .ok ()
  -- Other failures are none of the log, such as an event that cannot be stored.
  | .error failure => return if failure.isForgiven then .ok () else .error failure

end Action

end Rollout
