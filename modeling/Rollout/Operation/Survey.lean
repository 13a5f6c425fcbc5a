import Rollout.Collaborators

/-!
# Surveying an application

The tracked jobs of an application, each with what the scheduler says about it. The tracked jobs
decide which entries there are: a job that the scheduler does not know is listed as unknown, and
what the scheduler runs besides is left out. If it says several things about a name, the last one
counts.
-/

namespace Rollout

/-- A tracked job and where it is. Machine and state are both unknown for a job that the scheduler
does not report. -/
structure JobState where
  job : Job
  name : String
  machine : Value
  state : Value

namespace Survey

/-- The word for a machine or state that is not known. -/
def unknown : Value := .text "unknown"

/-- What the scheduler said last about a name. -/
def lastReport? (reports : List Report) (name : String) : Option Report :=
  reports.reverse.find? fun report => report.name.same (.text name)

/-- A job with what the scheduler said about it. -/
def stateOf (reports : List Report) (job : Job) : Except Failure JobState := do
  let name ← job.name?
  match lastReport? reports name with
  | some report => return ⟨job, name, report.machine, report.state⟩
  | none => return ⟨job, name, unknown, unknown⟩

/-- Joins jobs with reports, whose names must be able to serve as keys. -/
def join (jobs : List Job) (reports : List Report) : Except Failure (List JobState) :=
  if reports.all fun report => report.name.isKey then jobs.mapM (stateOf reports)
  else .error .unsuitable

/-- Surveys an application. -/
def survey (app : Value) : Action (List JobState) := do
  let jobs ← Action.list app
  -- What changes between the two calls is seen on one side only.
  let reports ← Action.report
  Work.ofExcept (join jobs reports)

end Survey

end Rollout
