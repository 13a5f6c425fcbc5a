import Rollout.Image
import Rollout.Formation
import Rollout.Named
import Rollout.Order

/-!
# Jobs

One instance of a process type of a release, with all that it needs to run. Its identity is its
name; environment, image and command ride along.

`Environment.ofVars` is the plain mapping of texts that jobs get from configuration variables of any
kind. `Job.expand` turns a formation into jobs: process types in order, and for each the instances
from one up to the quantity, so that equal formations always give equal lists.
-/

namespace Rollout

/-! ### Environments -/

/-- Names and values of environment variables, in order of arrival. -/
abbrev Environment := Named String

namespace Environment

/-- Names and values of variables as texts, unless an integer has too many digits. -/
def texts : List (Value × Value) → Except Failure (List (String × String))
  | [] => .ok []
  | (name, value) :: rest => do
    let name ← name.shown?
    let value ← value.shown?
    return (name, value) :: (← texts rest)

/-- The environment of configuration variables. Variables whose names have the same text are one
variable, with the last value. -/
def ofVars (vars : List (Value × Value)) : Except Failure Environment := do
  -- All texts are made first, so a variable that cannot be written fails even if a later one takes
  -- its place.
  return (← texts vars).foldl (fun environment entry => Named.set entry.1 entry.2 environment) []

/-- The environment that a value stands for. -/
def ofValue? : Value → Except Failure Environment
  | .dict vars => ofVars vars
  | _ => .error .lacking

end Environment

/-! ### Jobs -/

/-- One instance of a process type of a release. The fields are values of any kind: whether they
make a name is found out where the name is needed. -/
structure Job where
  app : Value
  version : Value
  type : Value
  ordinal : Value
  environment : Value
  image : Image
  command : Value

namespace Job

/-- The name of a job. -/
def name? (job : Job) : Except Failure String :=
  JobName.text? job.app job.version job.type job.ordinal

/-- The text that stands for the name of a job that has none. -/
def nameless : String := "<invalid>"

/-- The name of a job, or the text that stands for it. -/
def label (job : Job) : String := job.name?.toOption.getD nameless

/-! ### Expanding a formation -/

/-- What all jobs of a release share. -/
structure Template where
  app : Value
  version : Value
  environment : Environment
  image : Image

/-- The job of one instance. -/
def Template.job (template : Template) (type : Value) (command : Value) (ordinal : Nat) : Job where
  app := template.app
  version := template.version
  type := type
  ordinal := .int ordinal
  environment := .ofFields template.environment
  image := template.image
  command := command

/-- The jobs of the instances one to `count` of a process type. -/
def Template.jobs (template : Template) (type : Value) (command : Value) (count : Nat) : List Job :=
  (List.range count).map fun n => template.job type command (n + 1)

/-- The entries of a formation in the order of their process types. It fails if two types cannot be
compared with one another, as a text and a number cannot. -/
def sorted? (formation : Formation) : Except Failure Formation :=
  if Value.allComparable formation then .ok (Value.sortedEntries formation) else .error .unsuitable

/-- The jobs of the entries of a formation, in the given order. -/
def Template.expand (template : Template) : Formation → Except Failure (List Job)
  | [] => .ok []
  | (type, process) :: rest => do
    -- Entries fail in their order, and a quantity that cannot be counted up to loses all jobs.
    let count ← process.quantity.count?
    return template.jobs type process.command count ++ (← template.expand rest)

/-- The jobs of a release. -/
def expand (app version : Value) (image : Image) (vars : List (Value × Value))
    (formation : Formation) : Except Failure (List Job) := do
  let environment ← Environment.ofVars vars
  let entries ← sorted? formation
  Template.expand { app, version, environment, image } entries

/-! ### Identity -/

/-- Jobs are equal if their names are. -/
def sameName (a b : Job) : Except Failure Bool := do
  return (← a.name?) == (← b.name?)

/-- The names of jobs, each once. -/
def distinctNames (jobs : List Job) : Except Failure (List String) := do
  return (← jobs.mapM name?).eraseDups

end Job

end Rollout
