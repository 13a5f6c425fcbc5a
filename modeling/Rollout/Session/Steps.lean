import Rollout.Operation.Scale
import Rollout.Operation.Survey
import Rollout.Session.Task
import Rollout.Settings

/-!
# Sessions

A session holds a world, the stores that are open with the policy of the release manager, the
formations that were made, and the tasks that were started. Its steps are the operations of the
release manager on all of these, one at a time: a step ends only when every task that it set going
is finished or waits for its grace period to end.
-/

namespace Rollout

/-- The stores that are open, and the policy of the release manager that uses them. A store is no
more than the name of its file. -/
structure Opened where
  jobs : Value
  processes : Value
  policy : Policy

/-- The stores as operations find them. -/
def Opened.stores (opened : Opened) : Stores :=
  ⟨some opened.jobs, some opened.processes, opened.policy.events⟩

/-- The state of a session. Formations are kept by name because operations change them: a formation
that was scaled is the one that the next request finds. -/
structure Session where
  world : World
  settings : Settings
  opened : Option Opened
  formations : List (Value × Formation)
  tasks : List Task

/-- One step of a session. A step that fails keeps what it did until then. -/
abbrev Step (α : Type) := ExceptT Failure (StateM Session) α

namespace Session

/-- A session in which nothing has happened. -/
def start (world : World) (settings : Settings) : Session where
  world := world
  settings := settings
  opened := none
  formations := []
  tasks := []

/-- A formation by what it is called. -/
def formation? (session : Session) (name : Value) : Option Formation :=
  Value.find? session.formations name

/-- Forgets the requests on record. -/
def clearHistory (session : Session) : Session :=
  { session with world := { session.world with history := [] } }

end Session

namespace Step

variable {α : Type}

/-- Fails with the cause, or goes on with the result. -/
def ofExcept (result : Except Failure α) : Step α := ExceptT.mk (pure result)

/-- Does something to the world. -/
def onWorld (work : World → Except Failure α × World) : Step α :=
  -- The world that a failure left is kept with the session.
  ExceptT.mk fun session =>
    let done := work session.world
    (done.1, { session with world := done.2 })

/-- Does something to the files. -/
def onDisk (work : Surroundings → Disk α) : Step α := onWorld (World.onDisk work)

/-- Changes the world. -/
def changeWorld (change : World → World) : Step Unit :=
  modify fun session => { session with world := change session.world }

/-- Works with the collaborators. A failure of the work is a failure of the step. -/
def act (stores : Stores) (action : Action α) : Step α :=
  onWorld (World.run stores action.attempt)

/-- No stores at all. -/
def noStores : Stores := ⟨none, none, .none⟩

/-- The stores that are open. -/
def opened : Step Opened := do
  match (← get).opened with
  | some opened => return opened
  | none => throw .lacking

/-! ### Stores -/

/-- Opens the stores anew. Until both are open none is. -/
def openStores (jobs processes : Value) (policy : Settings → Policy) : Step Policy := do
  -- If one of the two cannot be opened, none stays open.
  modify fun session => { session with opened := none }
  onDisk fun site => JobStore.open site jobs
  onDisk fun site => ProcessStore.open site processes
  let policy := policy (← get).settings
  modify fun session => { session with opened := some ⟨jobs, processes, policy⟩ }
  return policy

/-- Tracks a job. -/
def addJob (job : Job) : Step Unit := do act (← opened).stores (Action.add job)

/-- Tracks a job no longer. -/
def removeJob (job : Job) : Step Unit := do act (← opened).stores (Action.remove job)

/-- The tracked jobs of an application. -/
def listJobs (app : Value) : Step (List Job) := do act (← opened).stores (Action.list app)

/-- Keeps what is wanted of a process type. -/
def updateProcess (process : ProcessType) : Step ProcessType := do
  act (← opened).stores (Action.update process)

/-- Calls a formation by a name. -/
def keepFormation (name : Value) (formation : Formation) : Step Unit :=
  modify fun session =>
    { session with formations := Value.insert name formation session.formations }

/-- The formation of an application in the process store; it is kept if it is given a name. -/
def loadFormation (app : Value) (name : Option Value) : Step Formation := do
  let processes := (← opened).processes
  let formation ← onDisk fun site => ProcessStore.formation site processes app
  if let some name := name then keepFormation name formation
  return formation

/-- Logs an event. -/
def log (file : Value) (event : Event) : Step Unit :=
  act { noStores with events := file } (.ofPlan (Call.ask (.log event)))

/-- The latest events. -/
def events (file limit : Value) : Step (List (Nat × EventRow)) :=
  onDisk fun site => EventLog.latest site file limit

/-- The names in the job store. -/
def tracked : Step (List String) := do
  let jobs := (← opened).jobs
  onDisk fun site => JobStore.names site jobs

/-- The entries of the process store. -/
def wanted : Step (List (String × String × Cell)) := do
  let processes := (← opened).processes
  onDisk fun site => ProcessStore.entries site processes

/-- Makes the tables that are missing in a file. -/
def initialise (file : Value) : Step Unit := onDisk fun site => Disk.initialise site file

/-- Lets time pass, or go back. -/
def tick (seconds : Int) : Step Unit :=
  changeWorld fun world =>
    { world with site := { world.site with now := world.site.now + seconds } }

/-! ### Operations -/

/-- A formation by what it is called. -/
def formation (name : Value) : Step Formation := do
  match (← get).formation? name with
  | some formation => return formation
  | none => throw .unknownKey

/-- Makes a task. The result is its number. -/
def addTask (jobs : Option Value) (cleanup : Cleanup) : Step Nat := do
  let number := (← get).tasks.length
  modify fun session => { session with tasks := session.tasks ++ [.ofCleanup jobs cleanup] }
  return number

/-- A task by its number. -/
def task? (number : Nat) : Step (Option Task) := do return (← get).tasks[number]?

/-- Does something to a task, if it is there. A number of no task changes nothing, and is no
failure. -/
def onTask (number : Nat) (work : Task → World → Task × World) : Step Unit :=
  modify fun session =>
    match session.tasks[number]? with
    | none => session
    | some task =>
      let (task, world) := work task session.world
      { session with world, tasks := session.tasks.set number task }

/-- Rolls a release out and starts the cleanup that retires the generation before it. -/
def rollOut (blueprint : Blueprint) (name : Value) : Step Nat := do
  let opened ← opened
  let formation ← formation name
  let cleanup ← act opened.stores (Rollout.rollOut opened.policy blueprint formation)
  let number ← addTask (some opened.jobs) cleanup
  -- The task is started before the number of it is told.
  onTask number Task.start
  return number

/-- Scales a release by what a validator makes of the quantities. The formation is kept as scaling
left it. -/
def scaleBy {ν : Type} (validator : Validator ν) (blueprint : Blueprint)
    (quantities : List (ν × ν)) (name : Value) : Step Unit := do
  let formation ← formation name
  let opened ← opened
  let result ← onWorld fun world =>
    let work := Scale.scaleBy validator blueprint quantities formation
    let done := World.run opened.stores work world
    (.ok done.1, done.2)
  -- The formation is kept before the ending is looked at, so that a failure keeps it too.
  keepFormation name result.formation
  ofExcept result.ending

/-- Scales a release, with the validator of the program. -/
def scale (blueprint : Blueprint) (quantities : List (Value × Value)) (name : Value) :
    Step Unit :=
  scaleBy ScaleRequest.lax blueprint quantities name

/-- Surveys an application. -/
def survey (app : Value) : Step (List JobState) := do
  act (← opened).stores (Survey.survey app)

/-! ### Tasks -/

/-- Which jobs a cleanup is to remove. Those of an application are looked up when the cleanup is
made, and not again when it runs. -/
inductive Stale where
  | ofApp (app : Value)
  | given (jobs : List Job)

/-- Makes a cleanup of its own, and starts it if told to. It keeps the job store that is open now,
if one is. -/
def cleanUp (stale : Stale) (grace retries delay : Value) (release : Release) (events : Value)
    (starts : Bool) : Step Nat := do
  let jobs ← match stale with
    | .ofApp app => listJobs app
    | .given jobs => pure jobs
  -- The numbers are looked at only when the jobs are known.
  let cleanup ← ofExcept (Cleanup.make? jobs grace retries delay release events)
  let number ← addTask ((← get).opened.map (·.jobs)) cleanup
  if starts then onTask number Task.start
  return number

/-! ### The cluster -/

/-- Schedules a job. -/
def schedule (definition : Definition) : Step Unit := act noStores (Action.schedule definition)

/-- Takes a job from the scheduler. -/
def unschedule (name : Value) : Step Unit :=
  act noStores (.ofPlan (Call.ask (.unschedule name)))

/-- What the scheduler runs. -/
def report : Step (List Report) := act noStores Action.report

/-- Puts faults in the place of those that lie in wait. -/
def setFaults (faults : List Fault) : Step Unit :=
  changeWorld fun world => { world with faults }

end Step

end Rollout
