import Rollout.Cluster.Daemon
import Rollout.Cluster.Memory
import Rollout.Settings

/-!
# Jobs as containers

A scheduler on top of a container daemon. Each job is one container under the name of the job,
labelled so that it can be found again. The client is taken on at the first use, and the network is
looked for, and made if it is missing, before the first container is started; either is tried again
at the next use until it worked once.

Failures of the daemon become rejections. Names that the daemon would not take, or that are no job
names, are rejected before the daemon is asked anything.
-/

namespace Rollout

/-- A scheduler on top of a container daemon. What runs is known to the daemon alone; the adapter
holds no more than what it is connected with. -/
structure Adapter where
  connected : Bool
  network : Value
  networkReady : Bool

namespace Adapter

/-- An adapter with or without a client. Containers join the given network, or else the one of the
settings. -/
def make (connected : Bool) (network : Value) (settings : Settings) : Adapter where
  connected := connected
  network := if network.isTrue then network else settings.network
  networkReady := false

/-- The label that holds the application of a job. -/
def appLabel : String := "relman.app"

/-- The label that holds the name of a job. -/
def jobLabel : String := "relman.job"

/-! ### Names of containers -/

/-- Letters and digits of ASCII. -/
def isAlphanumeric (c : Char) : Bool := c.isAlphanum

/-- Characters that may follow the first one of a container name. -/
def isNameChar (c : Char) : Bool := isAlphanumeric c || c = '_' || c = '.' || c = '-'

/-- A text without a line end at its very end. One is let pass there, by the pattern that names are
checked with; the daemon itself does not take it. -/
def dropLineEnd (s : List Char) : List Char :=
  if s.getLast? = some '\n' then s.dropLast else s

/-- A text that passes as a container name: a letter or digit and at least one further character,
with one line end at the very end let pass. -/
def isContainerName (s : String) : Bool :=
  match dropLineEnd s.toList with
  -- The daemon takes no name of one character.
  | first :: rest => isAlphanumeric first && !rest.isEmpty && rest.all isNameChar
  | [] => false

/-- The labels of the container of a job. -/
def labels? (name : String) : Except Failure (Named String) :=
  if !isContainerName name then .error (.rejected (.badContainerName name))
  else
    -- The pattern lets pass more than names of jobs, and the application is needed for a label.
    match JobName.parse name with
    | .ok fields => .ok [(appLabel, fields.app), (jobLabel, name)]
    | .error _ => .error (.rejected (.notJobName name))

/-! ### Work with the daemon -/

/-- Work that calls the daemon and changes the adapter. -/
abbrev Act (α : Type) := ExceptT Failure (StateT Adapter (Plan Daemon.Service)) α

namespace Act

variable {α : Type}

/-- Makes a call. -/
def ofPlan (plan : Plan Daemon.Service (Except Failure α)) : Act α :=
  ExceptT.mk (StateT.lift plan)

/-- Makes a call. -/
def ask (request : Daemon.Call) : Plan Daemon.Service request.Answer :=
  Plan.ask (I := Daemon.Service) request

/-- Looks at the failure of work. -/
def attempt (work : Act α) : Act (Except Failure α) := ExceptT.lift work.run

/-- Fails with the cause, or goes on with the result. -/
def ofExcept (result : Except Failure α) : Act α := ExceptT.mk (pure result)

/-- Turns failures of the daemon into rejections. Any other failure passes, also one that a
rejection by the adapter itself has raised. -/
def rejecting (rejection : Failure → Failure) (work : Act α) : Act α := do
  match ← work.attempt with
  | .ok result => return result
  | .error failure =>
    if failure.kind.isDaemon then throw (rejection failure) else throw failure

end Act

/-- Takes a client on, unless there is one. -/
def connect : Act Unit := do
  unless (← get).connected do
    Act.rejecting (fun failure => .rejected (.unavailable failure.message)) do
      Act.ofPlan (Act.ask .connect)
    modify fun adapter => { adapter with connected := true }

/-- Makes sure that the network is there, once and for all. -/
def ensureNetwork : Act Unit := do
  unless (← get).networkReady do
    let network := (← get).network
    let looked ← Act.attempt do
      connect
      Act.ofPlan (Act.ask (.findNetwork network))
    match looked with
    | .ok () => pure ()
    | .error failure =>
      -- Only a network that is not there is made; any other failure counts.
      if failure.kind = .daemonMissing then
        connect
        Act.ofPlan (Act.ask (.makeNetwork network))
      else throw failure
    modify fun adapter => { adapter with networkReady := true }

/-- Starts the container of a job. -/
def start (definition : Definition) (labels : Named String) : Act Unit := do
  ensureNetwork
  connect
  -- What is wrong with the job itself is found out only now, when the network is there.
  let image ← Act.ofExcept definition.image.reference?
  let environment ← Act.ofExcept definition.environment.toDictionary
  let network := (← get).network
  Act.ofPlan <| Act.ask <|
    .run ⟨definition.name, image, definition.command, environment, network, labels⟩

/-- Runs a job. -/
def schedule (definition : Definition) : Act Unit := do
  let labels ← Act.ofExcept (labels? definition.name)
  let rejection (failure : Failure) : Failure :=
    .rejected (.notScheduled definition.name failure.message)
  Act.rejecting rejection (start definition labels)

/-- The rejection for a job that the daemon failed to remove. -/
def removalFailure (name : Value) (failure : Failure) : Failure :=
  if failure.kind = .daemonMissing then unknownJob name
  -- A name that cannot be worded fails in the wording.
  else if name.writable then .rejected (.notUnscheduled name.shown failure.message)
  else .unwritable

/-- Runs the job of a name no longer. -/
def unschedule (name : Value) : Act Unit :=
  Act.rejecting (removalFailure name) do
    connect
    Act.ofPlan (Act.ask (.find name))
    Act.ofPlan (Act.ask (.remove name))

/-- The value under a name in a dictionary, or a default. What is no dictionary has no such names,
which is a failure of its own and none of the daemon. -/
def field (name : String) (default : Value) : Value → Except Failure Value
  | .dict entries => .ok ((Value.find? entries (.text name)).getD default)
  | _ => .error .lacking

/-- What a container says about its job. -/
def reportOf (machine : Value) (container : Container) : Except Failure Report := do
  return ⟨← field jobLabel (.text container.name) container.labels, machine, container.status⟩

/-- What runs. -/
def reports : Act (List Report) := do
  let rejection (failure : Failure) : Failure := .rejected (.notListed failure.message)
  let (machine, containers) ← Act.rejecting rejection do
    connect
    let info ← Act.ofPlan (Act.ask .info)
    let machine ← Act.ofExcept (field "Name" (.text "unknown") info)
    connect
    let containers ← Act.ofPlan (Act.ask .list)
    return (machine, containers)
  Act.ofExcept (containers.mapM (reportOf machine))

end Adapter

end Rollout
