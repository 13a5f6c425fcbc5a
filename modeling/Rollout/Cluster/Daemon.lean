import Rollout.Collaborators

/-!
# A container daemon

A daemon on one machine runs containers, each under a name of its own, and keeps networks that they
join. `Daemon.Call` lists what can be asked of it; `Daemon.answer` is what a daemon in good order
does. Every call may fail otherwise.
-/

namespace Rollout

/-- A container. Label and status are values of any kind, as nothing but a daemon decides what they
are. -/
structure Container where
  name : String
  labels : Value
  status : Value

/-- What a container is started with. What is asked of the daemon is more than this, but the rest is
the same for all of them. -/
structure ContainerSpec where
  name : String
  image : String
  command : Value
  environment : Value
  network : Value
  labels : Named String

/-- A container daemon. Its information is a value of any kind, since daemons say many things about
themselves and only one of them is asked for. -/
structure Daemon where
  containers : List Container
  networks : List Value
  info : Value

namespace Daemon

/-- What is asked of the daemon. The network calls and the container calls are apart, and each of
them may fail on its own. -/
inductive Call where
  | connect
  | findNetwork (name : Value)
  | makeNetwork (name : Value)
  | run (spec : ContainerSpec)
  | find (name : Value)
  | remove (name : Value)
  | info
  | list

/-- What a call to the daemon gives. -/
abbrev Call.Result : Call → Type
  | connect | findNetwork _ | makeNetwork _ | run _ | find _ | remove _ => Unit
  | info => Value
  | list => List Container

/-- What comes back from the daemon: every call may fail. -/
abbrev Call.Answer (request : Call) : Type := Except Failure request.Result

/-- The daemon as an interface. -/
abbrev Service : Interface where
  Call := Call
  Answer := Call.Answer

/-- The names of the containers. -/
def names (daemon : Daemon) : List String := daemon.containers.map (·.name)

/-- A container has the name. -/
def isNamed (name : Value) (container : Container) : Bool := name.same (.text container.name)

/-- The failure for a container that is not there. -/
def missing (name : Value) : Failure :=
  if name.writable then .noContainer name else .unwritable

/-- The failure for a network that is not there. -/
def missingNetwork (name : Value) : Failure :=
  if name.writable then .noNetwork name else .unwritable

/-- Puts a container among others: in the place of the one of its name, or behind all others. -/
def place (container : Container) : List Container → List Container
  | [] => [container]
  | other :: rest =>
    if other.name = container.name then container :: rest else other :: place container rest

/-- Starts a container, unless its name is taken. A container that does not run keeps its name
too. -/
def start (spec : ContainerSpec) (daemon : Daemon) : Except Failure Unit × Daemon :=
  if daemon.names.contains spec.name then (.error (.containerExists spec.name), daemon)
  else
    -- It runs at once; nothing of the image or of the command shows in it.
    let container : Container := ⟨spec.name, .ofFields spec.labels, .text "running"⟩
    (.ok (), { daemon with containers := daemon.containers ++ [container] })

/-- Removes the container of a name, if it is there. -/
def discard (name : Value) (daemon : Daemon) : Daemon :=
  { daemon with containers := daemon.containers.filter fun container => !isNamed name container }

/-- The container of a name is there; only values that can be keys are looked for. A name that is no
text is that of no container. -/
def find (name : Value) (absent : Failure) (daemon : Daemon) : Except Failure Unit :=
  if !name.isKey then .error .unsuitable
  else if daemon.containers.any (isNamed name) then .ok ()
  else .error absent

/-- A network of the name is there. -/
def findNetwork (name : Value) (daemon : Daemon) : Except Failure Unit :=
  if daemon.networks.any (·.same name) then .ok () else .error (missingNetwork name)

/-- Makes a network. -/
def makeNetwork (name : Value) (daemon : Daemon) : Daemon :=
  { daemon with networks := daemon.networks ++ [name] }

/-- Sets the state of the container of a name. -/
def setStatus (name status : Value) (daemon : Daemon) : Except Failure Unit × Daemon :=
  match daemon.find name .unknownKey with
  | .error failure => (.error failure, daemon)
  | .ok () =>
    (.ok (), { daemon with
      containers := daemon.containers.map fun container =>
        if isNamed name container then { container with status } else container })

/-- What a daemon in good order answers. It is the daemon of a world; what is proved of the adapter
is proved for other daemons as well. -/
def answer : (request : Call) → Daemon → request.Answer × Daemon
  | .connect, daemon => (.ok (), daemon)
  | .findNetwork name, daemon => (daemon.findNetwork name, daemon)
  | .makeNetwork name, daemon => (.ok (), daemon.makeNetwork name)
  | .run spec, daemon => daemon.start spec
  | .find name, daemon => (daemon.find name (missing name), daemon)
  | .remove name, daemon => (.ok (), daemon.discard name)
  | .info, daemon => (.ok daemon.info, daemon)
  | .list, daemon => (.ok daemon.containers, daemon)

end Daemon

end Rollout
