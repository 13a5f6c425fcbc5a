import Rollout.Cluster.Adapter
import Rollout.Storage.EventLog
import Rollout.Storage.JobStore
import Rollout.Storage.ProcessStore
import Rollout.World.Fault

/-!
# The world

Everything that the release manager works on, in one state: the scheduler, the container daemon, the
files, and the clock, together with the faults that lie in wait and the record of the requests that
were made. `World.answer` is the handler that answers calls in it.

While a cleanup runs, the world knows whether it is cancelled, so that a fault can cancel it.

Time does not pass in a world: a wait ends as soon as it has begun, and tells whether the cleanup is
cancelled. What remains of time is that platforms wait so long and no longer: `WaitLimit.await`
refuses a wait that is asked to be longer, whether or not a fault lies in wait. Settings may ask for
any number of seconds, infinity included, so the refusal is within reach of every cleanup.
-/

namespace Rollout

/-- Where the release manager finds its stores. A store that is missing cannot be called, and
whoever needs it fails. -/
structure Stores where
  /-- The file of the job store, if there is one. -/
  jobs : Option Value
  /-- The file of the process store, if there is one. -/
  processes : Option Value
  events : Value

/-- A cluster scheduler. Either is used through the same three calls, and a world has one of them
for good. -/
inductive Scheduler where
  | memory (memory : Memory)
  | adapter (adapter : Adapter)

/-- How long the platform can wait at a time. It is a property of the platform and not of a cleanup,
so it stays the same in a world from beginning to end. -/
inductive WaitLimit where
  /-- Waits are not real, so any number of seconds will do. -/
  | unlimited
  /-- Waits are real, and take so many seconds at most. -/
  | upTo (longest : Binary64)

namespace WaitLimit

/-- Whether a wait of that many seconds is within the limit. -/
def admits (seconds : Binary64) : WaitLimit → Bool
  | unlimited => true
  | upTo longest => seconds.compare? longest != some .gt

/-- What comes of a wait for the cancellation of a cleanup. One that is cancelled already is told so
before anything is waited for, and so before the limit matters. -/
def await (cancelled : Bool) (seconds : Binary64) (limit : WaitLimit) : Except Failure Bool :=
  if cancelled || limit.admits seconds then .ok cancelled else .error .waitTooLong

/-- Within the limit a wait tells whether the cleanup is cancelled. -/
theorem await_of_admits {cancelled : Bool} {seconds : Binary64} {limit : WaitLimit}
    (h : limit.admits seconds = true) : limit.await cancelled seconds = .ok cancelled := by
  rw [await, h, Bool.or_true, if_pos rfl]

/-- What a wait tells is the truth. -/
theorem eq_of_await {cancelled told : Bool} {seconds : Binary64} {limit : WaitLimit}
    (h : limit.await cancelled seconds = .ok told) : cancelled = told := by
  rw [await] at h
  split at h
  · exact Except.ok.inj h
  · cases h

/-- A wait is refused only beyond the limit. -/
theorem admits_eq_false_of_await {cancelled : Bool} {seconds : Binary64} {limit : WaitLimit}
    {failure : Failure} (h : limit.await cancelled seconds = .error failure) :
    limit.admits seconds = false := by
  rw [← Bool.not_eq_true]
  intro hadmits
  rw [await_of_admits hadmits] at h
  cases h

end WaitLimit

/-- Everything that the release manager works on. There is one of it, and what is not in it, such as
the formation that is being scaled, is handed from one operation to the next. -/
structure World where
  scheduler : Scheduler
  daemon : Daemon
  files : Files
  site : Surroundings
  faults : List Fault
  history : List Request
  /-- Whether the cleanup that runs is cancelled; none if no cleanup runs. -/
  cancelled : Option Bool
  /-- How long can be waited at a time. A world in which waits are real says so. -/
  waitLimit : WaitLimit := .unlimited

namespace World

/-- The names of what runs, in the order in which it was started. -/
def scheduled (world : World) : List String :=
  match world.scheduler with
  | .memory memory => memory.jobs.names
  | .adapter _ => world.daemon.names

/-! ### Records and faults -/

/-- Puts a request on record and lets a fault fire. The result is the failure in its place, if there
is one. -/
def attend (request : Request) (world : World) : Option Failure × World :=
  let fired := Fault.fire request world.faults
  let cancels := fired.1.any (·.cancels)
  (fired.1.bind (·.failure),
    { world with
      faults := fired.2
      history := world.history ++ [request]
      -- Without a cleanup at work there is nothing to cancel, and the fault is spent all the same.
      cancelled := world.cancelled.map (· || cancels) })

/-- Makes a request on record, unless a fault fails in its place. -/
def recorded {α : Type} (request : Request) (real : World → Except Failure α × World)
    (world : World) : Except Failure α × World :=
  match attend request world with
  -- The record and the faults are as after the request, although it was never made.
  | (some failure, world) => (.error failure, world)
  | (none, world) => real world

/-- Something that is done to the files, here and now. -/
def onDisk {α : Type} (work : Surroundings → Disk α) (world : World) : Except Failure α × World :=
  let done := work world.site world.files
  (done.1, { world with files := done.2 })

/-! ### The daemon -/

/-- A call to the daemon that no fault has failed. -/
def daemonReal {α : Type} (ask : Daemon → Except Failure α × Daemon) (world : World) :
    Except Failure α × World :=
  let answered := ask world.daemon
  (answered.1, { world with daemon := answered.2 })

/-- The daemon of the world as a handler. -/
def daemonAnswer : Plan.Handler Daemon.Service World := fun request =>
  recorded (.daemon request) (daemonReal (Daemon.answer request))

/-! ### The scheduler -/

/-- Has the scheduler do something. One in memory answers by itself; an adapter asks the daemon, in
calls of its own that are put on record. -/
def onScheduler {α : Type} (inMemory : Memory → Except Failure α × Memory)
    (inAdapter : Adapter.Act α) (world : World) : Except Failure α × World :=
  match world.scheduler with
  | .memory memory =>
    let done := inMemory memory
    (done.1, { world with scheduler := .memory done.2 })
  | .adapter adapter =>
    let done := Plan.run daemonAnswer (inAdapter.run.run adapter) world
    (done.1.1, { done.2 with scheduler := .adapter done.1.2 })

/-! ### Calls -/

/-- A call that can be put on record: the image of a job that is scheduled must have a reference. -/
def recordable : Call → Except Failure Unit
  | .schedule definition => definition.image.reference?.map fun _ => ()
  | _ => .ok ()

/-- Puts a call on record and makes it, unless it cannot be recorded or a fault fails in its place.
A call that cannot be recorded meets no fault. -/
def perform {α : Type} (request : Call) (real : World → Except Failure α × World)
    (world : World) : Except Failure α × World :=
  match recordable request with
  | .error failure => (.error failure, world)
  | .ok () => recorded (.call request) real world

/-- Has a store do something. A store that is not there cannot be called, so nothing goes on
record. -/
def inStore {α : Type} (store : Option Value) (request : Call)
    (work : Surroundings → Value → Disk α) (world : World) : Except Failure α × World :=
  match store with
  | some file => perform request (onDisk fun site => work site file) world
  | none => (.error (.noStore request.verb), world)

/-- Whether the cleanup that runs is cancelled. -/
def isCancelled (world : World) : Bool := world.cancelled.getD false

/-- The world as a handler. Every call goes through the record and past the faults, but for the
question whether a cleanup is cancelled. -/
def answer (stores : Stores) : Plan.Handler Collaborators World
  | request@(.schedule definition) =>
    perform request (onScheduler (Memory.schedule definition) (Adapter.schedule definition))
  | request@(.unschedule name) =>
    perform request (onScheduler (Memory.unschedule name) (Adapter.unschedule name))
  | request@(.report) =>
    perform request (onScheduler (fun memory => (.ok memory.reports, memory)) Adapter.reports)
  | request@(.list app) => inStore stores.jobs request (JobStore.list · · app)
  | request@(.add job) => inStore stores.jobs request (JobStore.add · · job)
  | request@(.remove job) => inStore stores.jobs request (JobStore.remove · · job)
  | request@(.update process) => inStore stores.processes request (ProcessStore.update · · process)
  | request@(.log event) =>
    perform request (onDisk fun site => EventLog.log site stores.events event)
  | request@(.wait seconds) =>
    perform request fun world => (world.waitLimit.await world.isCancelled seconds, world)
  | .cancelled => fun world => (world.isCancelled, world)

/-- Runs work in the world. -/
def run {α : Type} (stores : Stores) (plan : Plan Collaborators α) (world : World) : α × World :=
  plan.run (answer stores) world

/-- Without faults a request is put on record and nothing fails. -/
theorem attend_of_no_faults (request : Request) {world : World} (h : world.faults = []) :
    attend request world = (none, { world with history := world.history ++ [request] }) := by
  cases world
  simp_all [attend]

/-- Without faults a recorded request is made. -/
theorem recorded_of_no_faults {α : Type} (request : Request)
    (real : World → Except Failure α × World) {world : World} (h : world.faults = []) :
    recorded request real world = real { world with history := world.history ++ [request] } := by
  simp only [recorded, attend_of_no_faults request h]

@[simp] theorem inStore_some {α : Type} (file : Value) (request : Call)
    (work : Surroundings → Value → Disk α) (world : World) :
    inStore (some file) request work world =
      perform request (onDisk fun site => work site file) world := rfl

@[simp] theorem history_attend (request : Request) (world : World) :
    (attend request world).2.history = world.history ++ [request] := rfl

@[simp] theorem answer_cancelled (stores : Stores) (world : World) :
    answer stores .cancelled world = (world.isCancelled, world) := rfl

end World

end Rollout
