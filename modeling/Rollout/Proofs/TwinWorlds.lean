import Rollout.Proofs.LogFaults
import Rollout.Proofs.TwinFiles

/-!
# Worlds that differ in the log

Two worlds are *log twins* (`World.LogTwins`), or twins for short, if all is the same in them but
for the events that were logged and the faults that the log is going to meet. What is done to both
of them comes to the same and leaves twins (`World.Alike`), with one exception: an event may be
logged in one of them and lost in the other.

So a plan comes to the same in twins if it goes on in the same way whether an event was logged or
the log let its failure pass (`Plan.IgnoresLog`, `World.alike_run`). The log has to take the events
that it is given, or fail in a way that it lets pass (`Event.IsLoggable`): an event with a version
beyond 64 bits fails in another way, and then it makes a difference whether a fault comes first.

Nothing is assumed about the scheduler, which may keep its jobs in memory or in containers.
-/

namespace Rollout

/-! ### Events that the log takes -/

/-- The log takes the event, or fails in a way that it lets pass. Failures of the other kind would
show in the run. -/
def Event.IsLoggable (event : Event) : Prop :=
  ∀ now failure, EventRow.admit? now event = .error failure → failure.isForgiven = true

/-- What the log is to say about a release fits into it: numbers are of 64 bits. -/
structure Release.IsLoggable (release : Release) : Prop where
  app : ∀ n, release.app = .int n → CellNumber.fits n = true
  version : ∀ n, release.version = .int n → CellNumber.fits n = true

/-- A value that is no number beyond 64 bits is bound, or the failure is let pass. -/
theorem Cell.isForgiven_of_bind {position : Nat} {value : Value} {failure : Failure}
    (hfits : ∀ n, value = .int n → CellNumber.fits n = true)
    (h : Cell.bind position value = .error failure) : failure.isForgiven = true := by
  cases value with
  | int n =>
    rw [Cell.bind_int position (hfits n rfl)] at h
    cases h
  -- What no column takes is a failure of the binding, and the log lets that pass.
  | list | dict =>
    obtain rfl := Except.error.inj h
    rfl
  | real x => cases x <;> cases h
  | _ => cases h

/-- What an event says in words is always bound. -/
theorem EventRow.admit?_of_texts (now level message : String) (app version : Value) :
    ∃ row : Cell → Cell → EventRow,
      EventRow.admit? now ⟨.text level, .text message, app, version⟩ = (do
        let app ← Cell.bind 3 app
        let version ← Cell.bind 4 version
        return row app version) := by
  rw [EventRow.admit?, EventLog.capitals]
  exact ⟨fun app version => ⟨now, _, app.asText, version.asInteger, message⟩, rfl⟩

/-- **Events of a release that fits are loggable.** -/
theorem Release.IsLoggable.event {release : Release} (h : release.IsLoggable)
    (level message : String) :
    Event.IsLoggable ⟨.text level, .text message, release.app, release.version⟩ := by
  intro now failure hfails
  obtain ⟨row, hrow⟩ := EventRow.admit?_of_texts now level message release.app release.version
  -- level and message are texts, so only application and version can be refused
  rw [hrow] at hfails
  cases happ : Cell.bind 3 release.app with
  | error cause =>
    rw [happ] at hfails
    obtain rfl := Except.error.inj hfails
    exact Cell.isForgiven_of_bind h.app happ
  | ok app =>
    cases hversion : Cell.bind 4 release.version with
    | error cause =>
      rw [happ, hversion] at hfails
      obtain rfl := Except.error.inj hfails
      exact Cell.isForgiven_of_bind h.version hversion
    | ok version =>
      rw [happ, hversion] at hfails
      cases hfails

/-! ### Twins -/

namespace World

variable {α β : Type} {opened : Opened} {stores : Stores} {world twin : World} {event : Event}

/-- The two worlds differ in the log at most: in events, and in faults of the log. The requests on
record are the same, those of the log included. -/
structure LogTwins (opened : Opened) (world twin : World) : Prop where
  scheduler : twin.scheduler = world.scheduler
  daemon : twin.daemon = world.daemon
  site : twin.site = world.site
  history : twin.history = world.history
  cancelled : twin.cancelled = world.cancelled
  waitLimit : twin.waitLimit = world.waitLimit
  faults : Fault.VaryInLog world.faults twin.faults
  time : ∃ now, Calendar.timestamp world.site.now = .ok now
  files : Disk.LogTwins world.site opened world.files twin.files

theorem LogTwins.symm (h : world.LogTwins opened twin) : twin.LogTwins opened world := by
  refine ⟨h.scheduler.symm, h.daemon.symm, h.site.symm, h.history.symm, h.cancelled.symm,
    h.waitLimit.symm, h.faults.symm, ?_, ?_⟩
  · rw [h.site]
    exact h.time
  · rw [h.site]
    exact h.files.symm

/-- What is done comes to the same in twins and leaves twins. -/
def Alike (opened : Opened) (work : World → β × World) : Prop :=
  ∀ world twin : World, world.LogTwins opened twin →
    (work twin).1 = (work world).1 ∧ (work world).2.LogTwins opened (work twin).2

/-! ### Requests -/

/-- A request goes on record in both worlds, and a fault fails in its place in both or in none; only
in the log one may fail if it is let pass. -/
theorem LogTwins.attend (h : world.LogTwins opened twin) (request : Request) :
    ((World.attend request world).1 = (World.attend request twin).1 ∨ request.point = .log ∧
      Fault.LetsPass (World.attend request world).1 ∧
      Fault.LetsPass (World.attend request twin).1) ∧
    (World.attend request world).2.LogTwins opened (World.attend request twin).2 := by
  obtain ⟨hcancels, hfailure⟩ := h.faults.varies request
  refine ⟨hfailure, h.scheduler, h.daemon, h.site, ?_, ?_, h.waitLimit, h.faults.fire request,
    h.time, h.files⟩
  · rw [history_attend, history_attend, h.history]
  -- Faults of twins cancel alike, so a fault of the log cannot cancel in one of them only.
  · change (twin.cancelled.map (· || (Fault.outcome request twin.faults).2)) =
      world.cancelled.map (· || (Fault.outcome request world.faults).2)
    rw [hcancels, h.cancelled]

theorem alike_recorded {request : Request} (hother : request.point ≠ .log)
    {real : World → Except Failure β × World} (hreal : Alike opened real) :
    Alike opened (recorded request real) := by
  intro world twin h
  obtain ⟨hfailure | ⟨hlog, -⟩, htwins⟩ := h.attend request
  · rw [recorded, recorded]
    -- Both worlds meet the same: a failure, or nothing, and then the real work follows.
    rcases hhere : World.attend request world with ⟨_ | failure, after⟩ <;>
      rcases hthere : World.attend request twin with ⟨_ | failure', after'⟩ <;>
      rw [hhere, hthere] at hfailure htwins <;> cases hfailure
    · exact hreal _ _ htwins
    · exact ⟨rfl, htwins⟩
  -- Only a request to the log may fail in one of the two.
  · exact absurd hlog hother

theorem alike_perform {request : Call} (hother : (Request.call request).point ≠ .log)
    {real : World → Except Failure β × World} (hreal : Alike opened real) :
    Alike opened (perform request real) := by
  intro world twin h
  rw [perform, perform]
  cases recordable request with
  | error failure => exact ⟨rfl, h⟩
  | ok _ => exact alike_recorded hother hreal world twin h

/-- Something that is done to twin files. -/
theorem alike_onDisk {work : Surroundings → Disk β}
    (hwork : ∀ {site files twin}, Disk.LogTwins site opened files twin →
      Disk.Alike site opened (work site) files twin) : Alike opened (onDisk work) := by
  intro world twin h
  obtain ⟨hanswer, htwins⟩ := hwork h.files
  rw [onDisk, onDisk, h.site]
  exact ⟨hanswer.symm, h.scheduler, h.daemon, rfl, h.history, h.cancelled, h.waitLimit, h.faults,
    h.time, htwins⟩

theorem alike_inStore {store : Option Value} {file : Value} {request : Call}
    (work : Surroundings → Value → Disk β) (hother : (Request.call request).point ≠ .log)
    (hstore : ∀ given, store = some given → given = file)
    (hwork : ∀ {site files twin}, Disk.LogTwins site opened files twin →
      Disk.Alike site opened (work site file) files twin) :
    Alike opened (inStore store request work) := by
  -- Which store is open is a matter of the session, the same one for both.
  cases hgiven : store with
  | none => exact fun _ _ h => ⟨rfl, h⟩
  | some given =>
    obtain rfl := hstore given hgiven
    exact alike_perform hother (alike_onDisk hwork)

/-! ### The scheduler -/

/-- **A run comes to the same in twins** if all of its calls do. By induction on the plan, since the
same answers lead to the same next call. -/
theorem alike_plan {I : Interface} {handle : Plan.Handler I World}
    (hhandle : ∀ request, Alike opened (handle request)) (plan : Plan I β) :
    Alike opened (plan.run handle) := by
  intro world twin h
  -- On the plan: equal answers lead to the same rest, and the worlds stay twins.
  induction plan generalizing world twin with
  | done result => exact ⟨rfl, h⟩
  | call request next ih =>
    obtain ⟨hanswer, htwins⟩ := hhandle request world twin h
    rw [Plan.run_call, Plan.run_call, hanswer]
    exact ih _ _ _ htwins

/-- The daemon answers alike. -/
theorem alike_daemonAnswer (request : Daemon.Call) : Alike opened (daemonAnswer request) := by
  have hother : (Request.daemon request).point ≠ .log := by
    cases request <;> exact fun heq => nomatch heq
  refine alike_recorded hother fun world twin h => ?_
  rw [daemonReal, daemonReal, h.daemon]
  exact ⟨rfl, h.scheduler, rfl, h.site, h.history, h.cancelled, h.waitLimit, h.faults, h.time,
    h.files⟩

theorem alike_onScheduler (inMemory : Memory → Except Failure β × Memory)
    (inAdapter : Adapter.Act β) : Alike opened (onScheduler inMemory inAdapter) := by
  intro world twin h
  rw [onScheduler, onScheduler, h.scheduler]
  -- A scheduler in memory answers by itself, and the adapter has a talk with the daemon.
  cases world.scheduler with
  | memory memory =>
    exact ⟨rfl, rfl, h.daemon, h.site, h.history, h.cancelled, h.waitLimit, h.faults, h.time,
      h.files⟩
  | adapter adapter =>
    obtain ⟨hanswer, htwins⟩ := alike_plan alike_daemonAnswer (inAdapter.run.run adapter) _ _ h
    dsimp only
    rw [hanswer]
    exact ⟨rfl, rfl, htwins.daemon, htwins.site, htwins.history, htwins.cancelled,
      htwins.waitLimit, htwins.faults, htwins.time, htwins.files⟩

/-! ### Calls -/

/-- **Calls are answered alike**, but for those that log an event. -/
theorem alike_answer (hserve : stores.Serve opened) {request : Call}
    (hother : (Request.call request).point ≠ .log) : Alike opened (answer stores request) := by
  have hjobs : ∀ given, stores.jobs = some given → given = opened.jobs := fun given hgiven =>
    Option.some.inj (hgiven.symm.trans hserve.jobs)
  -- A call to a store is a matter of its files, one to the scheduler of its state.
  cases request with
  | schedule | unschedule | report => exact alike_perform hother (alike_onScheduler _ _)
  | list app =>
    exact alike_inStore (JobStore.list · · app) hother hjobs fun h => JobStore.alike_list h app
  | add job =>
    exact alike_inStore (JobStore.add · · job) hother hjobs fun h => JobStore.alike_add h job
  | remove job =>
    exact alike_inStore (JobStore.remove · · job) hother hjobs fun h => JobStore.alike_remove h job
  | update process =>
    exact alike_inStore (ProcessStore.update · · process) hother hserve.processes
      fun h => ProcessStore.alike_update h process
  | log event => exact absurd rfl hother
  | wait seconds =>
    -- whether the cleanup is cancelled is the same in both worlds, and how long they can wait
    refine alike_perform hother fun world twin h => ?_
    rw [isCancelled, isCancelled, h.cancelled, h.waitLimit]
    exact ⟨rfl, h⟩
  | cancelled =>
    intro world twin h
    rw [answer_cancelled, answer_cancelled, isCancelled, isCancelled, h.cancelled]
    exact ⟨rfl, h⟩

/-! ### The log -/

/-- An event was logged, or the log let its failure pass. This is all that work may rely on after it
has logged. -/
def IsPassed (result : Except Failure Unit) : Prop :=
  ∀ failure, result = .error failure → failure.isForgiven = true

/-- An event that is logged in one of two twins leaves twins, and it is passed over at worst. -/
theorem LogTwins.log_here (h : world.LogTwins opened twin) (hevent : event.IsLoggable) :
    let done := onDisk (fun site => EventLog.log site opened.policy.events event) world
    IsPassed done.1 ∧ done.2.LogTwins opened twin := by
  obtain ⟨now, hnow⟩ := h.time
  -- The other world does nothing meanwhile, and still they differ in events only.
  obtain ⟨hresult, hfiles⟩ := EventLog.twins_log h.files hnow event
  refine ⟨fun failure hfails => ?_, h.scheduler, h.daemon, h.site, h.history, h.cancelled,
    h.waitLimit, h.faults, h.time, hfiles⟩
  change (EventLog.log world.site opened.policy.events event world.files).1 = _ at hfails
  -- the event fails only where it is not admitted, and then as the log lets pass
  cases hrow : EventRow.admit? now event with
  | error cause =>
    rw [hresult, hrow] at hfails
    obtain rfl := Except.error.inj hfails
    exact hevent now _ hrow
  | ok row =>
    rw [hresult, hrow] at hfails
    cases hfails

/-- **Logging an event** has the same answer in twins, or answers that are passed over; twins it
leaves in any case. -/
theorem LogTwins.log (hserve : stores.Serve opened) (hevent : event.IsLoggable)
    (h : world.LogTwins opened twin) :
    ((answer stores (.log event) twin).1 = (answer stores (.log event) world).1 ∨
        IsPassed (answer stores (.log event) world).1 ∧
        IsPassed (answer stores (.log event) twin).1) ∧
      (answer stores (.log event) world).2.LogTwins opened (answer stores (.log event) twin).2 := by
  obtain ⟨hfailure, htwins⟩ := h.attend (.call (.log event))
  have hlog (world : World) : answer stores (.log event) world =
      recorded (.call (.log event)) (onDisk fun site =>
        EventLog.log site opened.policy.events event) world := by
    rw [← hserve.events]
    rfl
  have hpassed {failure : Failure} (hpass : Fault.LetsPass (some failure)) :
      IsPassed (.error failure) := fun cause heq => Except.error.inj heq ▸ hpass failure rfl
  -- a fault may come first in both worlds, in one of them, or in none
  rw [hlog, hlog, recorded, recorded]
  rcases hhere : World.attend (.call (.log event)) world with ⟨_ | failure, after⟩ <;>
    rcases hthere : World.attend (.call (.log event)) twin with ⟨_ | failure', after'⟩ <;>
    rw [hhere, hthere] at hfailure htwins
  · obtain ⟨hanswer, hsame⟩ :=
      alike_onDisk (fun h => EventLog.alike_log h event) after after' htwins
    exact ⟨.inl hanswer, hsame⟩
  -- The fault is in the other world alone, and it is one that is let pass.
  · obtain ⟨hanswer, hsame⟩ := htwins.log_here hevent
    rcases hfailure with heq | ⟨-, -, hpass⟩
    · cases heq
    · exact ⟨.inr ⟨hanswer, hpassed hpass⟩, hsame⟩
  -- The same with the worlds exchanged.
  · obtain ⟨hanswer, hsame⟩ := htwins.symm.log_here hevent
    rcases hfailure with heq | ⟨-, hpass, -⟩
    · cases heq
    · exact ⟨.inr ⟨hpassed hpass, hanswer⟩, hsame.symm⟩
  · rcases hfailure with heq | ⟨-, hpass, hpass'⟩
    · obtain rfl := Option.some.inj heq
      exact ⟨.inl rfl, htwins⟩
    · exact ⟨.inr ⟨hpassed hpass, hpassed hpass'⟩, htwins⟩

end World

/-! ### Plans that ignore the log -/

/-- The events that the plan logs are loggable, and it goes on in the same way whether an event was
logged or the log let its failure pass. How it goes on after other failures of the log is left open,
since loggable events have none in twins. -/
inductive Plan.IgnoresLog {α : Type} : Plan Collaborators α → Prop where
  /-- There is nothing left to do. -/
  | done {result : α} : IgnoresLog (.done result)
  /-- A call that is not about the log. -/
  | call {request : Call} {next : request.Answer → Plan Collaborators α}
      (hother : (Request.call request).point ≠ .log) (hrest : ∀ answer, IgnoresLog (next answer)) :
      IgnoresLog (.call request next)
  /-- An event is logged. -/
  | log {event : Event} {next : Except Failure Unit → Plan Collaborators α}
      (hevent : event.IsLoggable)
      (hsame : ∀ failure, failure.isForgiven = true → next (.error failure) = next (.ok ()))
      (hrest : ∀ answer, IgnoresLog (next answer)) : IgnoresLog (.call (.log event) next)

variable {α β : Type}

/-- **A plan that ignores the log comes to the same in twins.** Its calls are answered alike except
for those that log, and of these it does not look at the answer. -/
theorem World.alike_run {opened : Opened} {stores : Stores} {plan : Plan Collaborators α}
    (hserve : stores.Serve opened) (hplan : plan.IgnoresLog) :
    World.Alike opened (World.run stores plan) := by
  intro world twin h
  -- On how the plan ignores the log, so that each call brings with it what has to be known of it.
  induction hplan generalizing world twin with
  | done => exact ⟨rfl, h⟩
  | @call request next hother _ ih =>
    obtain ⟨hanswer, htwins⟩ := World.alike_answer hserve hother world twin h
    rw [World.run, World.run, Plan.run_call, Plan.run_call, hanswer]
    exact ih _ _ _ htwins
  | @log event next hevent hsame _ ih =>
    obtain ⟨hanswer, htwins⟩ := h.log hserve hevent
    -- whatever the answers are, the plan goes on in the same way
    have hpassed {result : Except Failure Unit} (hresult : World.IsPassed result) :
        next result = next (.ok ()) := by
      cases result with
      | ok _ => rfl
      | error failure => exact hsame failure (hresult failure rfl)
    have hnext : next (World.answer stores (.log event) twin).1 =
        next (World.answer stores (.log event) world).1 := by
      rcases hanswer with heq | ⟨hhere, hthere⟩
      · rw [heq]
      · rw [hpassed hhere, hpassed hthere]
    rw [World.run, World.run, Plan.run_call, Plan.run_call, hnext]
    exact ih _ _ _ htwins

/-- One plan after another. -/
theorem Plan.IgnoresLog.bind {plan : Plan Collaborators α} {next : α → Plan Collaborators β}
    (h : plan.IgnoresLog) (hnext : ∀ result, (next result).IgnoresLog) :
    (plan >>= next).IgnoresLog := by
  induction h with
  | done => exact hnext _
  | call hother _ ih => exact .call hother ih
  | log hevent hsame _ ih =>
    exact .log hevent (fun failure hpass => congrArg (·.bind next) (hsame failure hpass)) ih

theorem Call.ignoresLog_ask (request : Call) (hother : (Request.call request).point ≠ .log) :
    request.ask.IgnoresLog :=
  .call hother fun _ => .done

theorem Call.ignoresLog_wait (seconds : Binary64) : (Call.wait seconds).ask.IgnoresLog :=
  Call.ignoresLog_ask (.wait seconds) fun heq => by cases heq

/-- Work that ignores the log. -/
def Action.IgnoresLog (work : Action α) : Prop := Plan.IgnoresLog work.attempt

namespace Action.IgnoresLog

variable {work : Action α} {next : α → Action β} {event : Event}

theorem of_pure (value : α) : Action.IgnoresLog (pure value) := .done

theorem of_throw (failure : Failure) : Action.IgnoresLog (throw failure : Action α) := .done

theorem of_ofExcept (known : Except Failure α) : Action.IgnoresLog (Work.ofExcept known) := .done

theorem bind (h : Action.IgnoresLog work) (hnext : ∀ value, Action.IgnoresLog (next value)) :
    Action.IgnoresLog (work >>= next) := by
  refine Plan.IgnoresLog.bind h fun result => ?_
  cases result with
  | ok value => exact hnext value
  | error failure => exact .done

/-- **Logging lets failures of the log pass.** Only an event that cannot be stored fails in a way
that is not let pass. -/
theorem of_log (hevent : event.IsLoggable) : Action.IgnoresLog (Action.log event) := by
  refine .log hevent (fun failure hpass => ?_) fun answer => ?_
  · show (Plan.done (if failure.isForgiven then .ok () else .error failure) :
      Plan Collaborators (Except Failure Unit)) = .done (.ok ())
    rw [if_pos hpass]
  -- After the event there is nothing more to do, whatever is answered.
  · cases answer <;> exact .done

end Action.IgnoresLog

end Rollout
