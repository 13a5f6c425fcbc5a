import Rollout.Proofs.Conversations
import Rollout.Proofs.LoggedEvents

/-!
# Worlds with a log that works

In a world whose log works (`World.Logs`) the stores are in order, the time can be told, and no
fault fails where an event is to be logged. Whatever else fails there, and whatever the scheduler
is, the log goes on in two ways only:

* a call that is not about the log leaves it alone (`World.leaves_answer`);
* an event that the log keeps is logged after all others (`World.logs_answer_log`).

So what a run leaves in the log can be read off its conversation: the log holds what it held before
and then the events that were reported in the conversation (`reported`), in that order
(`World.logs_run`). This holds for plans that report no other events than those that the log keeps;
`Plan.Reports` is the predicate for that, and it is closed under all ways to make plans.
-/

namespace Rollout

variable {α β : Type} {opened : Opened} {events : List Event}

/-! ### What a conversation reports -/

/-- The event that is to be logged, if the exchange is about one. -/
def Exchange.event? (exchange : Said) : Option Event :=
  match exchange.request with
  | .log event => some event
  | _ => none

/-- The events that were to be logged, in order. -/
def reported (exchanges : List Said) : List Event := exchanges.filterMap Exchange.event?

/-- If an event was to be logged, it was. In a log that works all exchanges are of this kind. -/
def Exchange.IsTaken (exchange : Said) : Prop :=
  ∀ event answer, exchange = ⟨.log event, answer⟩ → answer = .ok ()

@[simp] theorem reported_nil : reported [] = [] := rfl

theorem reported_append (first second : List Said) :
    reported (first ++ second) = reported first ++ reported second := List.filterMap_append

/-! ### Plans that report -/

/-- The plan reports only events that are allowed. Which events these are is a parameter: events
that the log keeps for what is logged, and none for plans that are silent. -/
inductive Plan.Reports (allowed : Event → Prop) : Plan Collaborators α → Prop where
  /-- There is nothing left to do. -/
  | done {result : α} : Reports allowed (.done result)
  | call {request : Call} {next : request.Answer → Plan Collaborators α}
      (hrequest : ∀ event, request = .log event → allowed event)
      (hrest : ∀ answer, Reports allowed (next answer)) : Reports allowed (.call request next)

/-- The plan reports nothing. -/
abbrev Plan.IsSilent (plan : Plan Collaborators α) : Prop := plan.Reports fun _ => False

namespace Plan.Reports

variable {allowed : Event → Prop} {plan left : Plan Collaborators α} {exchanges : List Said}

theorem bind {next : α → Plan Collaborators β} (h : plan.Reports allowed)
    (hnext : ∀ result, (next result).Reports allowed) : (plan >>= next).Reports allowed := by
  induction h with
  | done => exact hnext _
  | call hrequest _ ih => exact .call hrequest ih

theorem mono {wider : Event → Prop} (hwithin : ∀ event, allowed event → wider event)
    (h : plan.Reports allowed) : plan.Reports wider := by
  induction h with
  | done => exact .done
  | call hrequest _ ih => exact .call (fun event heq => hwithin event (hrequest event heq)) ih

theorem ask (request : Call) (hother : ∀ event, request ≠ .log event) :
    request.ask.Reports allowed :=
  .call (fun event heq => absurd heq (hother event)) fun _ => .done

/-- **What was reported was allowed.** -/
theorem allowed_of_mem (h : plan.Reports allowed) (hleads : Plan.Leads plan exchanges left)
    {event : Event} (hmem : event ∈ reported exchanges) : allowed event := by
  -- On how the conversation led, keeping up what is left of the plan.
  induction hleads with
  | here => cases hmem
  | @step request answer next exchanges left _ ih =>
    cases h with
    | call hrequest hrest =>
      rcases List.mem_filterMap.mp hmem with ⟨exchange, hexchange, hevent⟩
      rcases List.mem_cons.mp hexchange with rfl | hlater
      · refine hrequest event ?_
        cases request with
        | log given => exact congrArg Call.log (Option.some.inj hevent)
        | _ => cases hevent
      · exact ih (hrest answer) (List.mem_filterMap.mpr ⟨exchange, hlater, hevent⟩)

theorem reported_eq_nil (h : plan.IsSilent) (hleads : Plan.Leads plan exchanges left) :
    reported exchanges = [] :=
  List.eq_nil_iff_forall_not_mem.mpr fun _ hmem => h.allowed_of_mem hleads hmem

end Plan.Reports

/-- Work that reports only events that are allowed. -/
def Action.Reports (allowed : Event → Prop) (work : Action α) : Prop :=
  Plan.Reports allowed work.attempt

namespace Action.Reports

variable {allowed : Event → Prop} {work : Action α} {next : α → Action β} {event : Event}

theorem of_pure (value : α) : Action.Reports allowed (pure value) := .done

theorem of_throw (failure : Failure) : Action.Reports allowed (throw failure : Action α) := .done

theorem of_ofExcept (known : Except Failure α) : Action.Reports allowed (Work.ofExcept known) :=
  .done

theorem of_list (app : Value) : Action.Reports allowed (Action.list app) := .ask _ nofun

theorem of_update (process : ProcessType) : Action.Reports allowed (Action.update process) :=
  .ask _ nofun

theorem bind (h : Action.Reports allowed work)
    (hnext : ∀ value, Action.Reports allowed (next value)) :
    Action.Reports allowed (work >>= next) := by
  refine Plan.Reports.bind h fun result => ?_
  cases result with
  | ok value => exact hnext value
  | error failure => exact .done

theorem of_log (h : allowed event) : Action.Reports allowed (Action.log event) := by
  refine .call (fun other heq => Call.log.inj heq ▸ h) fun answer => ?_
  -- Whether the failure is let pass or not, nothing more is said.
  cases answer <;> exact .done

end Action.Reports

/-! ### Worlds -/

namespace World

variable {stores : Stores} {world after : World} {event : Event}

/-- The stores are in order, the log among them holds the events, and nothing keeps it from holding
more: the time can be told, and no fault lies in wait for it. -/
structure Logs (opened : Opened) (events : List Event) (world : World) : Prop where
  time : ∃ now, Calendar.timestamp world.site.now = .ok now
  spares : world.Spares .log
  files : Disk.Logs world.site opened events world.files

theorem Attends.logs (h : world.Attends after) (hlogs : world.Logs opened events) :
    after.Logs opened events where
  time := by
    rw [h.site]
    exact hlogs.time
  spares := h.toFollows.spares hlogs.spares
  files := by
    rw [h.site, h.files]
    exact hlogs.files

/-! ### What lasts -/

/-- What is done in a world leaves it with a property that it had. One lemma for each way in which
calls are answered, so that any property can be taken through all of them. -/
def Leaves (kept : World → Prop) (work : World → β × World) : Prop :=
  ∀ world, kept world → kept (work world).2

namespace Leaves

variable {kept : World → Prop}

theorem recorded (hattend : ∀ request, Leaves kept (attend request)) {request : Request}
    {real : World → Except Failure β × World} (hreal : Leaves kept real) :
    Leaves kept (World.recorded request real) := by
  intro world h
  have hattended := hattend request world h
  rw [World.recorded]
  -- If a fault strikes, the real work is not done at all.
  rcases heq : attend request world with ⟨_ | failure, attended⟩ <;> rw [heq] at hattended
  · exact hreal attended hattended
  · exact hattended

theorem perform (hattend : ∀ request, Leaves kept (attend request)) {request : Call}
    {real : World → Except Failure β × World} (hreal : Leaves kept real) :
    Leaves kept (World.perform request real) := by
  intro world h
  rw [World.perform]
  cases recordable request with
  | error failure => exact h
  | ok _ => exact recorded hattend hreal world h

theorem inStore (hattend : ∀ request, Leaves kept (attend request)) {store : Option Value}
    {request : Call} {work : Surroundings → Value → Disk β}
    (hwork : ∀ file, store = some file → Leaves kept (onDisk fun site => work site file)) :
    Leaves kept (World.inStore store request work) := by
  -- Without a store the call does nothing.
  cases hstore : store with
  | none => exact fun _ h => h
  | some file => exact perform hattend (hwork file hstore)

/-- **A run leaves what all of its calls leave.** By induction on the plan, for any property of
worlds and any handler. -/
theorem plan {I : Interface} {handle : Plan.Handler I World}
    (hhandle : ∀ request, Leaves kept (handle request)) (plan : Plan I β) :
    Leaves kept (plan.run handle) := by
  intro world h
  -- On the plan: the property holds where the next call starts.
  induction plan generalizing world with
  | done result => exact h
  | call request next ih => exact ih _ _ (hhandle request world h)

/-- The scheduler calls the daemon, and has a state of its own. -/
theorem onScheduler (hattend : ∀ request, Leaves kept (attend request))
    (hscheduler : ∀ world scheduler, kept world → kept { world with scheduler })
    (hdaemon : ∀ world daemon, kept world → kept { world with daemon })
    (inMemory : Memory → Except Failure β × Memory) (inAdapter : Adapter.Act β) :
    Leaves kept (World.onScheduler inMemory inAdapter) := by
  intro world h
  rw [World.onScheduler]
  cases world.scheduler with
  | memory memory => exact hscheduler world _ h
  | adapter adapter =>
    have hanswer (request : Daemon.Call) : Leaves kept (daemonAnswer request) :=
      recorded hattend fun world h => hdaemon world _ h
    exact hscheduler _ _ (plan hanswer (inAdapter.run.run adapter) world h)

/-- **What depends on no part of a world that calls change** is left by every call. -/
theorem answer (hattend : ∀ request, Leaves kept (attend request))
    (hscheduler : ∀ world scheduler, kept world → kept { world with scheduler })
    (hdaemon : ∀ world daemon, kept world → kept { world with daemon })
    (hfiles : ∀ world files, kept world → kept { world with files }) (stores : Stores)
    (request : Call) : Leaves kept (World.answer stores request) := by
  have hon {γ : Type} (inMemory : Memory → Except Failure γ × Memory)
      (inAdapter : Adapter.Act γ) : Leaves kept (World.onScheduler inMemory inAdapter) :=
    onScheduler hattend hscheduler hdaemon inMemory inAdapter
  -- Calls fall into five groups by where they are answered; each group has its lemma.
  cases request with
  | schedule | unschedule | report => exact perform hattend (hon _ _)
  | list | add | remove | update => exact inStore hattend fun _ _ world h => hfiles world _ h
  | log => exact perform hattend fun world h => hfiles world _ h
  | wait => exact perform hattend fun _ h => h
  | cancelled => exact fun _ h => h

end Leaves

theorem spares_run {point : Point} (stores : Stores) (plan : Plan Collaborators α)
    (h : world.Spares point) : (run stores plan world).2.Spares point := by
  have hattend (request : Request) : Leaves (·.Spares point) (attend request) :=
    fun world h => (attends_attend request world).toFollows.spares h
  have hanswer := Leaves.answer hattend (fun _ _ h => h) (fun _ _ h => h) (fun _ _ h => h) stores
  exact Leaves.plan hanswer plan world h

/-- Nothing that is done changes how long a wait may last. -/
theorem waitLimit_run (stores : Stores) (plan : Plan Collaborators α) (world : World) :
    (run stores plan world).2.waitLimit = world.waitLimit := by
  have hattend (request : Request) : Leaves (·.waitLimit = world.waitLimit) (attend request) :=
    fun earlier h => (attends_attend request earlier).waitLimit.trans h
  have hanswer := Leaves.answer hattend (fun _ _ h => h) (fun _ _ h => h) (fun _ _ h => h) stores
  have hplan := Leaves.plan hanswer plan
  exact hplan world rfl

/-! ### Calls that are not about the log -/

theorem leaves_onDisk {work : Surroundings → Disk β}
    (hwork : ∀ {site files}, Disk.Logs site opened events files →
      Disk.LeavesLog site opened events (work site) files) :
    Leaves (Logs opened events) (onDisk work) :=
  fun _ h => ⟨h.time, h.spares, hwork h.files⟩

/-- **A call that is not about the log leaves it alone**, whatever comes of the call. The two tables
of the stores may be in the same file as the events, but not in the same table. -/
theorem leaves_answer (hserve : stores.Serve opened) {request : Call}
    (hother : ∀ event, request ≠ .log event) :
    Leaves (Logs opened events) (answer stores request) := by
  have hattend (request : Request) : Leaves (Logs opened events) (attend request) :=
    fun world h => (attends_attend request world).logs h
  -- the log is no part of a scheduler
  have hscheduler {γ : Type} (inMemory : Memory → Except Failure γ × Memory)
      (inAdapter : Adapter.Act γ) : Leaves (Logs opened events) (onScheduler inMemory inAdapter) :=
    .onScheduler hattend (fun _ _ h => ⟨h.time, h.spares, h.files⟩)
      (fun _ _ h => ⟨h.time, h.spares, h.files⟩) inMemory inAdapter
  -- the job store writes to its own tables, if in the same file at all
  have hjobs {γ : Type} {request : Call} {work : Surroundings → Value → Disk γ}
      (hwork : ∀ {site files}, Disk.Logs site opened events files →
        Disk.LeavesLog site opened events (work site opened.jobs) files) :
      Leaves (Logs opened events) (inStore stores.jobs request work) := by
    refine .inStore hattend fun file hfile => ?_
    obtain rfl := Option.some.inj (hfile.symm.trans hserve.jobs)
    exact leaves_onDisk hwork
  cases request with
  | schedule | unschedule | report => exact .perform hattend (hscheduler _ _)
  | list app => exact hjobs fun h => JobStore.leavesLog_list h app
  | add job => exact hjobs fun h => JobStore.leavesLog_add h job
  | remove job => exact hjobs fun h => JobStore.leavesLog_remove h job
  | update process =>
    refine .inStore hattend fun file hfile => ?_
    obtain rfl := hserve.processes file hfile
    exact leaves_onDisk fun h => ProcessStore.leavesLog_update h process
  | log event => exact absurd rfl (hother event)
  | wait seconds => exact .perform hattend fun _ h => h
  | cancelled => exact fun _ h => h

/-! ### Events -/

/-- **An event that the log keeps is logged after all others.** The log is a working one, in which
no fault lies in wait for events. -/
theorem logs_answer_log (hserve : stores.Serve opened) (h : world.Logs opened events)
    (hevent : event.IsKept) :
    (answer stores (.log event) world).1 = .ok () ∧
      (answer stores (.log event) world).2.Logs opened (events ++ [event]) := by
  cases hanswer : answer stores (.log event) world with
  | mk result after =>
    rw [answer] at hanswer
    rcases perform_cases hanswer with ⟨_, hrecordable, -⟩ | ⟨_, -, -, hfault⟩ |
        ⟨attended, hattends, hreal⟩
    -- An event that the log keeps can be put on record.
    · cases hrecordable
    -- No fault lies in wait for the log.
    · exact absurd h.spares hfault
    · obtain ⟨⟨now, hnow⟩, hspares, hfiles⟩ := hattends.logs h
      obtain ⟨written, hlog, hwritten⟩ := EventLog.logs_log hfiles hnow hevent
      rw [hserve.events, onDisk, hlog] at hreal
      obtain ⟨rfl, rfl⟩ := Prod.mk.inj hreal
      exact ⟨rfl, ⟨now, hnow⟩, hspares, hwritten⟩

/-- **What a run leaves in the log is what was reported in its conversation.** By induction on the
plan, from one exchange to the next. -/
theorem logs_run (hserve : stores.Serve opened) {plan : Plan Collaborators α}
    (hplan : plan.Reports Event.IsKept) (h : world.Logs opened events) :
    (run stores plan world).2.Logs opened
        (events ++ reported (conversation stores plan world)) ∧
      ∀ exchange ∈ conversation stores plan world, exchange.IsTaken := by
  -- On the plan: the events so far grow by the one that is told, if there is one.
  induction hplan generalizing world events with
  | done =>
    rw [conversation, Plan.conversation, reported_nil, List.append_nil]
    exact ⟨h, fun _ hmem => nomatch hmem⟩
  | @call request next hrequest _ ih =>
    rw [run, Plan.run_call, conversation, Plan.conversation]
    by_cases hlog : ∃ event, request = .log event
    -- an event is in the log before the rest of the run begins
    · obtain ⟨event, rfl⟩ := hlog
      obtain ⟨hanswer, hafter⟩ := logs_answer_log hserve h (hrequest event rfl)
      obtain ⟨hend, htaken⟩ := ih _ hafter
      rw [List.append_assoc] at hend
      refine ⟨hend, fun exchange hmem => ?_⟩
      rcases List.mem_cons.mp hmem with rfl | hlater
      · intro other answer heq
        obtain ⟨⟨⟩, hheq⟩ := Exchange.mk.inj heq
        exact (eq_of_heq hheq).symm.trans hanswer
      · exact htaken exchange hlater
    -- the log is as it was, and this exchange counts for nothing
    · have hother : ∀ event, request ≠ .log event := fun event heq => hlog ⟨event, heq⟩
      obtain ⟨hend, htaken⟩ := ih _ (leaves_answer hserve hother world h)
      have hsilent : reported [⟨request, (answer stores request world).1⟩] = [] := by
        cases request with
        | log event => exact absurd rfl (hother event)
        | _ => rfl
      refine ⟨?_, fun exchange hmem => ?_⟩
      · rw [← List.singleton_append, reported_append, hsilent]
        exact hend
      · rcases List.mem_cons.mp hmem with rfl | hlater
        · intro event answer heq
          exact absurd (Exchange.mk.inj heq).1 (hother event)
        · exact htaken exchange hlater

/-- A run that reports nothing leaves the log as it was. -/
theorem logs_run_of_silent (hserve : stores.Serve opened) {plan : Plan Collaborators α}
    (hplan : plan.IsSilent) (h : world.Logs opened events) :
    (run stores plan world).2.Logs opened events := by
  have hend := (logs_run hserve (hplan.mono fun _ hfalse => hfalse.elim) h).1
  -- Nothing is reported, so nothing is appended.
  have hnothing : reported (conversation stores plan world) = [] :=
    hplan.reported_eq_nil (Plan.leads_conversation _ plan world)
  rwa [hnothing, List.append_nil] at hend

end World

end Rollout
