import Rollout.Proofs.LogFailures
import Rollout.Proofs.ReportedScaling

/-!
# The log as an audit trail

A session whose log works (`Session.IsAudited`) is sent on errands. Schedulers, stores and waits may
fail in any way and tasks may be cancelled at any time; only the log does not fail. Then every event
in the log was told by an errand, and every errand told what it came to:

* a release tells that its jobs were placed, if they were (`Blueprint.Tells`);
* scaling tells of each process type that was brought to another quantity (`Scale.Tells`);
* a task tells how its run ended, in the errand in which it ended (`Task.Tells`): once, and as an
  error if and only if the cleanup failed.

`Errand.Tells` says this of one errand, and `Session.Tells` of errands that are done one after the
other. The step is `Session.IsAudited.perform`, and the run `Session.IsAudited.doErrands`. What the
log holds in the end is then what it gives as its latest events (`Session.audited_doErrands`).

A run of a task may also break off and tell nothing, but only if the wait for its grace period fails
(`World.LetsWait`) or a job has no name: the task is then left with a crash, and without an outcome.
Numbers of events
beyond 64 bits cannot be asked for (`Session.not_latest_of_wide`).
-/

namespace Rollout

variable {α β : Type} {opened : Opened} {events : List Event}

/-! ### Tasks -/

/-- A wait of that many seconds cannot fail: no fault that lies in wait for waits does, and the
platform waits for so long. -/
structure World.LetsWait (world : World) (seconds : Binary64) : Prop where
  spares : world.Spares .wait
  admits : world.waitLimit.admits seconds = true

theorem World.LetsWait.run {world : World} {seconds : Binary64} (h : world.LetsWait seconds)
    (stores : Stores) (plan : Plan Collaborators α) :
    (World.run stores plan world).2.LetsWait seconds where
  spares := World.spares_run stores plan h.spares
  admits := (World.waitLimit_run stores plan world).symm ▸ h.admits

namespace Task

variable {task after : Task} {before? : Option Task} {world : World} {plan : Plan Collaborators α}

/-- The task works on the stores that are open, and the log keeps what it says. -/
structure IsAudited (opened : Opened) (task : Task) : Prop where
  serve : task.stores.Serve opened
  release : task.cleanup.release.IsKept

theorem IsAudited.of_sameAs (h : task.IsAudited opened) (hsame : after.SameAs task) :
    after.IsAudited opened :=
  ⟨hsame.stores_eq ▸ h.serve, hsame.cleanup ▸ h.release⟩

/-- A run of the task ended in what was done to it, which may have been to start it. A task that had
finished before has ended no run, unless it was started anew. -/
def Ends (starts : Bool) (before : Option Task) (task : Task) : Prop :=
  task.status = .finished ∧ (starts = true ∨ ∀ earlier ∈ before, earlier.status ≠ .finished)

theorem unfinished_of_waiting (h : task.status = .waiting) :
    ∀ earlier ∈ some task, earlier.status ≠ .finished := by
  intro earlier hmem hfinished
  obtain rfl := Option.some.inj hmem
  cases h.symm.trans hfinished

theorem not_ends_of_same (h : after.status = task.status) : ¬after.Ends false (some task) := by
  rintro ⟨hfinished, hstarts | hnot⟩
  · cases hstarts
  · exact hnot task rfl (h.symm.trans hfinished)

/-- What a task told the log in what was done to it in a world: nothing if no run ended, and how it
ended otherwise. -/
inductive Tells (starts : Bool) (before : Option Task) (task : Task) (world : World) :
    List Event → Prop where
  | nothing (hnot : ¬task.Ends starts before) : Tells starts before task world []
  | ended {message : String} (hends : task.Ends starts before) (hcrash : task.crash = none)
      (hphase : task.progress.phase = .done ∨ task.progress.phase = .cancelled) :
    Tells starts before task world [.info task.cleanup.release message]
  | failed {message : String} (hends : task.Ends starts before) (hcrash : task.crash = none)
      (hphase : task.progress.phase = .failed) :
    Tells starts before task world [.error task.cleanup.release message]
  /-- The run broke off, as the wait for its grace period failed or a job had no name. -/
  | crashed {failure : Failure} (hends : task.Ends starts before)
      (hcrash : task.crash = some failure)
      (hreason : ¬world.LetsWait task.cleanup.grace ∨
        ∃ job ∈ task.cleanup.stale, job.name? = .error failure) :
    Tells starts before task world []

/-- Part of a task leaves in the log what it reports. -/
theorem IsAudited.logs_inWorld (h : task.IsAudited opened) (hplan : plan.Reports Event.IsKept)
    (hlogs : world.Logs opened events) :
    ∃ exchanges, Plan.Leads plan exchanges (.done (task.inWorld plan world).1) ∧
      (∀ exchange ∈ exchanges, exchange.IsTaken) ∧
      (task.inWorld plan world).2.2.Logs opened (events ++ reported exchanges) := by
  have hknown : ({ world with cancelled := some task.cancelled } : World).Logs opened events :=
    ⟨hlogs.time, hlogs.spares, hlogs.files⟩
  obtain ⟨⟨htime, hspares, hfiles⟩, htaken⟩ := World.logs_run h.serve hplan hknown
  exact ⟨_, Plan.leads_conversation (World.answer task.stores) plan _, htaken, htime, hspares,
    hfiles⟩

/-- A task tells what its cleanup tells. -/
theorem Tells.of_cleanup {cleanup : Cleanup} {grace : Except Failure Bool} {outcome : Outcome}
    {starts : Bool} (h : cleanup.Tells grace outcome events) (hcleanup : task.cleanup = cleanup)
    (hprogress : task.progress = outcome.progress) (hcrash : task.crash = outcome.crash)
    (hends : task.Ends starts before?)
    (hfails : ∀ failure, grace = .error failure → ¬world.LetsWait task.cleanup.grace) :
    Tells starts before? task world events := by
  subst hcleanup
  cases h with
  | ended hphase => exact .ended hends hcrash (hprogress ▸ hphase)
  | failed hphase => exact .failed hends hcrash (hprogress ▸ hphase)
  | crashed hreason => exact .crashed hends hcrash (hreason.imp_left (hfails _))

/-- What is told does not depend on whether faults lay in wait before. -/
theorem Tells.of_earlier {starts : Bool} {earlier : World}
    (h : Tells starts before? task world events)
    (hlets : ∀ seconds, earlier.LetsWait seconds → world.LetsWait seconds) :
    Tells starts before? task earlier events := by
  cases h with
  | nothing hnot => exact .nothing hnot
  | ended hends hcrash hphase => exact .ended hends hcrash hphase
  | failed hends hcrash hphase => exact .failed hends hcrash hphase
  | crashed hends hcrash hreason =>
    exact .crashed hends hcrash (hreason.imp_left (mt (hlets _)))

/-- What was done to a task left what it told in the log. -/
def IsTold (opened : Opened) (events : List Event) (starts : Bool) (before? : Option Task)
    (started : World) (done : Task × World) : Prop :=
  ∃ told, done.2.Logs opened (events ++ told) ∧ Tells starts before? done.1 started told

theorem IsTold.of_nothing {starts : Bool} {started : World} (hlogs : world.Logs opened events)
    (hnot : ¬task.Ends starts before?) :
    IsTold opened events starts before? started (task, world) :=
  ⟨[], (List.append_nil events).symm ▸ hlogs, .nothing hnot⟩

/-- **A task that goes on tells the log how its run ends.** It tells nothing only where its run
breaks off, because its grace wait could not be made or a job has no name. -/
theorem IsAudited.isTold_proceed (h : task.IsAudited opened) (hlogs : world.Logs opened events)
    {starts : Bool} {started : World} {grace : Except Failure Bool}
    (hfails : ∀ failure, grace = .error failure → ¬started.LetsWait task.cleanup.grace)
    (hends : starts = true ∨ ∀ earlier ∈ before?, earlier.status ≠ .finished) :
    IsTold opened events starts before? started (task.proceed grace world) := by
  obtain ⟨exchanges, hleads, htaken, hafter⟩ := h.logs_inWorld
    (Cleanup.reports_afterGrace h.release.info h.release.error task.progress grace) hlogs
  exact ⟨reported exchanges, hafter,
    .of_cleanup (Cleanup.tells_afterGrace hleads htaken) rfl rfl rfl ⟨rfl, hends⟩ hfails⟩

/-- A task whose wait came to its end or was cut short tells how its run ends. -/
theorem IsAudited.isTold_goOn (h : task.IsAudited opened) (hlogs : world.Logs opened events)
    {starts : Bool} {started : World} (flag : Bool)
    (hends : starts = true ∨ ∀ earlier ∈ before?, earlier.status ≠ .finished) :
    IsTold opened events starts before? started (task.proceed (.ok flag) world) :=
  h.isTold_proceed hlogs nofun hends

/-- A wait fails only by a fault that lies in wait for it, or because it is refused. -/
theorem not_letsWait (stores : Stores) {seconds : Binary64} {failure : Failure}
    (h : (World.answer stores (.wait seconds) world).1 = .error failure) :
    ¬world.LetsWait seconds := by
  intro hlets
  rcases World.perform_cases (Prod.ext h rfl) with ⟨_, hrecordable, -⟩ | ⟨_, -, -, hfault⟩ |
      ⟨attended, hattends, hreal⟩
  · cases hrecordable
  · exact hfault hlets.spares
  · have hrefused := WaitLimit.admits_eq_false_of_await (Prod.mk.inj hreal).1
    rw [hattends.waitLimit, hlets.admits] at hrefused
    cases hrefused

/-- **Starting a task** tells the log how its run ends, if it runs at once. -/
theorem IsAudited.isTold_start (h : task.IsAudited opened) (hlogs : world.Logs opened events)
    {started : World} (hlets : ∀ seconds, started.LetsWait seconds → world.LetsWait seconds) :
    IsTold opened events true before? started (task.start world) := by
  have hwait : (Call.wait task.cleanup.grace).ask.Reports Event.IsKept := .ask _ nofun
  rw [start]
  split
  · next hwaiting =>
    refine .of_nothing hlogs fun hends => ?_
    cases hwaiting.symm.trans hends.1
  · have haudited : ({ task with crash := none } : Task).IsAudited opened :=
      h.of_sameAs ⟨rfl, rfl⟩
    obtain ⟨exchanges, hleads, -, hafter⟩ := haudited.logs_inWorld hwait hlogs
    obtain rfl := Call.leads_ask_iff.mp hleads
    have hfails (failure : Failure)
        (hfailed : (inWorld { task with crash := none } (Call.ask (.wait task.cleanup.grace))
          world).1 = .error failure) : ¬started.LetsWait task.cleanup.grace := by
      intro hstarted
      obtain ⟨hspares, hadmits⟩ := hlets _ hstarted
      -- the task waits in the same world, but for knowing whether it is cancelled
      exact not_letsWait task.stores hfailed ⟨hspares, hadmits⟩
    have hsame : (inWorld { task with crash := none } (Call.ask (.wait task.cleanup.grace))
        world).2.1.SameAs task := ⟨rfl, rfl⟩
    dsimp only
    generalize inWorld { task with crash := none } (Call.ask (.wait task.cleanup.grace)) world =
      here at hafter hfails hsame
    obtain ⟨grace, begun, between⟩ := here
    have hbegun : begun.IsAudited opened := h.of_sameAs hsame
    -- the wait is no event
    have hbetween : between.Logs opened events := List.append_nil events ▸ hafter
    dsimp only
    split
    · split
      · refine .of_nothing hbetween fun hends => ?_
        cases hends.1
      · exact hbegun.isTold_goOn hbetween _ (.inl rfl)
    · exact hbegun.isTold_proceed hbetween (hsame.cleanup ▸ hfails) (.inl rfl)

/-- The end of a grace period lets a task go on. -/
theorem IsAudited.isTold_elapse (h : task.IsAudited opened) (hlogs : world.Logs opened events) :
    IsTold opened events false (some task) world (task.elapse world) := by
  rw [elapse]
  split
  · next hwaiting =>
    exact h.isTold_goOn hlogs false (.inr (unfinished_of_waiting hwaiting))
  · exact .of_nothing hlogs (not_ends_of_same rfl)

/-- A cancellation lets a task go on that waits. -/
theorem IsAudited.isTold_cancel (h : task.IsAudited opened) (hlogs : world.Logs opened events) :
    IsTold opened events false (some task) world (task.cancel world) := by
  have haudited : ({ task with cancelled := true } : Task).IsAudited opened :=
    h.of_sameAs ⟨rfl, rfl⟩
  rw [cancel]
  dsimp only
  split
  · next hwaiting =>
    exact haudited.isTold_goOn hlogs true (.inr (unfinished_of_waiting hwaiting))
  · exact .of_nothing hlogs (not_ends_of_same rfl)

end Task

/-! ### Sessions -/

namespace Session

variable {session : Session} {between : World} {task : Task} {cleanup : Cleanup}

/-- The stores of the session are open, among them a log that works and holds the events. -/
structure IsAudited (opened : Opened) (events : List Event) (session : Session) : Prop where
  isOpen : session.opened = some opened
  policy : opened.policy.IsValid
  logs : session.world.Logs opened events
  formations : ∀ entry ∈ session.formations, entry.2.IsCounted
  tasks : ∀ task ∈ session.tasks, task.IsAudited opened

/-- What the task of a number told the log while the session went on. A number that no task has
tells nothing. -/
def TaskTells (starts : Bool) (number : Nat) (session after : Session) (events : List Event) :
    Prop :=
  match after.tasks[number]? with
  | none => events = []
  | some task => task.Tells starts session.tasks[number]? session.world events

/-- What was told is told of a session before in which other faults may have lain in wait. -/
theorem TaskTells.of_earlier {starts : Bool} {number : Nat} {after : Session}
    (h : TaskTells starts number { session with world := between } after events)
    (hlets : ∀ seconds, session.world.LetsWait seconds → between.LetsWait seconds) :
    session.TaskTells starts number after events := by
  rw [TaskTells] at h ⊢
  cases htask : after.tasks[number]? with
  | none =>
    rw [htask] at h
    exact h
  | some task =>
    rw [htask] at h
    exact Task.Tells.of_earlier h hlets

namespace IsAudited

theorem formation (h : session.IsAudited opened events) {name : Value} {formation : Formation}
    (hformation : session.formation? name = some formation) : formation.IsCounted := by
  obtain ⟨entry, hmem, rfl⟩ := Value.exists_mem_of_find? hformation
  exact h.formations entry hmem

theorem keepFormation (h : session.IsAudited opened events) (name : Value) {formation : Formation}
    (hformation : formation.IsCounted) : IsAudited opened events
      { session with formations := Value.insert name formation session.formations } :=
  { h with
    formations := fun entry hmem => by
      rcases Value.mem_insert hmem with hold | hnew
      · exact h.formations entry hold
      · exact hnew ▸ hformation }

/-- **What is done to a task** leaves in the log what the task tells. -/
theorem onTask (h : session.IsAudited opened events) {starts : Bool}
    {work : Task → World → Task × World} (number : Nat)
    (hwork : ∀ task : Task, task.IsAudited opened →
      Task.IsTold opened events starts (some task) session.world (work task session.world))
    (hsame : ∀ task world, (work task world).1.SameAs task) :
    let after := (session.perform (Step.onTask number work)).2
    ∃ told, session.TaskTells starts number after told ∧
      after.IsAudited opened (events ++ told) := by
  cases htask : session.tasks[number]? with
  | none =>
    rw [perform_onTask_none work htask]
    refine ⟨[], ?_, (List.append_nil events).symm ▸ h⟩
    rw [TaskTells, htask]
  | some task =>
    rw [perform_onTask work htask]
    have haudited := h.tasks task (List.mem_of_getElem? htask)
    obtain ⟨told, hlogs, htells⟩ := hwork task haudited
    refine ⟨told, ?_, { h with logs := hlogs, tasks := fun other hmem => ?_ }⟩
    · have hnumber : number < session.tasks.length := (List.getElem?_eq_some_iff.mp htask).1
      rw [TaskTells, List.getElem?_set_self hnumber, htask]
      exact htells
    · -- all other tasks are as they were, and this one is the same but for its progress
      rcases List.mem_or_eq_of_mem_set hmem with hold | rfl
      · exact h.tasks other hold
      · exact haudited.of_sameAs (hsame task session.world)

/-- **A new task** that is audited is one of the tasks. -/
theorem addTask (h : session.IsAudited opened events) {logged told : List Event} {world : World}
    (hlogs : world.Logs opened (logged ++ told)) (haudited : task.IsAudited opened)
    (htells : task.Tells true none session.world told) :
    let after : Session := { session with world, tasks := session.tasks ++ [task] }
    session.TaskTells true session.tasks.length after told ∧
      after.IsAudited opened (logged ++ told) := by
  refine ⟨?_, { h with logs := hlogs, tasks := fun other hmem => ?_ }⟩
  · rw [TaskTells, List.getElem?_concat_length, List.getElem?_eq_none (Nat.le_refl _)]
    exact htells
  · rcases List.mem_append.mp hmem with hold | hnew
    · exact h.tasks other hold
    · exact List.mem_singleton.mp hnew ▸ haudited

end IsAudited

end Session

/-! ### Errands -/

namespace Errand

/-- What an errand has to say fits into the log, its quantities are numbers, a cleanup logs where
all others do, its faults leave the log alone, and the calendar has the time at which a session is
to go on. -/
def IsAudited (opened : Opened) : Errand → Prop
  | deed (.define _ formation) => formation.IsCounted
  | deed (.release blueprint _) | deed (.scale blueprint _ _) => blueprint.release.IsKept
  | deed (.arm faults) => ∀ fault ∈ faults, fault.point = .log → fault.failure = none
  | cleanUp _ _ _ _ release events _ => release.IsKept ∧ events = opened.policy.events
  | goOnAt now => ∃ text, Calendar.timestamp now = .ok text
  | deed _ | survey _ => True

/-- What an errand tells the log when it is done in a session. -/
def Tells (opened : Opened) (session : Session) (errand : Errand) (events : List Event) : Prop :=
  let done := session.perform errand.step
  match errand with
  | deed (.release blueprint name) =>
    match session.formation? name with
    | none => events = []
    | some formation =>
      -- the cleanup of the release is started at once, and may come to its end
      ∃ placed ended, events = placed ++ ended ∧
        blueprint.Tells formation
          (World.conversation opened.stores
            (rollOut opened.policy blueprint formation).attempt session.world) done.1 placed ∧
        session.TaskTells true session.tasks.length done.2 ended
  | deed (.scale blueprint quantities name) =>
    match session.formation? name, ScaleRequest.ofEntries quantities with
    | some formation, .ok request => ∃ result,
      Scale.Tells blueprint request formation
        (World.conversation opened.stores (Scale.scale blueprint quantities formation)
          session.world) result events ∧
        done.1 = result.ending.map fun _ => .done
    | _, _ => events = []
  | deed (.start number) => session.TaskTells true number done.2 events
  | deed (.elapse number) | deed (.cancel number) => session.TaskTells false number done.2 events
  | cleanUp .. => session.TaskTells true session.tasks.length done.2 events
  | deed (.define _ _) | deed (.arm _) | survey _ | goOnAt _ => events = []

end Errand

/-- What is told about a rollout does not depend on what is made of its answer. -/
theorem Blueprint.Tells.map {blueprint : Blueprint} {formation : Formation}
    {exchanges : List Said} {answer : Except Failure α}
    (h : blueprint.Tells formation exchanges answer events) (f : α → β) :
    blueprint.Tells formation exchanges (answer.map f) events := by
  cases h with
  | placed hplaced hjobs hversion => exact .placed hplaced hjobs hversion
  | aborted hnot => exact .aborted hnot

namespace Session

variable {session : Session} {errand : Errand} {blueprint : Blueprint}

theorem perform_rollOut_of_none (h : session.opened = some opened) {name : Value}
    (hformation : session.formation? name = none) :
    session.perform (Step.rollOut blueprint name) = (.error .unknownKey, session) := by
  rw [Step.rollOut, perform_bind, perform_opened h]
  dsimp only
  rw [perform_bind, perform_formation, hformation]

namespace IsAudited

/-- **A release** tells the log that its jobs were placed, and how its cleanup ended if it did. A
release that fails tells nothing at all, whatever was placed before it failed. -/
theorem tells_release (h : session.IsAudited opened events)
    (hrelease : blueprint.release.IsKept) (name : Value) :
    ∃ told, (Errand.deed (.release blueprint name)).Tells opened session told ∧
      (session.perform (Errand.deed (.release blueprint name)).step).2.IsAudited opened
        (events ++ told) := by
  have hstep : session.perform (Errand.deed (.release blueprint name)).step =
      ((session.perform (Step.rollOut blueprint name)).1.map Reply.task,
        (session.perform (Step.rollOut blueprint name)).2) := perform_map _ Reply.task session
  dsimp only [Errand.Tells]
  rw [hstep]
  cases hformation : session.formation? name with
  | none =>
    rw [perform_rollOut_of_none h.isOpen hformation]
    exact ⟨[], rfl, (List.append_nil events).symm ▸ h⟩
  | some formation =>
    obtain ⟨hlogs, htaken⟩ := World.logs_run opened.serve_stores
      (reports_rollOut opened.policy hrelease.info formation) h.logs
    have hlets (seconds : Binary64) (h : session.world.LetsWait seconds) :=
      h.run opened.stores (rollOut opened.policy blueprint formation).attempt
    -- the answer, if there is one, is the number of a new task
    have htells := (tells_rollOut h.policy hrelease
      (Plan.leads_conversation (World.answer opened.stores) _ session.world) htaken).map
        fun _ => Reply.task session.tasks.length
    cases hrun : World.run opened.stores (rollOut opened.policy blueprint formation).attempt
      session.world with
    | mk answer between =>
      rw [hrun] at hlogs hlets
      change blueprint.Tells formation _
        (Except.map _ (World.run opened.stores _ session.world).1) _ at htells
      rw [hrun] at htells
      cases answer with
      | error failure =>
        rw [perform_rollOut_of_error h.isOpen hformation hrun]
        refine ⟨_, ⟨_, [], (List.append_nil _).symm, htells, ?_⟩, { h with logs := hlogs }⟩
        rw [TaskTells, List.getElem?_eq_none (Nat.le_refl _)]
      | ok cleanup =>
        obtain ⟨hof, hevents⟩ := World.cleanup_of_rollOut hrun
        have haudited : (Task.ofCleanup (some opened.jobs) cleanup).IsAudited opened :=
          ⟨⟨rfl, fun _ hfile => (nomatch hfile), hevents⟩, hof ▸ hrelease⟩
        obtain ⟨told, hend, htold⟩ := haudited.isTold_start hlogs hlets
        rw [perform_rollOut_of_ok h.isOpen hformation hrun (Prod.ext rfl rfl)]
        -- the task is new, so it did not end before
        obtain ⟨htask, hafter⟩ :=
          h.addTask hend (haudited.of_sameAs (Task.sameAs_start between)) htold
        rw [List.append_assoc] at hafter
        exact ⟨_, ⟨_, told, rfl, htells, htask⟩, hafter⟩

/-- **Scaling** tells the log which process types it brought to another quantity. Those that were
brought there before it failed are told too. -/
theorem tells_scale (h : session.IsAudited opened events) (hrelease : blueprint.release.IsKept)
    (quantities : List (Value × Value)) (name : Value) :
    ∃ told, (Errand.deed (.scale blueprint quantities name)).Tells opened session told ∧
      (session.perform (Errand.deed (.scale blueprint quantities name)).step).2.IsAudited opened
        (events ++ told) := by
  have hstep : session.perform (Errand.deed (.scale blueprint quantities name)).step =
      ((session.perform (Step.scale blueprint quantities name)).1.map fun _ => Reply.done,
        (session.perform (Step.scale blueprint quantities name)).2) :=
    perform_map _ (fun _ => Reply.done) session
  -- a request that is refused tells nothing
  have hnothing : IsAudited opened (events ++ []) session := (List.append_nil events).symm ▸ h
  dsimp only [Errand.Tells]
  rw [hstep]
  cases hformation : session.formation? name with
  | none =>
    rw [Step.scale, Step.scaleBy, perform_bind, perform_formation, hformation]
    exact ⟨[], rfl, hnothing⟩
  | some formation =>
    cases hrequest : ScaleRequest.ofEntries quantities with
    | error issues =>
      rw [perform_scale_of_invalid h.isOpen hformation hrequest]
      exact ⟨[], rfl, hnothing⟩
    | ok request =>
      -- what the log holds is what was reported; what was reported is read off the conversation
      obtain ⟨hlogs, htaken⟩ := World.logs_run opened.serve_stores
        (Scale.reports_scale hrelease.info quantities formation) h.logs
      have hleads := Plan.leads_conversation (World.answer opened.stores)
        (Scale.scale blueprint quantities formation) session.world
      change Plan.Leads _ _ (.done (World.run opened.stores _ session.world).1) at hleads
      cases hrun : World.run opened.stores (Scale.scale blueprint quantities formation)
        session.world with
      | mk result after =>
        rw [hrun] at hlogs hleads
        obtain ⟨htells, hcounted⟩ :=
          Scale.tells_scale hrequest (h.formation hformation) hleads htaken
        rw [perform_scale_of_some h.isOpen hformation hrun]
        exact ⟨_, ⟨result, htells, rfl⟩, { h.keepFormation name hcounted with logs := hlogs }⟩

end IsAudited

/-- A cleanup of jobs that are known makes a task, and starts it if told to. -/
theorem perform_cleanUp_given (h : session.opened = some opened) (jobs : List Job)
    (grace retries delay : Value) (release : Release) (file : Value) (starts : Bool) :
    session.perform (Step.cleanUp (.given jobs) grace retries delay release file starts) =
      match Cleanup.make? jobs grace retries delay release file with
      | .error failure => (.error failure, session)
      | .ok cleanup =>
        let task := Task.ofCleanup (some opened.jobs) cleanup
        let done := if starts then task.start session.world else (task, session.world)
        (.ok session.tasks.length,
          { session with world := done.2, tasks := session.tasks ++ [done.1] }) := by
  have hjobs : session.opened.map (·.jobs) = some opened.jobs := by
    rw [h]
    rfl
  show session.perform (Step.ofExcept (Cleanup.make? jobs grace retries delay release file) >>= _) =
    _
  rw [perform_bind]
  cases Cleanup.make? jobs grace retries delay release file with
  | error failure =>
    -- nothing has happened yet
    rfl
  | ok cleanup =>
    show session.perform (get >>= _) = _
    rw [perform_bind, perform_get]
    dsimp only
    rw [hjobs, perform_bind, perform_addTask]
    dsimp only
    cases starts with
    | false => rfl
    | true =>
      -- the task is started where it stands, at the end of the tasks
      rw [if_pos rfl, perform_bind, perform_onTask Task.start List.getElem?_concat_length]
      dsimp only
      rw [List.set_append_right _ _ (Nat.le_refl _), Nat.sub_self, List.set_cons_zero]
      rfl

namespace IsAudited

/-- **A cleanup of jobs that are known** tells the log how it ended, if it did. -/
theorem tells_cleanUp_given (h : session.IsAudited opened events) {release : Release}
    (hrelease : release.IsKept) (jobs : List Job) (grace retries delay : Value) (starts : Bool) :
    let after := (session.perform
      (Step.cleanUp (.given jobs) grace retries delay release opened.policy.events starts)).2
    ∃ told, session.TaskTells true session.tasks.length after told ∧
      after.IsAudited opened (events ++ told) := by
  rw [perform_cleanUp_given h.isOpen]
  cases hmade : Cleanup.make? jobs grace retries delay release opened.policy.events with
  | error failure =>
    -- what makes no cleanup makes no task
    refine ⟨[], ?_, (List.append_nil events).symm ▸ h⟩
    rw [TaskTells, List.getElem?_eq_none (Nat.le_refl _)]
  | ok cleanup =>
    obtain ⟨-, hof, hfile⟩ := cleanup_of_make? hmade
    have haudited : (Task.ofCleanup (some opened.jobs) cleanup).IsAudited opened :=
      ⟨⟨rfl, fun _ hfile => (nomatch hfile), hfile⟩, hof ▸ hrelease⟩
    dsimp only
    -- a new task waits to be started, or is started at once
    generalize hdone : (if starts then (Task.ofCleanup (some opened.jobs) cleanup).start
      session.world else (Task.ofCleanup (some opened.jobs) cleanup, session.world)) = done
    have hsame : done.1.SameAs (Task.ofCleanup (some opened.jobs) cleanup) := by
      rw [← hdone]
      split
      · exact Task.sameAs_start _
      · exact ⟨rfl, rfl⟩
    have htold : Task.IsTold opened events true none session.world done := by
      rw [← hdone]
      split
      · exact haudited.isTold_start h.logs fun _ => id
      · exact .of_nothing h.logs fun hends => nomatch hends.1
    obtain ⟨told, hend, htold⟩ := htold
    exact ⟨told, h.addTask hend (haudited.of_sameAs hsame) htold⟩

theorem act (h : session.IsAudited opened events) {work : Action α}
    (hsilent : Action.Reports (fun _ => False) work) :
    (session.perform (Step.act opened.stores work)).2.IsAudited opened events :=
  { h with logs := World.logs_run_of_silent opened.serve_stores hsilent h.logs }

/-- **A cleanup of its own** tells the log how it ended, if it did. -/
theorem tells_cleanUp (h : session.IsAudited opened events) {release : Release}
    (hrelease : release.IsKept) (stale : Step.Stale) (grace retries delay : Value)
    (starts : Bool) :
    let errand :=
      Errand.cleanUp stale grace retries delay release opened.policy.events starts
    ∃ told, errand.Tells opened session told ∧
      (session.perform errand.step).2.IsAudited opened (events ++ told) := by
  have hstep : session.perform
      (Errand.cleanUp stale grace retries delay release opened.policy.events starts).step =
      ((session.perform (Step.cleanUp stale grace retries delay release opened.policy.events
          starts)).1.map Reply.task,
        (session.perform (Step.cleanUp stale grace retries delay release opened.policy.events
          starts)).2) := perform_map _ Reply.task session
  dsimp only [Errand.Tells]
  rw [hstep]
  cases stale with
  | given jobs => exact h.tells_cleanUp_given hrelease jobs grace retries delay starts
  | ofApp app =>
    -- the jobs are looked up first, and then the cleanup is one of jobs that are known
    have hlisted : (session.perform (Step.act opened.stores (Action.list app))).2.IsAudited opened
        events := h.act (.of_list app)
    have hcleanUp : Step.cleanUp (.ofApp app) grace retries delay release opened.policy.events
        starts = (Step.opened >>= fun opened => Step.act opened.stores (Action.list app)) >>=
          fun jobs => Step.cleanUp (.given jobs) grace retries delay release opened.policy.events
            starts := rfl
    rw [hcleanUp, perform_bind, perform_bind, perform_opened h.isOpen]
    rw [Step.act, perform_onWorld] at hlisted
    dsimp only
    rw [Step.act, perform_onWorld]
    cases hrun : World.run opened.stores (Action.list app).attempt session.world with
    | mk answer between =>
      have hlets (seconds : Binary64) (h : session.world.LetsWait seconds) :=
        h.run opened.stores (Action.list app).attempt
      rw [hrun] at hlisted hlets
      cases answer with
      | error failure =>
        refine ⟨[], ?_, (List.append_nil events).symm ▸ hlisted⟩
        rw [TaskTells, List.getElem?_eq_none (Nat.le_refl _)]
      | ok jobs =>
        obtain ⟨told, htells, hafter⟩ :=
          hlisted.tells_cleanUp_given hrelease jobs grace retries delay starts
        exact ⟨told, htells.of_earlier hlets, hafter⟩

/-- **An errand** leaves in the log what it tells. The session is audited afterwards by the events
before and those told, so errands can follow one another. -/
theorem perform (h : session.IsAudited opened events) (herrand : errand.IsAudited opened) :
    ∃ told, errand.Tells opened session told ∧
      (session.perform errand.step).2.IsAudited opened (events ++ told) := by
  -- errands that tell nothing leave the log as it was
  have hsilent {after : Session} (hafter : after.IsAudited opened events) :
      after.IsAudited opened (events ++ []) := (List.append_nil events).symm ▸ hafter
  cases errand with
  | survey app =>
    refine ⟨[], rfl, hsilent ?_⟩
    have hstep : session.perform (Errand.survey app).step =
        ((session.perform (Step.survey app)).1.map Reply.states,
          (session.perform (Step.survey app)).2) := perform_map _ Reply.states session
    rw [hstep, Step.survey, perform_bind, perform_opened h.isOpen]
    exact h.act (Survey.reports_survey app)
  | cleanUp stale grace retries delay release events starts =>
    obtain ⟨hrelease, rfl⟩ := herrand
    exact h.tells_cleanUp hrelease stale grace retries delay starts
  | goOnAt now =>
    exact ⟨[], rfl, hsilent
      { h with logs := ⟨herrand, h.logs.spares, h.logs.files.at_time now⟩ }⟩
  | deed deed =>
    -- an errand of a deed has its effect, and answers that it is done
    have hstep (step : Step Unit) : (session.perform (step >>= fun _ => pure Reply.done)).2 =
        (session.perform step).2 :=
      congrArg Prod.snd (perform_map step (fun _ => Reply.done) session)
    cases deed with
    | define name formation => exact ⟨[], rfl, hsilent (h.keepFormation name herrand)⟩
    | release blueprint name => exact h.tells_release herrand name
    | scale blueprint quantities name => exact h.tells_scale herrand quantities name
    | arm faults =>
      exact ⟨[], rfl, hsilent { h with logs := ⟨h.logs.time, herrand, h.logs.files⟩ }⟩
    | start number =>
      dsimp only [Errand.Tells, Errand.step, Deed.step]
      rw [hstep]
      exact h.onTask number (fun task haudited => haudited.isTold_start h.logs fun _ => id)
        fun _ => Task.sameAs_start
    | elapse number =>
      dsimp only [Errand.Tells, Errand.step, Deed.step]
      rw [hstep]
      exact h.onTask number (fun task haudited => haudited.isTold_elapse h.logs)
        fun _ => Task.sameAs_elapse
    | cancel number =>
      dsimp only [Errand.Tells, Errand.step, Deed.step]
      rw [hstep]
      exact h.onTask number (fun task haudited => haudited.isTold_cancel h.logs)
        fun _ => Task.sameAs_cancel

end IsAudited

/-! ### Runs -/

/-- What the errands tell the log that are done one after the other in a session. -/
def Tells (opened : Opened) : List Errand → Session → List Event → Prop
  | [], _, events => events = []
  | errand :: rest, session, events => ∃ first later, events = first ++ later ∧
      errand.Tells opened session first ∧
      Tells opened rest (session.perform errand.step).2 later

/-- **A run leaves in the log what its errands tell**, one after the other. By induction on the
errands, each from the session that the one before it left. -/
theorem IsAudited.doErrands {errands : List Errand} (h : session.IsAudited opened events)
    (herrands : ∀ errand ∈ errands, errand.IsAudited opened) :
    ∃ told, Tells opened errands session told ∧
      (session.doErrands errands).2.IsAudited opened (events ++ told) := by
  -- each errand finds the session that the errands before it left
  induction errands generalizing session events with
  | nil => exact ⟨[], rfl, (List.append_nil events).symm ▸ h⟩
  | cons errand rest ih =>
    obtain ⟨first, hfirst, hbetween⟩ := h.perform (herrands errand List.mem_cons_self)
    obtain ⟨later, hlater, hafter⟩ :=
      ih hbetween fun other hmem => herrands other (List.mem_cons_of_mem _ hmem)
    rw [List.append_assoc] at hafter
    exact ⟨first ++ later, ⟨first, later, rfl, hfirst, hlater⟩, hafter⟩

/-- The latest events are the last ones in the log. -/
theorem IsAudited.latest (h : session.IsAudited opened events) {n : Nat}
    (hfits : CellNumber.fits n = true) :
    ∃ entries, session.perform (Step.events opened.policy.events (.int n)) =
        (.ok entries, session) ∧
      entries.map (·.2.event) = events.reverse.take n := by
  obtain ⟨entries, hlatest, hentries⟩ := EventLog.latest_eq h.logs.files hfits
  refine ⟨entries, ?_, hentries⟩
  rw [Step.events, Step.onDisk, perform_onWorld, World.onDisk, hlatest]

/-- **The log is an audit trail.** Whatever a session is asked to do about applications, and
whichever collaborators fail but for the log, the events that are logged are those that the errands
tell, one errand after the other; and the latest events are the last of these, the latest first. -/
theorem audited_doErrands {errands : List Errand} (h : session.IsAudited opened events)
    (herrands : ∀ errand ∈ errands, errand.IsAudited opened) :
    ∃ told, Tells opened errands session told ∧
      ∀ n : Nat, CellNumber.fits n = true → ∃ entries,
        ((session.doErrands errands).2.perform (Step.events opened.policy.events (.int n))).1 =
          .ok entries ∧
        entries.map (·.2.event) = (events ++ told).reverse.take n := by
  obtain ⟨told, htells, hafter⟩ := h.doErrands herrands
  refine ⟨told, htells, fun n hfits => ?_⟩
  obtain ⟨entries, hlatest, hentries⟩ := hafter.latest hfits
  exact ⟨entries, congrArg Prod.fst hlatest, hentries⟩

theorem fresh_isAudited : fresh.IsAudited freshlyOpened [] := by
  have hfiles : Disk.Logs fresh.world.site freshlyOpened [] fresh.world.files :=
    ⟨⟨_, _, fresh_keeps⟩, ⟨_, _, fresh_keeps⟩, ⟨_, _, fresh_keeps, rfl⟩⟩
  exact ⟨rfl, ⟨⟨_, rfl⟩, ⟨_, rfl⟩, ⟨_, rfl⟩⟩, ⟨⟨_, rfl⟩, List.forall_mem_nil _, hfiles⟩,
    List.forall_mem_nil _, List.forall_mem_nil _⟩

/-- A scheduler that lets nothing go. -/
def holdingOn : Fault := ⟨.unschedule, none, -1, some (.reported .rejection "no capacity"), false⟩

/-- Two releases and a change of quantity are told, and then that a cleanup failed. -/
theorem audited_on_failed_cleanup :
    fresh.IsAudited freshlyOpened [] ∧
      (∀ errand ∈ workingOnWeb 1 [holdingOn], errand.IsAudited freshlyOpened) ∧
      (∃ told, Tells freshlyOpened (workingOnWeb 1 [holdingOn]) fresh told ∧
        ∀ n : Nat, CellNumber.fits n = true → ∃ entries,
          ((fresh.doErrands (workingOnWeb 1 [holdingOn])).2.perform
            (Step.events freshlyOpened.policy.events (.int n))).1 = .ok entries ∧
          entries.map (·.2.event) = ([] ++ told).reverse.take n) ∧
      (((fresh.doErrands (workingOnWeb 1 [holdingOn])).2.perform
        (Step.events freshlyOpened.policy.events (.int 10))).1.toOption.map
          (·.map (·.2.level))) = some ["ERROR", "INFO", "INFO", "INFO"] := by
  have hkept {version : Int} (hfits : CellNumber.fits version = true) :
      (Blueprint.web version).release.IsKept :=
    ⟨.inr ⟨"web", rfl⟩, .inr ⟨version, rfl, hfits⟩⟩
  have hone : (Blueprint.web 1).release.IsKept := hkept (by decide +kernel)
  have htwo : (Blueprint.web (1 + 1)).release.IsKept := hkept (by decide +kernel)
  have herrands : ∀ errand ∈ workingOnWeb 1 [holdingOn], errand.IsAudited freshlyOpened := by
    simp only [workingOnWeb, List.forall_mem_cons, Errand.IsAudited]
    refine ⟨?_, ?_, hone, hone, trivial, htwo, trivial, fun _ hmem => nomatch hmem⟩
    · intro entry hmem
      rw [List.mem_singleton.mp hmem]
      exact ⟨1, rfl⟩
    · exact ⟨nofun, fun _ hmem => nomatch hmem⟩
  exact ⟨fresh_isAudited, herrands, audited_doErrands fresh_isAudited herrands, by decide +kernel⟩

/-- **Beyond 64 bits** no number of events can be asked for. -/
theorem not_latest_of_wide :
    fresh.IsAudited freshlyOpened [] ∧
      (fresh.perform (Step.events freshlyOpened.policy.events (.int 9223372036854775808))).1 =
        .error .integerTooWide :=
  ⟨fresh_isAudited, rfl⟩

end Session

end Rollout
