import Rollout.Proofs.CleanupStrokes
import Rollout.Proofs.ReleaseStrokes

/-!
# Drift between scheduler and job store

Scheduler and job store keep the same names, each on its own, and no call changes both. A name that
only one of them has is said to *drift* (`World.Drifts`). Any number of names may drift before an
operation starts; the question is what the operation adds to it, whatever fails on its way.

It adds one name at most, and only where the job store failed by a fault
(`World.hardlyDrifts_of_shows`). The reason is in the order of the calls. The scheduler goes first,
so a failure of the scheduler leaves both sides as they were, and the first failure of the store
after that ends the operation. In terms of strokes: a stroke leaves its name on both sides or on
none, whatever was the case before, so only half a stroke can set a name adrift, and there is at
most one. The store may also refuse a job without a fault, but only if its name is tracked already,
and then both sides have it.

A task is looked at over its whole run, from its start to the end of its grace period and beyond
(`Task.runThrough`), which is one run of its cleanup (`Task.runThrough_eq`).
-/

namespace Rollout

/-! ### Whole runs of a task -/

namespace Task

/-- A task is started, and its grace period comes to its end. -/
def runThrough (task : Task) (world : World) : Task × World :=
  let started := task.start world
  started.1.elapse started.2

/-- A wait leaves a cleanup running. -/
theorem cancelled_run_wait (stores : Stores) (world : World) (seconds : Binary64)
    (cancelled : Bool) :
    let after := (World.run stores (Call.ask (.wait seconds))
      { world with cancelled := some cancelled }).2
    after.cancelled = some after.isCancelled := by
  intro after
  have hrunning : after.cancelled.isSome = true := by
    have hperform : World.perform (.wait seconds)
        (fun world => (world.waitLimit.await world.isCancelled seconds, world))
        { world with cancelled := some cancelled } = (_, after) := rfl
    rcases World.perform_cases hperform with ⟨_, hrecordable, -⟩ | ⟨_, -, hattends, -⟩ |
        ⟨attended, hattends, hreal⟩
    · cases hrecordable
    · exact hattends.running
    · rw [← (Prod.mk.inj hreal).2]
      exact hattends.running
  -- a cleanup that runs is cancelled or not
  obtain ⟨flag, hflag⟩ := Option.isSome_iff_exists.mp hrunning
  rw [World.isCancelled, hflag]
  rfl

/-- **A task that is run through runs its cleanup**, in a world that knows whether it is
cancelled. -/
theorem runThrough_eq {task : Task} (hstatus : task.status ≠ .waiting) (world : World) :
    task.runThrough world =
      let done := World.run task.stores (task.cleanup.run task.progress)
        { world with cancelled := some task.cancelled }
      ({ task with
          progress := done.1.progress
          crash := done.1.crash
          cancelled := done.2.isCancelled
          status := .finished }, { done.2 with cancelled := none }) := by
  have hrunning := cancelled_run_wait task.stores world task.cleanup.grace task.cancelled
  -- the wait comes first, and what follows the grace period goes on where it ended
  have hrun : World.run task.stores (task.cleanup.run task.progress)
      { world with cancelled := some task.cancelled } =
      let waited := World.run task.stores (Call.ask (.wait task.cleanup.grace))
        { world with cancelled := some task.cancelled }
      World.run task.stores (task.cleanup.afterGrace task.progress waited.1) waited.2 :=
    Plan.run_bind _ (Call.ask (.wait task.cleanup.grace)) _ _
  rw [hrun]
  generalize hwaited : World.run task.stores (Call.ask (.wait task.cleanup.grace))
    { world with cancelled := some task.cancelled } = waited at hrunning ⊢
  obtain ⟨grace, last⟩ := waited
  dsimp only at hrunning ⊢
  have hresumed : ({ last with cancelled := some last.isCancelled } : World) = last := by
    rw [← hrunning]
  have hwait : ({ task with crash := none } : Task).inWorld (Call.ask (.wait task.cleanup.grace))
      world = (grace, { task with crash := none, cancelled := last.isCancelled },
        { last with cancelled := none }) := by
    rw [inWorld]
    exact congrArg (fun done : Except Failure Bool × World =>
      (done.1, ({ task with crash := none, cancelled := done.2.isCancelled } : Task),
        ({ done.2 with cancelled := none } : World))) hwaited
  have hproceed (status : Status) :
      ({ task with crash := none, cancelled := last.isCancelled, status } : Task).proceed grace
        { last with cancelled := none } =
      let done := World.run task.stores (task.cleanup.afterGrace task.progress grace) last
      ({ task with
          progress := done.1.progress
          crash := done.1.crash
          cancelled := done.2.isCancelled
          status := .finished }, { done.2 with cancelled := none }) := by
    rw [proceed, inWorld]
    dsimp only
    rw [hresumed]
    rfl
  rw [runThrough, start]
  split
  · next hwaiting => exact absurd hwaiting hstatus
  · dsimp only
    rw [hwait]
    dsimp only
    split
    · split
      · -- there is a grace period, and it comes to its end
        rw [elapse]
        exact hproceed .waiting
      · rw [hproceed task.status]
        rfl
    · rw [hproceed task.status]
      rfl

end Task

/-! ### Names that drift -/

namespace Ledger

variable {scope : Scope} {now : String} {ledger after : Ledger} {record : List Attempt}
  {ending : Option Failure} {failure : Failure} {name : String}

/-- The scheduler has the name and the job store has not, or the other way round. -/
def Drifts (ledger : Ledger) (name : String) : Prop :=
  ¬(name ∈ ledger.scheduled ↔ name ∈ ledger.tracked)

/-- **A stroke sets nothing adrift**: both sides have its name afterwards, or none. A name that
drifts after it has therefore drifted before. -/
theorem Stroke.drifts (h : Stroke scope now ledger after) (hdrifts : after.Drifts name) :
    ledger.Drifts name := by
  intro hbefore
  refine hdrifts ?_
  cases h with
  | placed hjob hdefinition hrow =>
    obtain ⟨hname, -⟩ := JobRow.name_of_admit? hrow
    rw [Placement.name_of_definition? hdefinition] at hname
    rw [scheduled_add, mem_scheduled_schedule, tracked_add, tracked_schedule, List.mem_append,
      List.mem_singleton, ← Except.ok.inj hname, hbefore, or_comm]
  | withdrawn => rw [mem_scheduled_retire, mem_tracked_retire, hbefore]
  | wanted => exact hbefore

theorem drifts_of_strokes (h : Strokes scope now ledger after) (hdrifts : after.Drifts name) :
    ledger.Drifts name := by
  induction h with
  | refl => exact hdrifts
  | tail _ hstroke ih => exact ih (hstroke.drifts hdrifts)

/-- **Half a stroke sets one name adrift at most**, and only if the store failed at it by a fault:
without a fault a job that can be stored is refused only if its name is tracked. -/
theorem Halved.drifts (hplaces : ∀ job, scope.places job → job.IsStorable)
    (h : Halved scope now record failure ledger after) :
    (∀ name, after.Drifts name → ledger.Drifts name) ∨
    ∃ job name cause, job.name? = .ok name ∧
      (⟨.add job, some cause⟩ ∈ record ∨ ⟨.remove job, some cause⟩ ∈ record) ∧
      (failure = cause ∨ scope.tries) ∧
      ∀ other, after.Drifts other → ledger.Drifts other ∨ other = name := by
  cases h with
  | @unadded job definition fault hjob hdefinition hlast hreason =>
    have hname := Placement.name_of_definition? hdefinition
    have hother : ∀ other, (ledger.schedule definition).Drifts other →
        ledger.Drifts other ∨ other = definition.name := by
      intro other hdrifts
      by_cases heq : other = definition.name
      · exact .inr heq
      · refine .inl fun hbefore => hdrifts ?_
        rw [mem_scheduled_schedule, tracked_schedule, or_iff_right heq, hbefore]
    rcases hreason with rfl | ⟨rfl, cause, hrefused⟩
    · exact .inr ⟨job, definition.name, failure, hname,
        .inl (hlast.subset (List.mem_cons_of_mem _ List.mem_cons_self)), .inl rfl, hother⟩
    · -- the job was refused because its name is tracked, and now it is scheduled as well
      obtain ⟨row, hrow, -, hunique⟩ :=
        JobRow.admit?_of_isStorable (hplaces job hjob) hname now ledger.jobs
      have hmem : definition.name ∈ ledger.tracked := by
        by_contra hnew
        rw [tracked] at hnew
        rw [hunique, JobRow.unique?, hrow, if_neg hnew] at hrefused
        cases hrefused
      refine .inl fun other hdrifts => ?_
      rcases hother other hdrifts with hbefore | rfl
      · exact hbefore
      · have hscheduled := ledger.mem_scheduled_schedule.mpr (.inl (Eq.refl definition.name))
        exact absurd ⟨fun _ => hmem, fun _ => hscheduled⟩ hdrifts
  | @unremoved job name cause hjob hname hmem hfault hreason =>
    refine .inr ⟨job, name, cause, hname, .inr hfault, hreason, ?_⟩
    intro other hdrifts
    by_cases heq : other = name
    · exact .inr heq
    · refine .inl fun hbefore => hdrifts ?_
      rw [mem_scheduled_unschedule, tracked_unschedule, and_iff_right heq, hbefore]

end Ledger

/-! ### What one operation adds -/

namespace World

variable {opened : Opened} {world after : World} {ledger moved : Ledger}

/-- The names that the job store tracks. -/
def tracked (opened : Opened) (world : World) : List String :=
  (JobStore.names world.site opened.jobs world.files).1.toOption.getD []

/-- Scheduler and job store drift apart at the name: one of them has it, and the other has not. -/
def Drifts (opened : Opened) (world : World) (name : String) : Prop :=
  ¬(name ∈ world.scheduled ↔ name ∈ world.tracked opened)

instance (opened : Opened) (world : World) (name : String) : Decidable (world.Drifts opened name) :=
  inferInstanceAs (Decidable ¬(name ∈ world.scheduled ↔ name ∈ world.tracked opened))

/-- What drifts in a world is what drifts in the ledger that it shows. -/
theorem Shows.drifts_iff (h : world.Shows opened ledger) (name : String) :
    world.Drifts opened name ↔ ledger.Drifts name := by
  have htracked : world.tracked opened = ledger.tracked := by
    obtain ⟨place, database, hkeeps, hrows⟩ := h.jobs
    rw [tracked, JobStore.names_apply hkeeps, hrows]
    rfl
  rw [Drifts, Ledger.Drifts, Session.scheduled_of_shows h, htracked]

/-- The job store failed at the name by a fault, and that ended the operation. -/
def FailedAt (name : String) (record : List Attempt) (endedBy : Failure → Prop) : Prop :=
  ∃ job failure, job.name? = .ok name ∧
    (⟨.add job, some failure⟩ ∈ record ∨ ⟨.remove job, some failure⟩ ∈ record) ∧ endedBy failure

/-- An operation with a record and an end sets one name adrift at most, and only where the job store
failed by a fault that ended it. Where no fault fails at the job store, nothing is set adrift. -/
structure HardlyDrifts (opened : Opened) (before : World) (record : List Attempt)
    (endedBy : Failure → Prop) (after : World) : Prop where
  one : ∃ fresh : Option String, ∀ name, after.Drifts opened name →
    before.Drifts opened name ∨ fresh = some name
  reason : ∀ name, after.Drifts opened name → ¬before.Drifts opened name →
    FailedAt name record endedBy
  spared : before.Spares .add → before.Spares .remove →
    ∀ name, after.Drifts opened name → before.Drifts opened name

/-- **All operations work in strokes, and so they hardly drift.** Only the stroke in which the work
ended can have been left halfway, which makes one name at most. -/
theorem hardlyDrifts_of_worked {scope : Scope} {now : String} {record : List Attempt}
    {ending : Option Failure} {endedBy : Failure → Prop} (hshows : world.Shows opened ledger)
    (hshown : after.Shows opened moved) (hplaces : ∀ job, scope.places job → job.IsStorable)
    (hended : ∀ failure cause, ending = some failure → failure = cause ∨ scope.tries →
      endedBy cause)
    (hspared : ∀ {point}, world.Spares point → ∀ attempt ∈ record,
      (Request.call attempt.call).point = point → attempt.fault = none)
    (h : Ledger.Worked scope now record ending ledger moved) :
    world.HardlyDrifts opened record endedBy after := by
  have hdrifts : (∀ name, moved.Drifts name → ledger.Drifts name) ∨
      ∃ fresh, FailedAt fresh record endedBy ∧
        ∀ name, moved.Drifts name → ledger.Drifts name ∨ name = fresh := by
    obtain ⟨middle, hstrokes, rfl | ⟨failure, hending, hhalved⟩⟩ := h
    · exact .inl fun name => Ledger.drifts_of_strokes hstrokes
    · refine (hhalved.drifts hplaces).imp ?_ ?_
      · exact fun hkept name hdrifts => Ledger.drifts_of_strokes hstrokes (hkept name hdrifts)
      · rintro ⟨job, fresh, cause, hname, hfault, hreason, hother⟩
        exact ⟨fresh, ⟨job, cause, hname, hfault, hended failure cause hending hreason⟩,
          fun name hdrifts => (hother name hdrifts).imp_left (Ledger.drifts_of_strokes hstrokes)⟩
  simp only [← hshows.drifts_iff, ← hshown.drifts_iff] at hdrifts
  rcases hdrifts with hkept | ⟨fresh, hfailed, hother⟩
  · exact ⟨⟨none, fun name hdrifts => .inl (hkept name hdrifts)⟩,
      fun name hdrifts hbefore => absurd (hkept name hdrifts) hbefore, fun _ _ => hkept⟩
  · refine ⟨⟨some fresh, fun name hdrifts =>
        (hother name hdrifts).imp_right fun heq => congrArg some heq.symm⟩,
      fun name hdrifts hbefore => ?_, fun hadd hremove => ?_⟩
    · rw [(hother name hdrifts).resolve_left hbefore]
      exact hfailed
    · -- a fault that failed at the store had lain in wait there
      obtain ⟨job, failure, -, hfault | hfault, -⟩ := hfailed
      · cases hspared hadd _ hfault rfl
      · cases hspared hremove _ hfault rfl

end World

/-! ### Typed inputs -/

/-- **What is handed in for a typed release can be stored**, up to limits that fit. What cannot be
stored would fail at the job store, after the scheduler has taken it. -/
theorem Blueprint.Submits.isStorable {app : String} {blueprint : Blueprint} {formation : Formation}
    {limits : Nat → Prop} {job : Job} (h : blueprint.Submits formation limits job)
    (hblueprint : blueprint.IsTyped app) (hformation : formation.IsTyped)
    (hlimits : ∀ limit, limits limit → CellNumber.fits limit = true) : job.IsStorable where
  app := ⟨app, h.app.trans hblueprint.app⟩
  version := by
    rw [h.version]
    exact hblueprint.version
  type := by
    rcases h.type with ⟨entry, hmem, htype⟩ | htype
    · rw [htype]
      exact (hformation entry hmem).1
    · exact htype
  ordinal := by
    obtain ⟨ordinal, limit, hordinal, hle, hlimit⟩ := h.ordinal
    exact ⟨ordinal, hordinal, CellNumber.fits_of_le hle (hlimits limit hlimit)⟩
  environment := by
    obtain ⟨environment, henvironment, hjob⟩ := h.environment
    exact ⟨environment, hjob, Environment.nodup_of_ofVars henvironment⟩
  repo := by
    rw [h.image]
    exact hblueprint.repo
  id := by
    rw [h.image]
    exact hblueprint.id
  command := by
    obtain ⟨entry, hmem, hcommand⟩ := h.command
    rw [hcommand]
    exact (hformation entry hmem).2.command

namespace World

variable {opened : Opened} {world : World} {ledger : Ledger} {app : String}

/-- **Work for a typed release hardly drifts**, if its instances are numbered up to limits that
fit. -/
theorem hardlyDrifts_of_release {α : Type} {after : World} {moved : Ledger} {now : String}
    {record : List Attempt} {result : Except Failure α} {blueprint : Blueprint}
    {formation : Formation} {limits : Nat → Prop} (hshows : world.Shows opened ledger)
    (hshown : after.Shows opened moved) (hblueprint : blueprint.IsTyped app)
    (hformation : formation.IsTyped)
    (hlimits : ∀ limit, limits limit → CellNumber.fits limit = true)
    (hspared : ∀ {point}, world.Spares point → ∀ attempt ∈ record,
      (Request.call attempt.call).point = point → attempt.fault = none)
    (hworked : Ledger.Worked (.ofRelease blueprint formation limits) now record (failureOf? result)
      ledger moved) :
    world.HardlyDrifts opened record (result = .error ·) after := by
  refine hardlyDrifts_of_worked hshows hshown
    (fun job hjob => Blueprint.Submits.isStorable hjob hblueprint hformation hlimits)
    (fun failure cause hfailed hreason => ?_) hspared hworked
  -- nothing is tried again, so the failure of the fault is the answer
  obtain rfl : failure = cause := hreason.resolve_right fun hnever => hnever
  exact failureOf?_eq_some.mp hfailed

/-- A rollout of a typed release hardly drifts. -/
theorem hardlyDrifts_rollOut {policy : Policy} {blueprint : Blueprint} {formation : Formation}
    (hshows : world.Shows opened ledger) (hblueprint : blueprint.IsTyped app)
    (hformation : formation.IsTyped) :
    let work := (rollOut policy blueprint formation).attempt
    let done := World.run opened.stores work world
    world.HardlyDrifts opened (attempts opened.stores work world) (done.1 = .error ·) done.2 := by
  intro work done
  obtain ⟨moved, hran, hshown, -⟩ :=
    run_ran opened.serve_stores hshows (isAt_moment opened.stores world) work
  -- instances are numbered up to the quantities of the formation, and these fit
  have hworked := Ledger.Worked.of_rollOut
    (fun count => ∃ entry ∈ formation, entry.2.quantity.count? = .ok count) rfl
    (fun entry hmem count hcount => ⟨entry, hmem, hcount⟩) hran
  refine hardlyDrifts_of_release hshows hshown hblueprint hformation ?_
    (faults_of_mem_attempts opened.serve_stores hshows) hworked
  rintro count ⟨entry, hmem, hcount⟩
  obtain ⟨quantity, hquantity, hfits⟩ := (hformation entry hmem).2.quantity
  rw [hquantity] at hcount
  obtain rfl := Except.ok.inj hcount
  exact hfits

/-- A scaling of a typed release hardly drifts. -/
theorem hardlyDrifts_scale {blueprint : Blueprint} {quantities : List (Value × Value)}
    {formation : Formation} (hshows : world.Shows opened ledger)
    (hblueprint : blueprint.IsTyped app) (hformation : formation.IsTyped)
    (hfits : FitQuantities quantities) :
    let work := Scale.scale blueprint quantities formation
    let done := World.run opened.stores work world
    world.HardlyDrifts opened (attempts opened.stores work world) (done.1.ending = .error ·)
      done.2 := by
  intro work done
  obtain ⟨moved, hran, hshown, -⟩ :=
    run_ran opened.serve_stores hshows (isAt_moment opened.stores world) work
  -- instances are numbered up to the targets of the request, and these fit
  obtain ⟨hworked, -⟩ := Ledger.Worked.of_scale
    (fun count => ∃ request, ScaleRequest.ofEntries quantities = .ok request ∧
      ∃ entry ∈ request, entry.2 = count) rfl
    (fun request hrequest entry hmem => ⟨request, hrequest, entry, hmem, rfl⟩) hran
  refine hardlyDrifts_of_release hshows hshown hblueprint hformation ?_
    (faults_of_mem_attempts opened.serve_stores hshows) hworked
  rintro _ ⟨request, hrequest, entry, hmem, rfl⟩
  exact hfits request hrequest entry hmem

/-- A run of a task hardly drifts, whatever jobs it is to retire. -/
theorem hardlyDrifts_runThrough {task : Task} (hshows : world.Shows opened ledger)
    (hserve : task.stores.Serve opened) (hstatus : task.status ≠ .waiting) :
    let before := { world with cancelled := some task.cancelled }
    let done := task.runThrough world
    world.HardlyDrifts opened (attempts task.stores (task.cleanup.run task.progress) before)
      (fun _ => done.1.progress.phase ∈ [Phase.failed, .cancelled] ∧ done.1.progress.error.isSome)
      done.2 := by
  intro before done
  have hshows' : before.Shows opened ledger := Task.shows_cancelled hshows
  obtain ⟨moved, hran, hshown, -⟩ := run_ran hserve hshows' (isAt_moment task.stores before)
    (task.cleanup.run task.progress)
  have hdone : done = _ := Task.runThrough_eq hstatus world
  have hworked := Ledger.Worked.of_run hran
  rw [hdone]
  refine hardlyDrifts_of_worked hshows (Task.shows_cancelled hshown) (fun job hjob => ?_)
    (fun failure cause hended _ => ?_) (faults_of_mem_attempts hserve hshows') hworked
  · -- a cleanup places nothing
    exact hjob.elim
  -- a run that ended with a failure says so in its phase
  rw [Outcome.ending?] at hended
  dsimp only
  split at hended
  · next hphase =>
    rw [hphase, hended]
    exact ⟨List.mem_cons_self, rfl⟩
  · next hphase =>
    rw [hphase, hended]
    exact ⟨List.mem_cons_of_mem _ List.mem_cons_self, rfl⟩
  all_goals cases hended

/-- **Drift is bounded.** Whatever a scheduler in memory and stores in order hold, and whatever
faults and cancellations lie in wait: a rollout or a scaling of a typed release, and a run of a task
with any stale jobs, set one name adrift at most. They do so only if the job store failed by a fault
where it was to track a job of exactly that name or to track it no longer, and that failure is the
one that the operation answers with, or the task ended as failed or cancelled. If no fault fails at
these two calls, no name is set adrift. -/
theorem hardlyDrifts_of_shows (hshows : world.Shows opened ledger) :
    (∀ (app : String) (policy : Policy) (blueprint : Blueprint) (formation : Formation),
      blueprint.IsTyped app → formation.IsTyped →
        let work := (rollOut policy blueprint formation).attempt
        let done := World.run opened.stores work world
        world.HardlyDrifts opened (attempts opened.stores work world) (done.1 = .error ·) done.2) ∧
    (∀ (app : String) (blueprint : Blueprint) (quantities : List (Value × Value))
        (formation : Formation),
      blueprint.IsTyped app → formation.IsTyped → FitQuantities quantities →
        let work := Scale.scale blueprint quantities formation
        let done := World.run opened.stores work world
        world.HardlyDrifts opened (attempts opened.stores work world) (done.1.ending = .error ·)
          done.2) ∧
    ∀ task : Task, task.stores.Serve opened → task.status ≠ .waiting →
      let before := { world with cancelled := some task.cancelled }
      let done := task.runThrough world
      world.HardlyDrifts opened (attempts task.stores (task.cleanup.run task.progress) before)
        (fun _ => done.1.progress.phase ∈ [Phase.failed, .cancelled] ∧
          done.1.progress.error.isSome) done.2 :=
  ⟨fun _ _ _ _ hblueprint hformation => hardlyDrifts_rollOut hshows hblueprint hformation,
    fun _ _ _ _ hblueprint hformation hfits =>
      hardlyDrifts_scale hshows hblueprint hformation hfits,
    fun _ hserve hstatus => hardlyDrifts_runThrough hshows hserve hstatus⟩

/-- A world in which the job store will fail to track the second instance of a release. -/
def forgetful : World :=
  { Session.fresh.world with
    faults := [⟨.add, some (.text "web.1.web.2"), 1, some (.reported .repository "disk full"),
      false⟩] }

/-- The rollout of a release of three instances. -/
def rollingOutThree : Plan Collaborators (Except Failure Cleanup) :=
  (rollOut Session.freshlyOpened.policy (.web 1) (.web 3)).attempt

/-- There the bound is reached: a rollout of three instances stops at the second one, which is
scheduled and not tracked. -/
theorem hardlyDrifts_at_second :
    (run Session.freshlyOpened.stores rollingOutThree forgetful).2.Drifts Session.freshlyOpened
        "web.1.web.2" ∧
      ¬forgetful.Drifts Session.freshlyOpened "web.1.web.2" ∧
      forgetful.HardlyDrifts Session.freshlyOpened
        (attempts Session.freshlyOpened.stores rollingOutThree forgetful)
        ((run Session.freshlyOpened.stores rollingOutThree forgetful).1 = .error ·)
        (run Session.freshlyOpened.stores rollingOutThree forgetful).2 := by
  obtain ⟨hmemory, htime, hjobs, hprocesses, hevents⟩ := (Session.fresh_inOrder "web").shows
  have hshows : forgetful.Shows Session.freshlyOpened ⟨[], [], []⟩ :=
    ⟨hmemory, htime, hjobs, hprocesses, hevents⟩
  exact ⟨by decide +kernel, by decide +kernel, (hardlyDrifts_of_shows hshows).1 "web" _ _ _
    (Blueprint.isTyped_web (by decide +kernel)) (Formation.isTyped_web (by decide +kernel))⟩

end World

end Rollout
