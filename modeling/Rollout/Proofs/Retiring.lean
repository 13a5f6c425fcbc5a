import Rollout.Proofs.RollingOut
import Rollout.Session.Task

/-!
# What a cleanup does

A cleanup gives up the names of its jobs, one after the other, up to the first that it cannot take
from the scheduler. On a ledger this is `Ledger.retireAll` of an initial part of the names
(`World.sweep_cases`), whatever faults there are and whenever it is cancelled: a job that is gone
from the scheduler is gone from the store as well, since the store does not fail.

In calm, and unless it was cancelled, only one thing can stop a cleanup, a job that the scheduler
does not run. So a cleanup is done exactly if all of its names are scheduled when their turn comes,
and fails otherwise.

A task runs a cleanup in two parts, before and after its grace period. `Task.proceed_cases` is about
the second part and `Task.start_cases` about the first one.
-/

namespace Rollout

/-! ### Plans in a world -/

namespace World

variable {α β : Type} {stores : Stores} {world : World}

theorem run_plan_bind (plan : Plan Collaborators α) (next : α → Plan Collaborators β) :
    World.run stores (plan >>= next) world =
      World.run stores (next (World.run stores plan world).1) (World.run stores plan world).2 :=
  Plan.run_bind (answer stores) plan next world

/-- Whether a cleanup is cancelled can be asked without a trace. -/
theorem run_ask_cancelled (next : Bool → Plan Collaborators β) :
    World.run stores (Call.ask .cancelled >>= next) world =
      World.run stores (next world.isCancelled) world := by
  rw [run_plan_bind]
  rfl

end World

namespace Cleanup

variable {opened : Opened} {stores : Stores} {world after : World} {ledger : Ledger}

open World

/-! ### Trying again -/

/-- What becomes of a step that may be tried again. -/
theorem run_withRetries_succ (delay : Binary64) (step : Action Unit) (retries : Nat)
    (world : World) :
    World.run stores (withRetries delay step (retries + 1)).attempt world =
      match World.run stores step.attempt world with
      | (.ok (), world) => (.ok (), world)
      | (.error failure, world) =>
        match World.run stores (Action.wait delay).attempt world with
        | (.error failure, world) => (.error failure, world)
        | (.ok true, world) => (.error failure, world)
        | (.ok false, world) => World.run stores (withRetries delay step retries).attempt
          world := by
  rw [withRetries, Work.attempt_ofPlan, run_plan_bind]
  rcases World.run stores step.attempt world with ⟨failure | _, world₁⟩
  · dsimp only
    rw [run_plan_bind]
    rcases World.run stores (Action.wait delay).attempt world₁ with ⟨failure' | _ | _,
        world₂⟩ <;> rfl
  · rfl

theorem run_withRetries_of_ok {delay : Binary64} {step : Action Unit}
    (h : World.run stores step.attempt world = (.ok (), after)) (retries : Nat) :
    World.run stores (withRetries delay step retries).attempt world = (.ok (), after) := by
  cases retries with
  | zero => exact h
  | succ retries => rw [run_withRetries_succ, h]

/-- **What becomes of taking a job from the scheduler**, however often it is tried: it is taken
away, or nothing is done. -/
theorem withRetries_unschedule_cases {delay : Binary64} {job : Job} {name : String} {retries : Nat}
    {result : Except Failure Unit} (hshows : world.Shows opened ledger)
    (hname : job.name? = .ok name)
    (h : World.run stores (withRetries delay (unscheduleJob job) retries).attempt world =
      (result, after)) :
    world.Follows after ∧
      (result = .ok () ∧ name ∈ ledger.scheduled ∧ after.Shows opened (ledger.unschedule name) ∨
        ∃ failure, result = .error failure ∧ after.Shows opened ledger ∧
          (world.Spares .unschedule → name ∉ ledger.scheduled)) := by
  -- one try is one request to the scheduler, since the job has a name
  have hstep : ∀ world : World, World.run stores (unscheduleJob job).attempt world =
      answer stores (.unschedule (.text name)) world := by
    intro world
    rw [unscheduleJob, hname]
    rfl
  -- a try that fails leaves the ledger alone, so the tries that are left start from the same one
  induction retries generalizing world with
  | zero =>
    rw [withRetries_zero, hstep] at h
    exact answer_unschedule stores hshows h
  | succ retries ih =>
    rw [run_withRetries_succ, hstep] at h
    cases hfirst : answer stores (.unschedule (.text name)) world with
    | mk first world₁ =>
      rw [hfirst] at h
      obtain ⟨hfollows₁, hcase⟩ := answer_unschedule stores hshows hfirst
      rcases hcase with ⟨rfl, hmem, hshown⟩ | ⟨failure, rfl, hshown, hreason⟩
      · obtain ⟨rfl, rfl⟩ := Prod.mk.inj h
        exact ⟨hfollows₁, .inl ⟨rfl, hmem, hshown⟩⟩
      · cases hwait : World.run stores (Action.wait delay).attempt world₁ with
        | mk waited world₂ =>
          obtain ⟨hfollows₂, hshown₂, -⟩ := answer_wait stores hshown hwait
          dsimp only at h
          rw [hwait] at h
          have hfollows := hfollows₁.trans hfollows₂
          rcases waited with failure' | _ | _
          · -- the wait fails
            obtain ⟨rfl, rfl⟩ := Prod.mk.inj h
            exact ⟨hfollows, .inr ⟨failure', rfl, hshown₂, hreason⟩⟩
          · -- the time passes, and the next try decides
            obtain ⟨hfollows₃, hcase⟩ := ih hshown₂ h
            refine ⟨hfollows.trans hfollows₃, ?_⟩
            rcases hcase with hdone | ⟨failure', hresult, hshown₃, -⟩
            · exact .inl hdone
            · exact .inr ⟨failure', hresult, hshown₃, hreason⟩
          · -- the wait is cut short by a cancellation
            obtain ⟨rfl, rfl⟩ := Prod.mk.inj h
            exact ⟨hfollows, .inr ⟨failure, rfl, hshown₂, hreason⟩⟩

/-! ### One job -/

/-- **What becomes of one job**: it is given up by both sides, or nothing is done. -/
theorem retire_cases {cleanup : Cleanup} {job : Job} {name : String} {result : Except Failure Unit}
    (hserve : stores.Serve opened) (hshows : world.Shows opened ledger)
    (hspares : world.Spares .remove) (hname : job.name? = .ok name)
    (h : World.run stores (cleanup.retire job).attempt world = (result, after)) :
    world.Follows after ∧
      (result = .ok () ∧ name ∈ ledger.scheduled ∧ after.Shows opened (ledger.retire name) ∨
        ∃ failure, result = .error failure ∧ after.Shows opened ledger ∧
          (world.Spares .unschedule → name ∉ ledger.scheduled)) := by
  rcases run_bind_cases h with ⟨_, world₁, hunschedule, hremove⟩ | ⟨failure, hunschedule, rfl⟩
  · obtain ⟨hfollows₁, hcase⟩ := withRetries_unschedule_cases hshows hname hunschedule
    rcases hcase with ⟨-, hmem, hshown₁⟩ | ⟨_, hfailure, -⟩
    · cases hanswer : answer stores (.remove job) world₁ with
      | mk removed world₂ =>
        obtain ⟨hfollows₂, rfl, hshown₂⟩ :=
          answer_remove hserve hshown₁ (hfollows₁.spares hspares) hname hanswer
        -- the store does not fail, so one try is enough
        have honce : World.run stores (Action.remove job).attempt world₁ = (.ok (), world₂) :=
          hanswer
        have hrun : World.run stores
            (withRetries cleanup.delay (Action.remove job) cleanup.retries).attempt world₁ =
              (.ok (), world₂) := run_withRetries_of_ok honce cleanup.retries
        rw [hremove] at hrun
        obtain ⟨rfl, rfl⟩ := Prod.mk.inj hrun
        exact ⟨hfollows₁.trans hfollows₂, .inl ⟨rfl, hmem, hshown₂⟩⟩
    · cases hfailure
  · obtain ⟨hfollows₁, hcase⟩ := withRetries_unschedule_cases hshows hname hunschedule
    rcases hcase with ⟨hok, -⟩ | ⟨_, -, hshown, hreason⟩
    · cases hok
    · exact ⟨hfollows₁, .inr ⟨failure, rfl, hshown, hreason⟩⟩

/-! ### The end of a run -/

/-- Events about a release can be stored. The level and the message are texts that the program puts
together itself. -/
def Loggable (release : Release) : Prop :=
  ∀ level message, Event.IsStorable ⟨.text level, .text message, release.app, release.version⟩

/-- **A run ends in its phase**, and the event that tells is logged. -/
theorem finish_cases {progress : Progress} {phase : Phase} {event : Event} {outcome : Outcome}
    (hserve : stores.Serve opened) (hshows : world.Shows opened ledger)
    (hspares : world.Spares .log) (hevent : event.IsStorable)
    (h : World.run stores (finish progress phase event) world = (outcome, after)) :
    world.Follows after ∧ after.Shows opened ledger ∧
      outcome = ⟨{ progress with phase }, none⟩ := by
  cases hlog : World.run stores (Action.log event).attempt world with
  | mk logged between =>
    obtain ⟨hfollows, rfl, hshown⟩ := run_log hserve hshows hspares hevent hlog
    rw [finish, run_plan_bind, hlog] at h
    obtain ⟨rfl, rfl⟩ := Prod.mk.inj h
    exact ⟨hfollows, hshown, rfl⟩

/-- A run that ends at a job ends cancelled or failed. -/
theorem stopAt_cases {cleanup : Cleanup} {progress : Progress} {job : Job} {name : String}
    {failure : Failure} {outcome : Outcome} (hserve : stores.Serve opened)
    (hshows : world.Shows opened ledger) (hspares : world.Spares .log)
    (hrelease : Loggable cleanup.release) (hname : job.name? = .ok name)
    (h : World.run stores (cleanup.stopAt progress job failure) world = (outcome, after)) :
    world.Follows after ∧ after.Shows opened ledger ∧
      outcome = ⟨{ progress with
        phase := if world.isCancelled then .cancelled else .failed, error := some failure },
          none⟩ := by
  rw [stopAt, run_ask_cancelled, hname] at h
  cases hcancelled : world.isCancelled with
  | true =>
    rw [hcancelled] at h
    exact finish_cases hserve hshows hspares (hrelease _ _) h
  | false =>
    rw [hcancelled] at h
    exact finish_cases hserve hshows hspares (hrelease _ _) h

/-! ### All jobs -/

/-- **What becomes of all jobs**: the first ones, which were scheduled, are given up. If none is
left, the cleanup is done; if some are, it is not, and in calm the next one is not scheduled. -/
theorem sweep_cases {cleanup : Cleanup} {progress : Progress} {jobs : List Job}
    {names : List String}
    {outcome : Outcome} (hserve : stores.Serve opened) (hshows : world.Shows opened ledger)
    (hspares : world.SparesStores) (hrelease : Loggable cleanup.release)
    (hnames : Job.NamesOf jobs names)
    (h : World.run stores (cleanup.sweep progress jobs) world = (outcome, after)) :
    world.Follows after ∧ ∃ gone left, names = gone ++ left ∧
      after.Shows opened (ledger.retireAll gone) ∧ outcome.crash = none ∧
      outcome.progress.removed = progress.removed ++ gone ∧
        (∀ name ∈ gone, name ∈ ledger.scheduled) ∧
      (left = [] ∧ outcome.progress.phase = .done ∧ outcome.progress.error = progress.error ∨
        outcome.progress.phase ≠ .done ∧ ∃ name rest, left = name :: rest ∧
          (world.Calm → world.isCancelled = false →
            outcome.progress.phase = .failed ∧ name ∉ (ledger.retireAll gone).scheduled)) := by
  induction hnames generalizing world ledger progress with
  | nil =>
    -- no job is left: the cleanup is done
    obtain ⟨hfollows, hshown, rfl⟩ := finish_cases hserve hshows hspares.log (hrelease _ _) h
    exact ⟨hfollows, [], [], rfl, hshown, rfl, (List.append_nil _).symm,
      (fun _ hmem => nomatch hmem), .inl ⟨rfl, rfl, rfl⟩⟩
  | @cons job name jobs names hname hrest ih =>
    rw [sweep, run_ask_cancelled] at h
    cases hcancelled : world.isCancelled with
    | true =>
      -- the cancellation is noticed before the job is touched
      rw [hcancelled] at h
      obtain ⟨hfollows, hshown, rfl⟩ := finish_cases hserve hshows hspares.log (hrelease _ _) h
      refine ⟨hfollows, [], name :: names, rfl, hshown, rfl, (List.append_nil _).symm,
        (fun _ hmem => nomatch hmem), .inr ⟨?_, name, names, rfl, ?_⟩⟩
      · exact fun hdone => nomatch hdone
      · intro _ hfalse
        cases hfalse
    | false =>
      rw [hcancelled, if_neg Bool.false_ne_true, run_plan_bind] at h
      cases hretire : World.run stores (cleanup.retire job).attempt world with
      | mk result world₁ =>
        rw [hretire] at h
        obtain ⟨hfollows₁, hcase⟩ := retire_cases hserve hshows hspares.remove hname hretire
        have hspares₁ := hfollows₁.sparesStores hspares
        rcases hcase with ⟨rfl, hscheduled, hshown₁⟩ | ⟨failure, rfl, hshown₁, hreason⟩
        · -- the job is given up, and the rest is swept on the ledger without it
          obtain ⟨hfollows₂, gone, left, rfl, hshown₂, hcrash, hremoved, hgone, hend⟩ :=
            ih hshown₁ hspares₁ h
          -- what is noted down as removed is the name
          have hlabel := Job.label_of_name? hname
          refine ⟨hfollows₁.trans hfollows₂, name :: gone, left, rfl, hshown₂, hcrash, ?_, ?_, ?_⟩
          · rw [hremoved, hlabel, List.append_assoc]
            rfl
          · intro other hmem
            rcases List.mem_cons.mp hmem with rfl | hrest
            · exact hscheduled
            · exact (Ledger.mem_scheduled_retire ledger |>.mp (hgone other hrest)).2
          · rcases hend with hend | ⟨hphase, next, rest, hleft, hreason⟩
            · exact .inl hend
            · refine .inr ⟨hphase, next, rest, hleft, fun hcalm _ => ?_⟩
              exact hreason (hfollows₁.calm hcalm)
                ((hfollows₁.isCancelled_eq hcalm).trans hcancelled)
        · -- the job could not be given up: the sweep ends here and leaves it with all that follow
          obtain ⟨hfollows₂, hshown₂, rfl⟩ :=
            stopAt_cases hserve hshown₁ hspares₁.log hrelease hname h
          refine ⟨hfollows₁.trans hfollows₂, [], name :: names, rfl, hshown₂, rfl,
            (List.append_nil _).symm, (fun _ hmem => nomatch hmem),
            .inr ⟨?_, name, names, rfl, fun hcalm _ => ⟨?_, ?_⟩⟩⟩
          · dsimp only
            split <;> exact fun hdone => nomatch hdone
          · dsimp only
            rw [(hfollows₁.isCancelled_eq hcalm).trans hcancelled, if_neg Bool.false_ne_true]
          · exact hreason hcalm.unschedule

end Cleanup

/-! ### Tasks -/

namespace Task

open World Cleanup

variable {app : String} {opened : Opened} {task after : Task} {world world' : World}
  {ledger : Ledger}

/-- The task retires jobs of the application, in the stores that are open. Each of them has a name,
without which a run would break off. -/
structure IsOf (app : String) (opened : Opened) (task : Task) : Prop where
  jobs : task.jobs = some opened.jobs
  events : task.cleanup.events = opened.policy.events
  release : Loggable task.cleanup.release
  stale : ∀ job ∈ task.cleanup.stale, ∃ name, job.name? = .ok name ∧ IsNameOf app name

/-- The task is to retire the name. It may have retired it already; the list is not shortened on the
way. -/
def Retires (task : Task) (given : String) : Prop :=
  ∃ job ∈ task.cleanup.stale, job.name? = .ok given

/-- A task of an application retires names of the application. -/
theorem IsOf.isNameOf_of_retires (h : task.IsOf app opened) {given : String}
    (hretires : task.Retires given) : IsNameOf app given := by
  obtain ⟨job, hjob, hname⟩ := hretires
  obtain ⟨given', hname', hof⟩ := h.stale job hjob
  rw [hname] at hname'
  rw [Except.ok.inj hname']
  exact hof

theorem IsOf.serve (h : task.IsOf app opened) : task.stores.Serve opened :=
  ⟨h.jobs, (fun _ hfile => nomatch hfile), h.events⟩

/-- The jobs of a task have names. -/
theorem IsOf.exists_names (h : task.IsOf app opened) :
    ∃ names, Job.NamesOf task.cleanup.stale names ∧ ∀ name ∈ names, IsNameOf app name := by
  have hstale := h.stale
  generalize task.cleanup.stale = jobs at hstale
  induction jobs with
  | nil => exact ⟨[], .nil, fun _ hmem => nomatch hmem⟩
  | cons job rest ih =>
    obtain ⟨name, hname, hof⟩ := hstale job List.mem_cons_self
    obtain ⟨names, hnames, hall⟩ := ih fun other hmem => hstale other (List.mem_cons_of_mem _ hmem)
    refine ⟨name :: names, .cons hname hnames, ?_⟩
    intro other hmem
    rcases List.mem_cons.mp hmem with rfl | hrest
    · exact hof
    · exact hall other hrest

/-- The same task: its cleanup and its stores never change. Only what has become of it does. -/
structure SameAs (after before : Task) : Prop where
  cleanup : after.cleanup = before.cleanup
  jobs : after.jobs = before.jobs

theorem SameAs.stores_eq (h : after.SameAs before) : after.stores = before.stores := by
  rw [stores, stores, h.jobs, h.cleanup]

/-- A task stays a task of its application. -/
theorem IsOf.of_sameAs (hof : task.IsOf app opened) (h : after.SameAs task) :
    after.IsOf app opened := by
  obtain ⟨hjobs, hevents, hrelease, hstale⟩ := hof
  constructor
  · rw [h.jobs]; exact hjobs
  · rw [h.cleanup]; exact hevents
  · rw [h.cleanup]; exact hrelease
  · rw [h.cleanup]; exact hstale

theorem shows_cancelled {cancelled : Option Bool} (h : world.Shows opened ledger) :
    ({ world with cancelled } : World).Shows opened ledger :=
  h.of_same rfl rfl rfl

theorem calm_cancelled {cancelled : Option Bool} (h : world.Calm) :
    ({ world with cancelled } : World).Calm := ⟨h.undisturbed, h.wait, h.unschedule⟩

/-- While a part of a task runs, the world knows of it, and afterwards it does not. -/
theorem follows_inWorld {cancelled : Bool} (hidle : world.cancelled = none)
    (h : ({ world with cancelled := some cancelled } : World).Follows world') :
    world.Follows { world' with cancelled := none } :=
  ⟨h.site, h.waitLimit, h.faults, by rw [hidle], fun _ => hidle.symm⟩

/-- A task with some progress ran to its end: it gave up the first ones of its names, which were
scheduled. If it was `calm`, it is done, or it failed at a name that is not scheduled. -/
structure Ran (calm : Prop) (ledger moved : Ledger) (names : List String) (progress : Progress)
    (after : Task) : Prop where
  finished : after.status = .finished
  gave : ∃ gone left, names = gone ++ left ∧ moved = ledger.retireAll gone ∧
    after.progress.removed = progress.removed ++ gone ∧
    (∀ name ∈ gone, name ∈ ledger.scheduled) ∧
    (calm → (left = [] ∧ after.progress.phase = .done ∧ after.progress.error = progress.error) ∨
      ∃ name rest, left = name :: rest ∧ after.progress.phase = .failed ∧ name ∉ moved.scheduled)

theorem Ran.moves {calm : Prop} {moved : Ledger} {names : List String} {progress : Progress}
    (h : Ran calm ledger moved names progress after) (hnames : ∀ name ∈ names, IsNameOf app name) :
    Ledger.Moves app ledger moved := by
  obtain ⟨gone, left, rfl, rfl, -⟩ := h.gave
  exact Ledger.moves_retireAll fun name hmem => hnames name (List.mem_append_left _ hmem)

/-- A task that ran gave up names that it was to retire. -/
theorem Ran.exists_gone {calm : Prop} {moved : Ledger} {names : List String} {progress : Progress}
    (h : Ran calm ledger moved names progress after)
    (hnames : Job.NamesOf task.cleanup.stale names) :
    ∃ gone, moved = ledger.retireAll gone ∧ ∀ given ∈ gone, task.Retires given := by
  obtain ⟨gone, left, rfl, rfl, -⟩ := h.gave
  exact ⟨gone, rfl, fun given hmem =>
    (Job.mem_names_iff hnames).mp (List.mem_append_left _ hmem)⟩

theorem Ran.imp {calm calm' : Prop} {moved : Ledger} {names : List String} {progress : Progress}
    (h : Ran calm ledger moved names progress after) (himp : calm' → calm) :
    Ran calm' ledger moved names progress after := by
  obtain ⟨hfinished, gone, left, hsplit, hmoved, hremoved, hgone, hend⟩ := h
  exact ⟨hfinished, gone, left, hsplit, hmoved, hremoved, hgone, fun hcalm => hend (himp hcalm)⟩

/-- **A calm task is done if all of its names are scheduled**, and it gives all of them up. -/
theorem Ran.done_of_scheduled {calm : Prop} {moved : Ledger} {names : List String}
    {progress : Progress} (h : Ran calm ledger moved names progress after) (hcalm : calm)
    (hdistinct : names.Nodup) (hscheduled : ∀ name ∈ names, name ∈ ledger.scheduled) :
    after.progress.phase = .done ∧ moved = ledger.retireAll names ∧
      after.progress.removed = progress.removed ++ names := by
  obtain ⟨gone, left, rfl, rfl, hremoved, -, hend⟩ := h.gave
  rcases hend hcalm with ⟨rfl, hphase, -⟩ | ⟨name, rest, rfl, -, habsent⟩
  · rw [List.append_nil]
    exact ⟨hphase, rfl, hremoved⟩
  · -- the next name was scheduled at the start and is not among those that were given up
    have hfresh : name ∉ gone := fun hmem =>
      (List.nodup_append.mp hdistinct).2.2 name hmem name List.mem_cons_self rfl
    have hmem := hscheduled name (List.mem_append_right _ List.mem_cons_self)
    exact absurd (Ledger.mem_scheduled_retireAll.mpr ⟨hfresh, hmem⟩) habsent

/-- A calm task that is done gave up all of its names, and they were scheduled. -/
theorem Ran.scheduled_of_done {calm : Prop} {moved : Ledger} {names : List String}
    {progress : Progress} (h : Ran calm ledger moved names progress after) (hcalm : calm)
    (hphase : after.progress.phase = .done) :
    moved = ledger.retireAll names ∧ ∀ name ∈ names, name ∈ ledger.scheduled := by
  obtain ⟨gone, left, rfl, rfl, -, hgone, hend⟩ := h.gave
  rcases hend hcalm with ⟨rfl, -, -⟩ | ⟨_, _, -, hfailed, -⟩
  · rw [List.append_nil]
    exact ⟨rfl, hgone⟩
  -- in calm a task that left a name behind has failed
  · rw [hphase] at hfailed
    cases hfailed

/-- **What a task does after its grace period**: it runs to its end. It is calm if the grace period
ended by itself and no cancellation and no fault disturbs it. -/
theorem proceed_cases {grace : Except Failure Bool} {names : List String}
    (hof : task.IsOf app opened)
    (hnames : Job.NamesOf task.cleanup.stale names) (hshows : world.Shows opened ledger)
    (hidle : world.cancelled = none) (hspares : world.SparesStores)
    (h : task.proceed grace world = (after, world')) :
    world.Follows world' ∧ world'.cancelled = none ∧ after.SameAs task ∧
      (world.Calm → grace = .ok false → task.cancelled = false → after.cancelled = false) ∧
      ∃ moved, world'.Shows opened moved ∧
        Ran (world.Calm ∧ grace = .ok false ∧ task.cancelled = false) ledger moved names
          task.progress after := by
  rw [proceed, inWorld] at h
  obtain ⟨rfl, rfl⟩ := Prod.mk.inj h
  generalize hrun : World.run task.stores (task.cleanup.afterGrace task.progress grace)
    { world with cancelled := some task.cancelled } = ended
  obtain ⟨outcome, last⟩ := ended
  have hshown : ({ world with cancelled := some task.cancelled } : World).Shows opened ledger :=
    shows_cancelled hshows
  -- within the task the world is as before, but for knowing of a cancellation
  have hspared : ({ world with cancelled := some task.cancelled } : World).SparesStores :=
    ⟨hspares.list, hspares.add, hspares.remove, hspares.log⟩
  match grace, hrun with
  | .error failure, hrun =>
    -- the wait failed, and nothing is retired
    obtain ⟨rfl, rfl⟩ := Prod.mk.inj hrun
    exact ⟨follows_inWorld hidle (.refl _), rfl, ⟨rfl, rfl⟩, (fun _ hgrace => nomatch hgrace),
      ledger, shows_cancelled hshown, rfl, [], names, rfl, rfl, (List.append_nil _).symm,
      (fun _ hmem => nomatch hmem), fun hcalm => nomatch hcalm.2.1⟩
  | .ok true, hrun =>
    -- the task was cancelled within its grace period
    obtain ⟨hfollows, hshown', rfl⟩ :=
      finish_cases hof.serve hshown hspared.log (hof.release _ _) hrun
    exact ⟨follows_inWorld hidle hfollows, rfl, ⟨rfl, rfl⟩, (fun _ hgrace => nomatch hgrace),
      ledger, shows_cancelled hshown', rfl, [], names, rfl, rfl, (List.append_nil _).symm,
      (fun _ hmem => nomatch hmem), fun hcalm => nomatch hcalm.2.1⟩
  | .ok false, hrun =>
    obtain ⟨hfollows, gone, left, rfl, hshown', hcrash, hremoved, hgone, hend⟩ :=
      sweep_cases hof.serve hshown hspared hof.release hnames hrun
    refine ⟨follows_inWorld hidle hfollows, rfl, ⟨rfl, rfl⟩, fun hcalm _ hfalse => ?_, _,
      shows_cancelled hshown', rfl, gone, left, rfl, rfl, hremoved, hgone, fun ⟨hcalm, _, hfalse⟩ =>
        ?_⟩
    · exact (hfollows.isCancelled_eq (calm_cancelled hcalm)).trans hfalse
    · rcases hend with hend | ⟨-, name, rest, hleft, hreason⟩
      · exact .inl hend
      · obtain ⟨hphase, habsent⟩ := hreason (calm_cancelled hcalm) hfalse
        exact .inr ⟨name, rest, hleft, hphase, habsent⟩

/-- Waiting for the end of the grace period changes nothing, and in calm it ends by itself if it can
be waited for at all. -/
theorem wait_cases {grace : Except Failure Bool} {delay : Binary64}
    (hshows : world.Shows opened ledger) (hidle : world.cancelled = none)
    (h : World.run task.stores (Call.ask (.wait delay))
      { world with cancelled := some task.cancelled } = (grace, world')) :
    world.Follows { world' with cancelled := none } ∧ world'.Shows opened ledger ∧
      (world.Calm → world.waitLimit.admits delay = true → task.cancelled = false →
        grace = .ok false ∧ world'.isCancelled = false) := by
  have hshown : ({ world with cancelled := some task.cancelled } : World).Shows opened ledger :=
    shows_cancelled hshows
  obtain ⟨hfollows, hshown', hwaited⟩ := answer_wait task.stores hshown h
  refine ⟨follows_inWorld hidle hfollows, hshown', fun hcalm hadmits hfalse => ⟨?_, ?_⟩⟩
  · rw [hwaited (calm_cancelled hcalm), WaitLimit.await_of_admits hadmits]
    exact congrArg _ hfalse
  · exact (hfollows.isCancelled_eq (calm_cancelled hcalm)).trans hfalse

/-- **What a task does when it is started**: it waits for its grace period, or runs at once. A grace
period beyond what can be waited for is the one thing that stops it in calm. -/
theorem start_cases {names : List String} (hof : task.IsOf app opened)
    (hnames : Job.NamesOf task.cleanup.stale names) (hshows : world.Shows opened ledger)
    (hidle : world.cancelled = none) (hspares : world.SparesStores)
    (h : task.start world = (after, world')) :
    world.Follows world' ∧ world'.cancelled = none ∧ after.SameAs task ∧
      (world.Calm → world.waitLimit.admits task.cleanup.grace = true → task.cancelled = false →
        after.cancelled = false) ∧
      ((after.status = .waiting ∧ after.progress = task.progress ∧ world'.Shows opened ledger) ∨
        ∃ moved, world'.Shows opened moved ∧
          Ran (world.Calm ∧ world.waitLimit.admits task.cleanup.grace = true ∧
            task.cancelled = false) ledger moved names task.progress after) := by
  by_cases hwaiting : task.status = .waiting
  · rw [start_of_waiting world hwaiting] at h
    obtain ⟨rfl, rfl⟩ := Prod.mk.inj h
    exact ⟨.refl _, hidle, ⟨rfl, rfl⟩, (fun _ _ hfalse => hfalse), .inl ⟨hwaiting, rfl, hshows⟩⟩
  · rw [start] at h
    split at h
    · next hstatus => exact absurd hstatus hwaiting
    dsimp only [inWorld] at h
    generalize hrun : World.run (Task.stores { task with crash := none })
      (Call.ask (.wait task.cleanup.grace)) { world with cancelled := some task.cancelled } = waited
        at h
    obtain ⟨grace, last⟩ := waited
    obtain ⟨hfollows', hshown', hcalmly⟩ := wait_cases hshows hidle hrun
    -- what is left of the start once the task goes on after the wait
    have hproceed (hrest :
        ({ task with crash := none, cancelled := last.isCancelled } : Task).proceed grace
          { last with cancelled := none } = (after, world')) :
        world.Follows world' ∧ world'.cancelled = none ∧ after.SameAs task ∧
          (world.Calm → world.waitLimit.admits task.cleanup.grace = true →
            task.cancelled = false → after.cancelled = false) ∧
          ∃ moved, world'.Shows opened moved ∧
            Ran (world.Calm ∧ world.waitLimit.admits task.cleanup.grace = true ∧
              task.cancelled = false) ledger moved names task.progress after := by
      have hof' : ({ task with
          crash := none, cancelled := last.isCancelled } : Task).IsOf app opened :=
        hof.of_sameAs ⟨rfl, rfl⟩
      obtain ⟨hfollows'', hidle', ⟨hcleanup, hjobs⟩, hcancelled, moved, hmoved, hran⟩ :=
        proceed_cases hof' hnames (shows_cancelled hshown') rfl (hfollows'.sparesStores hspares)
          hrest
      refine ⟨hfollows'.trans hfollows'', hidle', ⟨hcleanup, hjobs⟩, ?_, moved, hmoved, hran.imp ?_⟩
      · intro hcalm hadmits hfalse
        obtain ⟨hgrace, hfalse'⟩ := hcalmly hcalm hadmits hfalse
        exact hcancelled (hfollows'.calm hcalm) hgrace hfalse'
      · rintro ⟨hcalm, hadmits, hfalse⟩
        obtain ⟨hgrace, hfalse'⟩ := hcalmly hcalm hadmits hfalse
        exact ⟨hfollows'.calm hcalm, hgrace, hfalse'⟩
    split at h
    · next hgrace =>
      split at h
      · -- there is a grace period, and the task waits
        obtain ⟨rfl, rfl⟩ := Prod.mk.inj h
        exact ⟨hfollows', rfl, ⟨rfl, rfl⟩,
          (fun hcalm hadmits hfalse => (hcalmly hcalm hadmits hfalse).2),
          .inl ⟨rfl, rfl, shows_cancelled hshown'⟩⟩
      · -- there is no grace period
        obtain ⟨hfollows, hidle', hsame, hcancelled, hran⟩ := hproceed h
        exact ⟨hfollows, hidle', hsame, hcancelled, .inr hran⟩
    · -- the wait failed or was cut short
      obtain ⟨hfollows, hidle', hsame, hcancelled, hran⟩ := hproceed h
      exact ⟨hfollows, hidle', hsame, hcancelled, .inr hran⟩

/-- **What a task does when its grace period ends**: it runs, unless it was not waiting. -/
theorem elapse_cases {names : List String} (hof : task.IsOf app opened)
    (hnames : Job.NamesOf task.cleanup.stale names) (hshows : world.Shows opened ledger)
    (hidle : world.cancelled = none) (hspares : world.SparesStores)
    (h : task.elapse world = (after, world')) :
    (task.status ≠ .waiting ∧ after = task ∧ world' = world) ∨
      task.status = .waiting ∧ world.Follows world' ∧ world'.cancelled = none ∧ after.SameAs task ∧
        (world.Calm → task.cancelled = false → after.cancelled = false) ∧
        ∃ moved, world'.Shows opened moved ∧
          Ran (world.Calm ∧ task.cancelled = false) ledger moved names task.progress after := by
  rw [elapse] at h
  split at h
  · next hwaiting =>
    obtain ⟨hfollows, hidle', hsame, hcancelled, moved, hmoved, hran⟩ :=
      proceed_cases hof hnames hshows hidle hspares h
    exact .inr ⟨hwaiting, hfollows, hidle', hsame, fun hcalm => hcancelled hcalm rfl, moved, hmoved,
      hran.imp fun hcalm => ⟨hcalm.1, rfl, hcalm.2⟩⟩
  · next hstatus =>
    obtain ⟨rfl, rfl⟩ := Prod.mk.inj h
    exact .inl ⟨hstatus, rfl, rfl⟩

/-- **What a task does when it is cancelled**: it runs to its end, unless it was not waiting. -/
theorem cancel_cases {names : List String} (hof : task.IsOf app opened)
    (hnames : Job.NamesOf task.cleanup.stale names) (hshows : world.Shows opened ledger)
    (hidle : world.cancelled = none) (hspares : world.SparesStores)
    (h : task.cancel world = (after, world')) :
    after.SameAs task ∧ (world' = world ∨
      world.Follows world' ∧ world'.cancelled = none ∧ ∃ moved, world'.Shows opened moved ∧
        Ran False ledger moved names task.progress after) := by
  rw [cancel] at h
  dsimp only at h
  split at h
  · have hof' : ({ task with cancelled := true } : Task).IsOf app opened :=
      hof.of_sameAs ⟨rfl, rfl⟩
    obtain ⟨hfollows, hidle', ⟨hcleanup, hjobs⟩, -, moved, hmoved, hran⟩ :=
      proceed_cases hof' hnames hshows hidle hspares h
    exact ⟨⟨hcleanup, hjobs⟩, .inr ⟨hfollows, hidle', moved, hmoved, hran.imp False.elim⟩⟩
  · obtain ⟨rfl, rfl⟩ := Prod.mk.inj h
    exact ⟨⟨rfl, rfl⟩, .inl rfl⟩

end Task

end Rollout
