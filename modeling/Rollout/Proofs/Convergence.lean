import Rollout.Proofs.Histories

/-!
# Rollouts converge

Whatever was done to an application before, a rollout that comes to its end and whose cleanup runs
undisturbed leaves exactly the new generation: its names are scheduled and tracked, and no other
name of the application is. So the leftovers of rollouts that were aborted, of scaling that was
broken off and of cleanups that failed or were cancelled never have to be looked for: the next
rollout retires them.

Two facts make this true (`Ledger.hasExactly_retireAll`). Scheduler and store agree on the names of
the application at every time, so each tracked name can be taken from the scheduler when its turn
comes. And no job of the new generation has a name that was tracked before, so the cleanup takes
nothing away from it: nothing else but the store, which refuses a name that it tracks already, sees
to that.

One thing can still stand in the way, and no history brings it about: a grace period that is longer
than can be waited. Then the wait itself is refused, nothing handles the refusal, and the old
generation stays for good (`Session.not_always_converges`).
-/

namespace Rollout

/-- Of the names of the application, exactly those of the jobs are scheduled, and exactly those are
tracked. -/
structure HasExactly (app : String) (jobs : List Job) (scheduled tracked : List String) : Prop where
  scheduled : ∀ name, IsNameOf app name → (name ∈ scheduled ↔ ∃ job ∈ jobs, job.name? = .ok name)
  tracked : ∀ name, IsNameOf app name → (name ∈ tracked ↔ ∃ job ∈ jobs, job.name? = .ok name)

namespace Ledger

variable {app : String} {jobs : List Job} {ledger placed : Ledger}

/-- **Placing a generation and retiring what was tracked before leaves the generation alone.** -/
theorem hasExactly_retireAll (hsound : ledger.IsSound) (hagrees : ledger.Agrees app)
    (hplaced : Placed jobs ledger placed) (happ : ∀ job ∈ jobs, job.app = .text app) :
    HasExactly app jobs (placed.retireAll (ledger.trackedOf app)).scheduled
      (placed.retireAll (ledger.trackedOf app)).tracked := by
  have hmoves := hplaced.moves happ
  have hold : ∀ name ∈ ledger.trackedOf app, IsNameOf app name :=
    fun name hmem => (hsound.mem_trackedOf.mp hmem).1
  have htracked : ∀ name, IsNameOf app name →
      (name ∈ (placed.retireAll (ledger.trackedOf app)).tracked ↔
        ∃ job ∈ jobs, job.name? = .ok name) := by
    intro name hname
    obtain ⟨hiff, hnew⟩ := @Placed.mem_tracked _ _ _ hplaced (isSound_of_moves hmoves hsound) name
    -- what was tracked before goes, and no job has such a name
    rw [mem_tracked_retireAll, hsound.mem_trackedOf, hiff]
    constructor
    · rintro ⟨hgone, hbefore | hjob⟩
      · exact absurd ⟨hname, hbefore⟩ hgone
      · exact hjob
    · exact fun hjob => ⟨fun hgone => hnew hjob hgone.2, .inr hjob⟩
  have hagrees' := agrees_of_moves (hmoves.trans (moves_retireAll hold)) hagrees
  exact ⟨fun name hname => (hagrees' name hname).trans (htracked name hname), htracked⟩

/-- All names that were tracked are scheduled once a generation is placed beside them. -/
theorem scheduled_of_mem_trackedOf (hsound : ledger.IsSound) (hagrees : ledger.Agrees app)
    (hplaced : Placed jobs ledger placed) {name : String} (hmem : name ∈ ledger.trackedOf app) :
    name ∈ placed.scheduled := by
  obtain ⟨hname, htracked⟩ := hsound.mem_trackedOf.mp hmem
  obtain ⟨names, -, -, hscheduled⟩ := hplaced.exists_names
  exact (hscheduled name).mpr (.inr ((hagrees name hname).mpr htracked))

end Ledger

namespace Session

variable {app : String} {opened : Opened} {session rolled : Session} {ledger : Ledger}
  {blueprint : Blueprint} {name : Value}

/-- A task that ran undisturbed after its rollout is done, and has left the new generation alone. -/
theorem RolledOut.hasExactly_of_ran {formation : Formation} {calm calm' : Prop}
    {placed moved last : Ledger} {task ended : Task} {progress : Progress}
    (h : RolledOut app blueprint formation calm ledger placed moved task)
    (hblueprint : blueprint.IsTyped app) (hformation : formation.IsTyped) (hsound : ledger.IsSound)
    (hagrees : ledger.Agrees app) (hcalm : calm')
    (hran : Task.Ran calm' placed last (ledger.trackedOf app) progress ended) :
    ended.progress.phase = .done ∧
      ended.progress.removed = progress.removed ++ ledger.trackedOf app ∧
      ∃ jobs, blueprint.jobs formation = .ok jobs ∧
        HasExactly app jobs last.scheduled last.tracked := by
  obtain ⟨jobs, hjobs, hplaced⟩ := h.jobs
  obtain ⟨hphase, rfl, hremoved⟩ := hran.done_of_scheduled hcalm (hsound.nodup_trackedOf app)
    fun name hmem => Ledger.scheduled_of_mem_trackedOf hsound hagrees hplaced hmem
  refine ⟨hphase, hremoved, jobs, hjobs, Ledger.hasExactly_retireAll hsound hagrees hplaced ?_⟩
  exact fun job hmem => (Blueprint.isStorable_of_mem_jobs hblueprint hformation hjobs hmem).2

/-- The cleanup of a rollout has run at the latest when its grace period has ended, and it ran on
the ledger on which the generation was placed. -/
theorem RolledOut.elapse {formation : Formation} {calm : Prop} {placed moved : Ledger} {task : Task}
    {number : Nat} (h : RolledOut app blueprint formation calm ledger placed moved task)
    (hcalm : calm)
    (horder : rolled.InOrder app opened moved) (htask : rolled.tasks[number]? = some task)
    (hworld : rolled.world.Calm) :
    ∃ last ended, (rolled.afterDeed (.elapse number)).InOrder app opened last ∧
      (rolled.afterDeed (.elapse number)).tasks[number]? = some ended ∧
      Task.Ran True placed last (ledger.trackedOf app) .initial ended := by
  cases helapse : rolled.perform (Step.onTask number Task.elapse) with
  | mk answer after =>
    have hafter : rolled.afterDeed (.elapse number) = after := congrArg (·.2) helapse
    rw [hafter]
    obtain ⟨-, hcase⟩ := perform_elapse_cases horder helapse
    rcases h.begun with ⟨hwaiting, hprogress, rfl⟩ | hran
    · -- the task waited until now, and now runs
      rcases hcase with ⟨-, hidle⟩ | ⟨other, ended, names, last, hother, -, hended, -, hnames, -, -,
          horder', -, -, hran⟩
      · exact absurd hwaiting (hidle task htask)
      · rw [htask] at hother
        obtain rfl := Option.some.inj hother
        obtain rfl := Job.names_unique hnames h.stale
        rw [hprogress] at hran
        have hlength := (List.getElem?_eq_some_iff.mp htask).1
        refine ⟨last, ended, horder', ?_, hran.imp fun _ => ⟨hworld, h.undisturbed hcalm⟩⟩
        rw [hended, List.getElem?_set_self hlength]
    · -- without a grace period the task has run already
      rcases hcase with ⟨rfl, -⟩ | ⟨other, -, -, -, hother, hwaiting, -⟩
      · exact ⟨moved, task, horder, htask, hran.imp fun _ => hcalm⟩
      · rw [htask] at hother
        obtain rfl := Option.some.inj hother
        rw [hran.finished] at hwaiting
        cases hwaiting

/-- **Rollouts converge.** After any legal history of a session in order, with rejections and
cancellations anywhere, let a rollout return the number of its task, let no fault disturb that task,
and let its grace period be one that can be waited for. Then its cleanup is done and has removed all
names of the application that were tracked before, and the names that are scheduled and those that
are tracked are exactly the names of the jobs of this rollout. -/
theorem rollout_converges (hstart : session.InOrder app opened ledger) {history : List Deed}
    (hlegal : ∀ deed ∈ history, deed.IsLegal app) (hblueprint : blueprint.IsTyped app)
    {number : Nat} (hcalm : (session.follow history).world.Calm)
    (hgrace : opened.policy.hasGraceWithin (session.follow history).world.waitLimit = true)
    (hrolled : (session.follow history).perform (Step.rollOut blueprint name) =
      (.ok number, rolled)) :
    ∃ formation jobs task, (session.follow history).formation? name = some formation ∧
      blueprint.jobs formation = .ok jobs ∧
      (rolled.afterDeed (.elapse number)).tasks[number]? = some task ∧ task.progress.phase = .done ∧
      (∀ given, given ∈ task.progress.removed ↔
        IsNameOf app given ∧ given ∈ (session.follow history).tracked) ∧
      HasExactly app jobs (rolled.afterDeed (.elapse number)).world.scheduled
        (rolled.afterDeed (.elapse number)).tracked := by
  obtain ⟨before, hbefore, -⟩ := hstart.follow hlegal
  obtain ⟨moved, horder, -, hfollows, -, hcase⟩ := perform_rollOut_cases hbefore hblueprint hrolled
  rcases hcase with ⟨_, hfailure, -⟩ | ⟨formation, placed, task, hnumber, hformation, htasks, hout⟩
  · cases hfailure
  obtain rfl := Except.ok.inj hnumber
  have htask : rolled.tasks[(session.follow history).tasks.length]? = some task := by
    rw [htasks]
    exact List.getElem?_concat_length
  -- nothing of the history matters but that it left the session in order
  obtain ⟨last, ended, horder', hended, hran⟩ :=
    hout.elapse ⟨hcalm, hgrace⟩ horder htask (hfollows.calm hcalm)
  obtain ⟨hphase, hremoved, jobs, hjobs, hexact⟩ := hout.hasExactly_of_ran hblueprint
    (hbefore.isTyped_formation hformation) hbefore.sound hbefore.agrees trivial hran
  rw [hbefore.tracked_eq, horder'.scheduled_eq, horder'.tracked_eq]
  refine ⟨formation, jobs, ended, hformation, hjobs, hended, hphase, fun given => ?_, hexact⟩
  rw [hremoved]
  exact hbefore.sound.mem_trackedOf

/-- A history in which scaling is broken off, a rollout is aborted, and a cleanup is cancelled. -/
def troubled : List Deed :=
  [.define (.text "formation") (.web 2), .release (.web 1) (.text "formation"),
    .arm [.rejecting .schedule "web.1.web.4"],
    .scale (.web 1) [(.text "web", .int 5)] (.text "formation"),
    .arm [.rejecting .schedule "web.2.web.2"], .release (.web 2) (.text "formation"), .cancel 0,
    .arm []]

/-- Such a history is legal. -/
theorem troubled_isLegal : ∀ deed ∈ troubled, deed.IsLegal "web" := by
  have hfits : World.FitQuantities [(.text "web", .int 5)] := by
    intro request hrequest
    obtain rfl : [("web", 5)] = request := Except.ok.inj hrequest
    intro entry hmem
    rw [List.mem_singleton.mp hmem]
    decide +kernel
  -- rejections are armed for the scheduler only
  have hspared (name : String) : (Deed.arm [.rejecting .schedule name]).IsLegal "web" :=
    Deed.isLegal_rejecting (by decide) name "web"
  rw [troubled]
  simp only [List.forall_mem_cons]
  exact ⟨Formation.isTyped_web (by decide +kernel), Blueprint.isTyped_web (by decide +kernel),
    hspared _, ⟨Blueprint.isTyped_web (by decide +kernel), hfits⟩, hspared _,
    Blueprint.isTyped_web (by decide +kernel), trivial, (fun _ hmem => nomatch hmem),
    fun _ hmem => nomatch hmem⟩

/-- The session in which a third release was rolled out after that. -/
def recovering : Session :=
  ((fresh.follow troubled).perform (Step.rollOut (.web 3) (.text "formation"))).2

/-- After such a history the next rollout converges: the instances that two broken-off operations
and a cancelled cleanup left behind are all removed. -/
theorem rollout_converges_after_trouble :
    ∃ formation jobs task, (fresh.follow troubled).formation? (.text "formation") = some formation ∧
      (Blueprint.web 3).jobs formation = .ok jobs ∧
      (recovering.afterDeed (.elapse 1)).tasks[1]? = some task ∧ task.progress.phase = .done ∧
      (∀ given, given ∈ task.progress.removed ↔
        IsNameOf "web" given ∧ given ∈ (fresh.follow troubled).tracked) ∧
      HasExactly "web" jobs (recovering.afterDeed (.elapse 1)).world.scheduled
        (recovering.afterDeed (.elapse 1)).tracked :=
  rollout_converges (fresh_inOrder "web") troubled_isLegal
    (Blueprint.isTyped_web (by decide +kernel)) (World.calm_of_no_faults (by decide +kernel))
    (by decide +kernel) (perform_eq_of_toOption (by decide +kernel))

/-- The stores of a fresh session, with cleanups that are to wait for ever. -/
def endlesslyOpened : Opened :=
  { freshlyOpened with policy := { freshlyOpened.policy with grace := .real (.infinite false) } }

/-- A fresh session whose cleanups are to wait for ever. -/
def endless : Session := { fresh with opened := some endlesslyOpened }

/-- Such a session is in order like any other: what is waited for shows only when it is waited. -/
theorem endless_inOrder (app : String) : endless.InOrder app endlesslyOpened ⟨[], [], []⟩ := by
  obtain ⟨-, ⟨hmemory, htime, hjobs, hprocesses, hevents⟩, hidle, hspares, hsound, hagrees,
    hformations, -⟩ := fresh_inOrder app
  exact ⟨rfl, ⟨hmemory, htime, hjobs, hprocesses, hevents⟩, hidle, hspares, hsound, hagrees,
    hformations, fun _ hmem => nomatch hmem⟩

/-- The first rollout is aborted after its first job, so that no task comes of it. -/
def interrupted : List Deed :=
  [.define (.text "formation") (.web 2), .arm [.rejecting .schedule "web.1.web.2"],
    .release (.web 1) (.text "formation"), .arm []]

/-- The second rollout of such a session. -/
def stuck : Session :=
  ((endless.follow interrupted).perform (Step.rollOut (.web 2) (.text "formation"))).2

/-- **Rollouts do not converge where the grace period cannot be waited for.** After an aborted
rollout, which left one job and no task behind, the second rollout returns its task. No fault lies
in wait and nothing is cancelled, but the wait for the grace period is refused: the task breaks off,
it is pending for good, and what the first rollout left stays scheduled and tracked. -/
theorem not_always_converges :
    endless.InOrder "web" endlesslyOpened ⟨[], [], []⟩ ∧
      (∀ deed ∈ interrupted, deed.IsLegal "web") ∧ (Blueprint.web 2).IsTyped "web" ∧
      (endless.follow interrupted).world.faults = [] ∧
      (endless.follow interrupted).tasks.length = 0 ∧
      ((endless.follow interrupted).perform
        (Step.rollOut (.web 2) (.text "formation"))).1.toOption = some 0 ∧
      (stuck.afterDeed (.elapse 0)).tasks.map (fun task =>
          (task.progress.phase, task.isFinished, task.crash.map Failure.kind)) =
        [(.pending, true, some .overflow)] ∧
      (stuck.afterDeed (.elapse 0)).world.scheduled =
        ["web.1.web.1", "web.2.web.1", "web.2.web.2"] ∧
      (stuck.afterDeed (.elapse 0)).tracked = ["web.1.web.1", "web.2.web.1", "web.2.web.2"] := by
  refine ⟨endless_inOrder "web", ?_, Blueprint.isTyped_web (by decide +kernel),
    by decide +kernel, by decide +kernel, by decide +kernel, by decide +kernel,
    by decide +kernel, by decide +kernel⟩
  rw [interrupted]
  simp only [List.forall_mem_cons]
  exact ⟨Formation.isTyped_web (by decide +kernel),
    Deed.isLegal_rejecting (by decide) "web.1.web.2" "web",
    Blueprint.isTyped_web (by decide +kernel), (fun _ hmem => nomatch hmem),
    fun _ hmem => nomatch hmem⟩

end Session

end Rollout
