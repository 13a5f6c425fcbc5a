import Rollout.Proofs.Convergence

/-!
# Rollouts that overlap

A cleanup has the names that were tracked when its release was rolled out. If another release is
rolled out while it still waits, the new cleanup has these names as well, and whichever of the two
runs second meets a name that is gone and fails. So old generations are retired reliably by rollouts
that do not overlap, and only by those: `Session.all_retired_iff` makes this exact.

`Session.NeverOverlaps history` says that at each rollout of the history, every task that has not
finished yet has nothing to retire. Two invariants carry the proof, both along histories in which
every deed succeeds and nothing disturbs the tasks:

* `Session.Tidy` holds as long as no rollouts overlap: every task that has finished is done, and the
  tracked names are those of the last generation and those that the last task is still to retire;
* `Session.Doomed` holds as soon as two have overlapped: a task has failed, or a task waits whose
  name is gone, or two tasks wait for the same name. It is never lost, since the versions only grow
  and an old name is therefore never placed again.
-/

namespace Rollout

/-! ### Versions of a history -/

/-- The version that a deed rolls out. -/
def Deed.version? : Deed → Option Int
  | .release blueprint _ =>
    match blueprint.release.version with
    | .int version => some version
    | _ => none
  | _ => none

/-- The versions that a history rolls out. -/
def versions (history : List Deed) : List Int := history.filterMap Deed.version?

/-- The name is one of a version before all that the history rolls out. Nothing in the history
places it again. -/
def IsOld (app : String) (history : List Deed) (given : String) : Prop :=
  ∃ older, IsVersionOf app older given ∧ ∀ version ∈ versions history, older < version

/-- What is old for a history is old for the rest of it. -/
theorem IsOld.rest {app given : String} {deed : Deed} {rest : List Deed}
    (h : IsOld app (deed :: rest) given) : IsOld app rest given := by
  obtain ⟨older, hversion, hall⟩ := h
  refine ⟨older, hversion, fun version hmem => hall version ?_⟩
  rw [versions, List.filterMap_cons]
  split
  · exact hmem
  · exact List.mem_cons_of_mem _ hmem

/-! ### Deeds that succeed -/

/-- The deed is a typed definition or release, or the end of a grace period. -/
def Deed.IsQuiet (app : String) : Deed → Prop
  | define _ formation => formation.IsTyped
  | release blueprint _ => blueprint.IsTyped app
  | elapse _ => True
  | scale _ _ _ | start _ | cancel _ | arm _ => False

namespace Session

/-- Every deed of the history succeeds. -/
def Succeeds : List Deed → Session → Prop
  | [], _ => True
  | deed :: rest, session =>
    (session.perform deed.step).1.isOk = true ∧ Succeeds rest (session.afterDeed deed)

/-- Whenever a release is rolled out, tasks that have not finished have nothing to retire. -/
def NeverOverlaps : List Deed → Session → Prop
  | [], _ => True
  | deed :: rest, session =>
    (deed.version?.isSome = true → ∀ task ∈ session.tasks, task.isFinished = false →
      task.cleanup.stale = []) ∧ NeverOverlaps rest (session.afterDeed deed)

/-- Whether every deed succeeds can be tried out. -/
instance decidableSucceeds : (history : List Deed) → (session : Session) →
    Decidable (session.Succeeds history)
  | [], _ => .isTrue trivial
  | deed :: rest, session =>
    have := decidableSucceeds rest (session.afterDeed deed)
    inferInstanceAs (Decidable (_ ∧ _))

/-- Whether rollouts overlap can be tried out. -/
instance decidableNeverOverlaps : (history : List Deed) → (session : Session) →
    Decidable (session.NeverOverlaps history)
  | [], _ => .isTrue trivial
  | deed :: rest, session =>
    have := decidableNeverOverlaps rest (session.afterDeed deed)
    inferInstanceAs (Decidable (_ ∧ _))

/-- The jobs that a deed rolls out. -/
def jobsOf? (session : Session) : Deed → Option (List Job)
  | .release blueprint name => do (blueprint.jobs (← session.formation? name)).toOption
  | _ => none

/-- The jobs of the last release of the history, or the given ones if there is none. -/
def generation (jobs : List Job) : List Deed → Session → List Job
  | [], _ => jobs
  | deed :: rest, session =>
    generation ((session.jobsOf? deed).getD jobs) rest (session.afterDeed deed)

variable {app : String} {opened : Opened} {session after : Session} {ledger moved : Ledger}
  {deed : Deed} {rest : List Deed}

/-- A session in order that nothing disturbs: there are no faults, the grace period can be waited
for, every task waits or has finished, and the names that are tracked or to be retired are older
than what is still to come. -/
structure Quiet (app : String) (opened : Opened) (history : List Deed) (session : Session)
    (ledger : Ledger) : Prop extends InOrder app opened session ledger where
  faultless : session.world.faults = []
  patient : opened.policy.hasGraceWithin session.world.waitLimit = true
  begun : ∀ task ∈ session.tasks, task.status = .waiting ∨ task.status = .finished
  undisturbed : ∀ task ∈ session.tasks, task.cancelled = false
  tracked : ∀ given ∈ ledger.tracked, IsOld app history given
  stale : ∀ task ∈ session.tasks, ∀ given, task.Retires given → IsOld app history given

/-- What a quiet deed that succeeds does to the tasks and to the ledger. The two invariants of this
module are kept case by case, so a deed is looked into only once. -/
inductive Turn (app : String) (session : Session) (ledger : Ledger) (deed : Deed) (after : Session)
    (moved : Ledger) : Prop where
  /-- Nothing. -/
  | kept (hversion : deed.version? = none) (htasks : after.tasks = session.tasks)
      (hmoved : moved = ledger)
  /-- A release is rolled out. -/
  | released {blueprint : Blueprint} {name : Value} {formation : Formation} {placed : Ledger}
      {task : Task} (hdeed : deed = .release blueprint name) (hblueprint : blueprint.IsTyped app)
      (hformation : session.formation? name = some formation) (htyped : formation.IsTyped)
      (htasks : after.tasks = session.tasks ++ [task])
      (hout : RolledOut app blueprint formation True ledger placed moved task)
  /-- A task runs. -/
  | ran {number : Nat} {task ended : Task} {names : List String} (hversion : deed.version? = none)
      (htask : session.tasks[number]? = some task) (hwaiting : task.status = .waiting)
      (htasks : after.tasks = session.tasks.set number ended)
      (hcleanup : ended.cleanup = task.cleanup) (hnames : Job.NamesOf task.cleanup.stale names)
      (hran : Task.Ran True ledger moved names task.progress ended)

theorem exists_version {blueprint : Blueprint} (hblueprint : blueprint.IsTyped app) (name : Value) :
    ∃ version, blueprint.release.version = .int version ∧
      (Deed.release blueprint name).version? = some version := by
  obtain ⟨version, hversion, -⟩ := hblueprint.version
  refine ⟨version, hversion, ?_⟩
  rw [Deed.version?, hversion]

/-- What a rollout leaves tracked was tracked before, or is a name of its version. -/
theorem RolledOut.mem_tracked {blueprint : Blueprint} {formation : Formation} {calm : Prop}
    {placed : Ledger} {task : Task} {version : Int} {given : String}
    (hout : RolledOut app blueprint formation calm ledger placed moved task)
    (hblueprint : blueprint.IsTyped app) (htyped : formation.IsTyped) (hsound : ledger.IsSound)
    (hversion : blueprint.release.version = .int version) (hmem : given ∈ moved.tracked) :
    given ∈ ledger.tracked ∨ IsVersionOf app version given := by
  obtain ⟨jobs, gone, hjobs, hplaced, rfl, -⟩ := hout.exists_gone
  have happ : ∀ job ∈ jobs, job.app = .text app := fun job hmem =>
    (Blueprint.isStorable_of_mem_jobs hblueprint htyped hjobs hmem).2
  have hplacedSound := Ledger.isSound_of_moves (hplaced.moves happ) hsound
  -- what is tracked now was tracked when all jobs were placed
  have hbefore := (Ledger.mem_tracked_retireAll.mp hmem).2
  refine ((hplaced.mem_tracked hplacedSound).1.mp hbefore).imp_right ?_
  rintro ⟨job, hjob, hname⟩
  rw [Job.name?, happ job hjob, Blueprint.version_of_mem_jobs hjobs hjob, hversion] at hname
  exact ⟨_, _, hname⟩

/-- What is known of a rollout in calm is known where there is calm. -/
theorem RolledOut.imp {blueprint : Blueprint} {formation : Formation} {calm calm' : Prop}
    {placed : Ledger} {task : Task} (hcalm : calm' → calm)
    (h : RolledOut app blueprint formation calm ledger placed moved task) :
    RolledOut app blueprint formation calm' ledger placed moved task := by
  obtain ⟨hjobs, hstale, hundisturbed, hbegun⟩ := h
  exact ⟨hjobs, hstale, fun h => hundisturbed (hcalm h),
    hbegun.imp_right fun hran => hran.imp hcalm⟩

namespace Quiet

theorem tail (h : session.Quiet app opened (deed :: rest) ledger) :
    session.Quiet app opened rest ledger :=
  ⟨h.toInOrder, h.faultless, h.patient, h.begun, h.undisturbed,
    fun given hmem => (h.tracked given hmem).rest,
    fun task hmem given hgiven => (h.stale task hmem given hgiven).rest⟩

/-- A task that runs undisturbed leaves the session quiet. -/
theorem ran (h : session.Quiet app opened rest ledger) {number : Nat} {task ended : Task}
    {names : List String} (horder : after.InOrder app opened moved)
    (hfollows : session.world.Follows after.world) (htask : session.tasks[number]? = some task)
    (htasks : after.tasks = session.tasks.set number ended)
    (hcleanup : ended.cleanup = task.cleanup) (hcancelled : ended.cancelled = false)
    (hran : Task.Ran True ledger moved names task.progress ended) :
    after.Quiet app opened rest moved := by
  -- tasks of afterwards are those from before, but for the one that ran
  have hset {other : Task} (hother : other ∈ after.tasks) :
      other ∈ session.tasks ∨ other = ended := by
    rw [htasks] at hother
    exact List.mem_or_eq_of_mem_set hother
  refine ⟨horder, hfollows.faults_eq_nil h.faultless, hfollows.waitLimit ▸ h.patient, ?_, ?_, ?_,
    ?_⟩
  · intro other hother
    rcases hset hother with hold | rfl
    · exact h.begun other hold
    · exact .inr hran.finished
  · intro other hother
    rcases hset hother with hold | rfl
    · exact h.undisturbed other hold
    · exact hcancelled
  · -- a run only gives names up
    intro given hgiven
    obtain ⟨gone, left, -, rfl, -⟩ := hran.gave
    exact h.tracked given (Ledger.mem_tracked_retireAll.mp hgiven).2
  · intro other hother given hgiven
    rcases hset hother with hold | rfl
    · exact h.stale other hold given hgiven
    · rw [Task.Retires, hcleanup] at hgiven
      exact h.stale task (List.mem_of_getElem? htask) given hgiven

/-- A rollout of a version before all that are still to come leaves the session quiet. -/
theorem released (h : session.Quiet app opened rest ledger) {blueprint : Blueprint}
    {formation : Formation} {placed : Ledger} {task : Task} {version : Int}
    (horder : after.InOrder app opened moved) (hfollows : session.world.Follows after.world)
    (hblueprint : blueprint.IsTyped app) (htyped : formation.IsTyped)
    (hversion : blueprint.release.version = .int version)
    (hlater : ∀ other ∈ versions rest, version < other)
    (htasks : after.tasks = session.tasks ++ [task])
    (hout : RolledOut app blueprint formation True ledger placed moved task) :
    after.Quiet app opened rest moved := by
  have hset {other : Task} (hother : other ∈ after.tasks) :
      other ∈ session.tasks ∨ other = task := by
    rw [htasks] at hother
    exact (List.mem_append.mp hother).imp_right List.mem_singleton.mp
  refine ⟨horder, hfollows.faults_eq_nil h.faultless, hfollows.waitLimit ▸ h.patient, ?_, ?_, ?_,
    ?_⟩
  · intro other hother
    rcases hset hother with hold | rfl
    · exact h.begun other hold
    · exact hout.begun.imp (fun hwaits => hwaits.1) (fun hran => hran.finished)
  · intro other hother
    rcases hset hother with hold | rfl
    · exact h.undisturbed other hold
    · exact hout.undisturbed trivial
  · -- what is new is of the version, and the version is old for the rest
    intro given hgiven
    rcases hout.mem_tracked hblueprint htyped h.sound hversion hgiven with hold | hnew
    · exact h.tracked given hold
    · exact ⟨version, hnew, hlater⟩
  · -- the new task retires what was tracked, and that was old already
    intro other hother given hgiven
    rcases hset hother with hold | rfl
    · exact h.stale other hold given hgiven
    · have hmem := (Job.mem_names_iff hout.stale).mpr hgiven
      exact h.tracked given (h.sound.mem_trackedOf.mp hmem).2

/-- The end of a grace period is a turn. -/
theorem elapse (h : session.Quiet app opened rest ledger) (number : Nat) :
    ∃ moved, (session.afterDeed (.elapse number)).Quiet app opened rest moved ∧
      session.Turn app ledger (.elapse number) (session.afterDeed (.elapse number)) moved := by
  have hcalm := World.calm_of_no_faults h.faultless
  cases hrun : session.perform (Step.onTask number Task.elapse) with
  | mk answer last =>
    have hlast : session.afterDeed (.elapse number) = last := congrArg (·.2) hrun
    rw [hlast]
    obtain ⟨-, hcase⟩ := perform_elapse_cases h.toInOrder hrun
    rcases hcase with ⟨rfl, -⟩ | ⟨task, ended, names, moved, htask, hwaiting, htasks, hsame, hnames,
        -, -, horder, hfollows, hcancelled, hran⟩
    · exact ⟨ledger, h, .kept rfl rfl rfl⟩
    -- there are no faults and the task was not cancelled, so it ran in calm
    · have hundisturbed := h.undisturbed task (List.mem_of_getElem? htask)
      have hran' : Task.Ran True ledger moved names task.progress ended :=
        hran.imp fun _ => ⟨hcalm, hundisturbed⟩
      exact ⟨moved, h.ran horder hfollows htask htasks hsame.cleanup (hcancelled hcalm hundisturbed)
        hran', .ran rfl htask hwaiting htasks hsame.cleanup hnames hran'⟩

/-- A rollout that succeeds is a turn. -/
theorem release {blueprint : Blueprint} {name : Value}
    (h : session.Quiet app opened (.release blueprint name :: rest) ledger)
    (hblueprint : blueprint.IsTyped app)
    (hincreasing : (versions (.release blueprint name :: rest)).Pairwise (· < ·))
    (hok : (session.perform (Deed.release blueprint name).step).1.isOk = true) :
    ∃ moved, (session.afterDeed (.release blueprint name)).Quiet app opened rest moved ∧
      session.Turn app ledger (.release blueprint name)
        (session.afterDeed (.release blueprint name)) moved := by
  cases hrun : session.perform (Step.rollOut blueprint name) with
  | mk result last =>
    obtain ⟨moved, horder, -, hfollows, -, hcase⟩ := perform_rollOut_cases h.toInOrder hblueprint
      hrun
    rw [perform_release, hrun] at hok
    rw [afterDeed_release, hrun]
    rcases hcase with ⟨failure, rfl, -⟩ | ⟨formation, placed, task, rfl, hformation, htasks, hout⟩
    · cases hok
    · have hout' : RolledOut app blueprint formation True ledger placed moved task :=
        hout.imp fun _ => ⟨World.calm_of_no_faults h.faultless, h.patient⟩
      have htyped := h.toInOrder.isTyped_formation hformation
      obtain ⟨version, hversion, hsome⟩ := exists_version hblueprint name
      -- this version is the first of those that are to come, so it is before all others
      have hlater : ∀ other ∈ versions rest, version < other := by
        rw [versions, List.filterMap_cons_some hsome] at hincreasing
        exact (List.pairwise_cons.mp hincreasing).1
      exact ⟨moved, h.tail.released horder hfollows hblueprint htyped hversion hlater htasks hout',
        .released rfl hblueprint hformation htyped htasks hout'⟩

/-- **A quiet deed that succeeds is a turn**, and the session stays quiet. -/
theorem turn (h : session.Quiet app opened (deed :: rest) ledger) (hdeed : deed.IsQuiet app)
    (hincreasing : (versions (deed :: rest)).Pairwise (· < ·))
    (hok : (session.perform deed.step).1.isOk = true) :
    ∃ moved, (session.afterDeed deed).Quiet app opened rest moved ∧
      session.Turn app ledger deed (session.afterDeed deed) moved := by
  cases deed with
  | scale | start | cancel | arm => exact hdeed.elim
  | define name formation =>
    have htail := h.tail
    exact ⟨ledger, ⟨h.toInOrder.keepFormation name hdeed, htail.faultless, htail.patient,
      htail.begun, htail.undisturbed, htail.tracked, htail.stale⟩, .kept rfl rfl rfl⟩
  | elapse number => exact h.tail.elapse number
  | release blueprint name => exact h.release hdeed hincreasing hok

end Quiet

/-! ### Without overlaps -/

/-- Nothing is left over: tasks that have finished are done, a task that waits is the last one or
has nothing to retire, and what is tracked are the jobs and what is still to be retired. -/
structure Tidy (app : String) (jobs : List Job) (session : Session) (ledger : Ledger) : Prop where
  done : ∀ task ∈ session.tasks, task.status = .finished → task.progress.phase = .done
  distinct : ∀ task ∈ session.tasks, ∀ names, Job.NamesOf task.cleanup.stale names → names.Nodup
  last : ∀ number task, session.tasks[number]? = some task → task.status = .waiting →
    number + 1 = session.tasks.length ∨ task.cleanup.stale = []
  tracked : ∀ given, IsNameOf app given → (given ∈ ledger.tracked ↔
    (∃ job ∈ jobs, job.name? = .ok given) ∨
      ∃ task ∈ session.tasks, task.status = .waiting ∧ task.Retires given)
  apart : ∀ task ∈ session.tasks, task.status = .waiting → ∀ given, task.Retires given →
    ¬∃ job ∈ jobs, job.name? = .ok given

theorem Tidy.of_tasks_eq {jobs : List Job} (h : session.Tidy app jobs ledger)
    (htasks : after.tasks = session.tasks) : after.Tidy app jobs ledger := by
  obtain ⟨hdone, hdistinct, hlast, htracked, hapart⟩ := h
  constructor <;> rw [htasks] <;> assumption

theorem not_retires_of_stale_eq_nil {task : Task} (h : task.cleanup.stale = []) (given : String) :
    ¬task.Retires given := by
  rintro ⟨job, hmem, -⟩
  rw [h] at hmem
  cases hmem

/-- A task that still waits after another one has run is one from before, at another place. -/
theorem getElem?_of_waiting {number place : Nat} {ended other : Task}
    (htasks : after.tasks = session.tasks.set number ended) (hfinished : ended.status = .finished)
    (hother : after.tasks[place]? = some other) (hwaiting : other.status = .waiting) :
    place ≠ number ∧ session.tasks[place]? = some other := by
  rw [htasks] at hother
  by_cases heq : place = number
  · subst heq
    obtain ⟨hlt, -⟩ := List.getElem?_eq_some_iff.mp hother
    rw [List.length_set] at hlt
    rw [List.getElem?_set_self hlt] at hother
    rw [← Option.some.inj hother, hfinished] at hwaiting
    cases hwaiting
  · rw [List.getElem?_set_ne (Ne.symm heq)] at hother
    exact ⟨heq, hother⟩

namespace Tidy

variable {jobs fresh : List Job}

/-- A generation is placed while no task has anything to retire, and a task waits to retire what was
tracked before: nothing is left over. -/
theorem enqueued {placed : Ledger} {task : Task} (h : session.Tidy app jobs ledger)
    (hclear : ∀ other ∈ session.tasks, other.status = .waiting → other.cleanup.stale = [])
    (hsound : ledger.IsSound) (hplaced : Ledger.Placed fresh ledger placed)
    (hsound' : placed.IsSound) (hstale : Job.NamesOf task.cleanup.stale (ledger.trackedOf app))
    (hwaits : task.status = .waiting) (htasks : after.tasks = session.tasks ++ [task]) :
    after.Tidy app fresh placed := by
  have hmem {other : Task} (hother : other ∈ after.tasks) :
      other ∈ session.tasks ∨ other = task := by
    rw [htasks] at hother
    exact (List.mem_append.mp hother).imp_right List.mem_singleton.mp
  -- the new task is to retire exactly what was tracked for the application
  have hretires : ∀ given, task.Retires given ↔ IsNameOf app given ∧ given ∈ ledger.tracked :=
    fun given => (Job.mem_names_iff hstale).symm.trans hsound.mem_trackedOf
  refine ⟨?_, ?_, ?_, ?_, ?_⟩
  · intro other hother hfinished
    rcases hmem hother with hold | rfl
    · exact h.done other hold hfinished
    · rw [hwaits] at hfinished
      cases hfinished
  · intro other hother names hnames
    rcases hmem hother with hold | rfl
    · exact h.distinct other hold names hnames
    · rw [Job.names_unique hnames hstale]
      exact hsound.nodup_trackedOf app
  · -- an earlier task that waits has nothing to retire, so the new one is the last that has
    intro number other hother hwaiting
    rw [htasks, List.getElem?_append] at hother
    split at hother
    · exact .inr (hclear other (List.mem_of_getElem? hother) hwaiting)
    · next hge =>
      obtain ⟨hlt, -⟩ := List.getElem?_eq_some_iff.mp hother
      rw [List.length_singleton] at hlt
      rw [htasks, List.length_append, List.length_singleton]
      exact .inl (by omega)
  · -- what was tracked before is now what the new task is to retire
    intro given hgiven
    rw [(hplaced.mem_tracked hsound').1, or_comm]
    refine or_congr_right ⟨fun hbefore => ?_, ?_⟩
    · refine ⟨task, ?_, hwaits, (hretires given).mpr ⟨hgiven, hbefore⟩⟩
      rw [htasks]
      exact List.mem_append_right _ List.mem_cons_self
    · rintro ⟨other, hother, hwaiting, hgiven⟩
      rcases hmem hother with hold | rfl
      · exact absurd hgiven (not_retires_of_stale_eq_nil (hclear other hold hwaiting) given)
      · exact ((hretires given).mp hgiven).2
  · -- a new name was not tracked before
    intro other hother hwaiting given hgiven hjob
    rcases hmem hother with hold | rfl
    · exact not_retires_of_stale_eq_nil (hclear other hold hwaiting) given hgiven
    · exact (hplaced.mem_tracked hsound').2 hjob ((hretires given).mp hgiven).2

/-- What is tracked after a task has run are the jobs and what the other tasks are still to
retire. -/
theorem tracked_ran {number : Nat} {task ended : Task} {names : List String}
    (h : session.Tidy app jobs ledger) (htask : session.tasks[number]? = some task)
    (hwaiting : task.status = .waiting) (htasks : after.tasks = session.tasks.set number ended)
    (hfinished : ended.status = .finished) (hnames : Job.NamesOf task.cleanup.stale names)
    {given : String} (hgiven : IsNameOf app given) :
    given ∈ (ledger.retireAll names).tracked ↔ (∃ job ∈ jobs, job.name? = .ok given) ∨
      ∃ other ∈ after.tasks, other.status = .waiting ∧ other.Retires given := by
  have hmem := List.mem_of_getElem? htask
  have hretires : given ∈ names ↔ task.Retires given := Job.mem_names_iff hnames
  rw [Ledger.mem_tracked_retireAll, hretires, h.tracked given hgiven]
  constructor
  · rintro ⟨hleft, hjob | ⟨other, hin, hstill, hretired⟩⟩
    · exact .inl hjob
    · obtain ⟨place, hplace⟩ := List.getElem?_of_mem hin
      -- the other task is another one, since its name is still tracked
      have hne : place ≠ number := by
        rintro rfl
        rw [htask] at hplace
        obtain rfl := Option.some.inj hplace
        exact hleft hretired
      refine .inr ⟨other, List.mem_of_getElem? (i := place) ?_, hstill, hretired⟩
      rw [htasks, List.getElem?_set_ne hne.symm]
      exact hplace
  · rintro (hjob | ⟨other, hin, hstill, hretired⟩)
    · exact ⟨fun hgone => h.apart task hmem hwaiting given hgone hjob, .inl hjob⟩
    · -- of two tasks that wait, only the last one has something to retire
      obtain ⟨place, hplace'⟩ := List.getElem?_of_mem hin
      obtain ⟨hne, hplace⟩ := getElem?_of_waiting htasks hfinished hplace' hstill
      refine ⟨fun hgone => ?_, .inr ⟨other, List.mem_of_getElem? hplace, hstill, hretired⟩⟩
      rcases h.last place other hplace hstill with hlast | hnone
      · rcases h.last number task htask hwaiting with hlast' | hnone
        · omega
        · exact not_retires_of_stale_eq_nil hnone given hgone
      · exact not_retires_of_stale_eq_nil hnone given hretired

/-- **A task that runs where nothing is left over leaves nothing over.** What it retires is what was
tracked before the latest release, and the jobs of the release are not among that. -/
theorem ran {number : Nat} {task ended : Task} {names : List String}
    (h : session.Tidy app jobs ledger) (hagrees : ledger.Agrees app)
    (htask : session.tasks[number]? = some task) (hwaiting : task.status = .waiting)
    (htasks : after.tasks = session.tasks.set number ended)
    (hcleanup : ended.cleanup = task.cleanup)
    (hnames : Job.NamesOf task.cleanup.stale names) (hof : ∀ given ∈ names, IsNameOf app given)
    (hran : Task.Ran True ledger moved names task.progress ended) : after.Tidy app jobs moved := by
  have hmem := List.mem_of_getElem? htask
  -- all that the task is to retire is tracked and therefore scheduled, so the task is done
  have hscheduled : ∀ given ∈ names, given ∈ ledger.scheduled := by
    intro given hgiven
    refine (hagrees given (hof given hgiven)).mpr ((h.tracked given (hof given hgiven)).mpr
      (.inr ?_))
    exact ⟨task, hmem, hwaiting, (Job.mem_names_iff hnames).mp hgiven⟩
  obtain ⟨hphase, rfl, -⟩ :=
    hran.done_of_scheduled trivial (h.distinct task hmem names hnames) hscheduled
  have hset {other : Task} (hin : other ∈ after.tasks) : other ∈ session.tasks ∨ other = ended := by
    rw [htasks] at hin
    exact List.mem_or_eq_of_mem_set hin
  refine ⟨?_, ?_, ?_, fun given => h.tracked_ran htask hwaiting htasks hran.finished hnames, ?_⟩
  · intro other hin hfinished
    rcases hset hin with hold | rfl
    · exact h.done other hold hfinished
    · exact hphase
  · intro other hin names' hnames'
    rcases hset hin with hold | rfl
    · exact h.distinct other hold names' hnames'
    · rw [hcleanup] at hnames'
      exact h.distinct task hmem names' hnames'
  · intro place other hplace hstill
    obtain ⟨-, hplace'⟩ := getElem?_of_waiting htasks hran.finished hplace hstill
    rw [htasks, List.length_set]
    exact h.last place other hplace' hstill
  · intro other hin hstill given hgiven
    obtain ⟨place, hplace⟩ := List.getElem?_of_mem hin
    obtain ⟨-, hplace'⟩ := getElem?_of_waiting htasks hran.finished hplace hstill
    exact h.apart other (List.mem_of_getElem? hplace') hstill given hgiven

/-- **A rollout that overlaps with nothing leaves nothing over.** Either its own cleanup has run, or
all that there is to retire is on the list of its task. -/
theorem released {blueprint : Blueprint} {formation : Formation} {placed : Ledger} {task : Task}
    (h : session.Tidy app jobs ledger) (horder : session.InOrder app opened ledger)
    (hblueprint : blueprint.IsTyped app) (htyped : formation.IsTyped)
    (hclear : ∀ task ∈ session.tasks, task.isFinished = false → task.cleanup.stale = [])
    (htasks : after.tasks = session.tasks ++ [task])
    (hout : RolledOut app blueprint formation True ledger placed moved task) :
    ∃ fresh, blueprint.jobs formation = .ok fresh ∧ after.Tidy app fresh moved := by
  obtain ⟨fresh, hfresh, hplaced⟩ := hout.jobs
  have hmoves := hplaced.moves fun job hmem =>
    (Blueprint.isStorable_of_mem_jobs hblueprint htyped hfresh hmem).2
  -- tasks that wait have not finished, so they have nothing to retire
  have hidle : ∀ other ∈ session.tasks, other.status = .waiting → other.cleanup.stale = [] := by
    intro other hother hwaiting
    refine hclear other hother ?_
    rw [Task.isFinished, hwaiting]
    rfl
  refine ⟨fresh, hfresh, ?_⟩
  rcases hout.begun with ⟨hwaits, -, rfl⟩ | hran
  · exact h.enqueued hidle horder.sound hplaced (Ledger.isSound_of_moves hmoves horder.sound)
      hout.stale hwaits htasks
  · -- a task that runs at once is one that waited and then ran
    let waiting : Task := { task with status := .waiting, progress := .initial }
    let between : Session := { session with tasks := session.tasks ++ [waiting] }
    have hstale : Job.NamesOf waiting.cleanup.stale (ledger.trackedOf app) := hout.stale
    have hbetween : between.Tidy app fresh placed := h.enqueued hidle horder.sound hplaced
      (Ledger.isSound_of_moves hmoves horder.sound) hstale rfl rfl
    have hlast : between.tasks[session.tasks.length]? = some waiting := List.getElem?_concat_length
    have hafter : after.tasks = between.tasks.set session.tasks.length task := by
      rw [htasks, List.set_append_right _ _ (Nat.le_refl _), Nat.sub_self, List.set_cons_zero]
    exact hbetween.ran (Ledger.agrees_of_moves hmoves horder.agrees) hlast rfl hafter rfl hstale
      (fun given hgiven => (horder.sound.mem_trackedOf.mp hgiven).1) hran

end Tidy

/-! ### After an overlap -/

/-- It is settled that not all tasks will be done: one has failed, or waits for a name that is gone,
or two wait for the same name. -/
inductive Doomed (session : Session) (ledger : Ledger) : Prop where
  /-- A task has failed. -/
  | failed {task : Task} (hmem : task ∈ session.tasks) (hfinished : task.status = .finished)
      (hphase : task.progress.phase ≠ .done)
  /-- A task waits for a name that is gone. -/
  | gone {number : Nat} {task : Task} {given : String} (htask : session.tasks[number]? = some task)
      (hwaiting : task.status = .waiting) (hretires : task.Retires given)
      (hgone : given ∉ ledger.tracked)
  /-- Two tasks wait for the same name. -/
  | shared {number other : Nat} {task rival : Task} {given : String} (hne : number ≠ other)
      (htask : session.tasks[number]? = some task) (hrival : session.tasks[other]? = some rival)
      (hwaiting : task.status = .waiting) (hwaiting' : rival.status = .waiting)
      (hretires : task.Retires given) (hretires' : rival.Retires given)

/-- An old name that is gone is not placed by a rollout. -/
theorem Quiet.not_mem_of_released (h : session.Quiet app opened (deed :: rest) ledger)
    {blueprint : Blueprint} {name : Value} {formation : Formation} {placed : Ledger} {task : Task}
    {given : String} (hdeed : deed = .release blueprint name) (hblueprint : blueprint.IsTyped app)
    (htyped : formation.IsTyped)
    (hout : RolledOut app blueprint formation True ledger placed moved task)
    (hold : IsOld app (deed :: rest) given) (hgone : given ∉ ledger.tracked) :
    given ∉ moved.tracked := by
  obtain ⟨version, hversion, hsome⟩ := exists_version hblueprint name
  intro hmem
  rcases hout.mem_tracked hblueprint htyped h.sound hversion hmem with hbefore | hnew
  · exact hgone hbefore
  -- the name would be one of this version, but an old name is of an older one
  · obtain ⟨older, holder, hall⟩ := hold
    have hlt : older < version := by
      refine hall version ?_
      rw [hdeed, versions, List.filterMap_cons_some hsome]
      exact List.mem_cons_self
    rw [holder.unique hnew] at hlt
    exact Int.lt_irrefl version hlt

namespace Doomed

/-- What is settled stays settled when a task is added, if no name that is gone comes back. -/
theorem appended {task : Task} (h : session.Doomed ledger)
    (hquiet : session.Quiet app opened (deed :: rest) ledger)
    (htasks : after.tasks = session.tasks ++ [task])
    (hgone : ∀ given, IsOld app (deed :: rest) given → given ∉ ledger.tracked →
      given ∉ moved.tracked) :
    after.Doomed moved := by
  -- the tasks from before keep their numbers
  have hkeep {number : Nat} {task : Task} (htask : session.tasks[number]? = some task) :
      after.tasks[number]? = some task := by
    rw [htasks, List.getElem?_append_left (List.getElem?_eq_some_iff.mp htask).1]
    exact htask
  cases h with
  | failed hmem hfinished hphase =>
    exact .failed (htasks ▸ List.mem_append_left _ hmem) hfinished hphase
  | gone htask hwaiting hretires hmissing =>
    have hold := hquiet.stale _ (List.mem_of_getElem? htask) _ hretires
    exact .gone (hkeep htask) hwaiting hretires (hgone _ hold hmissing)
  | shared hne htask hrival hwaiting hwaiting' hretires hretires' =>
    exact .shared hne (hkeep htask) (hkeep hrival) hwaiting hwaiting' hretires hretires'

/-- What is settled stays settled when a task runs. If it is one of two that wait for the same name,
then it leaves the other one waiting for a name that is gone. -/
theorem ran {place : Nat} {runner ended : Task} {names : List String} (h : session.Doomed ledger)
    (horder : session.InOrder app opened ledger) (hrunner : session.tasks[place]? = some runner)
    (hrunning : runner.status = .waiting) (htasks : after.tasks = session.tasks.set place ended)
    (hnames : Job.NamesOf runner.cleanup.stale names)
    (hran : Task.Ran True ledger moved names runner.progress ended) : after.Doomed moved := by
  have hlt := (List.getElem?_eq_some_iff.mp hrunner).1
  have hended : ended ∈ after.tasks := by
    rw [htasks]
    exact List.mem_of_getElem? (List.getElem?_set_self hlt)
  have hkeep {number : Nat} {task : Task} (htask : session.tasks[number]? = some task)
      (hne : number ≠ place) : after.tasks[number]? = some task := by
    rw [htasks, List.getElem?_set_ne hne.symm]
    exact htask
  by_cases hphase : ended.progress.phase = .done
  case neg => exact .failed hended hran.finished hphase
  -- since it did not fail, the runner gave up all of its names, and they were scheduled
  obtain ⟨rfl, hscheduled⟩ := hran.scheduled_of_done trivial hphase
  have hgiven (given : String) : given ∈ names ↔ runner.Retires given := Job.mem_names_iff hnames
  cases h with
  | @failed task hmem hfinished hphase' =>
    obtain ⟨number, htask⟩ := List.getElem?_of_mem hmem
    -- a task that has failed is not the one that was waiting
    have hne : number ≠ place := by
      rintro rfl
      rw [hrunner] at htask
      rw [← Option.some.inj htask, hrunning] at hfinished
      cases hfinished
    exact .failed (List.mem_of_getElem? (hkeep htask hne)) hfinished hphase'
  | @gone number task given htask hwaiting hretires hgone =>
    have hne : number ≠ place := by
      rintro rfl
      rw [hrunner] at htask
      obtain rfl := Option.some.inj htask
      -- the runner gave this name up, so it was scheduled, and not gone
      have hname :=
        (horder.tasks runner (List.mem_of_getElem? hrunner)).isNameOf_of_retires hretires
      exact hgone ((horder.agrees given hname).mp (hscheduled given ((hgiven given).mpr hretires)))
    exact .gone (hkeep htask hne) hwaiting hretires
      fun hmem => hgone (Ledger.mem_tracked_retireAll.mp hmem).2
  | @shared number other task rival given hne htask hrival hwaiting hwaiting' hretires hretires' =>
    -- whichever of the two runs, the other one waits for a name that is gone
    have hgone (hrunner' : runner.Retires given) : given ∉ (ledger.retireAll names).tracked :=
      fun hmem => (Ledger.mem_tracked_retireAll.mp hmem).1 ((hgiven given).mpr hrunner')
    by_cases hfirst : number = place
    · subst hfirst
      rw [hrunner] at htask
      obtain rfl := Option.some.inj htask
      exact .gone (hkeep hrival (Ne.symm hne)) hwaiting' hretires' (hgone hretires)
    by_cases hsecond : other = place
    · subst hsecond
      rw [hrunner] at hrival
      obtain rfl := Option.some.inj hrival
      exact .gone (hkeep htask hfirst) hwaiting hretires (hgone hretires')
    exact .shared hne (hkeep htask hfirst) (hkeep hrival hsecond) hwaiting hwaiting' hretires
      hretires'

/-- **What is settled stays settled.** -/
theorem turn (h : session.Doomed ledger) (hquiet : session.Quiet app opened (deed :: rest) ledger)
    (hturn : session.Turn app ledger deed after moved) : after.Doomed moved := by
  cases hturn with
  | kept _ htasks hmoved =>
    subst hmoved
    cases h with
    | failed hmem hfinished hphase => exact .failed (htasks ▸ hmem) hfinished hphase
    | gone htask hwaiting hretires hgone => exact .gone (htasks ▸ htask) hwaiting hretires hgone
    | shared hne htask hrival hwaiting hwaiting' hretires hretires' =>
      exact .shared hne (htasks ▸ htask) (htasks ▸ hrival) hwaiting hwaiting' hretires hretires'
  | released hdeed hblueprint _ htyped htasks hout =>
    exact h.appended hquiet htasks fun given hold hgone =>
      hquiet.not_mem_of_released hdeed hblueprint htyped hout hold hgone
  | ran _ hrunner hrunning htasks _ hnames hran =>
    exact h.ran hquiet.toInOrder hrunner hrunning htasks hnames hran

end Doomed

/-- **A rollout that overlaps settles it.** The unfinished task and the cleanup of the new
generation have a name in common, unless it is gone already: one of the two is bound to fail. -/
theorem Quiet.doomed_of_overlap (h : session.Quiet app opened (deed :: rest) ledger)
    {blueprint : Blueprint} {name : Value} {formation : Formation} {placed : Ledger}
    {task early : Task}
    (hdeed : deed = .release blueprint name) (hblueprint : blueprint.IsTyped app)
    (htyped : formation.IsTyped) (htasks : after.tasks = session.tasks ++ [task])
    (hout : RolledOut app blueprint formation True ledger placed moved task)
    (hmem : early ∈ session.tasks) (hunfinished : early.isFinished = false)
    (hstale : early.cleanup.stale ≠ []) : after.Doomed moved := by
  obtain ⟨job, hjob⟩ := List.exists_mem_of_ne_nil _ hstale
  obtain ⟨given, hname, hof⟩ := (h.tasks early hmem).stale job hjob
  have hretires : early.Retires given := ⟨job, hjob, hname⟩
  -- a task that has begun and not finished waits
  have hwaiting : early.status = .waiting := by
    refine (h.begun early hmem).resolve_right fun hfinished => ?_
    rw [Task.isFinished, hfinished] at hunfinished
    cases hunfinished
  obtain ⟨number, hearly⟩ := List.getElem?_of_mem hmem
  have hlt := (List.getElem?_eq_some_iff.mp hearly).1
  have hearly' : after.tasks[number]? = some early := by
    rw [htasks, List.getElem?_append_left hlt]
    exact hearly
  have hnew : after.tasks[session.tasks.length]? = some task := by
    rw [htasks]
    exact List.getElem?_concat_length
  by_cases htracked : given ∈ ledger.tracked
  · have hmem' : given ∈ ledger.trackedOf app := h.sound.mem_trackedOf.mpr ⟨hof, htracked⟩
    rcases hout.begun with ⟨hwaits, -, -⟩ | hran
    · exact .shared (Nat.ne_of_lt hlt) hearly' hnew hwaiting hwaits hretires
        ((Job.mem_names_iff hout.stale).mp hmem')
    · by_cases hphase : task.progress.phase = .done
      · obtain ⟨rfl, -⟩ := hran.scheduled_of_done trivial hphase
        exact .gone hearly' hwaiting hretires
          fun hstill => (Ledger.mem_tracked_retireAll.mp hstill).1 hmem'
      · exact .failed (List.mem_of_getElem? hnew) hran.finished hphase
  · exact .gone hearly' hwaiting hretires (h.not_mem_of_released hdeed hblueprint htyped hout
      (h.stale early hmem given hretires) htracked)

/-! ### Whole histories -/

/-- A quiet deed without a version has no jobs. -/
theorem jobsOf?_of_version?_none (hdeed : deed.IsQuiet app) (hnone : deed.version? = none) :
    session.jobsOf? deed = none := by
  cases deed with
  | release blueprint name =>
    obtain ⟨version, -, hsome⟩ := exists_version hdeed name
    rw [hnone] at hsome
    cases hsome
  | _ => rfl

/-- The deed overlaps with nothing: if it rolls a release out, tasks that have not finished have
nothing to retire. -/
def IsClear (session : Session) (deed : Deed) : Prop :=
  deed.version?.isSome = true → ∀ task ∈ session.tasks, task.isFinished = false →
    task.cleanup.stale = []

/-- A turn that overlaps settles that not all tasks will be done. -/
theorem Quiet.doomed_of_not_isClear (h : session.Quiet app opened (deed :: rest) ledger)
    (hturn : session.Turn app ledger deed after moved) (hoverlaps : ¬session.IsClear deed) :
    after.Doomed moved := by
  rw [IsClear, Classical.not_imp] at hoverlaps
  obtain ⟨hversion, hoverlaps⟩ := hoverlaps
  simp only [not_forall] at hoverlaps
  obtain ⟨early, hmem, hunfinished, hstale⟩ := hoverlaps
  cases hturn with
  | kept hnone | ran hnone =>
    rw [hnone] at hversion
    cases hversion
  | released hdeed hblueprint _ htyped htasks hout =>
    exact h.doomed_of_overlap hdeed hblueprint htyped htasks hout hmem hunfinished hstale

/-- A turn that overlaps with nothing leaves nothing over. -/
theorem Tidy.turn {jobs : List Job} (h : session.Tidy app jobs ledger)
    (hquiet : session.InOrder app opened ledger) (hdeed : deed.IsQuiet app)
    (hturn : session.Turn app ledger deed after moved) (hclear : session.IsClear deed) :
    after.Tidy app ((session.jobsOf? deed).getD jobs) moved := by
  have hjobs (hnone : deed.version? = none) : (session.jobsOf? deed).getD jobs = jobs := by
    rw [jobsOf?_of_version?_none hdeed hnone]
    rfl
  cases hturn with
  | kept hnone htasks hmoved =>
    rw [hjobs hnone, hmoved]
    exact h.of_tasks_eq htasks
  | @released _ _ _ _ _ hdeed hblueprint hformation htyped htasks hout =>
    have hversion : deed.version?.isSome = true := by
      obtain ⟨version, -, hsome⟩ := exists_version hblueprint _
      rw [hdeed, hsome]
      rfl
    obtain ⟨fresh, hfresh, htidy⟩ :=
      h.released hquiet hblueprint htyped (hclear hversion) htasks hout
    -- the jobs of the deed are those that the rollout placed
    have hsame : session.jobsOf? deed = some fresh := by
      rw [hdeed, jobsOf?, hformation]
      show (Blueprint.jobs _ _).toOption = _
      rw [hfresh]
      rfl
    rw [hsame]
    exact htidy
  | @ran _ task _ names hnone htask hwaiting htasks hcleanup hnames hran =>
    have hof : ∀ given ∈ names, IsNameOf app given := fun given hgiven =>
      (hquiet.tasks task (List.mem_of_getElem? htask)).isNameOf_of_retires
        ((Job.mem_names_iff hnames).mp hgiven)
    rw [hjobs hnone]
    exact h.ran hquiet.agrees htask hwaiting htasks hcleanup hnames hof hran

/-- What a quiet history that succeeds comes to: it stays tidy if no rollouts overlap, and else it
is settled that not all tasks will be done. -/
theorem Quiet.follow {history : List Deed} (h : session.Quiet app opened history ledger)
    (jobs : List Job) (hquiet : ∀ deed ∈ history, deed.IsQuiet app)
    (hincreasing : (versions history).Pairwise (· < ·)) (hsucceeds : session.Succeeds history) :
    ∃ last, (session.follow history).Quiet app opened [] last ∧
      (session.Doomed ledger ∨ ¬session.NeverOverlaps history →
        (session.follow history).Doomed last) ∧
      (session.Tidy app jobs ledger → session.NeverOverlaps history →
        (session.follow history).Tidy app (session.generation jobs history) last) := by
  induction history generalizing session ledger jobs with
  | nil =>
    exact ⟨ledger, h, fun hdoomed => hdoomed.resolve_right fun hnot => hnot trivial,
      fun htidy _ => htidy⟩
  | cons deed rest ih =>
    obtain ⟨hok, hrest⟩ := hsucceeds
    have hdeed := hquiet deed List.mem_cons_self
    -- one turn is taken, and the rest of the history goes on from where it led
    obtain ⟨moved, hquiet', hturn⟩ := h.turn hdeed hincreasing hok
    have hincreasing' : (versions rest).Pairwise (· < ·) := by
      refine hincreasing.sublist ?_
      exact (List.sublist_cons_self deed rest).filterMap _
    have hquiet'' : ∀ other ∈ rest, other.IsQuiet app :=
      fun other hmem => hquiet other (List.mem_cons_of_mem _ hmem)
    obtain ⟨last, hlast, hdoom, htidied⟩ := ih hquiet' ((session.jobsOf? deed).getD jobs)
      hquiet'' hincreasing' hrest
    refine ⟨last, hlast, fun hcase => hdoom ?_,
      fun htidy hnever => htidied (htidy.turn h.toInOrder hdeed hturn hnever.1) hnever.2⟩
    rcases hcase with hdoomed | hoverlaps
    · exact .inl (hdoomed.turn h hturn)
    · -- the overlap is at this deed or in the rest
      by_cases hclear : session.IsClear deed
      · exact .inr fun hnever => hoverlaps ⟨hclear, hnever⟩
      · exact .inl (h.doomed_of_not_isClear hturn hclear)

/-- A session without tasks in which nothing is tracked is quiet. -/
theorem InOrder.quiet {processes : List ProcessRow} {history : List Deed}
    (h : session.InOrder app opened ⟨[], [], processes⟩) (hfaultless : session.world.faults = [])
    (hgrace : opened.policy.hasGraceWithin session.world.waitLimit = true)
    (hidle : session.tasks = []) : session.Quiet app opened history ⟨[], [], processes⟩ := by
  refine ⟨h, hfaultless, hgrace, ?_, ?_, fun _ hmem => (nomatch hmem), ?_⟩ <;>
  · rw [hidle]
    exact List.forall_mem_nil _

/-- Where there are no tasks and nothing is tracked, nothing is left over. -/
theorem tidy_of_no_tasks {processes : List ProcessRow} (hidle : session.tasks = []) :
    session.Tidy app [] ⟨[], [], processes⟩ := by
  have hnone (task : Task) : task ∉ session.tasks := by
    rw [hidle]
    exact List.not_mem_nil
  refine ⟨fun task hmem => absurd hmem (hnone task), fun task hmem => absurd hmem (hnone task), ?_,
    ?_, fun task hmem => absurd hmem (hnone task)⟩
  · intro number task htask
    exact absurd (List.mem_of_getElem? htask) (hnone task)
  · refine fun given _ => iff_of_false List.not_mem_nil ?_
    rintro (⟨job, hmem, -⟩ | ⟨task, hmem, -⟩)
    · cases hmem
    · exact hnone task hmem

/-- Where nothing is left over and no task waits, only the jobs are tracked and scheduled. -/
theorem Tidy.hasExactly {jobs : List Job} (h : session.Tidy app jobs ledger)
    (hagrees : ledger.Agrees app) (hfinished : ∀ task ∈ session.tasks, task.status = .finished) :
    HasExactly app jobs ledger.scheduled ledger.tracked := by
  -- what is tracked is a job or is waited for, and no task waits
  have htracked : ∀ given, IsNameOf app given →
      (given ∈ ledger.tracked ↔ ∃ job ∈ jobs, job.name? = .ok given) := by
    intro given hgiven
    refine (h.tracked given hgiven).trans ⟨?_, .inl⟩
    rintro (hjob | ⟨task, hmem, hwaiting, -⟩)
    · exact hjob
    · rw [hfinished task hmem] at hwaiting
      cases hwaiting
  exact ⟨fun given hgiven => (hagrees given hgiven).trans (htracked given hgiven), htracked⟩

/-- Where it is settled and no task waits any more, a task is not done. -/
theorem Doomed.exists_not_done (h : session.Doomed ledger)
    (hfinished : ∀ task ∈ session.tasks, task.status = .finished) :
    ∃ task ∈ session.tasks, task.progress.phase ≠ .done := by
  cases h with
  | @failed task hmem _ hphase => exact ⟨task, hmem, hphase⟩
  | gone htask hwaiting | shared _ htask _ hwaiting =>
    rw [hfinished _ (List.mem_of_getElem? htask)] at hwaiting
    cases hwaiting

/-- **Old generations are retired exactly if rollouts do not overlap.** Let a history of
definitions, rollouts and ends of grace periods start from an empty scheduler and an empty store,
without faults and with a grace period that can be waited for, let every rollout succeed and the
versions increase, and let all tasks have finished at its end. Then all of them are done, and the
names of the last generation are exactly those that are scheduled and tracked, if and only if at
each rollout every task that had not finished yet had nothing to retire. -/
theorem all_retired_iff {processes : List ProcessRow}
    (hstart : session.InOrder app opened ⟨[], [], processes⟩)
    (hfaultless : session.world.faults = [])
    (hgrace : opened.policy.hasGraceWithin session.world.waitLimit = true)
    (hidle : session.tasks = []) {history : List Deed} (hquiet : ∀ deed ∈ history, deed.IsQuiet app)
    (hincreasing : (versions history).Pairwise (· < ·)) (hsucceeds : session.Succeeds history)
    (hfinished : ∀ task ∈ (session.follow history).tasks, task.isFinished = true) :
    (∀ task ∈ (session.follow history).tasks, task.progress.phase = .done) ∧
        HasExactly app (session.generation [] history) (session.follow history).world.scheduled
          (session.follow history).tracked ↔
      session.NeverOverlaps history := by
  obtain ⟨last, horder, hdoomed, htidied⟩ :=
    (hstart.quiet hfaultless hgrace hidle).follow [] hquiet hincreasing hsucceeds
  have hstatus : ∀ task ∈ (session.follow history).tasks, task.status = .finished :=
    fun task hmem => of_decide_eq_true (hfinished task hmem)
  rw [horder.scheduled_eq, horder.tracked_eq]
  constructor
  · rintro ⟨hdone, -⟩
    -- an overlap would leave a task that is not done
    by_contra hoverlaps
    obtain ⟨task, hmem, hphase⟩ := (hdoomed (.inr hoverlaps)).exists_not_done hstatus
    exact hphase (hdone task hmem)
  · intro hnever
    have hlast := htidied (tidy_of_no_tasks hidle) hnever
    exact ⟨fun task hmem => hlast.done task hmem (hstatus task hmem),
      hlast.hasExactly horder.agrees hstatus⟩

/-- Two rollouts, each of which has its cleanup finished before the next one. -/
def relayed : List Deed :=
  [.define (.text "formation") (.web 2), .release (.web 1) (.text "formation"), .elapse 0,
    .release (.web 2) (.text "formation"), .elapse 1]

/-- Rollouts that do not overlap leave the last generation only. -/
theorem all_retired_relayed :
    (∀ task ∈ (fresh.follow relayed).tasks, task.progress.phase = .done) ∧
      HasExactly "web" (fresh.generation [] relayed) (fresh.follow relayed).world.scheduled
        (fresh.follow relayed).tracked := by
  have hquiet : ∀ deed ∈ relayed, deed.IsQuiet "web" := by
    simp only [relayed, List.forall_mem_cons]
    exact ⟨Formation.isTyped_web (by decide +kernel), Blueprint.isTyped_web (by decide +kernel),
      trivial, Blueprint.isTyped_web (by decide +kernel), trivial, fun _ hmem => nomatch hmem⟩
  exact (all_retired_iff (fresh_inOrder "web") rfl (by decide +kernel) rfl hquiet
    (by decide +kernel) (by decide +kernel) (by decide +kernel)).mpr (by decide +kernel)

/-- Three rollouts within one grace period, and then the ends of their grace periods. -/
def overlapping : List Deed :=
  [.define (.text "formation") (.web 1), .release (.web 1) (.text "formation"),
    .release (.web 2) (.text "formation"), .release (.web 3) (.text "formation"),
    .elapse 0, .elapse 1, .elapse 2]

/-- **Rollouts that overlap do not retire every old generation.** All of them succeed, the versions
increase, and every task finishes; but the third task meets a job that the second one has removed,
and fails. -/
theorem not_all_retired_overlapping :
    freshlyOpened.policy.hasGraceWithin fresh.world.waitLimit = true ∧
    (∀ deed ∈ overlapping, deed.IsQuiet "web") ∧ (versions overlapping).Pairwise (· < ·) ∧
      fresh.Succeeds overlapping ∧
      (∀ task ∈ (fresh.follow overlapping).tasks, task.isFinished = true) ∧
      ¬∀ task ∈ (fresh.follow overlapping).tasks, task.progress.phase = .done := by
  refine ⟨by decide +kernel, ?_, by decide +kernel, by decide +kernel, by decide +kernel,
    by decide +kernel⟩
  simp only [overlapping, List.forall_mem_cons]
  exact ⟨Formation.isTyped_web (by decide +kernel), Blueprint.isTyped_web (by decide +kernel),
    Blueprint.isTyped_web (by decide +kernel), Blueprint.isTyped_web (by decide +kernel), trivial,
    trivial, trivial, fun _ hmem => nomatch hmem⟩

end Session

end Rollout
