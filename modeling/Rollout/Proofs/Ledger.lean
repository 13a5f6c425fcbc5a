import Rollout.Proofs.StoredTables
import Rollout.Session.Steps

/-!
# Ledgers

Of all that a world holds, three things decide what becomes of an application: which definitions the
scheduler has, which jobs are tracked, and what is wanted of each process type. A `Ledger` holds
these three and nothing else, and `World.Shows opened world ledger` says that a world with a
scheduler in memory and stores in order holds what the ledger says.

Every call to a collaborator has one lemma here, which says what the call does to the ledger:

* a call either fails and leaves the ledger as it is, or does what it is called for;
* it fails only for a reason: a fault that lay in wait for it (`World.Spares` says that there is
  none), or what was asked cannot be done.

Apart from the ledger a call changes little, and `World.Follows` says how much: time stands still,
the faults that lie in wait are some of those that did before, and only a fault cancels a cleanup.
All of this composes, so that an operation follows as soon as its calls do.
-/

namespace Rollout

/-! ### Faults that are left -/

/-- The fault is an earlier one, with fewer uses perhaps. No fault comes from nowhere, so a point
that is spared stays spared. -/
structure Fault.StemsFrom (fault earlier : Fault) : Prop where
  point : fault.point = earlier.point
  failure : fault.failure = earlier.failure
  /-- It cancels if the earlier one does. -/
  cancels : fault.cancels = earlier.cancels

namespace Fault

theorem StemsFrom.refl (fault : Fault) : fault.StemsFrom fault := ⟨rfl, rfl, rfl⟩

theorem stemsFrom_used (fault : Fault) : fault.used.StemsFrom fault := by
  rw [used]
  split
  · exact ⟨rfl, rfl, rfl⟩
  · exact .refl fault

/-- The faults after a request are faults from before it. -/
theorem exists_stemsFrom_of_mem_fire {request : Request} {faults : List Fault} {fault : Fault}
    (h : fault ∈ (fire request faults).2) : ∃ earlier ∈ faults, fault.StemsFrom earlier := by
  -- On the faults: the first one that fires is replaced by its used form, and the others stay as
  -- they are.
  induction faults with
  | nil => cases h
  | cons first rest ih =>
    rw [fire] at h
    split at h
    · rcases List.mem_cons.mp h with rfl | hrest
      · exact ⟨first, List.mem_cons_self, stemsFrom_used first⟩
      · exact ⟨fault, List.mem_cons_of_mem _ hrest, .refl fault⟩
    · rcases List.mem_cons.mp h with rfl | hrest
      · exact ⟨fault, List.mem_cons_self, .refl fault⟩
      · obtain ⟨earlier, hmem, hstems⟩ := ih hrest
        exact ⟨earlier, List.mem_cons_of_mem _ hmem, hstems⟩

end Fault

namespace World

/-- No fault that lies in wait at the point fails. A fault that only cancels a task may well lie
there. -/
def Spares (world : World) (point : Point) : Prop :=
  ∀ fault ∈ world.faults, fault.point = point → fault.failure = none

/-- No fault disturbs a cleanup: none cancels it, and none fails where it waits or takes a job from
the scheduler. -/
structure Calm (world : World) : Prop where
  undisturbed : ∀ fault ∈ world.faults, fault.cancels = false
  wait : world.Spares .wait
  /-- Taking a job from the scheduler fails only if the scheduler does not run it. -/
  unschedule : world.Spares .unschedule

/-! ### What every call leaves alone -/

/-- What a world has to do with one that came before it. These are the parts that no call touches,
and how the faults and the cancellation may move; all of it is closed under doing one thing after
another. -/
structure Follows (before after : World) : Prop where
  site : after.site = before.site
  waitLimit : after.waitLimit = before.waitLimit
  faults : ∀ fault ∈ after.faults, ∃ earlier ∈ before.faults, fault.StemsFrom earlier
  /-- A cleanup runs if one ran. -/
  running : after.cancelled.isSome = before.cancelled.isSome
  undisturbed : (∀ fault ∈ before.faults, fault.cancels = false) →
    after.cancelled = before.cancelled

namespace Follows

variable {first before after last : World}

theorem refl (world : World) : world.Follows world :=
  ⟨rfl, rfl, fun fault hmem => ⟨fault, hmem, .refl fault⟩, rfl, fun _ => rfl⟩

/-- One thing happens after another. -/
theorem trans (h : first.Follows before) (h' : before.Follows last) : first.Follows last where
  site := h'.site.trans h.site
  waitLimit := h'.waitLimit.trans h.waitLimit
  faults := by
    intro fault hmem
    -- a fault that is left stems from one in between, and that one from one of the first
    obtain ⟨middle, hmiddle, hstems⟩ := h'.faults fault hmem
    obtain ⟨earlier, hearlier, hstems'⟩ := h.faults middle hmiddle
    exact ⟨earlier, hearlier, hstems.point.trans hstems'.point,
      hstems.failure.trans hstems'.failure, hstems.cancels.trans hstems'.cancels⟩
  running := h'.running.trans h.running
  undisturbed := by
    intro hcalm
    rw [h'.undisturbed, h.undisturbed hcalm]
    intro fault hmem
    obtain ⟨earlier, hearlier, hstems⟩ := h.faults fault hmem
    exact hstems.cancels.trans (hcalm earlier hearlier)

theorem spares (h : before.Follows after) {point : Point} (hspares : before.Spares point) :
    after.Spares point := by
  intro fault hmem hpoint
  obtain ⟨earlier, hearlier, hstems⟩ := h.faults fault hmem
  rw [hstems.failure]
  exact hspares earlier hearlier (hstems.point.symm.trans hpoint)

/-- Without faults there are none afterwards. -/
theorem faults_eq_nil (h : before.Follows after) (hnone : before.faults = []) :
    after.faults = [] := by
  rw [List.eq_nil_iff_forall_not_mem]
  intro fault hmem
  obtain ⟨earlier, hearlier, -⟩ := h.faults fault hmem
  rw [hnone] at hearlier
  cases hearlier

theorem idle (h : before.Follows after) (hidle : before.cancelled = none) :
    after.cancelled = none := by
  -- No cleanup ran before, so none runs now.
  have hrunning := h.running
  rw [hidle, Option.isSome_none] at hrunning
  exact Option.isSome_eq_false_iff.mp hrunning |> Option.isNone_iff_eq_none.mp

/-- What is calm stays so. -/
theorem calm (h : before.Follows after) (hcalm : before.Calm) : after.Calm where
  undisturbed := by
    intro fault hmem
    obtain ⟨earlier, hearlier, hstems⟩ := h.faults fault hmem
    exact hstems.cancels.trans (hcalm.undisturbed earlier hearlier)
  wait := h.spares hcalm.wait
  unschedule := h.spares hcalm.unschedule

theorem isCancelled_eq (h : before.Follows after) (hcalm : before.Calm) :
    after.isCancelled = before.isCancelled := by
  rw [isCancelled, isCancelled, h.undisturbed hcalm.undisturbed]

end Follows

theorem spares_of_no_faults {world : World} (h : world.faults = []) (point : Point) :
    world.Spares point := by
  intro fault hmem
  rw [h] at hmem
  cases hmem

/-- Without faults all is calm. -/
theorem calm_of_no_faults {world : World} (h : world.faults = []) : world.Calm where
  undisturbed := by
    intro fault hmem
    rw [h] at hmem
    cases hmem
  wait := spares_of_no_faults h _
  unschedule := spares_of_no_faults h _

/-- A request was put on record, and that is all. Scheduler and files are as before, so whatever
shows did not change. -/
structure Attends (before after : World) : Prop extends Follows before after where
  scheduler : after.scheduler = before.scheduler
  files : after.files = before.files

/-- Putting a request on record is no more than that. -/
theorem attends_attend (request : Request) (world : World) :
    world.Attends (attend request world).2 where
  site := rfl
  waitLimit := rfl
  faults := fun _ hmem => Fault.exists_stemsFrom_of_mem_fire hmem
  running := by
    rw [attend]
    exact Option.isSome_map
  undisturbed := by
    intro hcalm
    -- no fault cancels, so the one that fires does not either
    have hcancels : (Fault.fire request world.faults).1.any (·.cancels) = false := by
      rw [Option.any_eq_false_iff_get]
      intro hsome
      have hmem := (Fault.mem_of_fire (Option.some_get hsome).symm).1
      rw [hcalm _ hmem]
    rw [attend]
    simp only [hcancels, Bool.or_false, Option.map_id']
  scheduler := rfl
  files := rfl

/-- **What becomes of a call**: it cannot be recorded, a fault fails in its place, or it is made.
Lemmas about single calls begin with these cases. -/
theorem perform_cases {α : Type} {request : Call} {real : World → Except Failure α × World}
    {world after : World} {result : Except Failure α}
    (h : perform request real world = (result, after)) :
    (∃ failure, recordable request = .error failure ∧ result = .error failure ∧ after = world) ∨
    (∃ failure, result = .error failure ∧ world.Attends after ∧
      ¬world.Spares (Request.call request).point) ∨
    ∃ attended, world.Attends attended ∧ real attended = (result, after) := by
  rw [perform] at h
  split at h
  · next failure hrecordable =>
    -- the call holds something that has no text, and nothing happens
    obtain ⟨rfl, rfl⟩ := Prod.mk.inj h
    exact .inl ⟨failure, hrecordable, rfl, rfl⟩
  · rw [recorded] at h
    have hattends := attends_attend (.call request) world
    have hfailure : (attend (.call request) world).1 =
        (Fault.fire (.call request) world.faults).1.bind (·.failure) := rfl
    split at h
    · next failure attended heq =>
      obtain ⟨rfl, rfl⟩ := Prod.mk.inj h
      rw [heq] at hattends hfailure
      refine .inr (.inl ⟨failure, rfl, hattends, ?_⟩)
      intro hspares
      -- the fault that fired was there and lay in wait at this point
      obtain ⟨fault, hfault, hfails⟩ := Option.bind_eq_some_iff.mp hfailure.symm
      obtain ⟨hmem, hfires⟩ := Fault.mem_of_fire hfault
      rw [hspares fault hmem (Fault.point_of_firesAt hfires)] at hfails
      cases hfails
    · next attended heq =>
      rw [heq] at hattends
      exact .inr (.inr ⟨attended, hattends, h⟩)

/-- **A call that can be put on record is made if it is spared.** The world in which it is made is
the one where it is on record already. -/
theorem attended_of_spares {α : Type} {request : Call} {real : World → Except Failure α × World}
    {world after : World} {result : Except Failure α} (hrecordable : recordable request = .ok ())
    (hspares : world.Spares (Request.call request).point)
    (h : perform request real world = (result, after)) :
    ∃ attended, world.Attends attended ∧ real attended = (result, after) := by
  rcases perform_cases h with ⟨failure, hfails, -⟩ | ⟨failure, -, -, hfault⟩ | hmade
  -- It can be recorded, so the first of the three cases is out; and no fault fails here.
  · cases hrecordable.symm.trans hfails
  · exact absurd hspares hfault
  · exact hmade

end World

/-! ### Ledgers -/

/-- What decides about the jobs of applications: the definitions that the scheduler has, and the
rows of the two stores. It is what operations come to be about once files, faults and times are
taken care of. -/
structure Ledger where
  definitions : Named Definition
  jobs : List JobRow
  processes : List ProcessRow

namespace Ledger

/-- The names that the scheduler runs. -/
def scheduled (ledger : Ledger) : List String := ledger.definitions.names

/-- The names that are tracked. -/
def tracked (ledger : Ledger) : List String := ledger.jobs.map (·.name)

/-- A definition is scheduled. -/
def schedule (definition : Definition) (ledger : Ledger) : Ledger :=
  { ledger with definitions := ledger.definitions.set definition.name definition }

/-- A name is scheduled no longer. -/
def unschedule (name : String) (ledger : Ledger) : Ledger :=
  { ledger with definitions := ledger.definitions.erase name }

/-- A job is tracked in a row. -/
def add (row : JobRow) (ledger : Ledger) : Ledger := { ledger with jobs := ledger.jobs ++ [row] }

/-- A name is tracked no longer. -/
def remove (name : String) (ledger : Ledger) : Ledger :=
  { ledger with jobs := ledger.jobs.filter fun row => row.name ≠ name }

/-- What is wanted of a process type is written down. -/
def want (row : ProcessRow) (ledger : Ledger) : Ledger :=
  { ledger with processes := row.put ledger.processes }

/-- The rows of an application. -/
def rowsOf (app : String) (ledger : Ledger) : List JobRow :=
  ledger.jobs.filter fun row => row.app = app

end Ledger

namespace World

/-- The world holds what the ledger says, in a scheduler in memory and in stores that are in
order. -/
structure Shows (opened : Opened) (world : World) (ledger : Ledger) : Prop where
  memory : ∃ machine, world.scheduler = .memory ⟨machine, ledger.definitions⟩
  time : ∃ now, Calendar.timestamp world.site.now = .ok now
  jobs : ∃ place database, Disk.Keeps world.site opened.jobs place database world.files ∧
    database.jobRows = ledger.jobs
  processes : ∃ place database, Disk.Keeps world.site opened.processes place database world.files ∧
    database.processRows = ledger.processes
  events : ∃ place database, Disk.Keeps world.site opened.policy.events place database world.files

variable {opened : Opened} {world after : World} {ledger : Ledger}

/-- **What a world shows is in its scheduler, its files and where it stands.** Faults, the record
and whether a cleanup is cancelled do not show. -/
theorem Shows.of_same (h : world.Shows opened ledger)
    (hscheduler : after.scheduler = world.scheduler) (hfiles : after.files = world.files)
    (hsite : after.site = world.site) : after.Shows opened ledger where
  memory := hscheduler ▸ h.memory
  time := hsite ▸ h.time
  jobs := hsite ▸ hfiles ▸ h.jobs
  processes := hsite ▸ hfiles ▸ h.processes
  events := hsite ▸ hfiles ▸ h.events

theorem Attends.shows (h : world.Attends after) (hshows : world.Shows opened ledger) :
    after.Shows opened ledger :=
  hshows.of_same h.scheduler h.files h.site

/-- What stores hold apart from what was written. It is stated for any reading of a database, and
used for the rows of jobs, those of processes, and nothing at all. -/
theorem keeps_rewritten {ρ : Type} (rows : Database → ρ) {site : Surroundings} {name other : Value}
    {place place' : Place} {database database' changed : Database} {files written : Files}
    (h : Disk.Keeps site name place database files)
    (h' : Disk.Keeps site other place' database' files)
    (hwrite : FileTree.Rewritten place' (.database changed) files written)
    (hfounded : changed.initialise = changed) (hrows : rows changed = rows database') :
    ∃ place seen, Disk.Keeps site name place seen written ∧ rows seen = rows database := by
  obtain ⟨seen, hseen, hcase⟩ := h.rewritten h' hwrite hfounded
  refine ⟨place, seen, hseen, ?_⟩
  -- The store was in the file that was written, or in another one.
  rcases hcase with ⟨rfl, rfl⟩ | rfl
  · exact hrows
  · rfl

/-- The log stays in order when a store is rewritten, whether it lies in the same file or not. -/
theorem Shows.keeps_events {written : Files} {place : Place} {name : Value}
    {database changed : Database} (h : world.Shows opened ledger)
    (hkeeps : Disk.Keeps world.site name place database world.files)
    (hwrite : FileTree.Rewritten place (.database changed) world.files written)
    (hfounded : changed.initialise = changed) :
    ∃ place database, Disk.Keeps world.site opened.policy.events place database written := by
  obtain ⟨_, _, hevents⟩ := h.events
  obtain ⟨place, seen, hseen, -⟩ :=
    keeps_rewritten (fun _ => ()) hevents hkeeps hwrite hfounded rfl
  exact ⟨place, seen, hseen⟩

/-- **A change to a file of a store**, as far as it shows: each of the tables is as in the file that
was written if it lies there, and as before otherwise. -/
theorem Shows.write {written : Files} {place : Place} {name : Value}
    {database changed : Database} (h : world.Shows opened ledger)
    (hkeeps : Disk.Keeps world.site name place database world.files)
    (hwrite : FileTree.Rewritten place (.database changed) world.files written)
    (hfounded : changed.initialise = changed)
    (hjobs : changed.jobRows = database.jobRows)
    (hprocesses : changed.processRows = database.processRows) :
    ({ world with files := written } : World).Shows opened ledger := by
  obtain ⟨placeJ, databaseJ, hkeepsJ, hrowsJ⟩ := h.jobs
  obtain ⟨placeP, databaseP, hkeepsP, hrowsP⟩ := h.processes
  refine ⟨h.memory, h.time, ?_, ?_, h.keeps_events hkeeps hwrite hfounded⟩
  · rw [← hrowsJ]
    exact keeps_rewritten Database.jobRows hkeepsJ hkeeps hwrite hfounded hjobs
  · rw [← hrowsP]
    exact keeps_rewritten Database.processRows hkeepsP hkeeps hwrite hfounded hprocesses

/-- A change to the rows of jobs shows as such. -/
theorem Shows.write_jobs {written : Files} {place : Place} {database changed : Database}
    {rows : List JobRow} (h : world.Shows opened ledger)
    (hkeeps : Disk.Keeps world.site opened.jobs place database world.files)
    (hwrite : FileTree.Rewritten place (.database changed) world.files written)
    (hfounded : changed.initialise = changed) (hjobs : changed.jobRows = rows)
    (hprocesses : changed.processRows = database.processRows) :
    ({ world with files := written } : World).Shows opened { ledger with jobs := rows } := by
  obtain ⟨placeP, databaseP, hkeepsP, hrowsP⟩ := h.processes
  refine ⟨h.memory, h.time, ⟨place, changed, hkeeps.rewritten_self hwrite hfounded, hjobs⟩, ?_,
    h.keeps_events hkeeps hwrite hfounded⟩
  rw [← hrowsP]
  exact keeps_rewritten Database.processRows hkeepsP hkeeps hwrite hfounded hprocesses

/-- A change to the rows of processes shows as such. -/
theorem Shows.write_processes {written : Files} {place : Place} {database changed : Database}
    {rows : List ProcessRow} (h : world.Shows opened ledger)
    (hkeeps : Disk.Keeps world.site opened.processes place database world.files)
    (hwrite : FileTree.Rewritten place (.database changed) world.files written)
    (hfounded : changed.initialise = changed) (hjobs : changed.jobRows = database.jobRows)
    (hprocesses : changed.processRows = rows) :
    ({ world with files := written } : World).Shows opened { ledger with processes := rows } := by
  obtain ⟨placeJ, databaseJ, hkeepsJ, hrowsJ⟩ := h.jobs
  refine ⟨h.memory, h.time, ?_, ⟨place, changed, hkeeps.rewritten_self hwrite hfounded, hprocesses⟩,
    h.keeps_events hkeeps hwrite hfounded⟩
  rw [← hrowsJ]
  exact keeps_rewritten Database.jobRows hkeepsJ hkeeps hwrite hfounded hjobs

theorem follows_files (world : World) (files : Files) :
    world.Follows { world with files } :=
  ⟨rfl, rfl, fun fault hmem => ⟨fault, hmem, .refl fault⟩, rfl, fun _ => rfl⟩

end World

/-- The stores that an operation finds are those that are open; a process store may be missing. -/
structure Stores.Serve (stores : Stores) (opened : Opened) : Prop where
  jobs : stores.jobs = some opened.jobs
  /-- The process store is the one that is open, if there is one. -/
  processes : ∀ file, stores.processes = some file → file = opened.processes
  events : stores.events = opened.policy.events

theorem Opened.serve_stores (opened : Opened) : opened.stores.Serve opened :=
  ⟨rfl, fun _ hfile => (Option.some.inj hfile).symm, rfl⟩

namespace World

variable {opened : Opened} {stores : Stores} {world after : World} {ledger : Ledger}

/-! ### Calls to the scheduler -/

/-- **A definition is scheduled**, unless it cannot be recorded or a fault fails instead. A name
that is scheduled already gets its definition written over. -/
theorem answer_schedule (stores : Stores) {definition : Definition} {result : Except Failure Unit}
    (hshows : world.Shows opened ledger)
    (h : answer stores (.schedule definition) world = (result, after)) :
    world.Follows after ∧
      (result = .ok () ∧ after.Shows opened (ledger.schedule definition) ∨
        ∃ failure, result = .error failure ∧ after.Shows opened ledger ∧
          (world.Spares .schedule →
            definition.image.reference? = .error failure)) := by
  -- The hypothesis is taken apart in a copy, as the whole of it is needed again.
  obtain ⟨⟨machine, hmemory⟩, -⟩ := id hshows
  rcases perform_cases h with ⟨failure, hrecordable, rfl, rfl⟩ | ⟨failure, rfl, hattends, hfault⟩ |
      ⟨attended, hattends, hreal⟩
  -- all of a definition but the reference of its image can be put on record
  · refine ⟨.refl _, .inr ⟨failure, rfl, hshows, fun _ => ?_⟩⟩
    rw [recordable] at hrecordable
    cases href : definition.image.reference? with
    | ok reference =>
      rw [href] at hrecordable
      cases hrecordable
    | error cause =>
      rw [href] at hrecordable
      rw [← Except.error.inj hrecordable]
  · exact ⟨hattends.toFollows, .inr ⟨failure, rfl, hattends.shows hshows,
      fun hspares => absurd hspares hfault⟩⟩
  · have hscheduler := hattends.scheduler.trans hmemory
    rw [onScheduler, hscheduler] at hreal
    obtain ⟨rfl, rfl⟩ := Prod.mk.inj hreal
    obtain ⟨-, htime, hjobs, hprocesses, hevents⟩ := hattends.shows hshows
    exact ⟨hattends.toFollows.trans ⟨rfl, rfl, fun fault hmem => ⟨fault, hmem, .refl fault⟩, rfl,
      fun _ => rfl⟩, .inl ⟨rfl, ⟨machine, rfl⟩, htime, hjobs, hprocesses, hevents⟩⟩

/-- **A name is unscheduled** if it is scheduled, unless a fault fails instead. -/
theorem answer_unschedule (stores : Stores) {name : String} {result : Except Failure Unit}
    (hshows : world.Shows opened ledger)
    (h : answer stores (.unschedule (.text name)) world = (result, after)) :
    world.Follows after ∧
      (result = .ok () ∧ name ∈ ledger.scheduled ∧ after.Shows opened (ledger.unschedule name) ∨
        ∃ failure, result = .error failure ∧ after.Shows opened ledger ∧
          (world.Spares .unschedule → name ∉ ledger.scheduled)) := by
  obtain ⟨⟨machine, hmemory⟩, -⟩ := id hshows
  rw [answer] at h
  -- A name can always be put on record; a fault may strike; or the scheduler is asked.
  rcases perform_cases h with ⟨failure, hrecordable, -⟩ | ⟨failure, rfl, hattends, hfault⟩ |
      ⟨attended, hattends, hreal⟩
  · cases hrecordable
  · exact ⟨hattends.toFollows, .inr ⟨failure, rfl, hattends.shows hshows,
      fun hspares => absurd hspares hfault⟩⟩
  · have hscheduler := hattends.scheduler.trans hmemory
    have hfollows : ∀ scheduler, world.Follows { attended with scheduler } := fun _ =>
      hattends.toFollows.trans ⟨rfl, rfl, fun fault hmem => ⟨fault, hmem, .refl fault⟩, rfl,
        fun _ => rfl⟩
    rw [onScheduler, hscheduler] at hreal
    obtain ⟨hmemory', htime, hjobs, hprocesses, hevents⟩ := hattends.shows hshows
    have hdone (hmem : name ∈ ledger.scheduled) :
        (Memory.mk machine ledger.definitions).unschedule (.text name) =
          (.ok (), ⟨machine, ledger.definitions.erase name⟩) := Memory.unschedule_of_mem hmem
    have hrefused (hmem : name ∉ ledger.scheduled) :
        (Memory.mk machine ledger.definitions).unschedule (.text name) =
          (.error (.rejected (.unknownJob (.text name))), ⟨machine, ledger.definitions⟩) :=
      Memory.unschedule_of_not_mem hmem
    -- the scheduler rejects exactly the names that it does not know
    by_cases hmem : name ∈ ledger.scheduled
    · simp only [hdone hmem] at hreal
      obtain ⟨rfl, rfl⟩ := Prod.mk.inj hreal
      exact ⟨hfollows _, .inl ⟨rfl, hmem, ⟨machine, rfl⟩, htime, hjobs, hprocesses, hevents⟩⟩
    · simp only [hrefused hmem] at hreal
      obtain ⟨rfl, rfl⟩ := Prod.mk.inj hreal
      exact ⟨hfollows _, .inr ⟨_, rfl, ⟨⟨machine, rfl⟩, htime, hjobs, hprocesses, hevents⟩,
        fun _ => hmem⟩⟩

/-! ### Calls to the stores -/

/-- **The jobs of an application are listed** as their rows tell. If one of them cannot be read, the
whole listing fails. -/
theorem answer_list {app : String} {result : Except Failure (List Job)}
    (hserve : stores.Serve opened) (hshows : world.Shows opened ledger)
    (hspares : world.Spares .list)
    (h : answer stores (.list (.text app)) world = (result, after)) :
    world.Follows after ∧ after.Shows opened ledger ∧
      result = (ledger.rowsOf app).mapM JobRow.job? := by
  simp only [answer, hserve.jobs, inStore_some] at h
  obtain ⟨attended, hattends, hreal⟩ := attended_of_spares rfl hspares h
  have hshown := hattends.shows hshows
  obtain ⟨place, database, hkeeps, hrows⟩ := hshown.jobs
  -- Listing reads the rows and leaves the files alone.
  rw [onDisk, JobStore.list_apply hkeeps, hrows] at hreal
  obtain ⟨rfl, rfl⟩ := Prod.mk.inj hreal
  exact ⟨hattends.toFollows, hshown, rfl⟩

/-- **A job is tracked** in a row that reads back as the job, if its name is new, and refused if its
name is tracked already. -/
theorem answer_add {job : Job} {name : String} {result : Except Failure Unit}
    (hserve : stores.Serve opened) (hshows : world.Shows opened ledger)
    (hspares : world.Spares .add) (hjob : job.IsStorable) (hname : job.name? = .ok name)
    (h : answer stores (.add job) world = (result, after)) :
    world.Follows after ∧
      ((∃ row : JobRow, result = .ok () ∧ name ∉ ledger.tracked ∧
          after.Shows opened (ledger.add row) ∧ row.name = name ∧ job.app = .text row.app ∧
          row.Tracks job) ∨
        ∃ failure, result = .error failure ∧ name ∈ ledger.tracked ∧
          after.Shows opened ledger) := by
  simp only [answer, hserve.jobs, inStore_some] at h
  obtain ⟨attended, hattends, hreal⟩ := attended_of_spares rfl hspares h
  have hshown := hattends.shows hshows
  obtain ⟨place, database, hkeeps, hrows⟩ := hshown.jobs
  obtain ⟨now, hnow⟩ := hshown.time
  have htracked : database.jobRows.map (·.name) = ledger.tracked := by rw [hrows, Ledger.tracked]
  -- the rows decide: the names in the table are the tracked ones
  by_cases hmem : name ∈ ledger.tracked
  · rw [← htracked] at hmem
    obtain ⟨failure, hadd⟩ := JobStore.add_of_mem hkeeps hnow hjob hname hmem
    rw [onDisk, hadd] at hreal
    obtain ⟨rfl, rfl⟩ := Prod.mk.inj hreal
    rw [htracked] at hmem
    exact ⟨hattends.toFollows, .inr ⟨failure, rfl, hmem, hshown⟩⟩
  · rw [← htracked] at hmem
    obtain ⟨row, changed, written, hadd, hwrite, hfounded, hjobs, hprocesses, hrow, happ,
        htracks⟩ :=
      JobStore.add_of_new hkeeps hnow hjob hname hmem
    rw [onDisk, hadd] at hreal
    obtain ⟨rfl, rfl⟩ := Prod.mk.inj hreal
    rw [htracked] at hmem
    refine ⟨hattends.toFollows.trans (follows_files _ _), .inl ⟨row, rfl, hmem, ?_, hrow, happ,
      htracks⟩⟩
    rw [hrows] at hjobs
    exact hshown.write_jobs hkeeps hwrite hfounded hjobs hprocesses

/-- **A name is tracked no longer.** That it may not have been tracked before makes no difference to
the answer. -/
theorem answer_remove {job : Job} {name : String} {result : Except Failure Unit}
    (hserve : stores.Serve opened) (hshows : world.Shows opened ledger)
    (hspares : world.Spares .remove) (hname : job.name? = .ok name)
    (h : answer stores (.remove job) world = (result, after)) :
    world.Follows after ∧ result = .ok () ∧ after.Shows opened (ledger.remove name) := by
  simp only [answer, hserve.jobs, inStore_some] at h
  obtain ⟨attended, hattends, hreal⟩ := attended_of_spares rfl hspares h
  have hshown := hattends.shows hshows
  obtain ⟨place, database, hkeeps, hrows⟩ := hshown.jobs
  obtain ⟨changed, written, hremove, hwrite, hfounded, hjobs, hprocesses⟩ :=
    JobStore.remove_apply hkeeps hname
  rw [onDisk, hremove] at hreal
  obtain ⟨rfl, rfl⟩ := Prod.mk.inj hreal
  rw [hrows] at hjobs
  exact ⟨hattends.toFollows.trans (follows_files _ _), rfl,
    hshown.write_jobs hkeeps hwrite hfounded hjobs hprocesses⟩

/-- **What is wanted of a process type is written down**, unless there is no process store or a
fault fails instead. -/
theorem answer_update {process : ProcessType} {result : Except Failure ProcessType}
    (hserve : stores.Serve opened) (hshows : world.Shows opened ledger)
    (hprocess : process.IsStorable)
    (h : answer stores (.update process) world = (result, after)) :
    world.Follows after ∧
      ((∃ row : ProcessRow, result = .ok process ∧ after.Shows opened (ledger.want row) ∧
          process.app = .text row.app ∧ process.type = .text row.type ∧
          process.quantity.toValue = row.quantity.toValue) ∨
        ∃ failure, result = .error failure ∧ after.Shows opened ledger ∧
          (stores.processes.isSome = true → ¬world.Spares .update)) := by
  cases hstore : stores.processes with
  | none =>
    -- without a process store the call fails before anything is put on record
    simp only [answer, hstore, inStore] at h
    obtain ⟨rfl, rfl⟩ := Prod.mk.inj h
    refine ⟨.refl _, .inr ⟨_, rfl, hshows, ?_⟩⟩
    intro hsome
    cases hsome
  | some file =>
    obtain rfl := hserve.processes file hstore
    simp only [answer, hstore, inStore_some] at h
    rcases perform_cases h with ⟨failure, hrecordable, -⟩ | ⟨failure, rfl, hattends, hfault⟩ |
        ⟨attended, hattends, hreal⟩
    · cases hrecordable
    · exact ⟨hattends.toFollows, .inr ⟨failure, rfl, hattends.shows hshows, fun _ => hfault⟩⟩
    -- The call is made, and the process has a row, so it is written.
    · have hshown := hattends.shows hshows
      obtain ⟨place, database, hkeeps, hrows⟩ := hshown.processes
      obtain ⟨now, hnow⟩ := hshown.time
      obtain ⟨row, changed, written, hupdate, hwrite, hfounded, hjobs, hprocesses, hrow⟩ :=
        ProcessStore.update_apply hkeeps hnow hprocess
      rw [onDisk, hupdate] at hreal
      obtain ⟨rfl, rfl⟩ := Prod.mk.inj hreal
      rw [hrows] at hprocesses
      exact ⟨hattends.toFollows.trans (follows_files _ _), .inl ⟨row, rfl,
        hshown.write_processes hkeeps hwrite hfounded hjobs hprocesses, hrow⟩⟩

/-- **An event is logged**, which shows nowhere else. -/
theorem answer_log {event : Event} {result : Except Failure Unit}
    (hserve : stores.Serve opened) (hshows : world.Shows opened ledger)
    (hspares : world.Spares .log) (hevent : event.IsStorable)
    (h : answer stores (.log event) world = (result, after)) :
    world.Follows after ∧ result = .ok () ∧ after.Shows opened ledger := by
  rw [answer] at h
  obtain ⟨attended, hattends, hreal⟩ := attended_of_spares rfl hspares h
  have hshown := hattends.shows hshows
  obtain ⟨place, database, hkeeps⟩ := hshown.events
  obtain ⟨now, hnow⟩ := hshown.time
  obtain ⟨changed, written, hlog, hwrite, hfounded, hjobs, hprocesses⟩ :=
    EventLog.log_apply hkeeps hnow hevent
  rw [hserve.events, onDisk, hlog] at hreal
  obtain ⟨rfl, rfl⟩ := Prod.mk.inj hreal
  exact ⟨hattends.toFollows.trans (follows_files _ _), rfl,
    hshown.write hkeeps hwrite hfounded hjobs hprocesses⟩

/-! ### Waiting -/

/-- **Time passes**, and whether a cleanup is cancelled is told, unless a fault fails instead or the
wait is longer than can be waited. -/
theorem answer_wait (stores : Stores) {seconds : Binary64} {result : Except Failure Bool}
    (hshows : world.Shows opened ledger)
    (h : answer stores (.wait seconds) world = (result, after)) :
    world.Follows after ∧ after.Shows opened ledger ∧
      (world.Calm → result = world.waitLimit.await world.isCancelled seconds) := by
  rw [answer] at h
  rcases perform_cases h with ⟨failure, hrecordable, -⟩ | ⟨failure, -, hattends, hfault⟩ |
      ⟨attended, hattends, hreal⟩
  · cases hrecordable
  · exact ⟨hattends.toFollows, hattends.shows hshows,
      fun hcalm => absurd hcalm.wait hfault⟩
  · obtain ⟨rfl, rfl⟩ := Prod.mk.inj hreal
    -- Putting the wait on record changes neither the limit nor, where all is calm, the
    -- cancellation.
    refine ⟨hattends.toFollows, hattends.shows hshows, fun hcalm => ?_⟩
    rw [hattends.waitLimit, hattends.toFollows.isCancelled_eq hcalm]

end World

end Rollout
