import Rollout.Proofs.Agreement
import Rollout.Proofs.CleanupRuns
import Rollout.Proofs.LogFailures
import Rollout.Proofs.Reporting

/-!
# Rollouts that fail fast

A rollout lists the tracked jobs, and then it schedules and tracks the new ones, one after the
other. At the first call that fails, or at the first job that has no name, it stops. Nothing is
undone, and nothing more is done: no event is logged and there is no task.

* `Placement.exists_stop_of_leads` and `Blueprint.goes_of_leads` read off the conversation of a
  rollout how far it got, for all answers that may come.
* `Ledger.Gains` says that rows were added for jobs, behind all the others and under names that were
  new. A conversation in which jobs are placed adds rows for these jobs
  (`Placement.Placed.gains`), and where a rollout stops no row is added
  (`Placement.Stops.jobs_eq`).
* `Session.fails_fast` puts both together for a session.

That a job which is to be retired never has the name of a new one is checked nowhere. It holds
because the store refuses names that it has (`Ledger.Gains.apart`): the stale jobs were read from
rows, and the rows that a store admits read back under their own names
(`JobRow.readsByName_of_admit?`).

Versions may be integers of any size. Beyond 64 bits the store takes no job, so that a rollout stops
at its first one; if there is none, it is the log that refuses, and there is no task although
nothing failed before (`Session.not_completed_beyond_64_bits`).
-/

namespace Rollout

open Plan (Leads leads_done_iff leads_call_iff leads_work_bind_iff)

variable {app : String} {blueprint : Blueprint} {formation : Formation} {job : Job}
  {jobs : List Job} {said : List Said} {failure : Failure}

/-! ### Inputs of their types -/

/-- A blueprint for a release of the application as its interface types it. The version is an
integer of any size, and the configuration variables can be written. Nothing is said about names, so
there may be process types that make no job name. -/
structure Blueprint.IsWellTyped (app : String) (blueprint : Blueprint) : Prop where
  app : blueprint.release.app = .text app
  version : ∃ n, blueprint.release.version = .int n
  image : blueprint.IsTextual
  vars : ∀ entry ∈ blueprint.vars,
    (∃ name, entry.1.shown? = .ok name) ∧ ∃ value, entry.2.shown? = .ok value

/-- A formation as its interface types it, with whole quantities of any size. There is no limit of
64 bits here, since a job store that refuses a number is one of the failures in question. -/
structure Formation.IsWellTyped (formation : Formation) : Prop where
  types : ∀ entry ∈ formation, ∃ type, entry.1 = .text type
  commands : formation.IsTextual
  quantities : ∀ entry ∈ formation, ∃ count, entry.2.quantity = .whole count

/-- Variables that can be written make an environment. -/
theorem Environment.exists_ofVars {vars : List (Value × Value)}
    (h : ∀ entry ∈ vars,
      (∃ name, entry.1.shown? = .ok name) ∧ ∃ value, entry.2.shown? = .ok value) :
    ∃ environment, ofVars vars = .ok environment := by
  -- Once all entries are texts, putting them into an environment cannot fail.
  suffices htexts : ∃ entries, texts vars = .ok entries by
    obtain ⟨entries, hentries⟩ := htexts
    rw [ofVars, hentries]
    exact ⟨_, rfl⟩
  induction vars with
  | nil => exact ⟨[], rfl⟩
  | cons entry rest ih =>
    obtain ⟨⟨⟨name, hname⟩, ⟨value, hvalue⟩⟩, hrest⟩ := List.forall_mem_cons.mp h
    obtain ⟨entries, hentries⟩ := ih hrest
    rw [texts, hname, hvalue, hentries]
    exact ⟨_, rfl⟩

namespace Blueprint.IsWellTyped

/-- **The jobs of a release can be told.** No job needs a name for that: names are made only when a
job is placed. -/
theorem exists_jobs (h : blueprint.IsWellTyped app) (hformation : formation.IsWellTyped) :
    ∃ jobs, blueprint.jobs formation = .ok jobs := by
  obtain ⟨environment, henvironment⟩ := Environment.exists_ofVars h.vars
  exact Blueprint.exists_jobs_of_texts henvironment hformation.types hformation.quantities

/-- What is said of the jobs of a release: they are textual, and of the application and version. -/
theorem of_mem_jobs (h : blueprint.IsWellTyped app) (hformation : formation.IsWellTyped)
    (hjobs : blueprint.jobs formation = .ok jobs) (hmem : job ∈ jobs) :
    job.IsTextual ∧ job.app = .text app ∧ job.version = blueprint.release.version := by
  have hsubmits : blueprint.Submits formation (fun _ => True) job :=
    Ledger.submits_of_mem_jobs hjobs (fun _ _ _ _ => trivial) job hmem
  exact ⟨hsubmits.isTextual h.image hformation.commands, hsubmits.app.trans h.app,
    hsubmits.version⟩

end Blueprint.IsWellTyped

/-! ### How far a rollout gets -/

namespace Placement

/-- How placing a job fails, and what is said about the job. In the first two cases nothing was done
for it; in the last one it stays scheduled. -/
inductive Stops (job : Job) (failure : Failure) : List Said → Prop where
  /-- It has no name. -/
  | nameless (hname : job.name? = .error failure) : Stops job failure []
  /-- The scheduler failed. -/
  | unscheduled {definition : Definition} (hdefinition : definition? job = .ok definition) :
    Stops job failure [⟨.schedule definition, .error failure⟩]
  /-- It was scheduled, and the store failed. -/
  | untracked {definition : Definition} (hdefinition : definition? job = .ok definition) :
    Stops job failure [⟨.schedule definition, .ok ()⟩, ⟨.add job, .error failure⟩]

/-- A textual job can be defined unless it has no name. -/
theorem name?_of_undefined (h : job.IsTextual) (hfailure : definition? job = .error failure) :
    job.name? = .error failure := by
  obtain ⟨environment, henvironment, hnodup⟩ := h.environment
  -- The environment of a textual job is read back without fail, so only the name can be missing.
  cases hname : job.name? with
  | error cause =>
    rw [definition?, hname] at hfailure
    exact congrArg _ (Except.error.inj hfailure)
  | ok name =>
    rw [definition?, hname, henvironment] at hfailure
    change (Environment.ofValue? (.ofFields environment) >>= _) = _ at hfailure
    rw [Environment.ofValue?_ofFields hnodup] at hfailure
    cases hfailure

theorem stops_of_leads (htextual : job.IsTextual)
    (h : Leads (place job).attempt said (.done (.error failure))) : Stops job failure said := by
  -- The three steps of placing a job, and each of them may be where it stops.
  rcases Work.leads_ofExcept_bind_iff.mp h with ⟨definition, hdefinition, hlater⟩ |
      ⟨cause, hcause, rfl, hfailure⟩
  · rcases leads_work_bind_iff.mp hlater with ⟨_, first, second, hschedule, hadd, rfl⟩ |
        ⟨cause, hschedule, hfailure⟩
    · obtain rfl := Call.leads_ask_iff.mp hschedule
      obtain rfl := Call.leads_ask_iff.mp hadd
      exact .untracked hdefinition
    · obtain rfl := Except.error.inj hfailure
      obtain rfl := Call.leads_ask_iff.mp hschedule
      exact .unscheduled hdefinition
  · obtain rfl := Except.error.inj hfailure
    exact .nameless (name?_of_undefined htextual hcause)

/-- **Placing jobs stops at the first one that cannot be placed.** The jobs before it were placed,
and nothing was said of those behind it. -/
theorem exists_stop_of_leads (htextual : ∀ job ∈ jobs, job.IsTextual)
    (h : Leads (placeAll jobs).attempt said (.done (.error failure))) :
    ∃ done job rest placed last, jobs = done ++ job :: rest ∧ said = placed ++ last ∧
      Placed done placed ∧ Stops job failure last := by
  -- On the jobs. If the first one is placed, the stop is among the others; if not, it is here.
  induction jobs generalizing said with
  | nil => cases (leads_done_iff.mp h).2
  | cons first others ih =>
    obtain ⟨hfirst, hothers⟩ := List.forall_mem_cons.mp htextual
    rw [placeAll_cons] at h
    rcases leads_work_bind_iff.mp h with ⟨_, beginning, later, hplace, hlater, rfl⟩ |
        ⟨cause, hplace, hfailure⟩
    · obtain ⟨definition, hdefinition, rfl⟩ := leads_place_iff.mp hplace
      obtain ⟨done, job, rest, placed, last, rfl, rfl, hplaced, hstops⟩ := ih hothers hlater
      exact ⟨first :: done, job, rest, _, last, rfl, rfl, .cons hdefinition hplaced, hstops⟩
    · obtain rfl := Except.error.inj hfailure
      exact ⟨[], first, others, [], said, rfl, rfl, .nil, stops_of_leads hfirst hplace⟩

end Placement

/-- One call is made to log an event, and if logging fails then as the call did. -/
theorem Action.exists_answer_of_log {event : Event} {result : Except Failure Unit}
    (h : Leads (Action.log event).attempt said (.done result)) :
    ∃ answer, said = [⟨.log event, answer⟩] ∧
      ∀ failure, result = .error failure → answer = .error failure := by
  obtain ⟨answer, later, rfl, hlater⟩ := leads_call_iff.mp h
  cases answer with
  | ok _ =>
    obtain ⟨rfl, rfl⟩ := leads_done_iff.mp hlater
    exact ⟨_, rfl, nofun⟩
  | error cause =>
    obtain ⟨rfl, rfl⟩ := leads_done_iff.mp hlater
    -- The log lets some failures pass; those it does not are handed on as they are.
    refine ⟨_, rfl, fun failure hfailure => ?_⟩
    split at hfailure
    · cases hfailure
    · exact congrArg _ (Except.error.inj hfailure)

namespace Blueprint

/-- How a rollout of some jobs goes, going by what is said in it. If it comes to its end, the jobs
that were listed are stale. -/
inductive Goes (blueprint : Blueprint) (jobs : List Job) :
    List Said → Except Failure (List Job) → Prop where
  /-- The tracked jobs could not be listed. -/
  | unlisted {failure : Failure} :
    Goes blueprint jobs [⟨.list blueprint.release.app, .error failure⟩] (.error failure)
  /-- The first jobs were placed, and the next one could not be placed. -/
  | stopped {stale done rest : List Job} {job : Job} {placed last : List Said} {failure : Failure}
      (hjobs : jobs = done ++ job :: rest) (hplaced : Placement.Placed done placed)
      (hstops : Placement.Stops job failure last) :
    Goes blueprint jobs (⟨.list blueprint.release.app, .ok stale⟩ :: (placed ++ last))
      (.error failure)
  /-- All jobs were placed, and the log did not take that. -/
  | unlogged {stale : List Job} {placed closing : List Said} {failure : Failure}
      (hplaced : Placement.Placed jobs placed)
      (hclosing : (blueprint.release.version.shown? = .error failure ∧ closing = []) ∨
        ∃ message, closing = [⟨.log (.info blueprint.release message), .error failure⟩]) :
    Goes blueprint jobs (⟨.list blueprint.release.app, .ok stale⟩ :: (placed ++ closing))
      (.error failure)
  /-- All jobs were placed, and the log was told. -/
  | completed {stale : List Job} {placed : List Said} {message : String}
      {answer : Except Failure Unit} (hplaced : Placement.Placed jobs placed) :
    Goes blueprint jobs (⟨.list blueprint.release.app, .ok stale⟩ ::
      (placed ++ [⟨.log (.info blueprint.release message), answer⟩])) (.ok stale)

/-- **How a rollout goes**, whatever is answered in it. What its calls do to a ledger is left to
`failsFast_of_goes`. -/
theorem goes_of_leads {policy : Policy} {result : Except Failure Cleanup}
    (hpolicy : policy.IsValid) (hjobs : blueprint.jobs formation = .ok jobs)
    (htextual : ∀ job ∈ jobs, job.IsTextual)
    (h : Leads (rollOut policy blueprint formation).attempt said (.done result)) :
    blueprint.Goes jobs said (result.map (·.stale)) := by
  -- The steps of a rollout one by one: at each of them the conversation ends, or goes on with the
  -- next.
  rcases leads_work_bind_iff.mp h with ⟨stale, _, later, hlist, hexpand, rfl⟩ |
      ⟨failure, hlist, rfl⟩ <;> obtain rfl := Action.leads_list_iff.mp hlist
  case inr => exact .unlisted
  rw [List.singleton_append]
  rcases Work.leads_ofExcept_bind_iff.mp hexpand with ⟨found, hfound, hplace⟩ | ⟨_, hfound, -⟩ <;>
    cases hjobs.symm.trans hfound
  rcases leads_work_bind_iff.mp hplace with ⟨_, placed, rest, hplaced, htell, rfl⟩ |
      ⟨failure, hfailed, rfl⟩
  case inr =>
    obtain ⟨done, job, rest, placed, last, rfl, rfl, hplaced, hstops⟩ :=
      Placement.exists_stop_of_leads htextual hfailed
    exact .stopped rfl hplaced hstops
  -- All jobs are placed from here on, and only the log is left.
  rw [Placement.leads_placeAll_iff] at hplaced
  rcases Work.leads_ofExcept_bind_iff.mp htell with ⟨version, -, hlog⟩ | ⟨failure, hshown, rfl, rfl⟩
  case inr => exact .unlogged hplaced (.inl ⟨hshown, rfl⟩)
  -- the settings are valid, so there is a cleanup whatever is stale
  obtain ⟨cleanup, hcleanup⟩ := hpolicy.exists_cleanup stale blueprint.release policy.events
  have hmade {answer : Except Failure Cleanup} {closing : List Said}
      (hlast : Leads (Work.ofExcept (Cleanup.make? stale policy.grace policy.retries policy.delay
        blueprint.release policy.events) : Action Cleanup).attempt closing (.done answer)) :
      closing = [] ∧ answer = .ok cleanup := by
    rw [hcleanup] at hlast
    exact leads_done_iff.mp hlast
  obtain ⟨rfl, -⟩ := Session.cleanup_of_make? hcleanup
  rcases leads_work_bind_iff.mp hlog with ⟨_, told, last, htold, hlast, rfl⟩ | ⟨failure, htold, rfl⟩
  · obtain ⟨answer, rfl, -⟩ := Action.exists_answer_of_log htold
    obtain ⟨rfl, rfl⟩ := hmade hlast
    exact .completed hplaced
  · obtain ⟨answer, rfl, hanswer⟩ := Action.exists_answer_of_log htold
    rw [hanswer failure rfl]
    exact .unlogged hplaced (.inr ⟨_, rfl⟩)

end Blueprint

/-! ### What is tracked afterwards -/

namespace JobRow

/-- What can be read back from the row has the name of the row. Rows of foreign hands need not have
this: a row may say one name, and its fields another. -/
def ReadsByName (row : JobRow) : Prop := ∀ job, row.job? = .ok job → job.name? = .ok row.name

/-- What a name is made of is kept in the row of a job as it is. -/
theorem parts_of_ofJob {name document now app type : String} {version ordinal : Int} {row : JobRow}
    (h : ofJob name document now job = .ok row) (happ : job.app = .text app)
    (hversion : job.version = .int version) (htype : job.type = .text type)
    (hordinal : job.ordinal = .int ordinal) :
    row.app = app ∧ row.version = .int version ∧ row.type = type ∧ row.ordinal = .int ordinal := by
  have hint {position : Nat} {n : Int} {table column : String} {cell kept : Cell}
      (hbind : Cell.bind position (.int n) = .ok cell)
      (hrequire : cell.requireInteger table column = .ok kept) : kept = .int n := by
    rw [Cell.bind] at hbind
    split at hbind
    · obtain rfl := Except.ok.inj hbind
      exact (Except.ok.inj hrequire).symm
    · cases hbind
  -- the parameters are bound one after the other, and then the columns are checked
  rw [ofJob, happ, hversion, htype, hordinal] at h
  simp only [bind_eq_ok] at h
  obtain ⟨_, -, appCell, hboundApp, versionCell, hboundVersion, typeCell, hboundType, ordinalCell,
    hboundOrdinal, _, -, _, -, _, -, _, -, _, -, _, -, keptApp, hkeptApp, keptVersion, hkeptVersion,
    keptType, hkeptType, keptOrdinal, hkeptOrdinal, _, -, _, -, _, -, _, -, _, -, hrow⟩ := h
  obtain rfl := Except.ok.inj hboundApp
  obtain rfl := Except.ok.inj hboundType
  obtain rfl := Except.ok.inj hrow
  exact ⟨(Except.ok.inj hkeptApp).symm, hint hboundVersion hkeptVersion,
    (Except.ok.inj hkeptType).symm, hint hboundOrdinal hkeptOrdinal⟩

/-- The name of a row is the name of its fields. The job that is read from it then has the name that
it is tracked under. -/
def NamesItself (row : JobRow) : Prop :=
  JobName.text? (.text row.app) row.version.toValue (.text row.type) row.ordinal.toValue =
    .ok row.name

theorem NamesItself.readsByName {row : JobRow} (h : row.NamesItself) : row.ReadsByName := by
  intro kept hkeeps
  obtain ⟨environment, -, hkeeps⟩ := bind_eq_ok.mp hkeeps
  obtain rfl := Except.ok.inj hkeeps
  exact h

/-- **All rows that a store admits name themselves**, whatever their jobs are. -/
theorem namesItself_of_admit? {now : String} {rows : List JobRow} {row : JobRow}
    (h : admit? now rows job = .ok row) : row.NamesItself := by
  have hname := (name_of_admit? h).1
  obtain ⟨name, -, -, -, happ, hversion, htype, hordinal⟩ := JobName.text?_eq_ok hname
  obtain ⟨given, -, h⟩ := bind_eq_ok.mp h
  obtain ⟨document, -, h⟩ := bind_eq_ok.mp h
  obtain ⟨admitted, hrow, h⟩ := bind_eq_ok.mp h
  -- the row that is admitted is the one that was made of the job
  obtain rfl : admitted = row := by
    rw [unique?] at h
    split at h
    · cases h
    · exact Except.ok.inj h
  obtain ⟨hrowApp, hrowVersion, hrowType, hrowOrdinal⟩ :=
    parts_of_ofJob hrow happ hversion htype hordinal
  -- its cells are the fields that the name is made of
  rw [NamesItself, ← hname, Job.name?, happ, hversion, htype, hordinal, hrowApp, hrowVersion,
    hrowType, hrowOrdinal]
  rfl

theorem readsByName_of_admit? {now : String} {rows : List JobRow} {row : JobRow}
    (h : admit? now rows job = .ok row) : row.ReadsByName := (namesItself_of_admit? h).readsByName

/-- The row reads back as the job, under the name of the job. More is meant than the name:
environment, image and command read back too. -/
structure Holds (row : JobRow) (job : Job) : Prop where
  storable : job.IsStorable
  tracks : row.Tracks job
  name : job.name? = .ok row.name

end JobRow

namespace Ledger

variable {moment : Moment} {ledger middle after : Ledger} {rows : List JobRow} {cancelled : Bool}
  {exchange : Said}

theorem IsSound.readsByName (h : ledger.IsSound) : ∀ row ∈ ledger.jobs, row.ReadsByName :=
  fun _ hmem _ hjob => h.name_of_job? hmem hjob

/-- Rows were added for jobs of the application: behind all the others, one for each job, and under
names that were new. Nothing else happened to the rows. -/
structure Gains (app : String) (jobs : List Job) (rows : List JobRow) (ledger after : Ledger) :
    Prop where
  all : after.jobs = ledger.jobs ++ rows
  own : after.rowsOf app = ledger.rowsOf app ++ rows
  each : List.Forall₂ JobRow.Holds rows jobs
  fresh : ∀ row ∈ rows, row.name ∉ ledger.tracked

namespace Gains

theorem nil (h : after.jobs = ledger.jobs) : Gains app [] [] ledger after where
  all := by rw [h, List.append_nil]
  own := by rw [rowsOf, h, List.append_nil, rowsOf]
  each := .nil
  fresh := fun _ hmem => nomatch hmem

theorem of_jobs_eq {last : Ledger} (h : Gains app jobs rows ledger after)
    (hsame : last.jobs = after.jobs) : Gains app jobs rows ledger last where
  all := hsame.trans h.all
  own := by rw [← h.own, rowsOf, hsame, rowsOf]
  each := h.each
  fresh := h.fresh

/-- A row is added, and then further ones. -/
theorem cons {row : JobRow} (h : Gains app jobs rows middle after)
    (hadded : middle.jobs = ledger.jobs ++ [row]) (happ : row.app = app) (hholds : row.Holds job)
    (hnew : row.name ∉ ledger.tracked) : Gains app (job :: jobs) (row :: rows) ledger after where
  all := by rw [h.all, hadded, List.append_assoc, List.singleton_append]
  own := by
    -- The rows of the application end with the new one, since its row is one of them.
    rw [h.own, rowsOf, hadded, List.filter_append, rowsOf, List.append_assoc]
    simp [happ]
  each := .cons hholds h.each
  fresh := by
    -- A name that was new after the first row was added was new before.
    refine List.forall_mem_cons.mpr ⟨hnew, fun other hmem hold => h.fresh other hmem ?_⟩
    rw [tracked, hadded, List.map_append]
    exact List.mem_append_left _ hold

end Gains

namespace Gives

/-- Scheduling changes no row. -/
theorem jobs_eq_of_schedule {definition : Definition} {answer : Except Failure Unit}
    (h : Gives moment ledger ⟨.schedule definition, answer⟩ cancelled after) :
    after.jobs = ledger.jobs := by
  rcases h.made with ⟨-, -, rfl⟩ | hanswer
  · rfl
  · rw [Ledger.answer] at hanswer
    -- Whether it is scheduled or refused, the rows are not touched.
    split at hanswer
    all_goals
      obtain ⟨-, rfl⟩ := Prod.mk.inj hanswer
      rfl

/-- A store that tracks a job has admitted it. -/
theorem exists_row (h : Gives moment ledger ⟨.add job, .ok ()⟩ cancelled after) :
    ∃ row, JobRow.admit? moment.now ledger.jobs job = .ok row ∧ after = ledger.add row := by
  rcases h.made with ⟨-, ⟨failure, hfail⟩, -⟩ | hanswer
  -- A fault would have been the answer.
  · cases hfail
  · rw [Ledger.answer] at hanswer
    split at hanswer
    · next row hrow =>
      obtain ⟨-, rfl⟩ := Prod.mk.inj hanswer
      exact ⟨row, hrow, rfl⟩
    · cases (Prod.mk.inj hanswer).1

/-- A store that fails to track a job has changed nothing. -/
theorem eq_of_refused (h : Gives moment ledger ⟨.add job, .error failure⟩ cancelled after) :
    after = ledger := by
  rcases h.made with ⟨-, -, rfl⟩ | hanswer
  · rfl
  · rw [Ledger.answer] at hanswer
    split at hanswer
    · cases (Prod.mk.inj hanswer).1
    · exact (Prod.mk.inj hanswer).2.symm

theorem listed (h : Gives moment ledger ⟨.list (.text app), .ok jobs⟩ cancelled after) :
    ledger.listed? (.text app) = .ok jobs := by
  rcases h.made with ⟨-, ⟨failure, hfail⟩, -⟩ | hanswer
  · cases hfail
  · exact (Prod.mk.inj hanswer).1

end Gives

end Ledger

namespace Placement

variable {moment : Ledger.Moment} {ledger after : Ledger} {cancelled : Bool}

/-- **What is placed is tracked**, one row for each job. That a job was added says that its name was
not there before. -/
theorem Placed.gains (h : Placed jobs said)
    (htextual : ∀ job ∈ jobs, job.IsTextual ∧ job.app = .text app)
    (htakes : Ledger.Takes moment ledger said cancelled after) :
    ∃ rows, Ledger.Gains app jobs rows ledger after := by
  -- On the jobs that were placed. Each took two calls, the second of which added its row.
  induction h generalizing moment ledger with
  | nil =>
    obtain ⟨rfl, -⟩ := htakes.nil_cases
    exact ⟨[], .nil rfl⟩
  | @cons job rest definition later hdefinition _ ih =>
    obtain ⟨⟨htext, happ⟩, hrest⟩ := List.forall_mem_cons.mp htextual
    obtain ⟨_, scheduled, hschedule, htakes⟩ := htakes.cons_cases
    obtain ⟨_, added, hadd, htakes⟩ := htakes.cons_cases
    obtain ⟨row, hrow, rfl⟩ := hadd.exists_row
    have hjobs := hschedule.jobs_eq_of_schedule
    obtain ⟨rows, hgains⟩ := ih hrest htakes
    -- the row is new, and says what the job is
    obtain ⟨hname, hnew⟩ := JobRow.name_of_admit? hrow
    rw [hjobs] at hnew
    refine ⟨row :: rows, hgains.cons ?_ ((JobRow.fields_of_admit? hrow).1 app happ)
      ⟨htext.isStorable hrow, htext.tracks hrow, hname⟩ hnew⟩
    rw [Ledger.add, hjobs]

/-- **Where placing jobs stops no row is added.** -/
theorem Stops.jobs_eq (h : Stops job failure said)
    (htakes : Ledger.Takes moment ledger said cancelled after) : after.jobs = ledger.jobs := by
  cases h with
  | nameless _ => rw [htakes.nil_cases.1]
  | unscheduled _ =>
    obtain ⟨_, scheduled, hschedule, hlast⟩ := htakes.cons_cases
    rw [hlast.nil_cases.1, hschedule.jobs_eq_of_schedule]
  | untracked _ =>
    obtain ⟨_, scheduled, hschedule, htakes⟩ := htakes.cons_cases
    obtain ⟨_, refused, hadd, hlast⟩ := htakes.cons_cases
    rw [hlast.nil_cases.1, hadd.eq_of_refused, hschedule.jobs_eq_of_schedule]

end Placement

/-! ### The log -/

/-- **An event that can be stored is logged**, unless a fault fails in its place. -/
theorem World.answer_of_storable {α : Type} {opened : Opened} {stores : Stores} {world : World}
    {ledger : Ledger} {event : Event} {answer : Except Failure Unit} (hserve : stores.Serve opened)
    (hshows : world.Shows opened ledger) (hspares : world.Spares .log) (hevent : event.IsStorable)
    (plan : Plan Collaborators α)
    (hmem : ⟨.log event, answer⟩ ∈ World.conversation stores plan world) : answer = .ok () := by
  -- On the plan, up to the call in question: faults for the log are spared all the way.
  induction plan generalizing world ledger with
  | done result => cases hmem
  | call request next ih =>
    rcases List.mem_cons.mp hmem with heq | hlater
    · obtain ⟨rfl, hanswer⟩ := Exchange.mk.inj heq
      rw [eq_of_heq hanswer]
      exact (answer_log hserve hshows hspares hevent (Prod.ext rfl rfl)).2.1
    · obtain ⟨next, -, hshown, -⟩ := answer_gives hserve hshows request
      exact ih _ hshown (spares_run stores request.ask hspares) hlater

/-! ### Rollouts -/

namespace Ledger

variable {moment : Moment} {ledger after : Ledger} {cancelled : Bool}

/-- How a rollout of some jobs goes on a ledger, going by what is said in it: the jobs that are to
be retired if it comes to its end, and the ledger afterwards. In each of the four cases the list of
exchanges is given in full, so nothing else was asked of anybody. -/
inductive FailsFast (ledger : Ledger) (app : String) (release : Release) (jobs : List Job) :
    List Said → Except Failure (List Job) → Ledger → Prop where
  /-- The tracked jobs could not be listed. -/
  | unlisted {failure : Failure} :
    FailsFast ledger app release jobs [⟨.list (.text app), .error failure⟩] (.error failure) ledger
  /-- The first jobs were placed, and the next one could not be placed. -/
  | stopped {stale done rest : List Job} {job : Job} {placed last : List Said} {failure : Failure}
      {rows : List JobRow} {after : Ledger} (hlisted : ledger.listed? (.text app) = .ok stale)
      (hjobs : jobs = done ++ job :: rest) (hplaced : Placement.Placed done placed)
      (hstops : Placement.Stops job failure last) (hgains : Gains app done rows ledger after) :
    FailsFast ledger app release jobs (⟨.list (.text app), .ok stale⟩ :: (placed ++ last))
      (.error failure) after
  /-- There were no jobs, and the log does not take the version. -/
  | unlogged {stale : List Job} {closing : List Said} {failure : Failure} {after : Ledger}
      (hjobs : jobs = []) (hversion : ∃ n, release.version = .int n ∧ CellNumber.fits n = false)
      (hclosing : closing = [] ∨ ∃ event, closing = [⟨.log event, .error failure⟩])
      (hsame : after.jobs = ledger.jobs) :
    FailsFast ledger app release jobs (⟨.list (.text app), .ok stale⟩ :: closing) (.error failure)
      after
  /-- All jobs were placed. The jobs that were tracked before are to be retired, and none of them
  has the name of a new one. -/
  | completed {stale : List Job} {placed : List Said} {event : Event} {answer : Except Failure Unit}
      {rows : List JobRow} {after : Ledger} (hlisted : ledger.listed? (.text app) = .ok stale)
      (hplaced : Placement.Placed jobs placed) (hgains : Gains app jobs rows ledger after)
      (hapart : ∀ old ∈ stale, ∀ new ∈ jobs, old.name? ≠ new.name?) :
    FailsFast ledger app release jobs
      (⟨.list (.text app), .ok stale⟩ :: (placed ++ [⟨.log event, answer⟩])) (.ok stale) after

/-- **New names are new**: what was listed has other names than what was added since. So a cleanup
of what was listed cannot take away what was placed. -/
theorem Gains.apart {stale : List Job} {rows : List JobRow}
    (h : Gains app jobs rows ledger after) (hlisted : ledger.listed? (.text app) = .ok stale)
    (hreads : ∀ row ∈ ledger.jobs, row.ReadsByName) :
    ∀ old ∈ stale, ∀ new ∈ jobs, old.name? ≠ new.name? := by
  intro old hold new hnew hsame
  rw [listed?_text] at hlisted
  -- The old job was read from a row, and for the new one a row was added.
  obtain ⟨row, hrow, hread⟩ := (mem_listed hlisted).mp hold
  obtain ⟨added, hadded, hholds⟩ := exists_of_forall₂ h.each hnew
  have hkept : row ∈ ledger.jobs := (List.mem_filter.mp hrow).1
  -- Both rows say the names of their jobs, so the new name would have been tracked already.
  rw [hreads row hkept old hread, hholds.name, Except.ok.injEq] at hsame
  exact h.fresh added hadded (hsame ▸ List.mem_map_of_mem hkept)

/-- Listing the jobs first changes nothing. -/
theorem Takes.of_listed {stale : List Job}
    (h : Takes moment ledger (⟨.list (.text app), .ok stale⟩ :: said) cancelled after) :
    ledger.listed? (.text app) = .ok stale ∧
      ∃ between, Takes { moment with cancelled := between } ledger said cancelled after := by
  obtain ⟨between, listed, hlist, hlater⟩ := h.cons_cases
  have hsame := Cleanup.eq_of_gives hlist fun _ => rfl
  rw [hsame] at hlater
  exact ⟨hlist.listed, between, hlater⟩

/-- If the log does not take the version of a release, it is too wide. -/
theorem not_fits_of_unlogged {n : Int} {closing : List Said}
    (happ : blueprint.release.app = .text app) (hversion : blueprint.release.version = .int n)
    (hclosing : (blueprint.release.version.shown? = .error failure ∧ closing = []) ∨
      ∃ message, closing = [⟨.log (.info blueprint.release message), .error failure⟩])
    (htaken : ∀ {event answer}, event.IsStorable → ⟨.log event, answer⟩ ∈ closing →
      answer = .ok ()) : CellNumber.fits n = false := by
  refine Bool.eq_false_iff.mpr fun hfits => ?_
  -- A version that fits can be written and stored, so neither way of being refused is open.
  rcases hclosing with ⟨hshown, -⟩ | ⟨message, rfl⟩
  · rw [hversion, Value.shown?, Value.writable, CellNumber.writable_of_fits hfits] at hshown
    cases hshown
  · have hevent : (Event.info blueprint.release message).IsStorable :=
      ⟨⟨_, rfl⟩, ⟨app, happ⟩, ⟨n, hversion, hfits⟩, ⟨message, rfl⟩⟩
    cases htaken hevent List.mem_cons_self

/-- **What a rollout does to a ledger**, going by how it goes. In each of the ways that it can go,
the calls are followed through the ledger up to the failure. -/
theorem failsFast_of_goes {result : Except Failure (List Job)}
    (hgoes : blueprint.Goes jobs said result) (happ : blueprint.release.app = .text app)
    (hversion : ∃ n, blueprint.release.version = .int n)
    (hplaces : ∀ job ∈ jobs,
      job.IsTextual ∧ job.app = .text app ∧ job.version = blueprint.release.version)
    (hreads : ∀ row ∈ ledger.jobs, row.ReadsByName)
    (htaken : ∀ {event answer}, event.IsStorable → ⟨.log event, answer⟩ ∈ said → answer = .ok ())
    (htakes : Takes moment ledger said cancelled after) :
    ledger.FailsFast app blueprint.release jobs said result after := by
  have htextual : ∀ job ∈ jobs, job.IsTextual ∧ job.app = .text app :=
    fun job hmem => ⟨(hplaces job hmem).1, (hplaces job hmem).2.1⟩
  -- The conversation is cut where the rollout was, and each part does to the ledger what its calls
  -- do.
  cases hgoes with
  | unlisted =>
    rw [happ] at htakes ⊢
    obtain ⟨_, listed, hlist, hlast⟩ := htakes.cons_cases
    rw [hlast.nil_cases.1, Cleanup.eq_of_gives hlist fun _ => rfl]
    exact .unlisted
  | @stopped stale done rest job placed last failure hjobs hplaced hstops =>
    rw [happ] at htakes ⊢
    obtain ⟨hlisted, _, hlater⟩ := htakes.of_listed
    obtain ⟨_, middle, hplacing, hlast⟩ := hlater.append_cases
    obtain ⟨rows, hgains⟩ := hplaced.gains
      (fun job hmem => htextual job (hjobs ▸ List.mem_append_left _ hmem)) hplacing
    exact .stopped hlisted hjobs hplaced hstops (hgains.of_jobs_eq (hstops.jobs_eq hlast))
  | @unlogged stale placed closing failure hplaced hclosing =>
    rw [happ] at htakes ⊢
    obtain ⟨hlisted, _, hlater⟩ := htakes.of_listed
    obtain ⟨_, middle, hplacing, hlast⟩ := hlater.append_cases
    obtain ⟨rows, hgains⟩ := hplaced.gains htextual hplacing
    obtain ⟨n, hversion⟩ := hversion
    have hwide := not_fits_of_unlogged happ hversion hclosing fun hevent hmem =>
      htaken hevent (List.mem_cons_of_mem _ (List.mem_append_right _ hmem))
    -- the store takes no job of such a version either
    obtain rfl : jobs = [] := by
      refine List.eq_nil_iff_forall_not_mem.mpr fun job hmem => ?_
      obtain ⟨row, -, hholds⟩ := exists_of_forall₂ hgains.each hmem
      obtain ⟨m, hjob, hfits⟩ := hholds.storable.version
      obtain rfl := Value.int.inj ((hjob.symm.trans (hplaces job hmem).2.2).trans hversion)
      exact Bool.false_ne_true (hwide.symm.trans hfits)
    obtain rfl := List.forall₂_nil_right_iff.mp hgains.each
    have hsame := hgains.all.trans (List.append_nil _)
    cases hplaced
    rcases hclosing with ⟨-, rfl⟩ | ⟨message, rfl⟩
    · rw [hlast.nil_cases.1]
      exact .unlogged rfl ⟨n, hversion, hwide⟩ (.inl rfl) hsame
    · obtain ⟨_, logged, hlog, hend⟩ := hlast.cons_cases
      rw [hend.nil_cases.1, Cleanup.eq_of_gives hlog fun _ => rfl]
      exact .unlogged rfl ⟨n, hversion, hwide⟩ (.inr ⟨_, rfl⟩) hsame
  -- Everything went well, and the rows that were added show that no stale job has a new name.
  | @completed stale placed message answer hplaced =>
    rw [happ] at htakes ⊢
    obtain ⟨hlisted, _, hlater⟩ := htakes.of_listed
    obtain ⟨_, middle, hplacing, hlast⟩ := hlater.append_cases
    obtain ⟨rows, hgains⟩ := hplaced.gains htextual hplacing
    obtain ⟨_, logged, hlog, hend⟩ := hlast.cons_cases
    obtain rfl := Cleanup.eq_of_gives hlog fun _ => rfl
    rw [hend.nil_cases.1]
    exact .completed hlisted hplaced hgains (hgains.apart hlisted hreads)

end Ledger

namespace Session

variable {opened : Opened} {session : Session} {ledger : Ledger} {name : Value}

/-- What a session answers to a rollout, and the session afterwards. -/
inductive RollsOut (session : Session) (left : World) :
    Except Failure (List Job) → Except Failure Nat × Session → Prop where
  /-- The failure is handed on as it is, and there is no task. -/
  | failed {failure : Failure} :
    RollsOut session left (.error failure) (.error failure, { session with world := left })
  /-- There is a new task for the stale jobs, which was started. -/
  | started {stale : List Job} {task : Task} {world : World} (hstale : task.cleanup.stale = stale) :
    RollsOut session left (.ok stale)
      (.ok session.tasks.length, { session with world, tasks := session.tasks ++ [task] })

/-- **A rollout fails fast**: it schedules and tracks the jobs of the release in their order, up to
the first failure. Then there is no task, and besides the rows of the jobs that were tracked nothing
is tracked that was not. Otherwise there is a task, which has the jobs from before. -/
theorem fails_fast (hopened : session.opened = some opened) (hpolicy : opened.policy.IsValid)
    (hshows : session.world.Shows opened ledger)
    (hreads : ∀ row ∈ ledger.jobs, row.ReadsByName) (hspares : session.world.Spares .log)
    (hblueprint : blueprint.IsWellTyped app) (hformation : formation.IsWellTyped)
    (hfound : session.formation? name = some formation) :
    let work := (rollOut opened.policy blueprint formation).attempt
    let left := (World.run opened.stores work session.world).2
    ∃ jobs stale moved, blueprint.jobs formation = .ok jobs ∧
      ledger.FailsFast app blueprint.release jobs
        (World.conversation opened.stores work session.world) stale moved ∧
      left.Shows opened moved ∧
      session.RollsOut left stale (session.perform (Step.rollOut blueprint name)) := by
  intro work left
  obtain ⟨jobs, hjobs⟩ := hblueprint.exists_jobs hformation
  -- The run is described twice: by what it does to the ledger, and by what is said in it.
  obtain ⟨moved, htakes, hmoved⟩ := World.run_takes opened.serve_stores hshows work
  have hleads := Plan.leads_conversation (World.answer opened.stores) work session.world
  have hof (job : Job) (hmem : job ∈ jobs) := hblueprint.of_mem_jobs hformation hjobs hmem
  have hgoes := Blueprint.goes_of_leads hpolicy hjobs (fun job hmem => (hof job hmem).1) hleads
  have hfast := Ledger.failsFast_of_goes hgoes hblueprint.app hblueprint.version hof hreads
    (fun hevent hmem => World.answer_of_storable opened.serve_stores hshows hspares hevent work
      hmem) htakes
  refine ⟨jobs, _, moved, hjobs, hfast, hmoved, ?_⟩
  -- A failure ends the step, and a cleanup is made into a task that is started at once.
  rcases hrun : World.run opened.stores work session.world with ⟨failure | cleanup, after⟩
  · have hcame : (Plan.run (World.answer opened.stores) work session.world).1 = .error failure :=
      congrArg Prod.fst hrun
    have hleft : left = after := congrArg Prod.snd hrun
    rw [perform_rollOut_of_error hopened hfound hrun, hcame, hleft]
    exact .failed
  · have hcame : (Plan.run (World.answer opened.stores) work session.world).1 = .ok cleanup :=
      congrArg Prod.fst hrun
    have hstarted := (Task.ofCleanup (some opened.jobs) cleanup).sameAs_start after
    rcases hstart : (Task.ofCleanup (some opened.jobs) cleanup).start after with ⟨task, world⟩
    rw [hstart] at hstarted
    rw [perform_rollOut_of_ok hopened hfound hrun hstart, hcame]
    exact .started (congrArg Cleanup.stale hstarted.cleanup)

/-- A formation of two instances, and a scheduler that rejects the second one. -/
def rejectingSecond : List Deed :=
  [.define (.text "formation") (.web 2), .arm [.rejecting .schedule "web.1.web.2"]]

/-- If the scheduler rejects the second job, the first one is scheduled and tracked. -/
theorem fails_fast_at_second :
    let session := fresh.follow rejectingSecond
    let work := (rollOut freshlyOpened.policy (.web 1) (.web 2)).attempt
    let left := (World.run freshlyOpened.stores work session.world).2
    (∃ (ledger : Ledger) (jobs : List Job) (stale : Except Failure (List Job)) (moved : Ledger),
      (Blueprint.web 1).jobs (.web 2) = .ok jobs ∧
      ledger.FailsFast "web" (Blueprint.web 1).release jobs
        (World.conversation freshlyOpened.stores work session.world) stale moved ∧
      left.Shows freshlyOpened moved ∧
      session.RollsOut left stale
        (session.perform (Step.rollOut (.web 1) (.text "formation")))) ∧
      left.history.map (·.point) = [.list, .schedule, .add, .schedule] ∧
      (session.perform (Step.rollOut (.web 1) (.text "formation"))).1.toOption = none := by
  have hlegal : ∀ deed ∈ rejectingSecond, deed.IsLegal "web" := by
    rw [rejectingSecond]
    simp only [List.forall_mem_cons]
    exact ⟨Formation.isTyped_web (by decide +kernel), Deed.isLegal_rejecting (by decide) _ _,
      fun _ hmem => nomatch hmem⟩
  -- The session has been followed from the start, so its ledger is sound and its log is spared.
  obtain ⟨ledger, horder, -⟩ := (fresh_inOrder "web").follow hlegal
  have hblueprint : (Blueprint.web 1).IsWellTyped "web" :=
    ⟨rfl, ⟨1, rfl⟩, ⟨⟨_, rfl⟩, ⟨_, rfl⟩⟩, fun _ hmem => nomatch hmem⟩
  have hformation : (Formation.web 2).IsWellTyped :=
    ⟨List.forall_mem_singleton.mpr ⟨_, rfl⟩, List.forall_mem_singleton.mpr ⟨_, rfl⟩,
      List.forall_mem_singleton.mpr ⟨2, rfl⟩⟩
  have hpolicy : freshlyOpened.policy.IsValid := ⟨⟨_, rfl⟩, ⟨_, rfl⟩, ⟨_, rfl⟩⟩
  exact ⟨⟨ledger, fails_fast horder.isOpen hpolicy horder.shows horder.sound.readsByName
    horder.spares.log hblueprint hformation rfl⟩, by decide +kernel, by decide +kernel⟩

/-- **Beyond 64 bits** there is no task although there was nothing that could fail: no job was to be
placed, and it is the log that refuses the version. -/
theorem not_completed_beyond_64_bits :
    let session := fresh.follow [.define (.text "formation") (.web 0)]
    let blueprint := Blueprint.web 9223372036854775808
    let done := session.perform (Step.rollOut blueprint (.text "formation"))
    session.world.faults = [] ∧ (blueprint.jobs (.web 0)).toOption.map List.length = some 0 ∧
      done.2.world.history.map (·.point) = [.list, .log] ∧ done.1.toOption = none ∧
      done.2.tasks.length = 0 := by
  intro session blueprint done
  exact ⟨rfl, by decide +kernel, by decide +kernel, by decide +kernel, by decide +kernel⟩

end Session

end Rollout
