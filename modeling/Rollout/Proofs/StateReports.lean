import Rollout.Proofs.FailFast
import Rollout.Proofs.TrackedJobs

/-!
# Surveys are exact joins

A survey lists the tracked jobs of an application and joins them with what the scheduler says. It
has one entry for each tracked job, in the order in which the jobs are tracked, with the last thing
that was said about its name (`Survey.IsJoin`). So what is said about other names does not matter,
nor the order in which it is said, as long as nothing is said twice (`Survey.Agrees`).

The join goes by names that are worked out anew from the jobs. That they are distinct is the doing
of the store: a row keeps the fields of its name as they are, whatever else was overwritten in it,
and the table refuses a name that it has (`JobRow.AreStored`). All contents that additions,
removals and overwritten environments can leave behind are covered, and
`JobStore.areStored_visits` says that the visits to a store leave no other behind.

Who answers is left open: the collaborators are any handler whose answers about tracked jobs come
from the store. That holds in every world (`World.list_of_answer`).
-/

namespace Rollout

/-! ### Contents of a job store -/

namespace JobRow

/-- What a table of jobs can hold: rows that were admitted one after the other, less the ones that
were taken away, with environments that may have been overwritten. -/
inductive AreStored : List JobRow → Prop where
  | nil : AreStored []
  | add {rows : List JobRow} {now : String} {job : Job} {row : JobRow} (h : AreStored rows)
      (hrow : admit? now rows job = .ok row) : AreStored (rows ++ [row])
  | remove {rows : List JobRow} (h : AreStored rows) (name : String) :
      AreStored (rows.filter fun row => row.name ≠ name)
  | overwrite {rows : List JobRow} (h : AreStored rows) (name environment : String) :
      AreStored (rows.map fun row => if row.name = name then { row with environment } else row)

variable {rows : List JobRow}

/-- **Stored rows name themselves.** -/
theorem AreStored.namesItself (h : AreStored rows) : ∀ row ∈ rows, row.NamesItself := by
  -- On how the rows came to be: a row is added by admission, and nothing that happens to it later
  -- touches its name or its fields.
  induction h with
  | nil => exact fun _ hmem => nomatch hmem
  | add _ hrow ih =>
    intro row hmem
    rcases List.mem_append.mp hmem with hearlier | hlast
    · exact ih row hearlier
    · rw [List.mem_singleton.mp hlast]
      exact namesItself_of_admit? hrow
  | remove _ name ih => exact fun row hmem => ih row (List.mem_of_mem_filter hmem)
  | overwrite _ name environment ih =>
    intro row hmem
    obtain ⟨earlier, hearlier, rfl⟩ := List.mem_map.mp hmem
    -- Overwriting replaces the environment, which is no part of the name.
    split
    · exact ih earlier hearlier
    · exact ih earlier hearlier

/-- **Stored rows have names of their own.** -/
theorem AreStored.nodup_names (h : AreStored rows) : (rows.map (·.name)).Nodup := by
  induction h with
  | nil => exact List.nodup_nil
  | add _ hrow ih =>
    rw [List.map_append, List.nodup_append]
    refine ⟨ih, List.nodup_singleton _, ?_⟩
    intro name hname last hlast heq
    rw [heq, List.mem_singleton.mp hlast] at hname
    exact (name_of_admit? hrow).2 hname
  | remove _ name ih => exact ih.sublist (List.filter_sublist.map _)
  | overwrite _ name environment ih =>
    -- overwriting an environment leaves the names
    have hsame : ∀ row : JobRow,
        (if row.name = name then { row with environment } else row).name = row.name := by
      intro row
      split <;> rfl
    rw [List.map_map]
    simpa only [Function.comp_def, hsame] using ih

end JobRow

namespace JobStore

variable {site : Surroundings} {names : Value → Prop} {place : Place} {files : Files}

/-- The file at a place, which some names lead to, holds rows as a store leaves them behind. Rows
that others have written need not have this form. -/
def Holds (site : Surroundings) (names : Value → Prop) (place : Place) (files : Files) : Prop :=
  ∃ database, (∀ file, names file → Disk.Keeps site file place database files) ∧
    JobRow.AreStored database.jobRows

/-- A visit leaves stored rows behind, whatever it is for and whatever it answers. -/
theorem Holds.visit (h : Holds site names place files) {visit : Visit} (hfile : names visit.file)
    (hmoment : ∃ text, Calendar.timestamp visit.now = .ok text) :
    Holds site names place (visit.work site files).2 := by
  obtain ⟨database, hkeeps, hstored⟩ := h
  obtain ⟨file, now, errand⟩ := visit
  obtain ⟨text, hnow⟩ := hmoment
  have hkept := (hkeeps file hfile).at_time now
  -- An errand fails and changes nothing, or it does to the rows what one of the rules for stored
  -- rows does.
  cases errand with
  | «open» =>
    -- the tables are there already
    have hopen : JobStore.open { site with now } file files = (.ok (), files) :=
      Disk.during_of_ok (Disk.initialise_eq hkept)
    rw [Visit.work, Errand.work, hopen]
    exact ⟨database, hkeeps, hstored⟩
  | add job =>
    rw [Visit.work, Errand.work]
    cases hrow : JobRow.admit? text database.jobRows job with
    | error failure =>
      -- a refused job leaves the file as it is
      rw [add_of_refused hkept hnow hrow]
      exact ⟨database, hkeeps, hstored⟩
    | ok row =>
      obtain ⟨changed, after, hadd, hwrite, hfounded, hrows, -⟩ :=
        add_of_admitted hkept hnow hrow
      rw [hadd]
      -- every name of the place sees what was written
      refine ⟨changed, fun other hother => (hkeeps other hother).rewritten_self hwrite hfounded, ?_⟩
      rw [hrows]
      exact hstored.add hrow
  | remove job =>
    rw [Visit.work, Errand.work]
    cases hname : job.name? with
    | error failure =>
      rw [remove_of_nameless hkept hname]
      exact ⟨database, hkeeps, hstored⟩
    | ok name =>
      obtain ⟨changed, after, hremove, hwrite, hfounded, hrows, -⟩ := remove_apply hkept hname
      rw [hremove]
      refine ⟨changed, fun other hother => (hkeeps other hother).rewritten_self hwrite hfounded, ?_⟩
      rw [hrows]
      exact hstored.remove name

/-- **Visits leave stored rows behind.** By induction on the visits, each of which leaves the rows,
adds one or takes some away. -/
theorem areStored_visits (h : Holds site names place files) {history : List Visit}
    (hlegal : ∀ visit ∈ history,
      names visit.file ∧ ∃ text, Calendar.timestamp visit.now = .ok text) :
    Holds site names place (visits site history files).2 := by
  -- On the history, one visit at a time.
  induction history generalizing files with
  | nil => exact h
  | cons first rest ih =>
    obtain ⟨⟨hfile, hmoment⟩, hrest⟩ := List.forall_mem_cons.mp hlegal
    exact ih (h.visit hfile hmoment) hrest

end JobStore

/-- In a world the tracked jobs are those in the store, if they are told at all. -/
theorem World.list_of_answer {stores : Stores} {world : World} {file app : Value} {jobs : List Job}
    (hstore : stores.jobs = some file)
    (h : (answer stores (.list app) world).1 = (.ok jobs : Except Failure (List Job))) :
    (JobStore.list world.site file app world.files).1 = .ok jobs := by
  have hrecordable : recordable (.list app) = .ok () := rfl
  rw [answer, hstore, inStore_some, perform, hrecordable] at h
  change (recorded _ _ world).1 = _ at h
  rw [recorded] at h
  -- A fault in the place of the call would have been the answer.
  split at h
  · cases h
  · next hattend =>
    obtain ⟨-, rfl⟩ := Prod.mk.inj hattend
    exact h

namespace Survey

/-! ### Reports -/

variable {reports others : List Report} {names : List String} {name : String} {report : Report}

/-- The last report about a name is the one behind which none is about it. -/
theorem lastReport?_eq_some : lastReport? reports name = some report ↔
    report.name = .text name ∧ ∃ earlier later, reports = earlier ++ report :: later ∧
      ∀ other ∈ later, other.name ≠ .text name := by
  rw [lastReport?, List.find?_eq_some_iff_append, Value.same_text_iff, and_congr_right_iff]
  intro _
  have hnot : ∀ other : Report, (!other.name.same (.text name)) = true ↔
      other.name ≠ .text name := by
    intro other
    rw [Bool.not_eq_true', ← Bool.not_eq_true, Value.same_text_iff]
  simp only [hnot]
  -- it is looked for from behind
  constructor
  · rintro ⟨later, earlier, heq, hlater⟩
    refine ⟨earlier.reverse, later.reverse, ?_, fun other hmem => ?_⟩
    · rw [← List.reverse_reverse reports, heq]
      simp
    · exact hlater other (List.mem_reverse.mp hmem)
  · rintro ⟨earlier, later, rfl, hlater⟩
    refine ⟨later.reverse, earlier.reverse, ?_, fun other hmem => ?_⟩
    · simp
    · exact hlater other (List.mem_reverse.mp hmem)

theorem lastReport?_eq_none : lastReport? reports name = none ↔
    ∀ report ∈ reports, report.name ≠ .text name := by
  rw [lastReport?, List.find?_eq_none]
  simp only [List.mem_reverse, Value.same_text_iff, ne_eq]

/-- Where no name is reported twice, the last report about a name is the only one. -/
theorem lastReport?_of_nodup (h : (reports.map (·.name)).Nodup) :
    lastReport? reports name = some report ↔ report ∈ reports ∧ report.name = .text name := by
  rw [lastReport?_eq_some, and_comm, and_congr_left_iff]
  intro hname
  constructor
  · rintro ⟨earlier, later, rfl, -⟩
    exact List.mem_append_right _ List.mem_cons_self
  · intro hmem
    obtain ⟨earlier, later, rfl⟩ := List.append_of_mem hmem
    -- A second report about the name would be a repetition.
    refine ⟨earlier, later, rfl, fun other hother heq => ?_⟩
    rw [List.map_append, List.map_cons] at h
    have hlater := (List.nodup_cons.mp (List.nodup_append.mp h).2.1).1
    exact hlater (List.mem_map.mpr ⟨other, hother, heq.trans hname.symm⟩)

/-- What is reported about some names, in its order. A survey sees no more of a report than this. -/
def about (names : List String) (reports : List Report) : List Report :=
  reports.filter fun report => names.any fun name => report.name.same (.text name)

/-- Two reports come to the same for some names: only what is said about other names was added or
taken away, or nothing was said twice and the order is another one. -/
inductive Agrees (names : List String) (reports others : List Report) : Prop where
  | besides (h : about names others = about names reports)
  | permuted (hdistinct : (reports.map (·.name)).Nodup) (h : others.Perm reports)

/-- What is said about other names does not matter to the last report about a name. -/
theorem lastReport?_about (hname : name ∈ names) :
    lastReport? (about names reports) name = lastReport? reports name := by
  unfold lastReport? about
  rw [← List.filter_reverse, List.find?_filter]
  congr 1
  ext report
  -- A report about another name is passed over by the search in either list.
  cases hsame : report.name.same (.text name) with
  | false => exact decide_eq_false fun h => nomatch h.2
  | true => exact decide_eq_true ⟨List.any_eq_true.mpr ⟨name, hname, hsame⟩, rfl⟩

/-- **Reports that agree say the same last** about each of the names. -/
theorem Agrees.lastReport?_eq (h : Agrees names reports others) (hname : name ∈ names) :
    lastReport? others name = lastReport? reports name := by
  cases h with
  | besides h => rw [← lastReport?_about hname, h, lastReport?_about hname]
  -- Nothing is said twice, so what is said about a name does not depend on where it stands.
  | permuted hdistinct h =>
    have hdistinct' : (others.map (·.name)).Nodup := (h.map _).nodup_iff.mpr hdistinct
    ext report
    rw [lastReport?_of_nodup hdistinct', lastReport?_of_nodup hdistinct, h.mem_iff]

/-! ### The join -/

/-- The exact join of the rows of an application with a report: an entry for each row, under its
name and in its place, with what was said last about the name or with a sign that nothing was. -/
structure IsJoin (rows : List JobRow) (reports : List Report) (states : List JobState) : Prop where
  /-- There is one entry for each row, in the order of the rows. -/
  tracked : List.Forall₂ (fun row state => row.job? = .ok state.job ∧ state.name = row.name)
    rows states
  named : ∀ state ∈ states, state.job.name? = .ok state.name
  distinct : (states.map (·.name)).Nodup
  /-- What was said last about the name counts. -/
  reported : ∀ state ∈ states, ∀ earlier report later, reports = earlier ++ report :: later →
    report.name = .text state.name → (∀ other ∈ later, other.name ≠ .text state.name) →
      state.machine = report.machine ∧ state.state = report.state
  unreported : ∀ state ∈ states, (∀ report ∈ reports, report.name ≠ .text state.name) →
    state.machine = unknown ∧ state.state = unknown

/-- The entry of a job that has a name. -/
def entryOf (reports : List Report) (job : Job) (name : String) : JobState :=
  match lastReport? reports name with
  | some report => ⟨job, name, report.machine, report.state⟩
  | none => ⟨job, name, unknown, unknown⟩

theorem stateOf_eq {job : Job} (hname : job.name? = .ok name) (reports : List Report) :
    stateOf reports job = .ok (entryOf reports job name) := by
  rw [stateOf, hname, entryOf]
  show (match lastReport? reports name with
    | some report => _
    | none => _) = _
  cases lastReport? reports name <;> rfl

@[simp] theorem name_entryOf (reports : List Report) (job : Job) (name : String) :
    (entryOf reports job name).name = name := by
  rw [entryOf]
  split <;> rfl

@[simp] theorem job_entryOf (reports : List Report) (job : Job) (name : String) :
    (entryOf reports job name).job = job := by
  rw [entryOf]
  split <;> rfl

/-- **Rows that read back under their names have an entry each.** The entries come in the order of
the rows, so no permutation of the reports can show in them. -/
theorem exists_states {rows : List JobRow} {jobs : List Job}
    (hjobs : List.Forall₂ (fun row job => row.job? = .ok job) rows jobs)
    (hreads : ∀ row ∈ rows, row.ReadsByName) (reports : List Report) :
    ∃ states, jobs.mapM (stateOf reports) = .ok states ∧
      List.Forall₂ (fun row state => row.job? = .ok state.job ∧ state.job.name? = .ok row.name ∧
        state = entryOf reports state.job row.name) rows states := by
  -- Row by row, along with the jobs that were read from them.
  induction hjobs with
  | nil => exact ⟨[], rfl, .nil⟩
  | @cons row job rest others hjob _ ih =>
    obtain ⟨hfirst, hrest⟩ := List.forall_mem_cons.mp hreads
    have hname := hfirst job hjob
    obtain ⟨states, hstates, hall⟩ := ih hrest
    refine ⟨entryOf reports job row.name :: states, ?_, .cons ?_ hall⟩
    · rw [List.mapM_cons, stateOf_eq hname, hstates]
      rfl
    · rw [job_entryOf]
      exact ⟨hjob, hname, rfl⟩

/-- **Jobs that are read from stored rows are joined exactly.** Every row has its entry, and there
is no entry without a row. -/
theorem exists_isJoin {rows : List JobRow} {jobs : List Job}
    (hlisted : rows.mapM JobRow.job? = .ok jobs) (hreads : ∀ row ∈ rows, row.ReadsByName)
    (hdistinct : (rows.map (·.name)).Nodup) {reports : List Report}
    (hkeys : ∀ report ∈ reports, report.name.isKey = true) :
    ∃ states, join jobs reports = .ok states ∧ IsJoin rows reports states := by
  obtain ⟨states, hstates, hall⟩ := exists_states (mapM_eq_ok.mp hlisted) hreads reports
  -- states come in the order of the rows, and under their names
  have hnames : states.map (·.name) = rows.map (·.name) := by
    rw [eq_comm, ← List.forall₂_eq_eq_eq, List.forall₂_map_left_iff, List.forall₂_map_right_iff]
    refine hall.imp fun row state ⟨_, _, hstate⟩ => ?_
    rw [hstate, name_entryOf]
  -- Whatever stands in the join is the entry of a row, under the name of the row.
  have hentry : ∀ state ∈ states, state.job.name? = .ok state.name ∧
      state = entryOf reports state.job state.name := by
    intro state hmem
    obtain ⟨row, -, -, hname, hstate⟩ := exists_of_forall₂ hall hmem
    have hsame : state.name = row.name := by rw [hstate, name_entryOf]
    rw [hsame]
    exact ⟨hname, hstate⟩
  refine ⟨states, ?_, ?_, fun state hmem => (hentry state hmem).1, ?_, ?_, ?_⟩
  · rw [join, if_pos (List.all_eq_true.mpr hkeys), hstates]
  · refine hall.imp fun row state ⟨hjob, _, hstate⟩ => ⟨hjob, ?_⟩
    rw [hstate, name_entryOf]
  · rw [hnames]
    exact hdistinct
  · -- a later report of a name replaces an earlier one
    intro state hmem earlier report later hreports hname hlater
    have hlast : lastReport? reports state.name = some report :=
      lastReport?_eq_some.mpr ⟨hname, earlier, later, hreports, hlater⟩
    rw [(hentry state hmem).2, entryOf, hlast]
    exact ⟨rfl, rfl⟩
  · intro state hmem hnone
    rw [(hentry state hmem).2, entryOf, lastReport?_eq_none.mpr hnone]
    exact ⟨rfl, rfl⟩

/-- **Reports that agree about the tracked names are joined alike.** Reports about other names and
the order among different names do not show. -/
theorem join_congr {rows : List JobRow} {jobs : List Job} {reports others : List Report}
    (hlisted : rows.mapM JobRow.job? = .ok jobs) (hreads : ∀ row ∈ rows, row.ReadsByName)
    (hkeys : ∀ report ∈ reports, report.name.isKey = true)
    (hkeys' : ∀ report ∈ others, report.name.isKey = true)
    (hagrees : Agrees (rows.map (·.name)) reports others) :
    join jobs others = join jobs reports := by
  rw [join, join, if_pos (List.all_eq_true.mpr hkeys), if_pos (List.all_eq_true.mpr hkeys')]
  -- Each entry looks up one name, which is the name of a row, and on these the reports agree.
  refine mapM_congr_of_mem fun job hmem => ?_
  obtain ⟨row, hrow, hjob⟩ := (mem_of_mapM_eq_ok hlisted).mp hmem
  have hname := hreads row hrow job hjob
  rw [stateOf_eq hname, stateOf_eq hname, entryOf, entryOf,
    hagrees.lastReport?_eq (List.mem_map_of_mem hrow)]

/-! ### Surveys -/

variable {σ : Type} {handle : Plan.Handler Collaborators σ} {state : σ} {app : Value}

/-- What comes back when the tracked jobs are asked for. -/
def listed (handle : Plan.Handler Collaborators σ) (app : Value) (state : σ) :
    Except Failure (List Job) × σ := handle (.list app) state

/-- What comes back when the scheduler is asked after that. -/
def told (handle : Plan.Handler Collaborators σ) (app : Value) (state : σ) :
    Except Failure (List Report) × σ := handle .report (listed handle app state).2

/-- The calls of a survey: the tracked jobs, and then a report. Nothing is asked in between, and
nothing after a failure. -/
theorem survey_eq (app : Value) : (survey app).attempt =
    .call (.list app) fun (listed : Except Failure (List Job)) => match listed with
      | .error failure => .done (.error failure)
      | .ok jobs => .call .report fun (reported : Except Failure (List Report)) =>
        match reported with
        | .error failure => .done (.error failure)
        | .ok reports => .done (join jobs reports) := by
  refine congrArg (Plan.call (I := Collaborators) (.list app)) (funext fun listed => ?_)
  rcases listed with failure | jobs
  · rfl
  · refine congrArg (Plan.call (I := Collaborators) .report) (funext fun reported => ?_)
    rcases reported with failure | reports <;> rfl

/-- A survey that cannot list the tracked jobs fails with that. The scheduler is not asked. -/
theorem survey_of_unlisted {failure : Failure} (h : (listed handle app state).1 = .error failure) :
    (survey app).attempt.run handle state = (.error failure, (listed handle app state).2) ∧
      (survey app).attempt.conversation handle state = [⟨.list app, .error failure⟩] := by
  rw [listed] at h ⊢
  rw [survey_eq, Plan.run_call, Plan.conversation, h]
  exact ⟨rfl, rfl⟩

/-- A survey of which the scheduler tells nothing fails with that. -/
theorem survey_of_untold {jobs : List Job} {failure : Failure}
    (hlisted : (listed handle app state).1 = .ok jobs)
    (htold : (told handle app state).1 = .error failure) :
    (survey app).attempt.run handle state = (.error failure, (told handle app state).2) ∧
      (survey app).attempt.conversation handle state =
        [⟨.list app, .ok jobs⟩, ⟨.report, .error failure⟩] := by
  rw [told] at htold ⊢
  rw [listed] at hlisted htold ⊢
  rw [survey_eq, Plan.run_call, Plan.conversation, hlisted]
  dsimp only
  rw [Plan.run_call, Plan.conversation, htold]
  exact ⟨rfl, rfl⟩

/-- A survey joins what it is told. -/
theorem run_survey_of_told {jobs : List Job} {reports : List Report}
    (hlisted : (listed handle app state).1 = .ok jobs)
    (htold : (told handle app state).1 = .ok reports) :
    (survey app).attempt.run handle state = (join jobs reports, (told handle app state).2) := by
  rw [told] at htold ⊢
  rw [listed] at hlisted htold ⊢
  rw [survey_eq, Plan.run_call, hlisted]
  dsimp only
  rw [Plan.run_call, htold]
  rfl

/-- **Surveys are exact joins.** A failure to list the tracked jobs is the failure of the survey,
and the scheduler is not asked; a failure of the scheduler is the failure of the survey. Otherwise
the rows of the application are joined with the report, and any report that agrees about their
names would have given the same. -/
theorem survey_isJoin {app : String} {site : Surroundings} {file : Value} {place : Place}
    {database : Database} {files : Files} (hkeeps : Disk.Keeps site file place database files)
    (hstored : JobRow.AreStored database.jobRows)
    (hlists : ∀ jobs, (listed handle (.text app) state).1 = .ok jobs →
      (JobStore.list site file (.text app) files).1 = .ok jobs) :
    (∀ failure, (listed handle (.text app) state).1 = .error failure →
      (survey (.text app)).attempt.run handle state =
          (.error failure, (listed handle (.text app) state).2) ∧
        (survey (.text app)).attempt.conversation handle state =
          [⟨.list (.text app), .error failure⟩]) ∧
    ∀ jobs, (listed handle (.text app) state).1 = .ok jobs →
      (∀ failure, (told handle (.text app) state).1 = .error failure →
        (survey (.text app)).attempt.run handle state =
            (.error failure, (told handle (.text app) state).2) ∧
          (survey (.text app)).attempt.conversation handle state =
            [⟨.list (.text app), .ok jobs⟩, ⟨.report, .error failure⟩]) ∧
      ∀ reports, (told handle (.text app) state).1 = .ok reports →
        (∀ report ∈ reports, report.name.isKey = true) →
        ∃ states, (survey (.text app)).attempt.run handle state =
            (.ok states, (told handle (.text app) state).2) ∧
          IsJoin (database.jobRows.filter fun row => row.app = app) reports states ∧
          ∀ (others : List Report) (other : Plan.Handler Collaborators σ) (before : σ),
            (∀ report ∈ others, report.name.isKey = true) →
            Agrees ((database.jobRows.filter fun row => row.app = app).map (·.name)) reports
              others →
            (listed other (.text app) before).1 = .ok jobs →
            (told other (.text app) before).1 = .ok others →
              ((survey (.text app)).attempt.run other before).1 = .ok states := by
  refine ⟨fun failure => survey_of_unlisted, fun jobs hlisted =>
    ⟨fun failure => survey_of_untold hlisted, fun reports htold hkeys => ?_⟩⟩
  have hrows : (database.jobRows.filter fun row => row.app = app).mapM JobRow.job? = .ok jobs := by
    have hlist := hlists jobs hlisted
    rw [JobStore.list_apply hkeeps] at hlist
    exact hlist
  -- What is known of stored rows is all that the join needs.
  have hreads : ∀ row ∈ database.jobRows.filter fun row => row.app = app, row.ReadsByName :=
    fun row hmem => (hstored.namesItself row (List.mem_of_mem_filter hmem)).readsByName
  have hdistinct : ((database.jobRows.filter fun row => row.app = app).map (·.name)).Nodup :=
    hstored.nodup_names.sublist (List.filter_sublist.map _)
  obtain ⟨states, hstates, hjoin⟩ := exists_isJoin hrows hreads hdistinct hkeys
  refine ⟨states, ?_, hjoin, ?_⟩
  · rw [run_survey_of_told hlisted htold, hstates]
  -- Another survey of the same jobs, by whoever, reads another report to the same effect.
  · intro others other before hkeys' hagrees hlisted' htold'
    rw [run_survey_of_told hlisted' htold', join_congr hrows hreads hkeys hkeys' hagrees, hstates]

/-- The row of an instance of an application. -/
def rowOf (app name : String) (ordinal : Int) : JobRow :=
  ⟨name, app, .int 3, "web", .int ordinal, "{}", "repo", "v3", "./run", "2023-11-14T22:13:20Z"⟩

/-- The instances of an application and of another one, as they were tracked. -/
def trackedRows : List JobRow :=
  [rowOf "shop" "shop.3.web.1" 1, rowOf "blog" "blog.3.web.1" 1, rowOf "shop" "shop.3.web.2" 2]

/-- Files with one store. -/
def trackedFiles : Files :=
  [(["tmp"], .directory), (["state.db", "tmp"], .file (.database
    ⟨some ⟨trackedRows.mapIdx fun index row => (index + 1, row), 3⟩, some .empty, some .empty,
      true⟩))]

/-- Something is said twice about a tracked name, and something about names of other
applications and of none. -/
def muddled : List Report :=
  [⟨.text "shop.3.web.1", .text "m1", .text "starting"⟩,
    ⟨.text "blog.3.web.1", .text "m1", .text "running"⟩,
    ⟨.text "stray", .text "m2", .text "failed"⟩,
    ⟨.text "shop.3.web.1", .text "m2", .text "running"⟩]

/-- The store of the files, and a scheduler that always says the same. -/
def saying (reports : List Report) : Plan.Handler Collaborators Files
  | .list app => JobStore.list ⟨["tmp"], .text "state.db", 0⟩ (.text "state.db") app
  | .report => fun files => (.ok reports, files)
  | request => fun files => (request.fail .unsuitable, files)

/-- The rows are those that a store leaves behind. -/
theorem areStored_trackedRows : JobRow.AreStored trackedRows := by
  have hadmits : ∀ (rows : List JobRow) (app name : String) (ordinal : Int),
      (JobRow.admit? "2023-11-14T22:13:20Z" rows ⟨.text app, .int 3, .text "web", .int ordinal,
        .dict [], ⟨.text "repo", .text "v3"⟩, .text "./run"⟩).toOption =
          some (rowOf app name ordinal) →
      JobRow.AreStored rows → JobRow.AreStored (rows ++ [rowOf app name ordinal]) :=
    fun _ _ _ _ hrow h => h.add (eq_ok_of_toOption hrow)
  exact hadmits [_, _] "shop" _ 2 (by decide +kernel) (hadmits [_] "blog" _ 1 (by decide +kernel)
    (hadmits [] "shop" _ 1 (by decide +kernel) .nil))

/-- **What was said last counts**, and what was said about names that are not tracked may be left
out. -/
theorem survey_muddled : ∃ states,
    (survey (.text "shop")).attempt.run (saying muddled) trackedFiles = (.ok states, trackedFiles) ∧
      IsJoin (trackedRows.filter fun row => row.app = "shop") muddled states ∧
      states.map (fun state => (state.name, state.machine.shown, state.state.shown)) =
        [("shop.3.web.1", "m2", "running"), ("shop.3.web.2", "unknown", "unknown")] ∧
      ((survey (.text "shop")).attempt.run
          (saying (about ["shop.3.web.1", "shop.3.web.2"] muddled)) trackedFiles).1 =
        .ok states := by
  have hkeeps : Disk.Keeps ⟨["tmp"], .text "state.db", 0⟩ (.text "state.db") ["state.db", "tmp"]
      ⟨some ⟨trackedRows.mapIdx fun index row => (index + 1, row), 3⟩, some .empty, some .empty,
        true⟩ trackedFiles := ⟨rfl, rfl, ⟨rfl, rfl⟩, rfl, rfl⟩
  obtain ⟨jobs, hjobs⟩ : ∃ jobs,
      (listed (saying muddled) (.text "shop") trackedFiles).1.toOption = some jobs :=
    Option.isSome_iff_exists.mp (by decide +kernel)
  have hlisted := eq_ok_of_toOption hjobs
  have hlists : ∀ jobs, (listed (saying muddled) (.text "shop") trackedFiles).1 = .ok jobs →
      (JobStore.list ⟨["tmp"], .text "state.db", 0⟩ (.text "state.db") (.text "shop")
        trackedFiles).1 = .ok jobs := fun _ h => h
  obtain ⟨states, hstates, hjoin, hagree⟩ :=
    ((survey_isJoin hkeeps areStored_trackedRows hlists).2 jobs hlisted).2 muddled rfl (by decide)
  -- The report is cut down to the names that are tracked, and that agrees with it.
  have hless := hagree (about ["shop.3.web.1", "shop.3.web.2"] muddled) (saying (about _ muddled))
    trackedFiles (by decide) (.besides rfl) hlisted rfl
  refine ⟨states, hstates, hjoin, ?_, hless⟩
  have hshown : ((survey (.text "shop")).attempt.run (saying muddled) trackedFiles).1.toOption.map
      (fun states => states.map fun state =>
        (state.name, state.machine.shown, state.state.shown)) =
      some [("shop.3.web.1", "m2", "running"), ("shop.3.web.2", "unknown", "unknown")] := by
    decide +kernel
  rw [hstates] at hshown
  exact Option.some.inj hshown

end Survey

end Rollout
