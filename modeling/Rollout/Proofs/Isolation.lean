import Rollout.Proofs.Doings

/-!
# Applications leave each other alone

All applications share one scheduler and one table of jobs, and there jobs go by their names alone.
What keeps applications apart is that a name belongs to one of them only: the application can be
read off it, since it has no dot. So whatever is done for an application, with whatever inputs and
faults, nothing that another application can see is different afterwards.

* `Session.viewOf app` is what an application can see: its rows in both stores, the definitions that
  the scheduler has under its names, and how a survey finds its jobs.
* `Session.Concerns app` says that a deed is done for an application.
* `Session.leaves_others_alone` is the result.

One thing has to be known of the tables beforehand, and is kept by all deeds: each row has a name of
the application that it says it belongs to (`Ledger.IsNamed`).
-/

namespace Rollout

/-! ### Names that begin with an application -/

/-- The text begins with the application and a dot. This is all that a scheduler can go by, since it
knows names only. -/
def IsUnder (app given : String) : Prop := app.toList ++ ['.'] <+: given.toList

instance (app given : String) : Decidable (IsUnder app given) :=
  inferInstanceAs (Decidable (_ <+: _))

theorem IsNameOf.isUnder {app given : String} (h : IsNameOf app given) : IsUnder app given := by
  obtain ⟨version, type, ordinal, htext⟩ := h
  obtain ⟨name, -, -, rfl, happ, -⟩ := JobName.text?_eq_ok htext
  rw [IsUnder, Value.text.inj happ, JobName.text]
  simp only [String.toList_append, List.append_assoc]
  exact ⟨_, List.append_assoc _ _ _⟩

/-- **A name begins with no application but its own**, as far as applications without dots go. One
like `web.1` would begin names of `web`, which is why dots are excluded. -/
theorem IsNameOf.eq_of_isUnder {app other given : String} (h : IsNameOf app given)
    (hother : isFieldName other = true) (hunder : IsUnder other given) : app = other := by
  obtain ⟨version, type, ordinal, htext⟩ := h
  obtain ⟨name, hvalid, -, rfl, happ, -⟩ := JobName.text?_eq_ok htext
  obtain ⟨rest, hrest⟩ := hunder
  -- both are the first piece of the name
  have hpieces := JobName.pieces_text hvalid
  rw [← hrest, List.append_assoc, List.singleton_append,
    Text.pieces_append (dot_not_mem_of_isFieldName hother)] at hpieces
  rw [Value.text.inj happ]
  exact (String.toList_inj.mp (List.cons.inj hpieces).1).symm

namespace Named

variable {α : Type} {name : String}

/-- Setting a name makes no difference where it does not count. -/
theorem filter_set (test : String → Bool) (h : test name = false) (value : α) (table : Named α) :
    (set name value table).filter (fun entry => test entry.1) =
      table.filter fun entry => test entry.1 := by
  induction table with
  | nil => exact List.filter_cons_of_neg (by rw [h]; exact Bool.false_ne_true)
  | cons entry rest ih =>
    rw [set]
    split
    · next hname =>
      rw [List.filter_cons_of_neg, List.filter_cons_of_neg] <;> simp only [hname, h] <;>
        exact Bool.false_ne_true
    · rw [List.filter_cons, List.filter_cons, ih]

/-- Nor does erasing it. -/
theorem filter_erase (test : String → Bool) (h : test name = false) (table : Named α) :
    (erase name table).filter (fun entry => test entry.1) =
      table.filter fun entry => test entry.1 := by
  rw [erase, List.filter_filter]
  refine List.filter_congr fun entry _ => ?_
  by_cases hname : entry.1 = name
  · rw [hname, h, Bool.false_and]
  · rw [decide_eq_true hname, Bool.and_true]

end Named

/-! ### On a ledger -/

/-- All that the scope allows is about the application. -/
structure Scope.IsAbout (app : String) (scope : Scope) : Prop where
  places : ∀ job, scope.places job → job.app = .text app
  withdraws : ∀ job, scope.withdraws job → job.app = .text app
  writes : ∀ process, scope.writes process → process.app = .text app

/-- The row of a process says its application. -/
theorem ProcessRow.app_of_ofProcess {now app : String} {process : ProcessType} {row : ProcessRow}
    (happ : process.app = .text app) (h : ofProcess now process = .ok row) : row.app = app := by
  rw [ofProcess, happ] at h
  simp only [bind_eq_ok] at h
  obtain ⟨appCell, happCell, _, -, _, -, _, -, _, -, kept, hkept, _, -, _, -, _, -, _, -, hrow⟩ := h
  obtain rfl := Except.ok.inj happCell
  obtain rfl := Except.ok.inj hrow
  exact (Except.ok.inj hkept).symm

/-- Writing a row down makes no difference to the rows of another application. -/
theorem ProcessRow.filter_put {other : String} {row : ProcessRow} (h : row.app ≠ other)
    (rows : List ProcessRow) :
    (row.put rows).filter (fun kept => kept.app = other) =
      rows.filter fun kept => kept.app = other := by
  refine filter_put_of_not (fun kept hkept => ?_) rows
  rw [isOf, Bool.and_eq_true, decide_eq_true_eq] at hkept
  exact decide_eq_false (hkept.1 ▸ h)

namespace Ledger

variable {scope : Scope} {now app other : String} {ledger middle after : Ledger}
  {record : List Attempt}

/-- Each row has a name of its application. Rows that are added by the program do, and nothing
changes a row that is there. -/
def IsNamed (ledger : Ledger) : Prop := ∀ row ∈ ledger.jobs, IsNameOf row.app row.name

/-- What is wanted of the processes of an application. -/
def processesOf (app : String) (ledger : Ledger) : List ProcessRow :=
  ledger.processes.filter fun row => row.app = app

/-- What the scheduler has under names that begin with an application. -/
def definitionsOf (app : String) (ledger : Ledger) : Named Definition :=
  ledger.definitions.filter fun entry => IsUnder app entry.1

/-- Two ledgers hold the same of an application. Definitions count as its own if their names begin
with it, rows if they say so. -/
structure SameOf (app : String) (ledger after : Ledger) : Prop where
  jobs : after.rowsOf app = ledger.rowsOf app
  processes : after.processesOf app = ledger.processesOf app
  definitions : after.definitionsOf app = ledger.definitionsOf app

namespace SameOf

theorem refl (app : String) (ledger : Ledger) : ledger.SameOf app ledger := ⟨rfl, rfl, rfl⟩

theorem trans (h : ledger.SameOf app middle) (h' : middle.SameOf app after) :
    ledger.SameOf app after :=
  ⟨h'.jobs.trans h.jobs, h'.processes.trans h.processes, h'.definitions.trans h.definitions⟩

theorem schedule (hother : isFieldName other = true) (hne : app ≠ other) {definition : Definition}
    (hname : IsNameOf app definition.name) (ledger : Ledger) :
    ledger.SameOf other (ledger.schedule definition) :=
  ⟨rfl, rfl, Named.filter_set (fun name => IsUnder other name)
    (decide_eq_false fun hunder => hne (hname.eq_of_isUnder hother hunder)) _ _⟩

theorem unschedule (hother : isFieldName other = true) (hne : app ≠ other) {name : String}
    (hname : IsNameOf app name) (ledger : Ledger) :
    ledger.SameOf other (ledger.unschedule name) :=
  ⟨rfl, rfl, Named.filter_erase (fun name => IsUnder other name)
    (decide_eq_false fun hunder => hne (hname.eq_of_isUnder hother hunder)) _⟩

/-- Tracking a job of another application. -/
theorem add {row : JobRow} (hrow : row.app ≠ other) (ledger : Ledger) :
    ledger.SameOf other (ledger.add row) where
  jobs := by
    rw [rowsOf, Ledger.add, List.filter_append, List.filter_cons_of_neg, List.filter_nil,
      List.append_nil]
    · rfl
    · exact fun heq => hrow (of_decide_eq_true heq)
  processes := rfl
  definitions := rfl

/-- No longer tracking a name of another application. -/
theorem remove (hnamed : ledger.IsNamed) (hne : app ≠ other) {name : String}
    (hname : IsNameOf app name) : ledger.SameOf other (ledger.remove name) where
  jobs := by
    rw [rowsOf, Ledger.remove, List.filter_filter]
    refine List.filter_congr fun row hmem => ?_
    by_cases happ : row.app = other
    · -- a row of the name would belong to both applications
      have hrow : row.name ≠ name := fun heq =>
        hne (hname.app_unique (happ ▸ heq ▸ hnamed row hmem))
      rw [decide_eq_true hrow, Bool.and_true]
    · rw [decide_eq_false happ, Bool.false_and]
  processes := rfl
  definitions := rfl

theorem want {row : ProcessRow} (hrow : row.app ≠ other) (ledger : Ledger) :
    ledger.SameOf other (ledger.want row) where
  jobs := rfl
  processes := ProcessRow.filter_put hrow ledger.processes
  definitions := rfl

end SameOf

/-! ### Strokes -/

/-- **A stroke keeps every row named**, whatever it is about. A row is only added under the name
that its job has. -/
theorem Stroke.isNamed (h : Stroke scope now ledger after) (hnamed : ledger.IsNamed) :
    after.IsNamed := by
  cases h with
  | placed hjob hdefinition hrow =>
    obtain ⟨hname, -⟩ := JobRow.name_of_admit? hrow
    obtain ⟨_, -, -, -, happ, -⟩ := JobName.text?_eq_ok hname
    intro row hmem
    rcases List.mem_append.mp hmem with hold | hnew
    · exact hnamed row hold
    · rw [List.mem_singleton.mp hnew, (JobRow.fields_of_admit? hrow).1 _ happ]
      exact Job.isNameOf_of_name? happ hname
  | withdrawn => exact fun row hmem => hnamed row (List.mem_of_mem_filter hmem)
  | wanted => exact hnamed

/-- **A stroke for one application leaves every other one alone.** It changes rows and definitions
of one name only, and this name begins with its own application. -/
theorem Stroke.sameOf (habout : scope.IsAbout app) (hother : isFieldName other = true)
    (hne : app ≠ other) (hnamed : ledger.IsNamed) (h : Stroke scope now ledger after) :
    ledger.SameOf other after := by
  cases h with
  | placed hjob hdefinition hrow =>
    -- what is placed bears the name of the application
    have happ := habout.places _ hjob
    have hname := Job.isNameOf_of_name? happ (Placement.name_of_definition? hdefinition)
    refine (SameOf.schedule hother hne hname ledger).trans (SameOf.add ?_ _)
    rw [(JobRow.fields_of_admit? hrow).1 app happ]
    exact hne
  | @withdrawn job name hjob hgiven =>
    have hname := Job.isNameOf_of_name? (habout.withdraws _ hjob) hgiven
    have hkept : (ledger.unschedule name).IsNamed := hnamed
    exact (SameOf.unschedule hother hne hname ledger).trans (.remove hkept hne hname)
  | wanted hprocess hrow =>
    -- and so does the row of a process type
    refine SameOf.want ?_ ledger
    rw [ProcessRow.app_of_ofProcess (habout.writes _ hprocess) hrow]
    exact hne

/-- So does half a stroke. -/
theorem Halved.sameOf {failure : Failure} (habout : scope.IsAbout app)
    (hother : isFieldName other = true) (hne : app ≠ other)
    (h : Halved scope now record failure ledger after) : ledger.SameOf other after := by
  cases h with
  | unadded hjob hdefinition =>
    exact .schedule hother hne (Job.isNameOf_of_name? (habout.places _ hjob)
      (Placement.name_of_definition? hdefinition)) ledger
  | unremoved hjob hname =>
    exact .unschedule hother hne (Job.isNameOf_of_name? (habout.withdraws _ hjob) hname) ledger

theorem isNamed_of_strokes (h : Strokes scope now ledger after) (hnamed : ledger.IsNamed) :
    after.IsNamed := by
  induction h with
  | refl => exact hnamed
  | tail _ hstroke ih => exact hstroke.isNamed ih

theorem sameOf_of_strokes (habout : scope.IsAbout app) (hother : isFieldName other = true)
    (hne : app ≠ other) (hnamed : ledger.IsNamed) (h : Strokes scope now ledger after) :
    ledger.SameOf other after := by
  induction h with
  | refl => exact .refl other ledger
  | tail hstrokes hstroke ih =>
    exact ih.trans (hstroke.sameOf habout hother hne (isNamed_of_strokes hstrokes hnamed))

/-- **Work keeps every row named.** -/
theorem Worked.isNamed {ending : Option Failure} (h : Worked scope now record ending ledger after)
    (hnamed : ledger.IsNamed) : after.IsNamed := by
  obtain ⟨middle, hstrokes, rfl | ⟨failure, -, hhalved⟩⟩ := h
  · exact isNamed_of_strokes hstrokes hnamed
  · -- half a stroke leaves the rows alone
    have hmiddle := isNamed_of_strokes hstrokes hnamed
    cases hhalved <;> exact hmiddle

/-- **Work for one application leaves every other one alone.** It is made of strokes, of which the
last one may have been left halfway. -/
theorem Worked.sameOf {ending : Option Failure} (habout : scope.IsAbout app)
    (hother : isFieldName other = true) (hne : app ≠ other) (hnamed : ledger.IsNamed)
    (h : Worked scope now record ending ledger after) : ledger.SameOf other after := by
  obtain ⟨middle, hstrokes, hend⟩ := h
  have hmiddle := sameOf_of_strokes habout hother hne hnamed hstrokes
  rcases hend with rfl | ⟨failure, -, hhalved⟩
  · exact hmiddle
  · exact hmiddle.trans (hhalved.sameOf habout hother hne)

end Ledger

/-! ### What a survey finds -/

theorem Memory.isKey_reports (memory : Memory) :
    (memory.reports.all fun report => report.name.isKey) = true := by
  rw [List.all_eq_true]
  intro report hmem
  obtain ⟨name, -, rfl⟩ := List.mem_map.mp hmem
  rfl

namespace Survey

/-- What a scheduler in memory says of a name of an application can be told from what it has under
names of the application. -/
theorem lastReport?_reports {app name : String} (h : IsUnder app name) (machine : String)
    (definitions : Named Definition) :
    lastReport? (Memory.reports ⟨machine, definitions⟩) name =
      lastReport? (Memory.reports ⟨machine, definitions.filter fun entry => IsUnder app entry.1⟩)
        name := by
  simp only [lastReport?, Memory.reports, Named.names, List.map_map, ← List.map_reverse,
    ← List.filter_reverse, List.find?_map, List.find?_filter]
  -- a report of the name itself is under the application
  congr 2
  funext entry
  simp only [Function.comp_apply, Value.same_text]
  by_cases hname : entry.1 = name
  · rw [hname, decide_eq_true h]
    simp
  · simp [hname]

theorem stateOf_reports {app : String} {job : Job} (happ : job.app = .text app) (machine : String)
    (definitions : Named Definition) :
    stateOf (Memory.reports ⟨machine, definitions⟩) job =
      stateOf (Memory.reports ⟨machine, definitions.filter fun entry => IsUnder app entry.1⟩)
        job := by
  rw [stateOf, stateOf]
  cases hname : job.name? with
  | error failure => rfl
  | ok name =>
    have hunder := (Job.isNameOf_of_name? happ hname).isUnder
    dsimp only [bind, Except.bind]
    rw [lastReport?_reports hunder machine definitions]

/-- Jobs of an application are joined with what the scheduler has under names of it. -/
theorem join_reports {app : String} {jobs : List Job} (hjobs : ∀ job ∈ jobs, job.app = .text app)
    (machine : String) (definitions : Named Definition) :
    join jobs (Memory.reports ⟨machine, definitions⟩) =
      join jobs
        (Memory.reports ⟨machine, definitions.filter fun entry => IsUnder app entry.1⟩) := by
  rw [join, join, if_pos (Memory.isKey_reports _), if_pos (Memory.isKey_reports _)]
  exact mapM_congr_of_mem fun job hmem => stateOf_reports (hjobs job hmem) machine definitions

end Survey

namespace Ledger

variable {app : String} {ledger after : Ledger}

/-- What a survey of an application finds. -/
def survey (machine app : String) (ledger : Ledger) : Except Failure (List JobState) := do
  let jobs ← ledger.listed? (.text app)
  Survey.join jobs (ledger.memory machine).reports

/-- **A survey finds what it found before** if nothing of the application is different. The reports
of other jobs are looked at too, but they join with no row of it. -/
theorem SameOf.survey_eq (h : ledger.SameOf app after) (machine : String) :
    after.survey machine app = ledger.survey machine app := by
  rw [survey, survey, listed?_text, h.jobs, ← listed?_text]
  cases hlisted : ledger.listed? (.text app) with
  | error failure => rfl
  | ok jobs =>
    have hjobs := app_of_mem_listed hlisted
    have hdefinitions := h.definitions
    rw [definitionsOf, definitionsOf] at hdefinitions
    show Survey.join jobs (Memory.reports ⟨machine, after.definitions⟩) =
      Survey.join jobs (Memory.reports ⟨machine, ledger.definitions⟩)
    rw [Survey.join_reports hjobs, hdefinitions, ← Survey.join_reports hjobs]

end Ledger

namespace World

variable {opened : Opened} {stores : Stores} {world : World} {ledger : Ledger}

/-- **A survey that no fault disturbs** finds what the ledger says. -/
theorem run_survey (hserve : stores.Serve opened) (hshows : world.Shows opened ledger)
    (hnone : world.faults = []) (app : String) :
    (run stores (Survey.survey (.text app)).attempt world).1 =
      ledger.survey world.machine app := by
  have hlist : (Action.list (.text app)).attempt.run (Ledger.answer (world.moment stores)) ledger =
      (ledger.listed? (.text app), ledger) := rfl
  rw [(run_of_no_faults hserve hshows hnone _).1, Survey.survey, Work.run_attempt_bind, hlist,
    Ledger.survey]
  cases ledger.listed? (.text app) <;> rfl

end World

namespace Step

/-- The rows of an application in the job store. -/
def jobRows (app : String) : Step (List JobRow) := do
  let file := (← opened).jobs
  onDisk fun site => do Disk.query (← Disk.connect site file) (Database.jobsOf (.text app))

/-- The rows of an application in the process store. -/
def processRows (app : String) : Step (List ProcessRow) := do
  let file := (← opened).processes
  onDisk fun site => do
    Disk.query (← Disk.connect site file) fun database =>
      database.processes?.map fun table => table.select fun row => row.app = app

end Step

namespace Session

/-- What an application can see of a session. These are the four places in which work for another
application could show. -/
structure View where
  jobs : Except Failure (List JobRow)
  processes : Except Failure (List ProcessRow)
  /-- What the scheduler has under names that begin with the application. -/
  definitions : Named Definition
  /-- What a survey finds if no fault disturbs it. -/
  states : Except Failure (List JobState)

/-- What the application can see. -/
def viewOf (app : String) (session : Session) : View where
  jobs := (session.perform (Step.jobRows app)).1
  processes := (session.perform (Step.processRows app)).1
  definitions := session.world.definitions.filter fun entry => IsUnder app entry.1
  states := ((session.afterDeed (.arm [])).perform (Step.survey (.text app))).1

variable {opened : Opened} {session : Session} {ledger moved : Ledger} {app other : String}

/-- **What an application sees is what the ledger says of it.** Faults play no part: rows are looked
at directly, and the survey is taken with none lying in wait. -/
theorem viewOf_eq (hopened : session.opened = some opened)
    (hshows : session.world.Shows opened ledger) (app : String) :
    session.viewOf app = ⟨.ok (ledger.rowsOf app), .ok (ledger.processesOf app),
      ledger.definitionsOf app, ledger.survey session.world.machine app⟩ := by
  obtain ⟨place, database, hkeeps, hrows⟩ := hshows.jobs
  obtain ⟨place', database', hkeeps', hrows'⟩ := hshows.processes
  -- the rows of both stores are asked for where the world keeps them
  have hjobs : (session.perform (Step.jobRows app)).1 = .ok (ledger.rowsOf app) := by
    rw [Step.jobRows, perform_bind, perform_opened hopened]
    dsimp only
    rw [Step.onDisk, perform_onWorld, World.onDisk, Disk.connect_bind hkeeps, Disk.query_eq hkeeps,
      Database.jobsOf_eq hkeeps.founded, JobRow.ofApp?_text, hrows, Ledger.rowsOf]
  have hprocesses : (session.perform (Step.processRows app)).1 = .ok (ledger.processesOf app) := by
    rw [Step.processRows, perform_bind, perform_opened hopened]
    dsimp only
    rw [Step.onDisk, perform_onWorld, World.onDisk, Disk.connect_bind hkeeps',
      Disk.query_eq hkeeps', Ledger.processesOf, ← hrows']
    obtain ⟨jobs, processes, events, rfl⟩ := Database.exists_tables hkeeps'.founded
    rfl
  -- a survey is made in the world without its faults, which shows the same
  have hstates : ((session.afterDeed (.arm [])).perform (Step.survey (.text app))).1 =
      ledger.survey session.world.machine app := by
    have hcalm : (session.afterDeed (.arm [])).opened = some opened := hopened
    rw [Step.survey, perform_bind, perform_opened hcalm]
    dsimp only
    rw [Step.act, perform_onWorld]
    have hshown : ({ session.world with faults := [] } : World).Shows opened ledger :=
      hshows.of_same rfl rfl rfl
    exact World.run_survey opened.serve_stores hshown rfl app
  rw [viewOf, hjobs, hprocesses, hstates, definitions_of_shows hshows]
  rfl

/-- The deed is done for the application: it releases or scales a release of it, with processes that
belong to it or to no application, or it is done to a task that retires jobs after such a release. A
formation can be defined, and faults can be laid in wait, for any application. -/
def Concerns (app : String) (session : Session) : Deed → Prop
  | .release blueprint name | .scale blueprint _ name =>
    blueprint.release.app = .text app ∧ ∀ formation, session.formation? name = some formation →
      ∀ entry ∈ formation, entry.2.app.isTrue = false ∨ entry.2.app = .text app
  | .start number | .elapse number | .cancel number =>
    ∀ task, session.tasks[number]? = some task → task.cleanup.release.app = .text app
  | .define _ _ | .arm _ => True

theorem isAbout_ofStale {stale : List Job} (h : ∀ job ∈ stale, job.app = .text app) :
    (Scope.ofStale stale).IsAbout app :=
  ⟨fun _ hjob => hjob.elim, h, fun _ hprocess => hprocess.elim⟩

/-- A release is about its application, if no process of the formation belongs to another one. -/
theorem isAbout_ofWholeRelease {blueprint : Blueprint} {formation : Formation}
    (happ : blueprint.release.app = .text app)
    (hformation : ∀ entry ∈ formation, entry.2.app.isTrue = false ∨ entry.2.app = .text app) :
    (Scope.ofWholeRelease blueprint formation).IsAbout app where
  places := fun _ hjob => hjob.app.trans happ
  withdraws := fun _ hjob => hjob app happ
  writes := by
    rintro process (hprocess | ⟨entry, hmem, hprocess, htrue⟩)
    · exact hprocess.trans happ
    · -- a process that belongs to no application is written down for that of the release
      rcases hformation entry hmem with hempty | hsame
      · rw [hempty] at htrue
        exact absurd htrue Bool.false_ne_true
      · exact hprocess.trans hsame

/-- **A deed for an application has a scope that is about it.** -/
theorem Stands.isAbout_scopeOf (h : session.Stands opened ledger) {deed : Deed}
    (hdeed : session.Concerns app deed) : (session.scopeOf deed).IsAbout app := by
  -- a deed that comes to nothing has the scope of a cleanup without jobs
  have hnothing : (Scope.ofStale []).IsAbout app := isAbout_ofStale fun _ hmem => nomatch hmem
  cases deed with
  | define | arm => exact hnothing
  | release blueprint name | scale blueprint quantities name =>
    obtain ⟨happ, hformation⟩ := hdeed
    rw [scopeOf]
    split
    · next formation hfound => exact isAbout_ofWholeRelease happ (hformation formation hfound)
    · exact hnothing
  | start number | elapse number | cancel number =>
    rw [scopeOf]
    split
    · next task htask =>
      exact isAbout_ofStale (h.stale task (List.mem_of_getElem? htask) app (hdeed task htask))
    · exact hnothing

/-- The session stands, and each row has a name of its application. Otherwise a cleanup for one
application could retire jobs that belong to another. -/
structure Sorted (opened : Opened) (session : Session) (ledger : Ledger) : Prop
    extends session.Stands opened ledger where
  named : ledger.IsNamed

namespace Sorted

/-- **A deed leaves the applications alone for which it is not done.** It may fail, be cancelled or
meet faults: all of that is left to what the work of its scope can come to. -/
theorem afterDeed (h : session.Sorted opened ledger) (deed : Deed) :
    (∃ moved, (session.afterDeed deed).Sorted opened moved) ∧
      ∀ {app other}, session.Concerns app deed → isFieldName other = true → app ≠ other →
        (session.afterDeed deed).viewOf other = session.viewOf other := by
  obtain ⟨record, moved, hstands, -, ⟨faults, rfl, rfl⟩ | hworks⟩ := h.toStands.afterDeed deed
  · -- faults that are laid in wait cannot be seen
    refine ⟨⟨moved, hstands, h.named⟩, fun _ _ _ => ?_⟩
    rw [viewOf_eq hstands.isOpen hstands.shows, viewOf_eq h.isOpen h.shows]
    rfl
  · obtain ⟨ending, hworked⟩ := hworks.worked
    refine ⟨⟨moved, hstands, hworked.isNamed h.named⟩, fun hdeed hother hne => ?_⟩
    have hsame := hworked.sameOf (h.isAbout_scopeOf hdeed) hother hne h.named
    rw [viewOf_eq hstands.isOpen hstands.shows, viewOf_eq h.isOpen h.shows, hworks.machine,
      hsame.jobs, hsame.processes, hsame.definitions, hsame.survey_eq]

/-- Tables stay sorted along every history. -/
theorem follow (h : session.Sorted opened ledger) (history : List Deed) :
    ∃ moved, (session.follow history).Sorted opened moved := by
  induction history generalizing session ledger with
  | nil => exact ⟨ledger, h⟩
  | cons deed rest ih =>
    obtain ⟨⟨moved, hafter⟩, -⟩ := h.afterDeed deed
    exact ih hafter

end Sorted

/-- **Applications leave each other alone.** Whatever was done before, for whatever applications:
what is done for one of them, whether it succeeds, fails or meets faults, makes no difference to
what any other one can see. -/
theorem leaves_others_alone (h : session.Sorted opened ledger) (history : List Deed) {deed : Deed}
    (hdeed : (session.follow history).Concerns app deed) (hother : isFieldName other = true)
    (hne : app ≠ other) :
    ((session.follow history).afterDeed deed).viewOf other =
      (session.follow history).viewOf other := by
  obtain ⟨moved, hsorted⟩ := h.follow history
  exact (hsorted.afterDeed deed).2 hdeed hother hne

theorem fresh_sorted : fresh.Sorted freshlyOpened ⟨[], [], []⟩ :=
  { fresh_stands with named := fun _ hmem => nomatch hmem }

/-- A release of another application. -/
def apiRelease : Blueprint := { Blueprint.web 1 with release := ⟨.text "api", .int 1⟩ }

/-- Two applications that are released with the same formation, and a fault that lies in wait. -/
def shared : List Deed :=
  [.define (.text "formation") (.web 2), .release (.web 1) (.text "formation"),
    .release apiRelease (.text "formation"), .arm [.rejecting .add "web.2.web.2"]]

/-- A rollout of the one application fails halfway, and the other one sees nothing of it. -/
theorem api_left_alone :
    ((fresh.follow shared).afterDeed (.release (.web 2) (.text "formation"))).viewOf "api" =
        (fresh.follow shared).viewOf "api" ∧
      ((fresh.follow shared).viewOf "api").definitions.names = ["api.1.web.1", "api.1.web.2"] ∧
      ((fresh.follow shared).afterDeed (.release (.web 2) (.text "formation"))).tracked ≠
        (fresh.follow shared).tracked := by
  have hformation : ((fresh.follow shared).formation? (.text "formation")).map
      (fun formation => formation.all fun entry => !entry.2.app.isTrue) = some true := by
    decide +kernel
  have hconcerns : (fresh.follow shared).Concerns "web"
      (.release (.web 2) (.text "formation")) := by
    refine ⟨rfl, fun formation hfound entry hmem => .inl ?_⟩
    rw [hfound] at hformation
    have hempty := List.all_eq_true.mp (Option.some.inj hformation) entry hmem
    rwa [Bool.not_eq_true'] at hempty
  exact ⟨leaves_others_alone fresh_sorted shared hconcerns (by decide) (by decide),
    by decide +kernel, by decide +kernel⟩

end Session

end Rollout
