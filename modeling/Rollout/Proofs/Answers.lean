import Rollout.Proofs.Ledger

/-!
# Answers from a ledger

What a collaborator answers depends on little: on what the ledger says, on the moment at which it is
asked, and on whether a fault comes in between. This file makes that exact for every call, whatever
is asked and whatever faults lie in wait.

* `Ledger.answer moment` is a handler of calls whose state is a ledger. It makes a call.
* `World.meet stores request` is what a request meets before it is made: it goes on record, and a
  fault may fail in its place.
* A fault that fails is the answer (`World.answer_of_met`); a call that meets none is answered as
  from the ledger, and the ledger that results is the one that shows afterwards
  (`World.answer_of_unmet`).

So a world that shows a ledger can be run on the ledger alone. In contrast to the lemmas of each
call about what typed inputs bring about, nothing is assumed here about what is asked.
-/

namespace Rollout

/-! ### What stores do, for every input -/

namespace Disk

variable {α : Type}

/-- The wording of a failure by the store that it came up in. Only failures of the database are
reworded; if even the action has no text, it is the failure of that which is reported. -/
def reworded (action : Except Failure StoreAction) : Failure → Failure
  | .storage fault =>
    match action with
    | .ok action => .repository action fault
    | .error failure => failure
  | failure => failure

theorem during_apply (action : Except Failure StoreAction) (work : Disk α) (files : Files) :
    during action work files = ((work files).1.mapError (reworded action), (work files).2) := by
  rw [during, ofFunction]
  -- Whether it is reworded depends on the kind of the failure and on the wording.
  rcases work files with ⟨failure | result, after⟩
  · cases failure <;> cases action <;> rfl
  · rfl

theorem ofExcept_error_bind {β : Type} {failure : Failure} (next : α → Disk β) (files : Files) :
    (ofExcept (.error failure) >>= next) files = (.error failure, files) := by
  rw [bind_apply]
  rfl

end Disk

namespace JobRow

/-- The row, unless its name is among those of the rows. -/
def unique? (rows : List JobRow) (row : JobRow) : Except Failure JobRow :=
  if row.name ∈ rows.map (·.name) then .error (.storage (.duplicate "jobs" "name")) else .ok row

/-- The row of a job that is tracked from some moment on, beside other rows. All reasons to refuse a
job are in here, in the order in which they come up. -/
def admit? (now : String) (rows : List JobRow) (job : Job) : Except Failure JobRow := do
  let name ← job.name?
  let environment ← Document.write job.environment
  let row ← ofJob name environment now job
  unique? rows row

/-- What the row of a job says of it, and what a job must be to have one. -/
theorem fields_of_ofJob {name document now : String} {job : Job} {row : JobRow}
    (h : ofJob name document now job = .ok row) :
    row.name = name ∧ (∀ app, job.app = .text app → row.app = app) ∧
      (∀ n, job.version = .int n → CellNumber.fits n = true) ∧
      ∀ n, job.ordinal = .int n → CellNumber.fits n = true := by
  -- An integer is bound only if it is of 64 bits.
  have hfits {position : Nat} {n : Int} {cell : Cell} (h : Cell.bind position (.int n) = .ok cell) :
      CellNumber.fits n = true := by
    rw [Cell.bind] at h
    split at h
    · assumption
    · cases h
  -- the parameters are bound one after the other, and then the columns are checked
  rw [ofJob] at h
  simp only [bind_eq_ok] at h
  obtain ⟨nameCell, hname, appCell, happ, versionCell, hversion, typeCell, -, ordinalCell, hordinal,
    -, -, -, -, -, -, -, -, -, -, kept, hkept, keptApp, hkeptApp, _, -, _, -, _, -, _, -, _, -, _,
    -, _, -, _, -, hrow⟩ := h
  obtain rfl := Except.ok.inj hname
  obtain rfl := Except.ok.inj hkept
  obtain rfl := Except.ok.inj hrow
  refine ⟨rfl, fun app heq => ?_, fun n heq => hfits (heq ▸ hversion),
    fun n heq => hfits (heq ▸ hordinal)⟩
  rw [heq] at happ
  obtain rfl := Except.ok.inj happ
  exact (Except.ok.inj hkeptApp).symm

/-- **What is admitted has a name of its own**, and its row says so. A job that cannot be named, or
whose name is taken, is never admitted. -/
theorem name_of_admit? {now : String} {rows : List JobRow} {job : Job} {row : JobRow}
    (h : admit? now rows job = .ok row) :
    job.name? = .ok row.name ∧ row.name ∉ rows.map (·.name) := by
  obtain ⟨name, hname, h⟩ := bind_eq_ok.mp h
  obtain ⟨document, -, h⟩ := bind_eq_ok.mp h
  obtain ⟨row, hrow, h⟩ := bind_eq_ok.mp h
  -- The constraint on names is checked last, and it lets the row in as it is.
  rw [unique?] at h
  split at h
  · cases h
  · next hnew =>
    obtain rfl := Except.ok.inj h
    exact ⟨by rw [hname, (fields_of_ofJob hrow).1], hnew⟩

/-- What is admitted has a row that says its application, and its numbers are of 64 bits. -/
theorem fields_of_admit? {now : String} {rows : List JobRow} {job : Job} {row : JobRow}
    (h : admit? now rows job = .ok row) :
    (∀ app, job.app = .text app → row.app = app) ∧
      (∀ n, job.version = .int n → CellNumber.fits n = true) ∧
      ∀ n, job.ordinal = .int n → CellNumber.fits n = true := by
  obtain ⟨name, -, h⟩ := bind_eq_ok.mp h
  obtain ⟨document, -, h⟩ := bind_eq_ok.mp h
  obtain ⟨admitted, hrow, h⟩ := bind_eq_ok.mp h
  rw [unique?] at h
  split at h
  · cases h
  · obtain rfl := Except.ok.inj h
    exact (fields_of_ofJob hrow).2

/-- **A job that can be stored is admitted unless its name is there**, in a row that reads back as
the job. -/
theorem admit?_of_isStorable {job : Job} {name : String} (hjob : job.IsStorable)
    (hname : job.name? = .ok name) (now : String) (rows : List JobRow) :
    ∃ row : JobRow, row.name = name ∧ row.Tracks job ∧ admit? now rows job = unique? rows row := by
  obtain ⟨document, row, hwrite, hrow, hrowName, -, htracks⟩ := exists_row hjob hname now
  -- Name, environment and row are made without fail, so only the constraint is left.
  refine ⟨row, hrowName, htracks, ?_⟩
  rw [admit?, hname]
  show (Document.write job.environment >>= _) = _
  rw [hwrite]
  show (ofJob name document now job >>= _) = _
  rw [hrow]
  rfl

/-- The rows of an application. -/
def ofApp? (app : Value) (rows : List JobRow) : Except Failure (List JobRow) := do
  let cell ← Cell.bind 1 app
  return rows.filter fun row => cell.asText = some row.app

theorem ofApp?_text (app : String) (rows : List JobRow) :
    ofApp? (.text app) rows = .ok (rows.filter fun row => row.app = app) := by
  refine congrArg Except.ok (List.filter_congr fun row _ => ?_)
  rw [Cell.asText_text, decide_eq_decide, Option.some.injEq]
  exact eq_comm

end JobRow

/-- The rows of an application are found in a database that has all of its tables. -/
theorem Database.jobsOf_eq {database : Database} (h : database.initialise = database)
    (app : Value) : database.jobsOf app = JobRow.ofApp? app database.jobRows := by
  obtain ⟨jobs, processes, events, rfl⟩ := Database.exists_tables h
  rfl

namespace JobStore

variable {site : Surroundings} {file : Value} {place : Place} {database : Database} {files : Files}
  {now : String} {job : Job}

/-- Jobs are listed from the rows, unless the application cannot be asked for. -/
theorem list_eq (h : Disk.Keeps site file place database files) (app : Value) :
    list site file app files =
      ((JobRow.ofApp? app database.jobRows).mapError (Disk.reworded (Disk.actionOn .listJobs app))
        >>= List.mapM JobRow.job?, files) := by
  rw [list, Disk.bind_apply, Disk.during_apply, Disk.connect_bind h, Disk.query_eq h,
    Database.jobsOf_eq h.founded]
  -- The rows are read under the wording of the store, and the jobs are made of them outside of it.
  cases JobRow.ofApp? app database.jobRows <;> rfl

/-- The statement that adds a row. -/
theorem addJob_eq (jobs : Table JobRow) (processes : Option (Table ProcessRow))
    (events : Option (Table EventRow)) (row : Except Failure JobRow) :
    Database.addJob row ⟨some jobs, processes, events, true⟩ =
      (row >>= JobRow.unique? jobs.contents).map fun row =>
        ⟨some (jobs.append row), processes, events, true⟩ := by
  cases row with
  | error failure => rfl
  | ok row =>
    have hany : jobs.any (·.name = row.name) = true ↔ row.name ∈ jobs.contents.map (·.name) := by
      rw [Table.any, List.any_eq_true, List.mem_map]
      simp only [decide_eq_true_eq]
    show (if jobs.any (·.name = row.name) then _ else _) =
      Except.map _ (if row.name ∈ jobs.contents.map (·.name) then _ else _)
    -- the table looks for the name in another form than the rule does
    by_cases hmem : row.name ∈ jobs.contents.map (·.name)
    · rw [if_pos hmem, if_pos (hany.mpr hmem)]
      rfl
    · rw [if_neg hmem, if_neg fun h => hmem (hany.mp h)]
      rfl

/-- What adding a job comes down to, before its failure is worded. -/
theorem add_eq (h : Disk.Keeps site file place database files)
    (hnow : Calendar.timestamp site.now = .ok now) (job : Job) :
    ∃ work : Disk Unit, add site file job = Disk.during (job.name?.map .addJob) work ∧
      (∀ failure, JobRow.admit? now database.jobRows job = .error failure →
        work files = (.error failure, files)) ∧
      ∀ row, JobRow.admit? now database.jobRows job = .ok row →
        ∃ changed after, work files = (.ok (), after) ∧
          FileTree.Rewritten place (.database changed) files after ∧
          changed.initialise = changed ∧ changed.jobRows = database.jobRows ++ [row] ∧
          changed.processRows = database.processRows := by
  obtain ⟨jobs, processes, events, rfl⟩ := Database.exists_tables h.founded
  refine ⟨_, rfl, ?_⟩
  rw [Disk.connect_bind h, JobRow.admit?]
  -- the job must have a name and an environment that can be written, and the rest is the statement
  cases job.name? with
  | error failure =>
    rw [Disk.ofExcept_error_bind]
    exact ⟨fun _ heq => by rw [Except.error.inj heq], fun _ heq => nomatch heq⟩
  | ok name =>
    rw [Disk.ofExcept_bind]
    cases Document.write job.environment with
    | error failure =>
      rw [Disk.ofExcept_error_bind]
      exact ⟨fun _ heq => by rw [Except.error.inj heq], fun _ heq => nomatch heq⟩
    | ok environment =>
      rw [Disk.ofExcept_bind, Disk.timestamp, hnow, Disk.ofExcept_bind]
      have hadd := addJob_eq jobs (some processes) (some events)
        (JobRow.ofJob name environment now job)
      constructor
      · intro failure heq
        refine Disk.change_of_error h ?_
        rw [hadd]
        exact congrArg (Except.map _) heq
      · intro row heq
        obtain ⟨after, hchange, hwrite⟩ := Disk.change_of_ok h
          (hadd.trans (congrArg (Except.map _) heq))
        exact ⟨_, after, hchange, hwrite, rfl, Table.contents_append row jobs, rfl⟩

/-- **A job that is admitted is tracked** in a row of its own. The rows before it stay as they are
and where they are. -/
theorem add_of_admitted {row : JobRow} (h : Disk.Keeps site file place database files)
    (hnow : Calendar.timestamp site.now = .ok now)
    (hrow : JobRow.admit? now database.jobRows job = .ok row) :
    ∃ changed after, add site file job files = (.ok (), after) ∧
      FileTree.Rewritten place (.database changed) files after ∧ changed.initialise = changed ∧
      changed.jobRows = database.jobRows ++ [row] ∧
      changed.processRows = database.processRows := by
  obtain ⟨work, hwork, -, hadmitted⟩ := add_eq h hnow job
  obtain ⟨changed, after, hdone, hrest⟩ := hadmitted row hrow
  exact ⟨changed, after, by rw [hwork, Disk.during_of_ok hdone], hrest⟩

/-- **A job that is not admitted is refused**, and nothing is done. -/
theorem add_of_refused {failure : Failure} (h : Disk.Keeps site file place database files)
    (hnow : Calendar.timestamp site.now = .ok now)
    (hrow : JobRow.admit? now database.jobRows job = .error failure) :
    add site file job files =
      (.error (Disk.reworded (job.name?.map .addJob) failure), files) := by
  obtain ⟨work, hwork, hrefused, -⟩ := add_eq h hnow job
  rw [hwork, Disk.during_apply, hrefused failure hrow]
  rfl

theorem remove_of_nameless {failure : Failure} (h : Disk.Keeps site file place database files)
    (hname : job.name? = .error failure) :
    remove site file job files = (.error failure, files) := by
  rw [remove, Disk.during_apply, Disk.connect_bind h, hname, Disk.ofExcept_error_bind]
  cases failure <;> rfl

end JobStore

namespace ProcessStore

variable {site : Surroundings} {file : Value} {place : Place} {database : Database} {files : Files}
  {now : String} {process : ProcessType}

/-- What writing a process down comes down to, before its failure is worded. -/
theorem update_eq (h : Disk.Keeps site file place database files)
    (hnow : Calendar.timestamp site.now = .ok now) (process : ProcessType) :
    ∃ work : Disk ProcessRow, update site file process =
        (do let row ← Disk.during (Disk.actionOn .updateProcess process.type) work
            Disk.ofExcept row.process?) ∧
      (∀ failure, ProcessRow.ofProcess now process = .error failure →
        work files = (.error failure, files)) ∧
      ∀ row, ProcessRow.ofProcess now process = .ok row →
        ∃ changed after, work files = (.ok row, after) ∧
          FileTree.Rewritten place (.database changed) files after ∧
          changed.initialise = changed ∧ changed.jobRows = database.jobRows ∧
          changed.processRows = row.put database.processRows := by
  obtain ⟨jobs, processes, events, rfl⟩ := Database.exists_tables h.founded
  -- What is worded is the writing; reading the row back comes after it.
  refine ⟨_, rfl, ?_⟩
  rw [Disk.connect_bind h, Disk.timestamp, hnow, Disk.ofExcept_bind]
  constructor
  · -- a row that cannot be made leaves the files alone
    intro failure heq
    refine Disk.transact_of_error h ?_
    rw [heq]
    rfl
  · -- a row that can be made is put into the process table, which is all that changes
    intro row heq
    have hput : Database.putProcess (ProcessRow.ofProcess now process)
        ⟨some jobs, some processes, some events, true⟩ = .ok (row, ⟨some jobs,
          some (processes.put (ProcessRow.isOf row.app row.type) row), some events, true⟩) := by
      rw [heq]
      rfl
    obtain ⟨after, htransact, hwrite⟩ := Disk.transact_of_ok h hput
    exact ⟨_, after, htransact, hwrite, rfl, rfl, Table.contents_put _ row processes⟩

/-- **A process that has a row is written down** and read back from it. What is answered is the
reading, so numbers may come back in another form than they were given in. -/
theorem update_of_row {row : ProcessRow} (h : Disk.Keeps site file place database files)
    (hnow : Calendar.timestamp site.now = .ok now)
    (hrow : ProcessRow.ofProcess now process = .ok row) :
    ∃ changed after, update site file process files = (row.process?, after) ∧
      FileTree.Rewritten place (.database changed) files after ∧ changed.initialise = changed ∧
      changed.jobRows = database.jobRows ∧
      changed.processRows = row.put database.processRows := by
  obtain ⟨work, hwork, -, hwritten⟩ := update_eq h hnow process
  obtain ⟨changed, after, hdone, hrest⟩ := hwritten row hrow
  refine ⟨changed, after, ?_, hrest⟩
  rw [hwork, Disk.bind_apply, Disk.during_of_ok hdone]
  rfl

/-- **A process without a row is refused**, and nothing is done. -/
theorem update_of_refused {failure : Failure} (h : Disk.Keeps site file place database files)
    (hnow : Calendar.timestamp site.now = .ok now)
    (hrow : ProcessRow.ofProcess now process = .error failure) :
    update site file process files =
      (.error (Disk.reworded (Disk.actionOn .updateProcess process.type) failure), files) := by
  obtain ⟨work, hwork, hrefused, -⟩ := update_eq h hnow process
  rw [hwork, Disk.bind_apply, Disk.during_apply, hrefused failure hrow]
  rfl

end ProcessStore

/-- The two databases differ in their events at most. Both statements about jobs and those about
processes come to the same on them. -/
structure Database.SameButEvents (database other : Database) : Prop where
  jobs : other.jobs = database.jobs
  processes : other.processes = database.processes

namespace Database.SameButEvents

variable {database other : Database}

theorem refl (database : Database) : database.SameButEvents database := ⟨rfl, rfl⟩

theorem jobRows_eq (h : database.SameButEvents other) : other.jobRows = database.jobRows := by
  rw [jobRows, h.jobs, jobRows]

theorem processRows_eq (h : database.SameButEvents other) :
    other.processRows = database.processRows := by
  rw [processRows, h.processes, processRows]

end Database.SameButEvents

/-- What an event is in the log: its level must be a text, and it must have a row. -/
def EventRow.admit? (now : String) (event : Event) : Except Failure EventRow := do
  let level ← EventLog.capitals event.level
  ofEvent now level event.app event.version event.message

namespace EventLog

variable {site : Surroundings} {file : Value} {place : Place} {database : Database} {files : Files}
  {now : String} {event : Event}

/-- What logging an event comes down to on a store in order. -/
theorem log_eq (h : Disk.Keeps site file place database files)
    (hnow : Calendar.timestamp site.now = .ok now) (event : Event) :
    log site file event files =
      (do let level ← Disk.ofExcept (capitals event.level)
          Disk.change place (Database.addEvent
            (EventRow.ofEvent now level event.app event.version event.message)) : Disk Unit)
        files := by
  rw [log, Disk.bind_apply, Disk.initialise_eq h]
  show ((Disk.connect site file >>= _ : Disk Unit)) files = _
  rw [Disk.connect_bind h, Disk.timestamp, hnow, Disk.ofExcept_bind]

/-- **An event that is admitted is logged**, which touches neither jobs nor wanted quantities.
Nothing is said of the events themselves, on which no other call depends. -/
theorem log_of_admitted {row : EventRow} (h : Disk.Keeps site file place database files)
    (hnow : Calendar.timestamp site.now = .ok now)
    (hrow : EventRow.admit? now event = .ok row) :
    ∃ changed after, log site file event files = (.ok (), after) ∧
      FileTree.Rewritten place (.database changed) files after ∧ changed.initialise = changed ∧
      database.SameButEvents changed := by
  obtain ⟨level, hlevel, hrow⟩ := bind_eq_ok.mp hrow
  obtain ⟨jobs, processes, events, rfl⟩ := Database.exists_tables h.founded
  -- The statement appends to the table of events and to no other one.
  have hadd : Database.addEvent (EventRow.ofEvent now level event.app event.version event.message)
      ⟨some jobs, some processes, some events, true⟩ =
      .ok ⟨some jobs, some processes, some (events.append row), true⟩ := by
    rw [hrow]
    rfl
  obtain ⟨after, hchange, hwrite⟩ := Disk.change_of_ok h hadd
  rw [log_eq h hnow, hlevel, Disk.ofExcept_bind]
  exact ⟨_, after, hchange, hwrite, rfl, rfl, rfl⟩

/-- **An event that is not admitted is refused**, and nothing is done. -/
theorem log_of_refused {failure : Failure} (h : Disk.Keeps site file place database files)
    (hnow : Calendar.timestamp site.now = .ok now)
    (hrow : EventRow.admit? now event = .error failure) :
    log site file event files = (.error failure, files) := by
  rw [log_eq h hnow]
  rw [EventRow.admit?] at hrow
  cases hlevel : capitals event.level with
  | error cause =>
    -- the level has no capitals
    rw [hlevel] at hrow
    rw [Disk.ofExcept_error_bind, Except.error.inj hrow]
  | ok level =>
    rw [hlevel] at hrow
    rw [Disk.ofExcept_bind]
    obtain ⟨jobs, processes, events, rfl⟩ := Database.exists_tables h.founded
    -- the row is refused within the statement, which is rolled back
    refine Disk.change_of_error h ?_
    show (EventRow.ofEvent now level event.app event.version event.message >>= _) = _
    rw [show EventRow.ofEvent now level event.app event.version event.message = .error failure from
      hrow]
    rfl

end EventLog

/-! ### The ledger as a handler -/

namespace Ledger

/-- What the answers to calls depend on, beside a ledger. Faults are not among it: a call that a
fault fails in its place is not answered at all. -/
structure Moment where
  machine : String
  now : String
  /-- There is a process store. -/
  keepsProcesses : Bool
  /-- The cleanup that runs is cancelled. -/
  cancelled : Bool
  waitLimit : WaitLimit

/-- The scheduler of a ledger. -/
def memory (machine : String) (ledger : Ledger) : Memory := ⟨machine, ledger.definitions⟩

/-- The jobs of an application, as the job store lists them. -/
def listed? (app : Value) (ledger : Ledger) : Except Failure (List Job) :=
  (JobRow.ofApp? app ledger.jobs).mapError (Disk.reworded (Disk.actionOn .listJobs app)) >>=
    List.mapM JobRow.job?

theorem listed?_text (app : String) (ledger : Ledger) :
    ledger.listed? (.text app) = (ledger.rowsOf app).mapM JobRow.job? := by
  rw [listed?, JobRow.ofApp?_text]
  rfl

/-- Answers a call from a ledger. This is the specification of all collaborators at once: in worlds
that show ledgers, calls that meet no fault are answered in this way. -/
def answer (moment : Moment) : Plan.Handler Collaborators Ledger
  | .schedule definition, ledger =>
    match definition.image.reference? with
    | .ok _ => (.ok (), ledger.schedule definition)
    | .error failure => (.error failure, ledger)
  | .unschedule name, ledger =>
    let done := (ledger.memory moment.machine).unschedule name
    (done.1, { ledger with definitions := done.2.jobs })
  | .report, ledger => (.ok (ledger.memory moment.machine).reports, ledger)
  | .list app, ledger => (ledger.listed? app, ledger)
  | .add job, ledger =>
    match JobRow.admit? moment.now ledger.jobs job with
    | .ok row => (.ok (), ledger.add row)
    | .error failure => (.error (Disk.reworded (job.name?.map .addJob) failure), ledger)
  | .remove job, ledger =>
    match job.name? with
    | .ok name => (.ok (), ledger.remove name)
    | .error failure => (.error failure, ledger)
  | .update process, ledger =>
    if moment.keepsProcesses then
      match ProcessRow.ofProcess moment.now process with
      | .ok row => (row.process?, ledger.want row)
      | .error failure =>
        (.error (Disk.reworded (Disk.actionOn .updateProcess process.type) failure), ledger)
    else (.error (.noStore (Call.update process).verb), ledger)
  | .log event, ledger => ((EventRow.admit? moment.now event).map fun _ => (), ledger)
  | .wait seconds, ledger => (moment.waitLimit.await moment.cancelled seconds, ledger)
  | .cancelled, ledger => (moment.cancelled, ledger)

/-- A name that is scheduled is taken away when it is unscheduled. -/
theorem answer_unschedule_of_mem {ledger : Ledger} {name : String} (h : name ∈ ledger.scheduled)
    (moment : Moment) :
    ledger.answer moment (.unschedule (.text name)) = (.ok (), ledger.unschedule name) := by
  have hunschedule : (ledger.memory moment.machine).unschedule (.text name) = _ :=
    Memory.unschedule_of_mem h
  rw [answer, hunschedule]
  rfl

/-- Any other name cannot be unscheduled. -/
theorem answer_unschedule_of_not_mem {ledger : Ledger} {name : String}
    (h : name ∉ ledger.scheduled) (moment : Moment) :
    ledger.answer moment (.unschedule (.text name)) =
      (.error (.rejected (.unknownJob (.text name))), ledger) := by
  have hunschedule : (ledger.memory moment.machine).unschedule (.text name) = _ :=
    Memory.unschedule_of_not_mem h
  rw [answer, hunschedule]
  rfl

end Ledger

/-- What comes back from a call in whose place a fault fails. -/
def Call.fail (failure : Failure) : (request : Call) → request.Answer
  | .schedule _ | .unschedule _ | .add _ | .remove _ | .log _ => .error failure
  | .report => .error failure
  | .list _ => .error failure
  | .update _ => .error failure
  | .wait _ => .error failure
  -- whether a cleanup is cancelled is not put on record, so no fault comes in between
  | .cancelled => false

/-- The call is put on record when it is made with the stores. -/
def Stores.records (stores : Stores) : Call → Bool
  | .schedule definition => definition.image.reference?.isOk
  | .list _ | .add _ | .remove _ => stores.jobs.isSome
  | .update _ => stores.processes.isSome
  | .unschedule _ | .report | .log _ | .wait _ => true
  | .cancelled => false

namespace World

/-- What a call meets before it is made: it goes on record, and a fault may fail in its place. -/
def meet (stores : Stores) (request : Call) (world : World) : Option Failure × World :=
  if stores.records request then attend (.call request) world else (none, world)

/-- The machine of a scheduler in memory. -/
def machine (world : World) : String :=
  match world.scheduler with
  | .memory memory => memory.machine
  | .adapter _ => ""

/-- The moment at which a world is. -/
def moment (stores : Stores) (world : World) : Ledger.Moment where
  machine := world.machine
  now := (Calendar.timestamp world.site.now).toOption.getD ""
  keepsProcesses := stores.processes.isSome
  cancelled := world.isCancelled
  waitLimit := world.waitLimit

/-- Beside what a ledger says, all is as it was. Whatever else an answer changes is told by the
ledger that shows. -/
structure Beside (before after : World) : Prop where
  site : after.site = before.site
  machine : after.machine = before.machine
  faults : after.faults = before.faults
  history : after.history = before.history
  cancelled : after.cancelled = before.cancelled
  waitLimit : after.waitLimit = before.waitLimit

theorem Beside.refl (world : World) : world.Beside world := ⟨rfl, rfl, rfl, rfl, rfl, rfl⟩

theorem Beside.follows {before after : World} (h : before.Beside after) : before.Follows after := by
  refine ⟨h.site, h.waitLimit, ?_, ?_, fun _ => h.cancelled⟩
  · rw [h.faults]
    exact fun fault hmem => ⟨fault, hmem, .refl fault⟩
  · rw [h.cancelled]

variable {opened : Opened} {stores : Stores} {world : World} {ledger : Ledger} {request : Call}

theorem attends_meet (stores : Stores) (request : Call) (world : World) :
    world.Attends (meet stores request world).2 := by
  rw [meet]
  split
  · exact attends_attend _ world
  · exact ⟨.refl world, rfl, rfl⟩

/-- **A fault that a call meets is the answer.** The world changes only by the fault being used up,
and by the call being noted. -/
theorem answer_of_met {failure : Failure} (h : (meet stores request world).1 = some failure) :
    answer stores request world = (request.fail failure, (meet stores request world).2) := by
  have hrecords : stores.records request = true := by
    by_contra hnot
    rw [meet, if_neg hnot] at h
    cases h
  rw [meet, if_pos hrecords] at h ⊢
  -- a call on record is attended to first, whatever it is about
  have hrecorded {α : Type} (real : World → Except Failure α × World) :
      recorded (.call request) real world =
        (.error failure, (attend (.call request) world).2) := by
    rw [recorded]
    cases hattend : attend (.call request) world with
    | mk met after =>
      rw [hattend] at h
      rw [show met = some failure from h]
  -- A call on record is one of those that can be recorded, so its faults come first.
  cases request with
  | schedule definition =>
    rw [answer, perform, recordable]
    rw [Stores.records] at hrecords
    cases href : definition.image.reference? with
    | error cause =>
      rw [href] at hrecords
      cases hrecords
    | ok reference => exact hrecorded _
  | list app | add job | remove job =>
    obtain ⟨file, hfile⟩ := Option.isSome_iff_exists.mp hrecords
    rw [answer, hfile]
    exact hrecorded _
  | update process =>
    obtain ⟨file, hfile⟩ := Option.isSome_iff_exists.mp hrecords
    rw [answer, hfile]
    exact hrecorded _
  | unschedule | report | log | wait => exact hrecorded _
  | cancelled => cases hrecords

/-- A call that goes on record and meets no fault is made. -/
theorem perform_of_unmet {α : Type} {real : World → Except Failure α × World}
    (hrecords : stores.records request = true) (hrecordable : recordable request = .ok ())
    (h : (meet stores request world).1 = none) :
    perform request real world = real (meet stores request world).2 := by
  rw [meet, if_pos hrecords] at h ⊢
  rw [perform, hrecordable]
  show recorded (.call request) real world = _
  rw [recorded]
  -- Nothing was met when the call was attended to, so the real work follows.
  cases hattend : attend (.call request) world with
  | mk met after =>
    rw [hattend] at h
    rw [show met = none from h]

theorem Shows.scheduler_eq (h : world.Shows opened ledger) :
    world.scheduler = .memory (ledger.memory world.machine) := by
  obtain ⟨name, hmemory⟩ := h.memory
  rw [machine, hmemory]
  rfl

theorem Shows.reschedule (h : world.Shows opened ledger) (machine : String)
    (definitions : Named Definition) :
    ({ world with scheduler := .memory ⟨machine, definitions⟩ } : World).Shows opened
      { ledger with definitions } :=
  ⟨⟨machine, rfl⟩, h.time, h.jobs, h.processes, h.events⟩

theorem Shows.timestamp_eq (h : world.Shows opened ledger) (stores : Stores) :
    Calendar.timestamp world.site.now = .ok (moment stores world).now := by
  obtain ⟨now, hnow⟩ := h.time
  rw [moment, hnow]
  rfl

theorem beside_files (world : World) (files : Files) : world.Beside { world with files } :=
  ⟨rfl, rfl, rfl, rfl, rfl, rfl⟩

/-! ### Calls that are made -/

/-- What a call came to in a world is what it comes to on the ledger, and the ledger that results is
the one that shows afterwards. -/
def IsTold (opened : Opened) (stores : Stores) (ledger : Ledger) (request : Call) (world : World)
    (done : request.Answer × World) : Prop :=
  ∃ after, done = ((ledger.answer (moment stores world) request).1, after) ∧
    after.Shows opened (ledger.answer (moment stores world) request).2 ∧ world.Beside after

namespace Shows

theorem isTold_schedule (h : world.Shows opened ledger) (stores : Stores) {definition : Definition}
    {reference : String} (href : definition.image.reference? = .ok reference) :
    IsTold opened stores ledger (.schedule definition) world
      (onScheduler (Memory.schedule definition) (Adapter.schedule definition) world) := by
  rw [IsTold, Ledger.answer, href, onScheduler, h.scheduler_eq]
  exact ⟨_, rfl, h.reschedule _ _, ⟨rfl, rfl, rfl, rfl, rfl, rfl⟩⟩

theorem isTold_unschedule (h : world.Shows opened ledger) (stores : Stores) (name : Value) :
    IsTold opened stores ledger (.unschedule name) world
      (onScheduler (Memory.unschedule name) (Adapter.unschedule name) world) := by
  rw [IsTold, onScheduler, h.scheduler_eq]
  refine ⟨_, rfl, h.reschedule _ _, ⟨rfl, ?_, rfl, rfl, rfl, rfl⟩⟩
  -- unscheduling does not change the machine, whether it succeeds or not
  have hmachine : ((ledger.memory world.machine).unschedule name).2.machine = world.machine := by
    cases name with
    | text s =>
      rw [Memory.unschedule]
      split <;> rfl
    | _ => rfl
  exact hmachine

theorem isTold_report (h : world.Shows opened ledger) (stores : Stores) :
    IsTold opened stores ledger .report world
      (onScheduler (fun memory => (.ok memory.reports, memory)) Adapter.reports world) := by
  rw [IsTold, onScheduler, h.scheduler_eq]
  exact ⟨_, rfl, h.reschedule _ _, ⟨rfl, rfl, rfl, rfl, rfl, rfl⟩⟩

theorem isTold_list (h : world.Shows opened ledger) (stores : Stores) (app : Value) :
    IsTold opened stores ledger (.list app) world
      (onDisk (fun site => JobStore.list site opened.jobs app) world) := by
  obtain ⟨place, database, hkeeps, hrows⟩ := h.jobs
  rw [IsTold, onDisk, JobStore.list_eq hkeeps, hrows]
  exact ⟨_, rfl, h, .refl _⟩

/-- A job that the store admits is tracked, and any other one changes nothing. -/
theorem isTold_add (h : world.Shows opened ledger) (stores : Stores) (job : Job) :
    IsTold opened stores ledger (.add job) world
      (onDisk (fun site => JobStore.add site opened.jobs job) world) := by
  obtain ⟨place, database, hkeeps, hrows⟩ := h.jobs
  have hnow := h.timestamp_eq stores
  rw [IsTold, onDisk, Ledger.answer]
  -- The rows of the ledger are those of the database, so both admit the same.
  cases hrow : JobRow.admit? (moment stores world).now ledger.jobs job with
  | error failure =>
    rw [← hrows] at hrow
    rw [JobStore.add_of_refused hkeeps hnow hrow]
    exact ⟨_, rfl, h, .refl _⟩
  | ok row =>
    rw [← hrows] at hrow
    obtain ⟨changed, written, hadd, hwrite, hfounded, hjobs, hprocesses⟩ :=
      JobStore.add_of_admitted hkeeps hnow hrow
    rw [hrows] at hjobs
    rw [hadd]
    exact ⟨_, rfl, h.write_jobs hkeeps hwrite hfounded hjobs hprocesses, beside_files _ _⟩

theorem isTold_remove (h : world.Shows opened ledger) (stores : Stores) (job : Job) :
    IsTold opened stores ledger (.remove job) world
      (onDisk (fun site => JobStore.remove site opened.jobs job) world) := by
  obtain ⟨place, database, hkeeps, hrows⟩ := h.jobs
  rw [IsTold, onDisk, Ledger.answer]
  cases hname : job.name? with
  | error failure =>
    rw [JobStore.remove_of_nameless hkeeps hname]
    exact ⟨_, rfl, h, .refl _⟩
  | ok name =>
    obtain ⟨changed, written, hremove, hwrite, hfounded, hjobs, hprocesses⟩ :=
      JobStore.remove_apply hkeeps hname
    rw [hrows] at hjobs
    rw [hremove]
    exact ⟨_, rfl, h.write_jobs hkeeps hwrite hfounded hjobs hprocesses, beside_files _ _⟩

/-- A process that has a row is written down, and any other one changes nothing. -/
theorem isTold_update (h : world.Shows opened ledger)
    (hkept : (moment stores world).keepsProcesses = true) (process : ProcessType) :
    IsTold opened stores ledger (.update process) world
      (onDisk (fun site => ProcessStore.update site opened.processes process) world) := by
  obtain ⟨place, database, hkeeps, hrows⟩ := h.processes
  have hnow := h.timestamp_eq stores
  rw [IsTold, onDisk, Ledger.answer, if_pos hkept]
  cases hrow : ProcessRow.ofProcess (moment stores world).now process with
  | error failure =>
    rw [ProcessStore.update_of_refused hkeeps hnow hrow]
    exact ⟨_, rfl, h, .refl _⟩
  | ok row =>
    obtain ⟨changed, written, hupdate, hwrite, hfounded, hjobs, hprocesses⟩ :=
      ProcessStore.update_of_row hkeeps hnow hrow
    rw [hrows] at hprocesses
    rw [hupdate]
    exact ⟨_, rfl, h.write_processes hkeeps hwrite hfounded hjobs hprocesses, beside_files _ _⟩

theorem isTold_log (h : world.Shows opened ledger) (stores : Stores) (event : Event) :
    IsTold opened stores ledger (.log event) world
      (onDisk (fun site => EventLog.log site opened.policy.events event) world) := by
  obtain ⟨place, database, hkeeps⟩ := h.events
  have hnow := h.timestamp_eq stores
  rw [IsTold, onDisk, Ledger.answer]
  -- An event that is refused leaves the file as it is, and one that is admitted does not show.
  cases hrow : EventRow.admit? (moment stores world).now event with
  | error failure =>
    rw [EventLog.log_of_refused hkeeps hnow hrow]
    exact ⟨_, rfl, h, .refl _⟩
  | ok row =>
    obtain ⟨changed, written, hlog, hwrite, hfounded, hsame⟩ :=
      EventLog.log_of_admitted hkeeps hnow hrow
    rw [hlog]
    exact ⟨_, rfl, h.write hkeeps hwrite hfounded hsame.jobRows_eq hsame.processRows_eq,
      beside_files _ _⟩

end Shows

/-- **A call that meets no fault is answered from the ledger**, and the ledger that results shows
afterwards. -/
theorem answer_of_unmet (hserve : stores.Serve opened) (hshows : world.Shows opened ledger)
    (h : (meet stores request world).1 = none) :
    IsTold opened stores ledger request (meet stores request world).2
      (answer stores request world) := by
  have hshown := (attends_meet stores request world).shows hshows
  have hperform {α : Type} {real : World → Except Failure α × World}
      (hrecords : stores.records request = true) (hrecordable : recordable request = .ok ()) :
      perform request real world = real (meet stores request world).2 :=
    perform_of_unmet hrecords hrecordable h
  -- The world in which the call is made gets a name: it shows the same ledger as the one before it.
  generalize hmet : (meet stores request world).2 = met at hshown hperform ⊢
  have hjobs : stores.jobs.isSome = true := by
    rw [hserve.jobs]
    rfl
  -- Each call is recorded or not, and then it is the lemma above that is about it.
  cases request with
  | schedule definition =>
    cases href : definition.image.reference? with
    | error failure =>
      -- what cannot be put on record meets nothing, and nothing happens
      have hrecords : stores.records (.schedule definition) = false := by
        rw [Stores.records, href]
        rfl
      rw [meet, hrecords] at hmet
      obtain rfl : world = met := hmet
      rw [IsTold, answer, Ledger.answer, href, perform, recordable, href]
      exact ⟨world, rfl, hshows, .refl world⟩
    | ok reference =>
      have hrecords : stores.records (.schedule definition) = true := by
        rw [Stores.records, href]
        rfl
      have hrecordable : recordable (.schedule definition) = .ok () := by
        rw [recordable, href]
        rfl
      rw [answer, hperform hrecords hrecordable]
      exact hshown.isTold_schedule stores href
  | unschedule name =>
    rw [answer, hperform rfl rfl]
    exact hshown.isTold_unschedule stores name
  | report =>
    rw [answer, hperform rfl rfl]
    exact hshown.isTold_report stores
  | list app =>
    rw [answer, hserve.jobs, inStore_some, hperform hjobs rfl]
    exact hshown.isTold_list stores app
  | add job =>
    rw [answer, hserve.jobs, inStore_some, hperform hjobs rfl]
    exact hshown.isTold_add stores job
  | remove job =>
    rw [answer, hserve.jobs, inStore_some, hperform hjobs rfl]
    exact hshown.isTold_remove stores job
  | update process =>
    cases hstore : stores.processes with
    | none =>
      -- without a process store nothing goes on record
      have hrecords : stores.records (.update process) = false := by
        rw [Stores.records, hstore]
        rfl
      rw [meet, hrecords] at hmet
      obtain rfl : world = met := hmet
      rw [IsTold, answer, Ledger.answer, moment, hstore]
      exact ⟨world, rfl, hshows, .refl world⟩
    | some file =>
      have hkept : stores.processes.isSome = true := by
        rw [hstore]
        rfl
      obtain rfl := hserve.processes file hstore
      rw [answer, hstore, inStore_some, hperform hkept rfl]
      exact hshown.isTold_update hkept process
  | log event =>
    rw [answer, hserve.events, hperform rfl rfl]
    exact hshown.isTold_log stores event
  | wait seconds =>
    rw [answer, hperform rfl rfl]
    exact ⟨_, rfl, hshown, .refl _⟩
  | cancelled =>
    obtain rfl : world = met := hmet
    exact ⟨world, rfl, hshows, .refl world⟩

end World

end Rollout
