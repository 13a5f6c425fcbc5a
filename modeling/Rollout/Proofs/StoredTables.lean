import Rollout.Proofs.EnvironmentDocuments
import Rollout.Proofs.StableFiles
import Rollout.Storage.EventLog
import Rollout.Storage.JobStore
import Rollout.Storage.ProcessStore

/-!
# What the stores do to their tables

On a store in order (`Disk.Keeps`) a statement does what its table says, and a statement that is
refused does nothing. Here every operation of a store is brought down to its rows:

* `JobStore.list_apply`, `JobStore.add_of_new`, `JobStore.add_of_mem`, `JobStore.remove_apply`;
* `ProcessStore.update_apply`;
* `EventLog.log_apply`.
-/

namespace Rollout

/-- A row that is put stands in the place of the one for which the test holds, or comes last. -/
theorem Table.contents_put {ρ : Type} (test : ρ → Bool) (row : ρ) (table : Table ρ) :
    (table.put test row).contents =
      if table.contents.any test then
        table.contents.map fun other => if test other then row else other
      else table.contents ++ [row] := by
  rw [put, any]
  split
  · exact (contents_update test (fun _ => row) table)
  · exact contents_append row table

namespace Database

/-- The rows of tracked jobs, in the order in which they were added. -/
def jobRows (database : Database) : List JobRow := (database.jobs.getD .empty).contents

/-- The rows of wanted quantities. -/
def processRows (database : Database) : List ProcessRow := (database.processes.getD .empty).contents

theorem exists_tables {database : Database} (h : database.initialise = database) :
    ∃ jobs processes events, database = ⟨some jobs, some processes, some events, true⟩ := by
  rw [← h]
  exact ⟨_, _, _, rfl⟩

end Database

namespace Disk

variable {site : Surroundings} {name : Value} {place : Place} {database changed : Database}
  {files : Files}

/-- A store in order is accessed as it is: nothing lies beside it that would have to be settled
first, so looking at it changes no file. -/
theorem databaseAt_eq (h : Keeps site name place database files) :
    databaseAt place files = (.ok (.journalled, database), files) := by
  have hcontent : files.content? place = some (.database database) := by
    rw [FileTree.content?, h.content]
  have hget : (get : Disk Files) files = (.ok files, files) := rfl
  rw [databaseAt, bind_apply, hget]
  simp only [hcontent]
  rw [bind_apply, ofFunction, Companion.settle_of_isAlone _ h.alone]
  rfl

theorem query_eq {α : Type} (h : Keeps site name place database files)
    (f : Database → Except Failure α) : query place f files = (f database, files) := by
  rw [query, bind_apply, databaseAt_eq h]
  rfl

/-- Writing a database to the file of a store in order. A database that is the same is not written,
and the file comes to hold what it held. -/
theorem store_eq (h : Keeps site name place database files) (changed : Database) :
    ∃ after, store .journalled place database changed files = (.ok (), after) ∧
      FileTree.Rewritten place (.database changed) files after := by
  have hplace : place ≠ [] := by
    rintro rfl
    have := h.content
    cases this
  -- a database that did not change is not written at all
  by_cases hsame : changed = database
  · subst hsame
    refine ⟨files, ?_, ⟨_, h.content⟩, h.content, fun _ _ => rfl⟩
    rw [store, if_neg (fun hne => hne rfl)]
    rfl
  · refine ⟨FileTree.write place (.database changed) files, ?_, ⟨_, h.content⟩,
      FileTree.node?_write_self hplace _ _, fun _ hne => FileTree.node?_write_of_ne hne _ _⟩
    rw [store, if_pos hsame, ofFunction, Companion.store, h.journalled,
      FileTree.remove_of_node?_none h.alone.1]
    rfl

theorem transact_of_error {α : Type} {f : Database → Except Failure (α × Database)}
    {failure : Failure} (h : Keeps site name place database files)
    (hf : f database = .error failure) : transact place f files = (.error failure, files) := by
  rw [transact, bind_apply, databaseAt_eq h]
  simp only [hf]
  rfl

/-- A statement that succeeds rewrites the file of its store and nothing else. -/
theorem transact_of_ok {α : Type} {f : Database → Except Failure (α × Database)} {answer : α}
    (h : Keeps site name place database files) (hf : f database = .ok (answer, changed)) :
    ∃ after, transact place f files = (.ok answer, after) ∧
      FileTree.Rewritten place (.database changed) files after := by
  obtain ⟨after, hstore, hwrite⟩ := store_eq h changed
  refine ⟨after, ?_, hwrite⟩
  rw [transact, bind_apply, databaseAt_eq h]
  simp only [hf]
  -- The statement was worked out, and what is left is to write the database that it made.
  show ((store .journalled place database changed >>= fun _ => pure answer) : Disk α) files = _
  rw [bind_apply, hstore]
  rfl

/-- A change that succeeds rewrites the file of its store and nothing else. -/
theorem change_of_ok {f : Database → Except Failure Database}
    (h : Keeps site name place database files) (hf : f database = .ok changed) :
    ∃ after, change place f files = (.ok (), after) ∧
      FileTree.Rewritten place (.database changed) files after :=
  transact_of_ok h (by rw [hf]; rfl)

theorem change_of_error {f : Database → Except Failure Database} {failure : Failure}
    (h : Keeps site name place database files) (hf : f database = .error failure) :
    change place f files = (.error failure, files) :=
  transact_of_error h (by rw [hf]; rfl)

/-- Making the tables of a store in order does nothing, since it has all of them. -/
theorem initialise_eq (h : Keeps site name place database files) :
    initialise site name files = (.ok (), files) := by
  rw [initialise, bind_apply, h.found]
  show reshape place _ files = _
  rw [reshape, bind_apply, databaseAt_eq h]
  show ((do let changed ← (Except.ok database.initialise : Except Failure Database)
            store .journalled place database changed) : Disk Unit) files = _
  rw [h.founded]
  show store .journalled place database database files = _
  rw [store, if_neg (fun hne => hne rfl)]
  rfl

/-- **A file that is opened becomes a store in order**, whether it was there or not. It has the
tables that were there, and those that were missing are empty. -/
theorem initialise_found {site : Surroundings} {name : Value} {place : Place}
    {files made : Files} {content : Content} {database : Database}
    (hfound : connect site name files = (.ok place, made))
    (hcontent : made.content? place = some content) (hdatabase : content.database? = .ok database)
    (halone : Companion.IsAlone place made)
    (hjournalled : Companion.isUnjournalled place made = false) :
    ∃ after, initialise site name files = (.ok (), after) ∧
      FileTree.Rewritten place (.database database.initialise) made after := by
  have hnode : made.node? place = some (.file content) := by
    rw [FileTree.content?] at hcontent
    split at hcontent
    · next hnode => rw [hnode, Option.some.inj hcontent]
    · cases hcontent
  -- The file can be read, and stands alone.
  have hat : databaseAt place made = (.ok (.journalled, database), made) := by
    have hget : (get : Disk Files) made = (.ok made, made) := rfl
    rw [databaseAt, bind_apply, hget]
    simp only [hcontent]
    rw [bind_apply, ofFunction, Companion.settle_of_isAlone _ halone, hdatabase]
    rfl
  have hinitialise : initialise site name files =
      store .journalled place database database.initialise made := by
    rw [initialise, bind_apply, hfound]
    show reshape place _ made = _
    rw [reshape, bind_apply, hat]
    rfl
  -- What is written is the database with its tables, if some of them were missing.
  rw [hinitialise, store]
  by_cases hsame : database.initialise = database
  · -- only a file that holds a database holds one that has its tables
    have hstored : content = .database database := by
      cases content with
      | database stored => rw [Except.ok.inj hdatabase]
      | text s =>
        change (if (Content.text s).isBlank then Except.ok Database.blank else _) = _ at hdatabase
        split at hdatabase
        · cases hdatabase
          cases hsame
        · cases hdatabase
      | bytes => cases hdatabase
    refine ⟨made, ?_, ⟨_, hnode⟩, ?_, fun _ _ => rfl⟩
    · rw [if_neg (fun hne => hne hsame)]
      rfl
    · rw [hnode, hstored, hsame]
  · have hplace : place ≠ [] := by
      rintro rfl
      cases hnode
    refine ⟨FileTree.write place (.database database.initialise) made, ?_, ⟨_, hnode⟩,
      FileTree.node?_write_self hplace _ _, fun _ hne => FileTree.node?_write_of_ne hne _ _⟩
    rw [if_pos hsame, ofFunction, Companion.store, hjournalled,
      FileTree.remove_of_node?_none halone.1]
    rfl

theorem during_of_ok {α : Type} {action : Except Failure StoreAction} {work : Disk α}
    {after : Files} {result : α} (h : work files = (.ok result, after)) :
    during action work files = (.ok result, after) := by
  rw [during, ofFunction, h]

theorem during_of_storage {α : Type} {action : StoreAction} {fault : StorageFault} {work : Disk α}
    {after : Files} (h : work files = (.error (.storage fault), after)) :
    during (.ok action) work files = (.error (.repository action fault), after) := by
  rw [during, ofFunction, h]

theorem ofExcept_bind {α β : Type} {result : α} (next : α → Disk β) (files : Files) :
    (ofExcept (.ok result) >>= next) files = next result files := by
  rw [bind_apply]
  rfl

theorem connect_bind {α : Type} (h : Keeps site name place database files)
    (next : Place → Disk α) : (connect site name >>= next) files = next place files := by
  rw [bind_apply, h.found]

end Disk

/-! ### Jobs as rows -/

/-- Two jobs are the same in all seven fields; environments are compared as mappings. A job that was
stored and read back has its variables in another order, and that is all that may differ. -/
structure Job.Alike (a b : Job) : Prop where
  app : a.app = b.app
  version : a.version = b.version
  type : a.type = b.type
  ordinal : a.ordinal = b.ordinal
  environment : a.environment.same b.environment = true
  image : a.image = b.image
  command : a.command = b.command

theorem Job.Alike.name?_eq {a b : Job} (h : a.Alike b) : a.name? = b.name? := by
  rw [Job.name?, Job.name?, h.app, h.version, h.type, h.ordinal]

/-- A job that the store takes: texts where texts belong, integers of 64 bits, and an environment of
texts under names of their own. It is a condition of the columns, and not on the name, which has
rules of its own. -/
structure Job.IsStorable (job : Job) : Prop where
  app : ∃ s, job.app = .text s
  version : ∃ n, job.version = .int n ∧ CellNumber.fits n = true
  type : ∃ s, job.type = .text s
  ordinal : ∃ n, job.ordinal = .int n ∧ CellNumber.fits n = true
  environment : ∃ environment : Environment,
    job.environment = .ofFields environment ∧ environment.names.Nodup
  repo : ∃ s, job.image.repo = .text s
  id : ∃ s, job.image.id = .text s
  command : ∃ s, job.command = .text s

namespace JobRow

/-- The row reads back as the job. Environments are the same as mappings, not by their order. -/
def Tracks (row : JobRow) (job : Job) : Prop := ∃ kept, row.job? = .ok kept ∧ kept.Alike job

/-- **A job that is stored reads back as itself.** Its environment goes through a document, which is
why only some values can be stored. -/
theorem exists_row {job : Job} {name : String} (hjob : job.IsStorable)
    (hname : job.name? = .ok name) (now : String) :
    ∃ document row, Document.write job.environment = .ok document ∧
      ofJob name document now job = .ok row ∧ row.name = name ∧ job.app = .text row.app ∧
      row.Tracks job := by
  obtain ⟨app, version, type, ordinal, environment, ⟨repo, id⟩, command⟩ := job
  -- Each field is what its column takes, so the row holds what the job has.
  obtain ⟨app, rfl⟩ := hjob.app
  obtain ⟨version, rfl, hversion⟩ := hjob.version
  obtain ⟨type, rfl⟩ := hjob.type
  obtain ⟨ordinal, rfl, hordinal⟩ := hjob.ordinal
  obtain ⟨environment, rfl, hnodup⟩ := hjob.environment
  obtain ⟨repo, rfl⟩ := hjob.repo
  obtain ⟨id, rfl⟩ := hjob.id
  obtain ⟨command, rfl⟩ := hjob.command
  -- the environment is stored as a document, and comes back sorted
  obtain ⟨document, hwrite, hread⟩ := Document.read_ofFields hnodup
  refine ⟨document, ⟨name, app, .int version, type, .int ordinal, document, repo, id, command, now⟩,
    hwrite, ?_, rfl, rfl, ?_⟩
  · simp only [ofJob, Cell.bind_text, Cell.bind_int _ hversion, Cell.bind_int _ hordinal]
    rfl
  · refine ⟨⟨.text app, .int version, .text type, .int ordinal, .ofFields environment.sorted,
      ⟨.text repo, .text id⟩, .text command⟩, ?_, ?_⟩
    · rw [job?, hread]
      rfl
    · exact ⟨rfl, rfl, rfl, rfl,
        Value.same_ofFields_of_perm (Environment.perm_sorted environment), rfl, rfl⟩

end JobRow

/-! ### The job store -/

namespace JobStore

variable {site : Surroundings} {file : Value} {place : Place} {database : Database} {files : Files}

/-- The jobs of an application are read from its rows. -/
theorem list_apply (h : Disk.Keeps site file place database files) (app : String) :
    list site file (.text app) files =
      ((database.jobRows.filter fun row => row.app = app).mapM JobRow.job?, files) := by
  -- the cell of the application is compared as the text that it holds
  have hrows : database.jobsOf (.text app) =
      .ok (database.jobRows.filter fun row => row.app = app) := by
    obtain ⟨jobs, processes, events, rfl⟩ := Database.exists_tables h.founded
    rw [Database.jobsOf, Database.jobs?, Database.require, Cell.bind_text]
    show Except.ok (jobs.contents.filter _) = Except.ok (jobs.contents.filter _)
    congr 2
    funext row
    rw [Cell.asText_text, decide_eq_decide, Option.some.injEq]
    exact eq_comm
  have hquery : ((do let place ← Disk.connect site file
                     Disk.query place (Database.jobsOf (.text app))) : Disk _) files =
      (.ok (database.jobRows.filter fun row => row.app = app), files) := by
    rw [Disk.connect_bind h, Disk.query_eq h, hrows]
  -- The rows are read in one query, and each of them is made a job.
  rw [list, Disk.bind_apply, Disk.during_of_ok hquery]
  rfl

theorem names_apply (h : Disk.Keeps site file place database files) :
    names site file files = (.ok (database.jobRows.map (·.name)), files) := by
  obtain ⟨jobs, processes, events, rfl⟩ := Database.exists_tables h.founded
  rw [names, Disk.connect_bind h, Disk.query_eq h]
  rfl

variable {now : String} {job : Job} {name : String}

/-- What it takes to track a job, up to the statement itself: the name, the document of the
environment and the moment can all be made, and none of them touches the file. -/
theorem add_steps (h : Disk.Keeps site file place database files)
    (hnow : Calendar.timestamp site.now = .ok now) (hname : job.name? = .ok name)
    {document : String} (hdocument : Document.write job.environment = .ok document) :
    ((do let place ← Disk.connect site file
         let name ← Disk.ofExcept job.name?
         let environment ← Disk.ofExcept (Document.write job.environment)
         let now ← Disk.timestamp site
         Disk.change place (Database.addJob (JobRow.ofJob name environment now job))) : Disk Unit)
        files =
      Disk.change place (Database.addJob (JobRow.ofJob name document now job)) files := by
  rw [Disk.connect_bind h, hname, Disk.ofExcept_bind, hdocument, Disk.ofExcept_bind, Disk.timestamp,
    hnow, Disk.ofExcept_bind]

/-- **A job of a new name is tracked**, in a row of its own that reads back as the job. The row
comes last, and with it the order of the rows is the order of the additions. -/
theorem add_of_new (h : Disk.Keeps site file place database files)
    (hnow : Calendar.timestamp site.now = .ok now) (hjob : job.IsStorable)
    (hname : job.name? = .ok name) (hnew : name ∉ database.jobRows.map (·.name)) :
    ∃ row changed after, add site file job files = (.ok (), after) ∧
      FileTree.Rewritten place (.database changed) files after ∧ changed.initialise = changed ∧
      changed.jobRows = database.jobRows ++ [row] ∧
      changed.processRows = database.processRows ∧ row.name = name ∧ job.app = .text row.app ∧
      row.Tracks job := by
  obtain ⟨document, row, hdocument, hrow, hrowName, hrowApp, htracks⟩ :=
    JobRow.exists_row hjob hname now
  obtain ⟨jobs, processes, events, rfl⟩ := Database.exists_tables h.founded
  -- the name is new, so the table takes the row
  have habsent : jobs.any (·.name = row.name) = false := by
    rw [Table.any, List.any_eq_false]
    intro other hother heq
    rw [decide_eq_true_eq, hrowName] at heq
    exact hnew (List.mem_map.mpr ⟨other, hother, heq⟩)
  have hadd : Database.addJob (JobRow.ofJob name document now job)
      ⟨some jobs, some processes, some events, true⟩ =
      .ok ⟨some (jobs.append row), some processes, some events, true⟩ := by
    rw [hrow, Database.addJob]
    show (if jobs.any (·.name = row.name) then _ else _) = _
    rw [habsent]
    rfl
  obtain ⟨after, hchange, hwrite⟩ := Disk.change_of_ok h hadd
  refine ⟨row, _, after, ?_, hwrite, rfl, Table.contents_append row jobs, rfl, hrowName, hrowApp,
    htracks⟩
  exact Disk.during_of_ok ((add_steps h hnow hname hdocument).trans hchange)

/-- **A name that is tracked is refused**, and nothing is done. The name alone decides; it may be
tracked for another application. -/
theorem add_of_mem (h : Disk.Keeps site file place database files)
    (hnow : Calendar.timestamp site.now = .ok now) (hjob : job.IsStorable)
    (hname : job.name? = .ok name) (hmem : name ∈ database.jobRows.map (·.name)) :
    ∃ failure, add site file job files = (.error failure, files) := by
  obtain ⟨document, row, hdocument, hrow, hrowName, -, -⟩ := JobRow.exists_row hjob hname now
  obtain ⟨jobs, processes, events, rfl⟩ := Database.exists_tables h.founded
  -- names are unique in the table, and that is the only thing which can go wrong here
  have hpresent : jobs.any (·.name = row.name) = true := by
    obtain ⟨other, hother, heq⟩ := List.mem_map.mp hmem
    rw [Table.any, List.any_eq_true]
    exact ⟨other, hother, decide_eq_true (heq.trans hrowName.symm)⟩
  have hadd : Database.addJob (JobRow.ofJob name document now job)
      ⟨some jobs, some processes, some events, true⟩ =
      .error (.storage (.duplicate "jobs" "name")) := by
    rw [hrow, Database.addJob]
    show (if jobs.any (·.name = row.name) then _ else _) = _
    rw [hpresent]
    rfl
  refine ⟨.repository (.addJob name) (.duplicate "jobs" "name"), ?_⟩
  have haction : job.name?.map StoreAction.addJob = .ok (.addJob name) := by
    rw [hname]
    rfl
  rw [add, haction]
  exact Disk.during_of_storage
    ((add_steps h hnow hname hdocument).trans (Disk.change_of_error h hadd))

/-- **A name is tracked no longer**, whether or not it was. Removing what is not tracked is no
failure. -/
theorem remove_apply (h : Disk.Keeps site file place database files)
    (hname : job.name? = .ok name) :
    ∃ changed after, remove site file job files = (.ok (), after) ∧
      FileTree.Rewritten place (.database changed) files after ∧ changed.initialise = changed ∧
      changed.jobRows = database.jobRows.filter (fun row => row.name ≠ name) ∧
      changed.processRows = database.processRows := by
  obtain ⟨jobs, processes, events, rfl⟩ := Database.exists_tables h.founded
  -- Removing succeeds whether there is such a row or not.
  have hremove : Database.removeJob name ⟨some jobs, some processes, some events, true⟩ =
      .ok ⟨some (jobs.remove (·.name = name)), some processes, some events, true⟩ := rfl
  obtain ⟨after, hchange, hwrite⟩ := Disk.change_of_ok h hremove
  refine ⟨_, after, ?_, hwrite, rfl, ?_, rfl⟩
  · refine Disk.during_of_ok ?_
    rw [Disk.connect_bind h, hname, Disk.ofExcept_bind]
    exact hchange
  · show (jobs.remove (·.name = name)).contents = jobs.contents.filter _
    rw [Table.contents_remove]
    congr 1
    funext row
    rw [decide_not]

end JobStore

/-! ### The process store -/

namespace ProcessRow

/-- Rows after one of them was written, over the one before it if there was one. It is what the
table does, said of the rows alone. -/
def put (row : ProcessRow) (rows : List ProcessRow) : List ProcessRow :=
  if rows.any (isOf row.app row.type) then
    rows.map fun other => if isOf row.app row.type other then row else other
  else rows ++ [row]

end ProcessRow

/-- A process that the store takes: texts where texts belong, and a whole quantity of 64 bits. Other
values may be stored too, but they may read back as something else. -/
structure ProcessType.IsStorable (process : ProcessType) : Prop where
  type : ∃ s, process.type = .text s
  command : ∃ s, process.command = .text s
  /-- The quantity is whole and fits a column. -/
  quantity : ∃ n : Nat, process.quantity = .whole n ∧ CellNumber.fits n = true
  app : ∃ s, process.app = .text s

namespace ProcessStore

variable {site : Surroundings} {file : Value} {place : Place} {database : Database} {files : Files}
  {now : String} {process : ProcessType}

theorem entries_apply (h : Disk.Keeps site file place database files) :
    entries site file files =
      (.ok (database.processRows.map fun row => (row.app, row.type, row.quantity)), files) := by
  obtain ⟨jobs, processes, events, rfl⟩ := Database.exists_tables h.founded
  rw [entries, Disk.connect_bind h, Disk.query_eq h]
  rfl

/-- **What is wanted of a process type is written over what was wanted before.** There is one row to
a pair of application and type, which keeps its place. -/
theorem update_apply (h : Disk.Keeps site file place database files)
    (hnow : Calendar.timestamp site.now = .ok now) (hprocess : process.IsStorable) :
    ∃ (row : ProcessRow) (changed : Database) (after : Files), update site file process files =
      (.ok process, after) ∧
      FileTree.Rewritten place (.database changed) files after ∧ changed.initialise = changed ∧
      changed.jobRows = database.jobRows ∧
      changed.processRows = row.put database.processRows ∧ process.app = .text row.app ∧
      process.type = .text row.type ∧ process.quantity.toValue = row.quantity.toValue := by
  obtain ⟨type, command, quantity, app⟩ := process
  obtain ⟨type, rfl⟩ := hprocess.type
  obtain ⟨command, rfl⟩ := hprocess.command
  obtain ⟨n, rfl, hfits⟩ := hprocess.quantity
  obtain ⟨app, rfl⟩ := hprocess.app
  obtain ⟨jobs, processes, events, rfl⟩ := Database.exists_tables h.founded
  -- a process that can be stored has a row
  have hrow : ProcessRow.ofProcess now ⟨.text type, .text command, .whole n, .text app⟩ =
      .ok ⟨app, type, command, .int n, now⟩ := by
    simp only [ProcessRow.ofProcess, Quantity.toValue, Cell.bind_text, Cell.bind_int _ hfits]
    rfl
  -- the row takes the place of the one of its process type, in the process table alone
  have hput : Database.putProcess
      (ProcessRow.ofProcess now ⟨.text type, .text command, .whole n, .text app⟩)
      ⟨some jobs, some processes, some events, true⟩ =
      .ok (⟨app, type, command, .int n, now⟩, ⟨some jobs,
        some (processes.put (ProcessRow.isOf app type) ⟨app, type, command, .int n, now⟩),
        some events, true⟩) := by
    rw [hrow]
    rfl
  -- the transaction is committed, as the statement in it succeeds
  obtain ⟨after, htransact, hwrite⟩ := Disk.transact_of_ok h hput
  refine ⟨⟨app, type, command, .int n, now⟩, _, after, ?_, hwrite, rfl, rfl, ?_, rfl, rfl, rfl⟩
  · have hwritten : ((do let place ← Disk.connect site file
                         let now ← Disk.timestamp site
                         Disk.transact place (Database.putProcess (ProcessRow.ofProcess now
                          ⟨.text type, .text command, .whole n, .text app⟩))) : Disk _) files =
        (.ok ⟨app, type, command, .int n, now⟩, after) := by
      rw [Disk.connect_bind h, Disk.timestamp, hnow, Disk.ofExcept_bind]
      exact htransact
    rw [update, Disk.bind_apply, Disk.during_of_ok hwritten]
    rfl
  · show (processes.put (ProcessRow.isOf app type) _).contents = ProcessRow.put _ processes.contents
    exact Table.contents_put _ _ _

end ProcessStore

/-! ### The event log -/

/-- An event that the log takes. It is enough and not needed: the log takes further values, which it
may write in another form. -/
structure Event.IsStorable (event : Event) : Prop where
  level : ∃ s, event.level = .text s
  app : ∃ s, event.app = .text s
  version : ∃ n, event.version = .int n ∧ CellNumber.fits n = true
  message : ∃ s, event.message = .text s

namespace EventLog

variable {site : Surroundings} {file : Value} {place : Place} {database : Database} {files : Files}
  {now : String} {event : Event}

/-- **Logging an event touches neither the jobs nor the wanted quantities.** -/
theorem log_apply (h : Disk.Keeps site file place database files)
    (hnow : Calendar.timestamp site.now = .ok now) (hevent : event.IsStorable) :
    ∃ changed after, log site file event files = (.ok (), after) ∧
      FileTree.Rewritten place (.database changed) files after ∧ changed.initialise = changed ∧
      changed.jobRows = database.jobRows ∧ changed.processRows = database.processRows := by
  obtain ⟨level, message, app, version⟩ := event
  obtain ⟨level, rfl⟩ := hevent.level
  obtain ⟨app, rfl⟩ := hevent.app
  obtain ⟨n, rfl, hfits⟩ := hevent.version
  obtain ⟨message, rfl⟩ := hevent.message
  obtain ⟨jobs, processes, events, rfl⟩ := Database.exists_tables h.founded
  have hrow : EventRow.ofEvent now (Text.upperCase level) (.text app) (.int n) (.text message) =
      .ok ⟨now, Text.upperCase level, some app, .int n, message⟩ := by
    simp only [EventRow.ofEvent, Cell.bind_text, Cell.bind_int _ hfits]
    rfl
  have hadd : Database.addEvent
      (EventRow.ofEvent now (Text.upperCase level) (.text app) (.int n) (.text message))
      ⟨some jobs, some processes, some events, true⟩ =
      .ok ⟨some jobs, some processes,
        some (events.append ⟨now, Text.upperCase level, some app, .int n, message⟩), true⟩ := by
    rw [hrow]
    rfl
  obtain ⟨after, hchange, hwrite⟩ := Disk.change_of_ok h hadd
  refine ⟨_, after, ?_, hwrite, rfl, rfl, rfl⟩
  -- the log makes its tables before every event, which does nothing on a store in order
  rw [log, Disk.bind_apply, Disk.initialise_eq h]
  show ((Disk.connect site file >>= _ : Disk Unit)) files = _
  rw [Disk.connect_bind h, Disk.timestamp, hnow, Disk.ofExcept_bind]
  exact hchange

end EventLog

end Rollout
