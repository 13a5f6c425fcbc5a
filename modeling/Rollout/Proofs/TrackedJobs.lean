import Mathlib.Data.List.Forall2
import Mathlib.Data.List.Induction
import Rollout.Proofs.Answers

/-!
# The job store as a map

Jobs are tracked by name, and listed in the order in which they were added. This file says what that
means for a store in one file that is used for any length of time, by any number of repositories,
under any names that lead to the file (`JobStore.Visit`).

A history of visits leaves behind what was asked and what was answered (`JobStore.Done`). From this
alone `JobStore.lasting` tells the jobs that are there: those that were added with success and not
removed since. The result, `JobStore.isMap_lasting`, is that the store lists exactly these, that it
refuses a name that is there, and that it takes every removal (`JobStore.IsMap`).

* `JobStore.tally` is what one answer does to a map in the order of insertion, and
  `JobStore.lasting_concat` says that `lasting` is kept up to date by it.
* `JobStore.Tracks` relates the files to such a map; `Tracks.visit` is the step and `Tracks.visits`
  the run.
* `JobStore.Awaits` is where a history starts: a file that is there without jobs, or that the first
  repository makes.
-/

namespace Rollout

namespace Disk

variable {site : Surroundings} {name : Value} {place : Place} {database : Database} {files : Files}

/-- A statement that leaves the database as it is leaves the files as they are. -/
theorem transact_of_same {α : Type} {f : Database → Except Failure (α × Database)} {answer : α}
    (h : Keeps site name place database files) (hf : f database = .ok (answer, database)) :
    transact place f files = (.ok answer, files) := by
  rw [transact, bind_apply, databaseAt_eq h]
  simp only [hf]
  show ((store .journalled place database database >>= fun _ => pure answer) : Disk α) files = _
  -- A database that did not change is not written.
  rw [store, if_neg fun hne => hne rfl]
  rfl

theorem change_of_same {f : Database → Except Failure Database}
    (h : Keeps site name place database files) (hf : f database = .ok database) :
    change place f files = (.ok (), files) :=
  transact_of_same h (by rw [hf]; rfl)

theorem Keeps.at_time (h : Keeps site name place database files) (now : Int) :
    Keeps { site with now } name place database files :=
  ⟨h.found, h.content, h.alone, h.journalled, h.founded⟩

end Disk

/-- The job belongs to the application. -/
def Job.isOf (app : String) (job : Job) : Bool := job.app.same (.text app)

/-- The row is that of the job, and reads back as it. The moment of the addition is in the row as
well, and no job says anything of it. -/
structure JobRow.Keeps (row : JobRow) (job : Job) : Prop where
  name : row.name = job.label
  app : job.app = .text row.app
  tracks : row.Tracks job

namespace JobStore

/-! ### Visits -/

/-- What a job store is visited for. Listing is not among it, since it leaves the files as they
are. -/
inductive Errand where
  /-- A repository is opened on the file. -/
  | «open»
  | add (job : Job)
  | remove (job : Job)

/-- A visit to a job store. Each has a moment of its own, and they need not come in the order of
time. -/
structure Visit where
  /-- The name of the file, as the repository knows it. -/
  file : Value
  /-- The moment of the visit. -/
  now : Int
  errand : Errand

/-- Does an errand. -/
def Errand.work (site : Surroundings) (file : Value) : Errand → Disk Unit
  | «open» => JobStore.open site file
  | add job => JobStore.add site file job
  | remove job => JobStore.remove site file job

/-- Makes a visit. -/
def Visit.work (site : Surroundings) (visit : Visit) : Disk Unit :=
  visit.errand.work { site with now := visit.now } visit.file

/-- What was asked of a store, and what it answered. -/
abbrev Done := Errand × Except Failure Unit

/-- Makes visits, one after the other, whatever is answered. -/
def visits (site : Surroundings) : List Visit → Files → List Done × Files
  | [], files => ([], files)
  | visit :: rest, files =>
    let made := visit.work site files
    let later := visits site rest made.2
    ((visit.errand, made.1) :: later.1, later.2)

/-! ### What lasts -/

/-- The job of a name was removed. -/
def Done.removes (name : String) : Done → Bool
  | (.remove job, .ok ()) => job.label = name
  | _ => false

/-- The jobs that were added with success and not removed since. It goes by what was asked and
answered only, and looks forward: a job lasts unless a later removal was of its label. -/
def lasting : List Done → List Job
  | [] => []
  | (.add job, .ok ()) :: later =>
    if later.any (·.removes job.label) then lasting later else job :: lasting later
  | _ :: later => lasting later

/-- A map in the order of insertion after one more answer. -/
def tally (jobs : List Job) : Done → List Job
  | (.add job, .ok ()) => jobs ++ [job]
  | (.remove job, .ok ()) => jobs.filter fun other => other.label ≠ job.label
  | _ => jobs

/-- A removal takes away what it removes, and nothing else does. -/
theorem tally_eq (jobs : List Job) (last : Done) :
    tally jobs last = jobs.filter (fun job => !last.removes job.label) ++ lasting [last] := by
  -- A failed visit changes nothing and leaves nothing, whatever it was for.
  rcases last with ⟨errand, failure | ⟨⟩⟩
  · cases errand <;> simp [tally, Done.removes, lasting]
  · cases errand with
    | «open» => simp [tally, Done.removes, lasting]
    | add job => simp [tally, Done.removes, lasting]
    | remove job =>
      simp only [tally, Done.removes, lasting, List.append_nil]
      refine List.filter_congr fun other _ => ?_
      rw [decide_not]
      exact congrArg _ (decide_eq_decide.mpr eq_comm)

/-- Whatever is not an addition leaves nothing behind by itself. -/
theorem lasting_cons_of_ne {first : Done} (h : ∀ job, first ≠ (.add job, .ok ()))
    (later : List Done) : lasting (first :: later) = lasting later := by
  rcases first with ⟨errand, failure | ⟨⟩⟩
  · cases errand <;> rfl
  · cases errand with
    | «open» => rfl
    | add job => exact absurd rfl (h job)
    | remove job => rfl

/-- **What lasts is a map in the order of insertion**: one more answer does to it what it does to
such a map. -/
theorem lasting_concat (done : List Done) (last : Done) :
    lasting (done ++ [last]) = tally (lasting done) last := by
  -- On the history from its beginning: the last answer is weighed against every job before it.
  rw [tally_eq]
  induction done with
  | nil => rfl
  | cons first later ih =>
    -- Only a successful addition leaves a job; what else comes first plays no role.
    by_cases hadds : ∃ job, first = (.add job, .ok ())
    · obtain ⟨job, rfl⟩ := hadds
      rw [List.cons_append, lasting, lasting, List.any_append, ih]
      -- the job lasts if it lasted so far and the last errand does not remove it
      cases later.any (·.removes job.label) with
      | true => rfl
      | false =>
        rw [Bool.false_or, List.any_cons, List.any_nil, Bool.or_false, if_neg Bool.false_ne_true,
          List.filter_cons]
        cases last.removes job.label <;> rfl
    · have hother : ∀ job, first ≠ (.add job, .ok ()) := fun job heq => hadds ⟨job, heq⟩
      rw [List.cons_append, lasting_cons_of_ne hother, lasting_cons_of_ne hother, ih]

theorem foldl_tally (done : List Done) : done.foldl tally [] = lasting done := by
  induction done using List.reverseRecOn with
  | nil => rfl
  | append_singleton earlier last ih => rw [List.foldl_append, ih, lasting_concat]; rfl

/-! ### The files as a map -/

/-- The file at a place, which some names lead to, keeps the jobs of a map, in their order. The rows
stand in the order of insertion, and no two of them have one name. -/
structure Tracks (site : Surroundings) (names : Value → Prop) (place : Place) (jobs : List Job)
    (files : Files) : Prop where
  rows : ∃ database, (∀ file, names file → Disk.Keeps site file place database files) ∧
    List.Forall₂ JobRow.Keeps database.jobRows jobs
  distinct : (jobs.map Job.label).Nodup

/-- A job that can be stored under its name: its fields have the types of their columns, and its
numbers fit into 64 bits. -/
structure IsTrackable (job : Job) : Prop extends job.IsStorable where
  named : ∃ name, job.name? = .ok name

/-- A visit to the store that some names lead to, at a moment of the calendar. Jobs that are added
can be kept, and those that are removed have names. -/
structure Visit.IsLegal (names : Value → Prop) (visit : Visit) : Prop where
  file : names visit.file
  moment : ∃ text, Calendar.timestamp visit.now = .ok text
  adds : ∀ job, visit.errand = .add job → IsTrackable job
  removes : ∀ job, visit.errand = .remove job → ∃ name, job.name? = .ok name

theorem Visit.isLegal_add {names : Value → Prop} {file : Value} {now : Int} {job : Job}
    (hfile : names file) (hnow : ∃ text, Calendar.timestamp now = .ok text)
    (hjob : IsTrackable job) : Visit.IsLegal names ⟨file, now, .add job⟩ :=
  ⟨hfile, hnow, fun _ h => Errand.add.inj h ▸ hjob, fun _ h => nomatch h⟩

theorem Visit.isLegal_remove {names : Value → Prop} {file : Value} {now : Int} {job : Job}
    (hfile : names file) (hnow : ∃ text, Calendar.timestamp now = .ok text)
    (hnamed : ∃ name, job.name? = .ok name) : Visit.IsLegal names ⟨file, now, .remove job⟩ :=
  ⟨hfile, hnow, fun _ h => (nomatch h), fun _ h => Errand.remove.inj h ▸ hnamed⟩

namespace Tracks

variable {site : Surroundings} {names : Value → Prop} {place : Place} {jobs : List Job}
  {files : Files} {file : Value} {now : Int} {job : Job}

theorem names_eq {rows : List JobRow} (h : List.Forall₂ JobRow.Keeps rows jobs) :
    rows.map (·.name) = jobs.map Job.label := by
  induction h with
  | nil => rfl
  | cons hfirst _ ih => rw [List.map_cons, List.map_cons, hfirst.name, ih]

theorem «open» (h : Tracks site names place jobs files) (hfile : names file) (now : Int) :
    JobStore.open { site with now } file files = (.ok (), files) := by
  obtain ⟨database, hkeeps, -⟩ := h.rows
  exact Disk.during_of_ok (Disk.initialise_eq ((hkeeps file hfile).at_time now))

/-- **A job of a new name comes last.** -/
theorem add_of_new (h : Tracks site names place jobs files) (hfile : names file)
    (hnow : ∃ text, Calendar.timestamp now = .ok text) (hjob : IsTrackable job)
    (hnew : job.label ∉ jobs.map Job.label) :
    ∃ after, add { site with now } file job files = (.ok (), after) ∧
      Tracks site names place (jobs ++ [job]) after := by
  obtain ⟨database, hkeeps, hrows⟩ := h.rows
  obtain ⟨text, hnow⟩ := hnow
  obtain ⟨name, hname⟩ := hjob.named
  have hlabel := Job.label_of_name? hname
  -- rows have the labels of the jobs, so the name is new to the table
  have habsent : name ∉ database.jobRows.map (·.name) := by
    rw [names_eq hrows, ← hlabel]
    exact hnew
  obtain ⟨row, changed, after, hadd, hwrite, hfounded, hchanged, -, hrowName, happ, htracks⟩ :=
    JobStore.add_of_new ((hkeeps file hfile).at_time now) hnow hjob.toIsStorable hname habsent
  -- The other names lead to the same file, which was rewritten with one row more.
  refine ⟨after, hadd, ⟨changed, fun other hother => ?_, ?_⟩, ?_⟩
  · exact (hkeeps other hother).rewritten_self hwrite hfounded
  · rw [hchanged]
    exact List.rel_append hrows (.cons ⟨hrowName.trans hlabel.symm, happ, htracks⟩ .nil)
  · rw [List.map_append, List.map_singleton, List.nodup_append]
    refine ⟨h.distinct, List.nodup_singleton _, fun label hmem last hlast => ?_⟩
    rw [List.mem_singleton.mp hlast]
    exact fun heq => hnew (heq ▸ hmem)

/-- **A name that is there is refused**, and nothing is done. The failure names the job and says
that it is there already. -/
theorem add_of_mem (h : Tracks site names place jobs files) (hfile : names file)
    (hnow : ∃ text, Calendar.timestamp now = .ok text) (hjob : IsTrackable job)
    (hmem : job.label ∈ jobs.map Job.label) :
    add { site with now } file job files =
      (.error (.repository (.addJob job.label) (.duplicate "jobs" "name")), files) := by
  obtain ⟨database, hkeeps, hrows⟩ := h.rows
  obtain ⟨text, hnow⟩ := hnow
  obtain ⟨name, hname⟩ := hjob.named
  have hlabel := Job.label_of_name? hname
  obtain ⟨row, hrowName, -, hmet⟩ :=
    JobRow.admit?_of_isStorable hjob.toIsStorable hname text database.jobRows
  -- the row has the name of one that is there
  have hrefused : JobRow.admit? text database.jobRows job =
      .error (.storage (.duplicate "jobs" "name")) := by
    rw [hmet, JobRow.unique?, if_pos]
    rw [hrowName, ← hlabel, names_eq hrows]
    exact hmem
  have hadd := add_of_refused ((hkeeps file hfile).at_time now) hnow hrefused
  rw [hname] at hadd
  rw [hlabel]
  exact hadd

/-- A removal takes the job of its name away, if there is one. -/
theorem remove (h : Tracks site names place jobs files) (hfile : names file)
    (hnamed : ∃ name, job.name? = .ok name) (now : Int) :
    ∃ after, JobStore.remove { site with now } file job files = (.ok (), after) ∧
      Tracks site names place (jobs.filter fun other => other.label ≠ job.label) after := by
  obtain ⟨database, hkeeps, hrows⟩ := h.rows
  obtain ⟨name, hname⟩ := hnamed
  have hlabel := Job.label_of_name? hname
  obtain ⟨changed, after, hremove, hwrite, hfounded, hchanged, -⟩ :=
    remove_apply ((hkeeps file hfile).at_time now) hname
  refine ⟨after, hremove, ⟨changed, fun other hother => ?_, ?_⟩, ?_⟩
  · exact (hkeeps other hother).rewritten_self hwrite hfounded
  · rw [hchanged, hlabel]
    -- Row by row the same are taken away as are taken from the map.
    refine List.rel_filter (fun row other hrow => ?_) hrows
    show decide (row.name ≠ name) = true ↔ decide (other.label ≠ name) = true
    rw [hrow.name]
  · exact h.distinct.sublist (List.filter_sublist.map _)

/-- **Removing a name that is not there does nothing.** -/
theorem remove_of_not_mem (h : Tracks site names place jobs files) (hfile : names file)
    (hnamed : ∃ name, job.name? = .ok name) (hnot : job.label ∉ jobs.map Job.label) :
    JobStore.remove { site with now } file job files = (.ok (), files) := by
  obtain ⟨database, hkeeps, hrows⟩ := h.rows
  obtain ⟨name, hname⟩ := hnamed
  have hkept := (hkeeps file hfile).at_time now
  obtain ⟨table, processes, events, rfl⟩ := Database.exists_tables hkept.founded
  -- no row has the name, so filtering it out changes nothing
  have habsent : ∀ entry ∈ table.rows, entry.2.name ≠ name := by
    rintro entry hmem rfl
    refine hnot ?_
    rw [Job.label_of_name? hname, ← names_eq hrows]
    exact List.mem_map.mpr ⟨entry.2, List.mem_map.mpr ⟨entry, hmem, rfl⟩, rfl⟩
  -- The statement succeeds all the same, with the database it started from.
  have hsame : Database.removeJob name ⟨some table, some processes, some events, true⟩ =
      .ok ⟨some table, some processes, some events, true⟩ := by
    have hrows : table.remove (·.name = name) = table := by
      rw [Table.remove, List.filter_eq_self.mpr]
      intro entry hmem
      rw [decide_eq_false (habsent entry hmem)]
      rfl
    show Except.ok (Database.mk (some (table.remove _)) _ _ _) = _
    rw [hrows]
  refine Disk.during_of_ok ?_
  rw [Disk.connect_bind hkept, hname, Disk.ofExcept_bind]
  exact Disk.change_of_same hkept hsame

/-- Rows that keep jobs read back as them. -/
theorem mapM_job? {rows : List JobRow} (h : List.Forall₂ JobRow.Keeps rows jobs) :
    ∃ listed, rows.mapM JobRow.job? = .ok listed ∧ List.Forall₂ Job.Alike listed jobs := by
  induction h with
  | nil => exact ⟨[], rfl, .nil⟩
  | cons hfirst _ ih =>
    obtain ⟨kept, hkept, halike⟩ := hfirst.tracks
    obtain ⟨listed, hlisted, hrest⟩ := ih
    refine ⟨kept :: listed, ?_, .cons halike hrest⟩
    rw [List.mapM_cons, hkept, hlisted]
    rfl

/-- **The jobs of an application are listed** as they were added, and in that order. A job that was
removed and added again comes last. -/
theorem list (h : Tracks site names place jobs files) (hfile : names file) (now : Int)
    (app : String) :
    ∃ listed, JobStore.list { site with now } file (.text app) files = (.ok listed, files) ∧
      List.Forall₂ Job.Alike listed (jobs.filter (Job.isOf app)) := by
  obtain ⟨database, hkeeps, hrows⟩ := h.rows
  have hof : List.Forall₂ JobRow.Keeps (database.jobRows.filter fun row => row.app = app)
      (jobs.filter (Job.isOf app)) := by
    -- A row is of the application exactly if its job is.
    refine List.rel_filter (fun row job hrow => ?_) hrows
    show decide (row.app = app) = true ↔ job.app.same (.text app) = true
    rw [hrow.app, Value.same_text, decide_eq_true_eq, beq_iff_eq]
  obtain ⟨listed, hlisted, halike⟩ := mapM_job? hof
  refine ⟨listed, ?_, halike⟩
  rw [list_apply ((hkeeps file hfile).at_time now) app, hlisted]

/-! ### Steps and runs -/

/-- **A visit does to the files what its answer does to the map.** This is the step of the induction
over all visits; the answer is part of it, since a failed visit does nothing. -/
theorem visit (h : Tracks site names place jobs files) {visit : Visit}
    (hlegal : visit.IsLegal names) :
    Tracks site names place (tally jobs (visit.errand, (visit.work site files).1))
      (visit.work site files).2 := by
  obtain ⟨file, now, errand⟩ := visit
  -- Each errand once, with its answer: the map moves by what was answered.
  cases errand with
  | «open» =>
    have hopen := h.open hlegal.file now
    rw [Visit.work, Errand.work, hopen]
    exact h
  | add job =>
    have hjob := hlegal.adds job rfl
    -- a job whose name is taken is refused, and any other one goes behind all others
    by_cases hmem : job.label ∈ jobs.map Job.label
    · have hadd := h.add_of_mem hlegal.file hlegal.moment hjob hmem
      rw [Visit.work, Errand.work, hadd]
      exact h
    · obtain ⟨after, hadd, hafter⟩ := h.add_of_new hlegal.file hlegal.moment hjob hmem
      rw [Visit.work, Errand.work, hadd]
      exact hafter
  | remove job =>
    obtain ⟨after, hremove, hafter⟩ := h.remove hlegal.file (hlegal.removes job rfl) now
    rw [Visit.work, Errand.work, hremove]
    exact hafter

/-- Visits do to the files what their answers do to the map. -/
theorem visits (h : Tracks site names place jobs files) {history : List Visit}
    (hlegal : ∀ visit ∈ history, visit.IsLegal names) :
    Tracks site names place ((JobStore.visits site history files).1.foldl tally jobs)
      (JobStore.visits site history files).2 := by
  -- On the history: every visit leaves the files tracking the map that its answer has made.
  induction history generalizing jobs files with
  | nil => exact h
  | cons first rest ih =>
    exact ih (h.visit (hlegal first List.mem_cons_self))
      fun visit hmem => hlegal visit (List.mem_cons_of_mem _ hmem)

end Tracks

/-! ### The map -/

/-- A store that goes by some names answers like a map from labels to jobs, in the order of
insertion. -/
structure IsMap (site : Surroundings) (names : Value → Prop) (jobs : List Job) (files : Files) :
    Prop where
  /-- Every job is there once. -/
  distinct : (jobs.map Job.label).Nodup
  lists : ∀ file, names file → ∀ now app, ∃ listed,
    list { site with now } file (.text app) files = (.ok listed, files) ∧
      List.Forall₂ Job.Alike listed (jobs.filter (Job.isOf app))
  adds : ∀ file, names file → ∀ now, (∃ text, Calendar.timestamp now = .ok text) →
    ∀ job, IsTrackable job → job.label ∉ jobs.map Job.label →
      (add { site with now } file job files).1 = .ok ()
  /-- A label that is there is refused. -/
  refuses : ∀ file, names file → ∀ now, (∃ text, Calendar.timestamp now = .ok text) →
    ∀ job, IsTrackable job → job.label ∈ jobs.map Job.label →
      add { site with now } file job files =
        (.error (.repository (.addJob job.label) (.duplicate "jobs" "name")), files)
  removes : ∀ file, names file → ∀ now job, (∃ name, job.name? = .ok name) →
    (remove { site with now } file job files).1 = .ok ()
  /-- Without the job there is nothing to remove. -/
  ignores : ∀ file, names file → ∀ now job, (∃ name, job.name? = .ok name) →
    job.label ∉ jobs.map Job.label → remove { site with now } file job files = (.ok (), files)

theorem Tracks.isMap {site : Surroundings} {names : Value → Prop} {place : Place}
    {jobs : List Job} {files : Files} (h : Tracks site names place jobs files) :
    IsMap site names jobs files where
  distinct := h.distinct
  lists _ hfile now app := h.list hfile now app
  adds _ hfile _ hnow _ hjob hnew := by
    obtain ⟨after, hadd, -⟩ := h.add_of_new hfile hnow hjob hnew
    rw [hadd]
  refuses _ hfile _ hnow _ hjob hmem := h.add_of_mem hfile hnow hjob hmem
  removes _ hfile now _ hnamed := by
    obtain ⟨after, hremove, -⟩ := h.remove hfile hnamed now
    rw [hremove]
  ignores _ hfile _ _ hnamed hnot := h.remove_of_not_mem hfile hnamed hnot

/-- Some names lead to one file without jobs, which is there or is made on the way. -/
structure Awaits (site : Surroundings) (names : Value → Prop) (place : Place)
    (files made : Files) : Prop where
  found : ∀ file, names file → Disk.connect site file files = (.ok place, made)
  vacant : ∃ content database, made.content? place = some content ∧
    content.database? = .ok database ∧ database.jobRows = []
  alone : Companion.IsAlone place made
  journalled : Companion.isUnjournalled place made = false

section History

variable {site : Surroundings} {names : Value → Prop} {place : Place} {files made : Files}

/-- The first repository that is opened on a file makes a map without jobs of it. -/
theorem Awaits.open (h : Awaits site names place files made) {first : Value} (hfirst : names first)
    (now : Int) : ∃ after, JobStore.open { site with now } first files = (.ok (), after) ∧
      Tracks site names place [] after := by
  obtain ⟨content, database, hcontent, hdatabase, hvacant⟩ := h.vacant
  obtain ⟨after, hmade, hwrite⟩ := Disk.initialise_found (h.found first hfirst) hcontent hdatabase
    h.alone h.journalled
  -- Making the tables is all that happens, and making them again would change nothing.
  refine ⟨after, Disk.during_of_ok hmade, ⟨database.initialise, fun file hfile => ?_, ?_⟩,
    List.nodup_nil⟩
  · exact .of_rewritten (Disk.connect_again (h.found file hfile)) h.alone h.journalled hwrite
      database.initialise_initialise
  · have hrows : database.initialise.jobRows = [] := hvacant
    rw [hrows]
    exact .nil

/-- **The job store is a map in the order of insertion.** Whatever was asked of it since it was
opened for the first time, and whatever it answered, it tracks the jobs that were added with success
and not removed since. -/
theorem isMap_lasting (hawaits : Awaits site names place files made) {first : Value} {now : Int}
    {history : List Visit} (hfirst : names first)
    (hlegal : ∀ visit ∈ history, visit.IsLegal names) :
    IsMap site names (lasting (visits site (⟨first, now, .open⟩ :: history) files).1)
      (visits site (⟨first, now, .open⟩ :: history) files).2 := by
  obtain ⟨opened, hopen, htracks⟩ := hawaits.open hfirst now
  have hmade : Visit.work site ⟨first, now, .open⟩ files = (.ok (), opened) := hopen
  have hall := (htracks.visits hlegal).isMap
  -- The map that was kept up along the way is what lasts by the answers alone.
  rw [foldl_tally] at hall
  rw [JobStore.visits, hmade]
  exact hall

end History

end JobStore

/-- Jobs of one release that differ in their instance number and their command. -/
def Job.web (ordinal : Int) (command : String) : Job :=
  ⟨.text "web", .int 3, .text "web", .int ordinal, .ofFields [("MOTTO", "\"✓\"\n")],
    ⟨.text "repo", .text "v3"⟩, .text command⟩

namespace JobStore

/-- The name of a file from its directory, and from the root. -/
def isEitherName (file : Value) : Prop := file = .text "state.db" ∨ file = .text "/tmp/state.db"

/-- A job is added again while it is there, and once more after it was removed. -/
def readding : List Visit :=
  [⟨.text "state.db", 1700000000, .add (.web 1 "./run")⟩,
    ⟨.text "/tmp/state.db", 1700000001, .add (.web 2 "./run")⟩,
    ⟨.text "/tmp/state.db", 1700000002, .add (.web 1 "./other")⟩,
    ⟨.text "state.db", 1700000003, .remove (.web 1 "./run")⟩,
    ⟨.text "/tmp/state.db", 1700000004, .add (.web 1 "./other")⟩]

theorem isTrackable_web {ordinal : Int} {command : String}
    (hfits : CellNumber.fits ordinal = true)
    (hnamed : ∃ name, (Job.web ordinal command).name? = .ok name) :
    IsTrackable (.web ordinal command) where
  app := ⟨_, rfl⟩
  version := ⟨_, rfl, by decide⟩
  type := ⟨_, rfl⟩
  ordinal := ⟨_, rfl, hfits⟩
  environment := ⟨[("MOTTO", "\"✓\"\n")], rfl, List.nodup_singleton _⟩
  repo := ⟨_, rfl⟩
  id := ⟨_, rfl⟩
  command := ⟨_, rfl⟩
  named := hnamed

/-- The answers and the files after all visits, on a disk without the file. -/
def readded : List Done × Files :=
  visits ⟨["tmp"], .text "state.db", 0⟩ (⟨.text "state.db", 1700000000, .open⟩ :: readding)
    [(["tmp"], .directory)]

/-- **A job that was removed and added again comes last**, and the addition that was refused left
nothing behind. -/
theorem isMap_readded :
    (∀ visit ∈ readding, visit.IsLegal isEitherName) ∧
      (lasting readded.1).map (fun job => (job.label, job.command.shown?.toOption)) =
        [("web.3.web.2", some "./run"), ("web.3.web.1", some "./other")] ∧
      IsMap ⟨["tmp"], .text "state.db", 0⟩ isEitherName (lasting readded.1) readded.2 := by
  -- Both names are of one place, where the first visit makes an empty file.
  have hawaits : Awaits ⟨["tmp"], .text "state.db", 0⟩ isEitherName ["state.db", "tmp"]
      [(["tmp"], .directory)]
      [(["tmp"], .directory), (["state.db", "tmp"], .file (.text ""))] := by
    refine ⟨?_, ⟨_, _, rfl, rfl, rfl⟩, ⟨rfl, rfl⟩, rfl⟩
    rintro file (rfl | rfl) <;> rfl
  have hlegal : ∀ visit ∈ readding, visit.IsLegal isEitherName := by
    have hfirst : (Job.web 1 "./run").name? = .ok "web.3.web.1" :=
      eq_ok_of_toOption (by decide +kernel)
    have hsecond : (Job.web 2 "./run").name? = .ok "web.3.web.2" :=
      eq_ok_of_toOption (by decide +kernel)
    simp only [readding, List.forall_mem_cons]
    exact ⟨Visit.isLegal_add (.inl rfl) ⟨_, rfl⟩ (isTrackable_web (by decide) ⟨_, hfirst⟩),
      Visit.isLegal_add (.inr rfl) ⟨_, rfl⟩ (isTrackable_web (by decide) ⟨_, hsecond⟩),
      Visit.isLegal_add (.inr rfl) ⟨_, rfl⟩ (isTrackable_web (by decide) ⟨_, hfirst⟩),
      Visit.isLegal_remove (.inl rfl) ⟨_, rfl⟩ ⟨_, hfirst⟩,
      Visit.isLegal_add (.inr rfl) ⟨_, rfl⟩ (isTrackable_web (by decide) ⟨_, hfirst⟩),
      fun _ h => nomatch h⟩
  exact ⟨hlegal, by decide +kernel, isMap_lasting hawaits (.inl rfl) hlegal⟩

end JobStore

end Rollout
