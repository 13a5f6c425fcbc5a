import Rollout.Proofs.Answers

/-!
# Files that differ in events

Two trees of files are *log twins* (`Disk.LogTwins`), or twins for short, if the three stores are in
order in both of them, in the same places, and hold the same jobs and the same wanted quantities,
rows and numbers of rows alike. Their events may differ.

No store looks at events, so whatever is done to twins comes to the same in both and leaves twins
(`Disk.Alike`): this is shown for each operation of the job store and of the process store. Logging
an event comes to the same as well; and if only one of the two logs it, they still are twins
(`EventLog.twins_log`).
-/

namespace Rollout

/-- A statement that comes to the same in databases with the same jobs and the same wanted
quantities, and leaves such databases. It is stated for databases with all tables, since only these
are found in stores that are in order. -/
def Database.IsBlind {α : Type} (f : Database → Except Failure (α × Database)) : Prop :=
  ∀ jobs processes events others,
    (∃ failure, f ⟨some jobs, some processes, some events, true⟩ = .error failure ∧
      f ⟨some jobs, some processes, some others, true⟩ = .error failure) ∨
    ∃ result jobs' processes' events' others',
      f ⟨some jobs, some processes, some events, true⟩ =
        .ok (result, ⟨some jobs', some processes', some events', true⟩) ∧
      f ⟨some jobs, some processes, some others, true⟩ =
        .ok (result, ⟨some jobs', some processes', some others', true⟩)

namespace Disk

variable {α β : Type} {site : Surroundings} {opened : Opened} {name other : Value} {place : Place}
  {database changed : Database} {files twin after after' : Files}

/-- A rewritten file may be the same. So a tree in which nothing happens can be set beside one in
which a file is rewritten. -/
theorem Keeps.rewritten_refl (h : Keeps site name place database files) :
    FileTree.Rewritten place (.database database) files files :=
  ⟨⟨_, h.content⟩, h.content, fun _ _ => rfl⟩

/-- The store of a name is in order in both trees, with databases that differ in events at most. The
name leads to the same place in both of them. -/
def LogTwinStores (site : Surroundings) (name : Value) (files twin : Files) : Prop :=
  ∃ place database kept, Keeps site name place database files ∧ Keeps site name place kept twin ∧
    database.SameButEvents kept

/-- Two trees of files that differ in events at most, as far as the stores go. Nothing is said of
other files, which no store looks at. -/
structure LogTwins (site : Surroundings) (opened : Opened) (files twin : Files) : Prop where
  jobs : LogTwinStores site opened.jobs files twin
  processes : LogTwinStores site opened.processes files twin
  events : LogTwinStores site opened.policy.events files twin

theorem LogTwinStores.symm (h : LogTwinStores site name files twin) :
    LogTwinStores site name twin files := by
  obtain ⟨place, database, kept, hkeeps, hkeeps', hsame⟩ := h
  exact ⟨place, kept, database, hkeeps', hkeeps, hsame.jobs.symm, hsame.processes.symm⟩

theorem LogTwins.symm (h : LogTwins site opened files twin) : LogTwins site opened twin files :=
  ⟨h.jobs.symm, h.processes.symm, h.events.symm⟩

theorem LogTwinStores.at_time (now : Int) (h : LogTwinStores site name files twin) :
    LogTwinStores { site with now } name files twin := by
  obtain ⟨place, database, kept, hkeeps, hkept, hsame⟩ := h
  exact ⟨place, database, kept,
    ⟨hkeeps.found, hkeeps.content, hkeeps.alone, hkeeps.journalled, hkeeps.founded⟩,
    ⟨hkept.found, hkept.content, hkept.alone, hkept.journalled, hkept.founded⟩, hsame⟩

theorem LogTwins.at_time (now : Int) (h : LogTwins site opened files twin) :
    LogTwins { site with now } opened files twin :=
  ⟨h.jobs.at_time now, h.processes.at_time now, h.events.at_time now⟩

theorem LogTwinStores.refl (h : Keeps site name place database files) :
    LogTwinStores site name files files := ⟨place, database, database, h, h, .refl database⟩

/-- **Stores stay twins** when the file of one of them is rewritten in both trees. The other one may
be in the same file, and then it sees what was written. -/
theorem LogTwinStores.rewritten {kept kept' : Database} (h : LogTwinStores site other files twin)
    (hkeeps : Keeps site name place database files) (hkeeps' : Keeps site name place kept twin)
    (hwrite : FileTree.Rewritten place (.database changed) files after)
    (hwrite' : FileTree.Rewritten place (.database kept') twin after')
    (hfounded : changed.initialise = changed) (hfounded' : kept'.initialise = kept')
    (hsame : changed.SameButEvents kept') : LogTwinStores site other after after' := by
  obtain ⟨place', seen, seen', hseen, hseen', hsame'⟩ := h
  -- Either the store is the one that was rewritten, in both trees, or it was not touched in either.
  by_cases hplace : place' = place
  · subst hplace
    exact ⟨place', changed, kept', hseen.rewritten_self hwrite hfounded,
      hseen'.rewritten_self hwrite' hfounded', hsame⟩
  · exact ⟨place', seen, seen', hseen.rewritten_other hkeeps hplace hwrite,
      hseen'.rewritten_other hkeeps' hplace hwrite', hsame'⟩

theorem LogTwins.rewritten {kept kept' : Database} (h : LogTwins site opened files twin)
    (hkeeps : Keeps site name place database files) (hkeeps' : Keeps site name place kept twin)
    (hwrite : FileTree.Rewritten place (.database changed) files after)
    (hwrite' : FileTree.Rewritten place (.database kept') twin after')
    (hfounded : changed.initialise = changed) (hfounded' : kept'.initialise = kept')
    (hsame : changed.SameButEvents kept') : LogTwins site opened after after' where
  jobs := h.jobs.rewritten hkeeps hkeeps' hwrite hwrite' hfounded hfounded' hsame
  processes := h.processes.rewritten hkeeps hkeeps' hwrite hwrite' hfounded hfounded' hsame
  events := h.events.rewritten hkeeps hkeeps' hwrite hwrite' hfounded hfounded' hsame

/-! ### Work on twins -/

/-- The work comes to the same on both trees, and leaves twins. Work that follows it can thus be
compared in turn. -/
structure Alike (site : Surroundings) (opened : Opened) (work : Disk α) (files twin : Files) :
    Prop where
  answer : (work files).1 = (work twin).1
  twins : LogTwins site opened (work files).2 (work twin).2

namespace Alike

variable {work : Disk α} {next : α → Disk β} {known : Except Failure α}

theorem ofExcept (h : LogTwins site opened files twin) (known : Except Failure α) :
    Alike site opened (Disk.ofExcept known) files twin := ⟨rfl, h⟩

theorem ofExcept_bind (h : LogTwins site opened files twin)
    (hnext : ∀ value, known = .ok value → Alike site opened (next value) files twin) :
    Alike site opened (Disk.ofExcept known >>= next) files twin := by
  cases known with
  | error failure =>
    constructor
    · rw [ofExcept_error_bind, ofExcept_error_bind]
    · rw [ofExcept_error_bind, ofExcept_error_bind]
      exact h
  | ok value =>
    obtain ⟨hanswer, htwins⟩ := hnext value rfl
    constructor
    · rw [Disk.ofExcept_bind, Disk.ofExcept_bind]
      exact hanswer
    · rw [Disk.ofExcept_bind, Disk.ofExcept_bind]
      exact htwins

/-- **One thing after another.** -/
theorem bind (h : Alike site opened work files twin)
    (hnext : ∀ value after after', LogTwins site opened after after' →
      Alike site opened (next value) after after') :
    Alike site opened (work >>= next) files twin := by
  obtain ⟨hanswer, htwins⟩ := h
  rcases hhere : work files with ⟨result, after⟩
  rcases hthere : work twin with ⟨result', after'⟩
  rw [hhere, hthere] at hanswer htwins
  obtain rfl : result = result' := hanswer
  -- Both trees gave the same result, so either both go on or neither does.
  cases result with
  | error failure => exact ⟨by rw [bind_apply, bind_apply, hhere, hthere],
      by rw [bind_apply, bind_apply, hhere, hthere]; exact htwins⟩
  | ok value =>
    obtain ⟨hanswer, htwins⟩ := hnext value after after' htwins
    exact ⟨by rw [bind_apply, bind_apply, hhere, hthere]; exact hanswer,
      by rw [bind_apply, bind_apply, hhere, hthere]; exact htwins⟩

theorem during (h : Alike site opened work files twin) (action : Except Failure StoreAction) :
    Alike site opened (Disk.during action work) files twin := by
  constructor
  · rw [during_apply, during_apply, h.answer]
  · rw [during_apply, during_apply]
    exact h.twins

/-- The file of a store is found in the same place. -/
theorem connect_bind {next : Place → Disk β} (h : LogTwinStores site name files twin)
    (hnext : ∀ place database kept, Keeps site name place database files →
      Keeps site name place kept twin → database.SameButEvents kept →
      Alike site opened (next place) files twin) :
    Alike site opened (connect site name >>= next) files twin := by
  -- The place is the same in both trees, and finding it changes neither of them.
  obtain ⟨place, database, kept, hkeeps, hkeeps', hsame⟩ := h
  obtain ⟨hanswer, htwins⟩ := hnext place database kept hkeeps hkeeps' hsame
  constructor
  · rw [Disk.connect_bind hkeeps, Disk.connect_bind hkeeps']
    exact hanswer
  · rw [Disk.connect_bind hkeeps, Disk.connect_bind hkeeps']
    exact htwins

/-- **A blind statement comes to the same on twins.** What it answers and what it does to jobs and
wanted quantities does not depend on the events, in which alone the two databases differ. -/
theorem transact {kept : Database} {f : Database → Except Failure (α × Database)}
    (h : LogTwins site opened files twin) (hblind : Database.IsBlind f)
    (hkeeps : Keeps site name place database files) (hkeeps' : Keeps site name place kept twin)
    (hsame : database.SameButEvents kept) :
    Alike site opened (Disk.transact place f) files twin := by
  obtain ⟨jobs, processes, events, rfl⟩ := Database.exists_tables hkeeps.founded
  obtain ⟨jobs', processes', others, rfl⟩ := Database.exists_tables hkeeps'.founded
  obtain ⟨hjobs, hprocesses⟩ := hsame
  -- twins have the same jobs and processes, and only their events differ
  obtain rfl := Option.some.inj hjobs
  obtain rfl := Option.some.inj hprocesses
  -- A blind statement fails in both, and then nothing is written, or it goes well in both.
  rcases hblind jobs' processes' events others with ⟨failure, hhere, hthere⟩ |
      ⟨result, jobs, processes, events', others', hhere, hthere⟩
  · constructor
    · rw [transact_of_error hkeeps hhere, transact_of_error hkeeps' hthere]
    · rw [transact_of_error hkeeps hhere, transact_of_error hkeeps' hthere]
      exact h
  -- What is written are twins again, in files at the same place.
  · obtain ⟨after, hafter, hwrite⟩ := transact_of_ok hkeeps hhere
    obtain ⟨after', hafter', hwrite'⟩ := transact_of_ok hkeeps' hthere
    constructor
    · rw [hafter, hafter']
    · rw [hafter, hafter']
      exact h.rewritten hkeeps hkeeps' hwrite hwrite' rfl rfl ⟨rfl, rfl⟩

end Alike

end Disk

/-! ### The operations of the stores -/

namespace JobStore

variable {site : Surroundings} {opened : Opened} {files twin : Files}

theorem isBlind_addJob (row : Except Failure JobRow) :
    Database.IsBlind fun database => (Database.addJob row database).map ((), ·) := by
  intro jobs processes events others
  simp only [addJob_eq]
  -- Whether the row is admitted is decided by the jobs, and these are the same.
  cases row >>= JobRow.unique? jobs.contents with
  | error failure => exact .inl ⟨failure, rfl, rfl⟩
  | ok row => exact .inr ⟨(), _, _, _, _, rfl, rfl⟩

theorem alike_list (h : Disk.LogTwins site opened files twin) (app : Value) :
    Disk.Alike site opened (list site opened.jobs app) files twin := by
  obtain ⟨place, database, kept, hkeeps, hkeeps', hsame⟩ := h.jobs
  constructor
  · rw [list_eq hkeeps, list_eq hkeeps', hsame.jobRows_eq]
  · rw [list_eq hkeeps, list_eq hkeeps']
    exact h

theorem alike_add (h : Disk.LogTwins site opened files twin) (job : Job) :
    Disk.Alike site opened (add site opened.jobs job) files twin := by
  refine .during (.connect_bind h.jobs fun place database kept hkeeps hkeeps' hsame => ?_) _
  -- What is bound to the statement comes from the job and the time, which are the same as well.
  refine .ofExcept_bind h fun name _ => .ofExcept_bind h fun environment _ => ?_
  exact .ofExcept_bind h fun now _ => .transact h (isBlind_addJob _) hkeeps hkeeps' hsame

theorem alike_remove (h : Disk.LogTwins site opened files twin) (job : Job) :
    Disk.Alike site opened (remove site opened.jobs job) files twin := by
  refine .during (.connect_bind h.jobs fun place database kept hkeeps hkeeps' hsame => ?_) _
  refine .ofExcept_bind h fun name _ => .transact h ?_ hkeeps hkeeps' hsame
  exact fun jobs processes events others => .inr ⟨(), _, _, _, _, rfl, rfl⟩

end JobStore

namespace ProcessStore

variable {site : Surroundings} {opened : Opened} {files twin : Files}

theorem alike_update (h : Disk.LogTwins site opened files twin) (process : ProcessType) :
    Disk.Alike site opened (update site opened.processes process) files twin := by
  refine .bind (.during (.connect_bind h.processes
    fun place database kept hkeeps hkeeps' hsame => ?_) _)
    fun row after after' htwins => .ofExcept htwins _
  refine .ofExcept_bind h fun now _ => .transact h ?_ hkeeps hkeeps' hsame
  intro jobs processes events others
  cases ProcessRow.ofProcess now process with
  | error failure => exact .inl ⟨failure, rfl, rfl⟩
  | ok row => exact .inr ⟨row, _, _, _, _, rfl, rfl⟩

end ProcessStore

namespace EventLog

variable {site : Surroundings} {opened : Opened} {files twin : Files} {now : String} {event : Event}

theorem isBlind_addEvent (row : Except Failure EventRow) :
    Database.IsBlind fun database => (Database.addEvent row database).map ((), ·) := by
  intro jobs processes events others
  cases row with
  | error failure => exact .inl ⟨failure, rfl, rfl⟩
  | ok row => exact .inr ⟨(), _, _, _, _, rfl, rfl⟩

theorem alike_log (h : Disk.LogTwins site opened files twin) (event : Event) :
    Disk.Alike site opened (log site opened.policy.events event) files twin := by
  obtain ⟨place, database, kept, hkeeps, hkeeps', -⟩ := h.events
  -- the tables are there already
  have hinitialise : Disk.Alike site opened (Disk.initialise site opened.policy.events) files
      twin := by
    constructor
    · rw [Disk.initialise_eq hkeeps, Disk.initialise_eq hkeeps']
    · rw [Disk.initialise_eq hkeeps, Disk.initialise_eq hkeeps']
      exact h
  refine .bind hinitialise fun _ files twin h => .connect_bind h.events
    fun place database kept hkeeps hkeeps' hsame => ?_
  refine .ofExcept_bind h fun now _ => .ofExcept_bind h fun level _ => ?_
  exact .transact h (isBlind_addEvent _) hkeeps hkeeps' hsame

/-- **Logging an event in one of the trees** leaves twins, and it fails only if the event cannot be
admitted. -/
theorem twins_log (h : Disk.LogTwins site opened files twin)
    (hnow : Calendar.timestamp site.now = .ok now) (event : Event) :
    (log site opened.policy.events event files).1 = (EventRow.admit? now event).map (fun _ => ()) ∧
      Disk.LogTwins site opened (log site opened.policy.events event files).2 twin := by
  obtain ⟨place, database, kept, hkeeps, hkeeps', hsame⟩ := h.events
  -- An event that cannot be admitted is refused before anything is written.
  cases hrow : EventRow.admit? now event with
  | error failure =>
    rw [log_of_refused hkeeps hnow hrow]
    exact ⟨rfl, h⟩
  | ok row =>
    obtain ⟨changed, after, hlog, hwrite, hfounded, hchanged⟩ := log_of_admitted hkeeps hnow hrow
    rw [hlog]
    exact ⟨rfl, h.rewritten hkeeps hkeeps' hwrite hkeeps'.rewritten_refl hfounded hkeeps'.founded
      ⟨hsame.jobs.trans hchanged.jobs.symm, hsame.processes.trans hchanged.processes.symm⟩⟩

end EventLog

end Rollout
