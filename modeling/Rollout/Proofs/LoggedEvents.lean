import Rollout.Proofs.Answers

/-!
# What the log holds

The log is a table of rows, and a row says what happened: it reads back as an event
(`EventRow.event`). So a file says which events were logged, in which order (`Database.logged`).

A tree of files has a log that works (`Disk.Logs`) if the stores are in order, the log among them.
Then

* an event that the log keeps (`Event.IsKept`) is logged after all others, and nothing else changes
  in the log (`EventLog.logs_log`);
* no operation of the other stores changes the log, though it may lie in the same file
  (`JobStore.leavesLog_add` and the like);
* the latest events are the last ones that were logged, the latest first (`EventLog.latest_eq`), as
  long as the number that is asked for is of 64 bits.
-/

namespace Rollout

/-! ### Events and rows -/

/-- What a row says that happened. -/
def EventRow.event (row : EventRow) : Event :=
  ⟨.text row.level, .text row.message, (row.app.map Value.text).getD .none, row.version.toValue⟩

/-- The events that were logged, in order. -/
def Database.logged (database : Database) : List Event :=
  (database.events.getD .empty).contents.map EventRow.event

/-- The log keeps the event as it is: its level is in capital letters, its application is a text or
is not given, and its version is of 64 bits or is not given. -/
structure Event.IsKept (event : Event) : Prop where
  level : ∃ s, event.level = .text s ∧ Text.upperCase s = s
  message : ∃ s, event.message = .text s
  app : event.app = .none ∨ ∃ s, event.app = .text s
  version : event.version = .none ∨ ∃ n, event.version = .int n ∧ CellNumber.fits n = true

/-- The log keeps what it is told about the release. It has columns for texts and for integers of 64
bits, and both may be left empty. -/
structure Release.IsKept (release : Release) : Prop where
  app : release.app = .none ∨ ∃ s, release.app = .text s
  version : release.version = .none ∨ ∃ n, release.version = .int n ∧ CellNumber.fits n = true

namespace Release.IsKept

variable {release : Release}

theorem info (h : release.IsKept) (message : String) : (Event.info release message).IsKept :=
  ⟨⟨"INFO", rfl, by decide +kernel⟩, ⟨message, rfl⟩, h.app, h.version⟩

theorem error (h : release.IsKept) (message : String) : (Event.error release message).IsKept :=
  ⟨⟨"ERROR", rfl, by decide +kernel⟩, ⟨message, rfl⟩, h.app, h.version⟩

end Release.IsKept

/-- **An event that the log keeps has a row that says so.** -/
theorem Event.IsKept.exists_row {event : Event} (h : event.IsKept) (now : String) :
    ∃ row, EventRow.admit? now event = .ok row ∧ row.event = event := by
  obtain ⟨level, message, app, version⟩ := event
  obtain ⟨⟨level, rfl, hlevel⟩, ⟨message, rfl⟩, happ, hversion⟩ := h
  obtain ⟨app', rfl, hbindApp⟩ : ∃ app' : Option String,
      app = (app'.map Value.text).getD .none ∧ (Cell.bind 3 app).map Cell.asText = .ok app' := by
    rcases happ with rfl | ⟨s, rfl⟩
    · exact ⟨none, rfl, rfl⟩
    · exact ⟨some s, rfl, rfl⟩
  obtain ⟨version', rfl, hbindVersion⟩ : ∃ version' : Cell,
      version = version'.toValue ∧ (Cell.bind 4 version).map Cell.asInteger = .ok version' := by
    rcases hversion with rfl | ⟨n, rfl, hfits⟩
    · exact ⟨.null, rfl, rfl⟩
    · exact ⟨.int n, rfl, by rw [Cell.bind_int 4 hfits]; rfl⟩
  -- What is not given goes into an empty cell, and what is given into one that reads back as it.
  refine ⟨⟨now, level, app', version', message⟩, ?_, rfl⟩
  -- the five values are bound one after the other
  rw [EventRow.admit?, EventLog.capitals, hlevel]
  change EventRow.ofEvent now level _ _ _ = _
  cases happ' : Cell.bind 3 ((app'.map Value.text).getD .none) with
  | error failure =>
    rw [happ'] at hbindApp
    cases hbindApp
  | ok app =>
    cases hversion' : Cell.bind 4 version'.toValue with
    | error failure =>
      rw [hversion'] at hbindVersion
      cases hbindVersion
    | ok version =>
      rw [happ'] at hbindApp
      rw [hversion'] at hbindVersion
      obtain rfl := Except.ok.inj hbindApp
      obtain rfl := Except.ok.inj hbindVersion
      simp only [EventRow.ofEvent, Cell.bind_text, happ', hversion']
      rfl

/-! ### Files with a log that works -/

/-- A statement that leaves the events of a database alone. If it fails there is no new database, so
nothing has to be said then. -/
def Database.IsSilent {α : Type} (f : Database → Except Failure (α × Database)) : Prop :=
  ∀ jobs processes events,
    (∃ failure, f ⟨some jobs, some processes, some events, true⟩ = .error failure) ∨
    ∃ result jobs' processes', f ⟨some jobs, some processes, some events, true⟩ =
      .ok (result, ⟨some jobs', some processes', some events, true⟩)

namespace Disk

variable {α β : Type} {site : Surroundings} {opened : Opened} {name : Value} {place : Place}
  {database changed : Database} {files after : Files} {events : List Event}

/-- The stores are in order, and the log among them holds the events. Nothing is said of what the
other two hold: here they matter only because they may lie in the same file. -/
structure Logs (site : Surroundings) (opened : Opened) (events : List Event) (files : Files) :
    Prop where
  jobs : ∃ place database, Keeps site opened.jobs place database files
  processes : ∃ place database, Keeps site opened.processes place database files
  log : ∃ place database, Keeps site opened.policy.events place database files ∧
    database.logged = events

namespace Logs

/-- Where a store is found has nothing to do with the time. -/
theorem at_time (now : Int) (h : Logs site opened events files) :
    Logs { site with now } opened events files := by
  have hkept {name : Value} {place : Place} {database : Database}
      (h : Keeps site name place database files) :
      Keeps { site with now } name place database files :=
    ⟨h.found, h.content, h.alone, h.journalled, h.founded⟩
  obtain ⟨⟨_, _, hjobs⟩, ⟨_, _, hprocesses⟩, _, _, hlog, hlogged⟩ := h
  exact ⟨⟨_, _, hkept hjobs⟩, ⟨_, _, hkept hprocesses⟩, _, _, hkept hlog, hlogged⟩

/-- A store that is rewritten leaves all stores in order. -/
theorem keeps_rewritten {other : Value}
    (h : ∃ place database, Keeps site other place database files)
    (hkeeps : Keeps site name place database files)
    (hwrite : FileTree.Rewritten place (.database changed) files after)
    (hfounded : changed.initialise = changed) :
    ∃ place database, Keeps site other place database after := by
  obtain ⟨_, _, hother⟩ := h
  -- It may now hold what was written or what it held; it is in order in either case.
  obtain ⟨_, hseen, -⟩ := hother.rewritten hkeeps hwrite hfounded
  exact ⟨_, _, hseen⟩

/-- **A store that is rewritten without a change to its events leaves the log alone.** The store may
be in the file of the log or in another one. -/
theorem rewritten (h : Logs site opened events files)
    (hkeeps : Keeps site name place database files)
    (hwrite : FileTree.Rewritten place (.database changed) files after)
    (hfounded : changed.initialise = changed) (hsame : changed.logged = database.logged) :
    Logs site opened events after := by
  refine ⟨keeps_rewritten h.jobs hkeeps hwrite hfounded,
    keeps_rewritten h.processes hkeeps hwrite hfounded, ?_⟩
  obtain ⟨place', held, hlog, hlogged⟩ := h.log
  -- the log is in the file that was rewritten, or in another one
  obtain ⟨seen, hseen, ⟨rfl, rfl⟩ | rfl⟩ := hlog.rewritten hkeeps hwrite hfounded
  · exact ⟨place', _, hseen, hsame.trans hlogged⟩
  · exact ⟨place', _, hseen, hlogged⟩

end Logs

/-- What is done leaves stores in order and the log as it was. -/
def LeavesLog (site : Surroundings) (opened : Opened) (events : List Event) (work : Disk α)
    (files : Files) : Prop := Logs site opened events (work files).2

namespace LeavesLog

variable {work : Disk α} {next : α → Disk β} {known : Except Failure α}

theorem ofExcept_bind (h : Logs site opened events files)
    (hnext : ∀ value, LeavesLog site opened events (next value) files) :
    LeavesLog site opened events (Disk.ofExcept known >>= next) files := by
  cases known with
  | error failure =>
    rw [LeavesLog, ofExcept_error_bind]
    exact h
  | ok value =>
    rw [LeavesLog, Disk.ofExcept_bind]
    exact hnext value

/-- **One thing after another.** -/
theorem bind (h : LeavesLog site opened events work files)
    (hnext : ∀ value after, Logs site opened events after →
      LeavesLog site opened events (next value) after) :
    LeavesLog site opened events (work >>= next) files := by
  rw [LeavesLog] at h ⊢
  rw [bind_apply]
  -- If the first piece of work fails the second one is not done, and the files are those of the
  -- first.
  rcases hwork : work files with ⟨failure | value, after⟩ <;> rw [hwork] at h
  · exact h
  · exact hnext value after h

theorem during (h : LeavesLog site opened events work files)
    (action : Except Failure StoreAction) :
    LeavesLog site opened events (Disk.during action work) files := by
  rw [LeavesLog, during_apply]
  exact h

theorem connect_bind {next : Place → Disk β} (hkeeps : Keeps site name place database files)
    (h : LeavesLog site opened events (next place) files) :
    LeavesLog site opened events (connect site name >>= next) files := by
  rw [LeavesLog, Disk.connect_bind hkeeps]
  exact h

/-- **A silent statement leaves the log alone.** -/
theorem transact {f : Database → Except Failure (α × Database)}
    (h : Logs site opened events files) (hsilent : Database.IsSilent f)
    (hkeeps : Keeps site name place database files) :
    LeavesLog site opened events (Disk.transact place f) files := by
  obtain ⟨jobs, processes, rows, rfl⟩ := Database.exists_tables hkeeps.founded
  rw [LeavesLog]
  -- A statement that fails writes nothing; one that succeeds writes the same events.
  rcases hsilent jobs processes rows with ⟨failure, hfails⟩ | ⟨result, jobs, processes, hdone⟩
  · rw [transact_of_error hkeeps hfails]
    exact h
  · obtain ⟨after, hafter, hwrite⟩ := transact_of_ok hkeeps hdone
    rw [hafter]
    exact h.rewritten hkeeps hwrite rfl rfl

end LeavesLog

end Disk

/-! ### The operations of the stores -/

namespace JobStore

variable {site : Surroundings} {opened : Opened} {files : Files} {events : List Event}

theorem leavesLog_list (h : Disk.Logs site opened events files) (app : Value) :
    Disk.LeavesLog site opened events (list site opened.jobs app) files := by
  obtain ⟨place, database, hkeeps⟩ := h.jobs
  rw [Disk.LeavesLog, list_eq hkeeps]
  exact h

theorem leavesLog_add (h : Disk.Logs site opened events files) (job : Job) :
    Disk.LeavesLog site opened events (add site opened.jobs job) files := by
  obtain ⟨place, database, hkeeps⟩ := h.jobs
  refine .during (.connect_bind hkeeps ?_) _
  -- Everything that can fail before the statement leaves the files as they are.
  refine .ofExcept_bind h fun name => .ofExcept_bind h fun environment =>
    .ofExcept_bind h fun now => .transact h (fun jobs processes events => ?_) hkeeps
  rw [addJob_eq]
  cases JobRow.ofJob name environment now job >>= JobRow.unique? jobs.contents with
  | error failure => exact .inl ⟨failure, rfl⟩
  | ok row => exact .inr ⟨(), _, _, rfl⟩

theorem leavesLog_remove (h : Disk.Logs site opened events files) (job : Job) :
    Disk.LeavesLog site opened events (remove site opened.jobs job) files := by
  obtain ⟨place, database, hkeeps⟩ := h.jobs
  refine .during (.connect_bind hkeeps ?_) _
  refine .ofExcept_bind h fun name => .transact h (fun jobs processes events => ?_) hkeeps
  exact .inr ⟨(), _, _, rfl⟩

end JobStore

theorem ProcessStore.leavesLog_update {site : Surroundings} {opened : Opened} {files : Files}
    {events : List Event} (h : Disk.Logs site opened events files) (process : ProcessType) :
    Disk.LeavesLog site opened events (update site opened.processes process) files := by
  obtain ⟨place, database, hkeeps⟩ := h.processes
  refine .bind (.during (.connect_bind hkeeps ?_) _) fun row after h => h
  refine .ofExcept_bind h fun now => .transact h (fun jobs processes events => ?_) hkeeps
  cases ProcessRow.ofProcess now process with
  | error failure => exact .inl ⟨failure, rfl⟩
  | ok row => exact .inr ⟨row, _, _, rfl⟩

/-- A number of 64 bits is the number of rows at most. -/
theorem Database.latestEvents_int {n : Nat} (hfits : CellNumber.fits n = true)
    (jobs : Option (Table JobRow)) (processes : Option (Table ProcessRow))
    (events : Table EventRow) (isFounded : Bool) :
    Database.latestEvents (.int n) ⟨jobs, processes, some events, isFounded⟩ =
      .ok (events.rows.reverse.take n) := by
  have hlimit : limit? (.int n) = .ok (some n) := by
    rw [limit?, Cell.bind_int 1 hfits]
    rfl
  rw [latestEvents, hlimit]
  rfl

namespace EventLog

variable {site : Surroundings} {opened : Opened} {files : Files} {events : List Event}
  {event : Event} {now : String}

/-- **An event that the log keeps is logged after all others.** The row that is added says what the
event says, and adds the time. -/
theorem logs_log (h : Disk.Logs site opened events files)
    (hnow : Calendar.timestamp site.now = .ok now) (hevent : event.IsKept) :
    ∃ after, log site opened.policy.events event files = (.ok (), after) ∧
      Disk.Logs site opened (events ++ [event]) after := by
  obtain ⟨row, hrow, rfl⟩ := hevent.exists_row now
  obtain ⟨level, hlevel, hrow'⟩ := bind_eq_ok.mp hrow
  obtain ⟨hjobs, hprocesses, place, database, hkeeps, hlogged⟩ := h
  obtain ⟨jobs, processes, rows, rfl⟩ := Database.exists_tables hkeeps.founded
  -- the row goes behind all others of its table
  have hadd : Database.addEvent (EventRow.ofEvent now level row.event.app row.event.version
      row.event.message) ⟨some jobs, some processes, some rows, true⟩ =
      .ok ⟨some jobs, some processes, some (rows.append row), true⟩ := by
    rw [hrow']
    rfl
  obtain ⟨after, hchange, hwrite⟩ := Disk.change_of_ok hkeeps hadd
  -- the other stores keep their rows, whether they share the file or not
  refine ⟨after, ?_, Disk.Logs.keeps_rewritten hjobs hkeeps hwrite rfl,
    Disk.Logs.keeps_rewritten hprocesses hkeeps hwrite rfl, place, _,
    hkeeps.rewritten_self hwrite rfl, ?_⟩
  · rw [log_eq hkeeps hnow, hlevel, Disk.ofExcept_bind]
    exact hchange
  · rw [← hlogged]
    show ((rows.append row).contents).map EventRow.event = rows.contents.map EventRow.event ++ _
    rw [Table.contents_append, List.map_append]
    rfl

/-- **The latest events are the last ones that were logged**, the latest first. The order is that of
the rows, so events of the same moment have one too. -/
theorem latest_eq (h : Disk.Logs site opened events files) {n : Nat}
    (hfits : CellNumber.fits n = true) :
    ∃ entries, latest site opened.policy.events (.int n) files = (.ok entries, files) ∧
      entries.map (·.2.event) = events.reverse.take n := by
  obtain ⟨-, -, place, database, hkeeps, rfl⟩ := h
  obtain ⟨jobs, processes, rows, rfl⟩ := Database.exists_tables hkeeps.founded
  refine ⟨rows.rows.reverse.take n, ?_, ?_⟩
  -- The tables are there and the file is found, so only the query is left.
  · rw [latest, Disk.bind_apply, Disk.initialise_eq hkeeps]
    show ((Disk.connect site opened.policy.events >>= _ : Disk _)) files = _
    rw [Disk.connect_bind hkeeps, Disk.query_eq hkeeps]
    rw [Database.latestEvents_int hfits]
  · show _ = (List.map EventRow.event rows.contents).reverse.take n
    rw [Table.contents, List.map_map, ← List.map_reverse, ← List.map_take]
    rfl

end EventLog

end Rollout
