import Rollout.Proofs.Holdings
import Rollout.Proofs.Releases
import Rollout.Proofs.TrackedJobs

/-!
# The process store as a map

What is wanted of a process type of an application is what was written down last about this pair.
This file says so for a store in one file that is written to any number of times, by any number of
repositories, under any names that lead to the file (`ProcessStore.Update`).

The processes that were written down are all that counts: `ProcessStore.latest` is the last one of a
pair. The result, `ProcessStore.isMap_latest`, is that every update answers with its process, and
that the formation of an application can be read at any moment: its process types in ascending
order, each with its latest process (`ProcessStore.IsFormationOf`). Such a formation is keyed and
typed, as scaling expects it.

* `ProcessStore.latest_concat` is what one more update does to the map.
* `ProcessStore.Records` relates the rows of the table to the map. A row that is written over and
  one that is added come to the same here (`Records.put`), since a row is only known by its pair.
* `ProcessStore.Follows` relates the files; `Follows.update` is the step and `Follows.updates` the
  run.

The order of the rows is the one of first arrival, and the formation does not have it: rows with
pairs of their own have one ascending arrangement (`strict_inOrder`).
-/

namespace Rollout

/-! ### Files that are opened for the first time -/

/-- Some names lead to one file, which is there with a database or is made on the way. Nothing is
said of what the database holds: it may be that of a store that was in use before, or have tables
missing. -/
structure Disk.Awaits (site : Surroundings) (names : Value → Prop) (place : Place)
    (files made : Files) (database : Database) : Prop where
  found : ∀ file, names file → connect site file files = (.ok place, made)
  content : ∃ content, made.content? place = some content ∧ content.database? = .ok database
  alone : Companion.IsAlone place made
  journalled : Companion.isUnjournalled place made = false

/-- Whoever opens the file first makes the tables that are missing. -/
theorem Disk.Awaits.initialise {site : Surroundings} {names : Value → Prop} {place : Place}
    {files made : Files} {database : Database} (h : Awaits site names place files made database)
    {first : Value} (hfirst : names first) (now : Int) :
    ∃ after, Disk.initialise { site with now } first files = (.ok (), after) ∧
      ∀ file, names file → Keeps site file place database.initialise after := by
  obtain ⟨content, hcontent, hdatabase⟩ := h.content
  have hfound : connect { site with now } first files = (.ok place, made) := h.found first hfirst
  obtain ⟨after, hmade, hwrite⟩ :=
    initialise_found hfound hcontent hdatabase h.alone h.journalled
  refine ⟨after, hmade, fun file hfile => ?_⟩
  exact .of_rewritten (connect_again (h.found file hfile)) h.alone h.journalled hwrite
    database.initialise_initialise

/-! ### Rows of processes -/

/-- The process is one for a process type of an application. -/
def ProcessType.isOf (app type : String) (process : ProcessType) : Bool :=
  process.app.same (.text app) && process.type.same (.text type)

namespace ProcessRow

/-- What a row is known by. -/
def pair (row : ProcessRow) : String × String := (row.app, row.type)

/-- The row is that of the process, and reads back as it. The process can be stored, so what is read
is what was given, field by field. -/
structure Keeps (row : ProcessRow) (process : ProcessType) : Prop where
  app : process.app = .text row.app
  type : process.type = .text row.type
  storable : process.IsStorable
  reads : row.process? = .ok process

variable {row other : ProcessRow} {process : ProcessType} {rows : List ProcessRow}

/-- **A process that can be stored has a row that keeps it.** The time of the update is kept beside
it and plays no part in the reading. -/
theorem exists_keeps (h : process.IsStorable) (now : String) :
    ∃ row, ofProcess now process = .ok row ∧ row.Keeps process := by
  have hstorable := h
  obtain ⟨type, command, quantity, app⟩ := process
  -- All fields are texts or fitting numbers, so binding them changes none.
  obtain ⟨type, rfl⟩ := h.type
  obtain ⟨command, rfl⟩ := h.command
  obtain ⟨n, rfl, hfits⟩ := h.quantity
  obtain ⟨app, rfl⟩ := h.app
  refine ⟨⟨app, type, command, .int n, now⟩, ?_, rfl, rfl, hstorable, rfl⟩
  simp only [ofProcess, Quantity.toValue, Cell.bind_text, Cell.bind_int _ hfits]
  rfl

theorem isOf_iff {app type : String} : isOf app type row = true ↔ row.pair = (app, type) := by
  rw [isOf, pair, Bool.and_eq_true, decide_eq_true_eq, decide_eq_true_eq, Prod.mk.injEq]

theorem Keeps.isOf_iff (h : row.Keeps process) {app type : String} :
    process.isOf app type = true ↔ row.pair = (app, type) := by
  rw [ProcessType.isOf, h.app, h.type, Value.same_text, Value.same_text, Bool.and_eq_true,
    beq_iff_eq, beq_iff_eq, pair, Prod.mk.injEq]

/-- Writing a row down adds its pair behind the others, unless it is there already. -/
theorem pairs_put (row : ProcessRow) (rows : List ProcessRow) :
    (row.put rows).map pair =
      if row.pair ∈ rows.map pair then rows.map pair else rows.map pair ++ [row.pair] := by
  have hany : rows.any (isOf row.app row.type) = true ↔ row.pair ∈ rows.map pair := by
    rw [List.any_eq_true, List.mem_map]
    exact exists_congr fun other => and_congr_right fun _ => isOf_iff
  rw [put]
  -- a row of the pair is overwritten in its place, and keeps the pair
  by_cases hmem : row.pair ∈ rows.map pair
  · rw [if_pos (hany.mpr hmem), if_pos hmem, List.map_map]
    refine List.map_congr_left fun other _ => ?_
    rw [Function.comp_apply]
    split
    · next hof => exact (isOf_iff.mp hof).symm
    · rfl
  · rw [if_neg fun h => hmem (hany.mp h), if_neg hmem, List.map_append]
    rfl

end ProcessRow

namespace ProcessStore

/-! ### What was written down last -/

/-- The last process that was written down for a process type of an application. -/
def latest (written : List ProcessType) (app type : String) : Option ProcessType :=
  written.reverse.find? (·.isOf app type)

/-- **One more process** is the latest of its pair, and no other pair sees it. With this the record
grows at its end, as the history does. -/
theorem latest_concat (written : List ProcessType) (process : ProcessType) (app type : String) :
    latest (written ++ [process]) app type =
      if process.isOf app type then some process else latest written app type := by
  rw [latest, List.reverse_append, List.reverse_singleton, List.singleton_append, List.find?_cons]
  cases process.isOf app type <;> rfl

/-- The rows are those of the latest processes, one for each pair. `kept` says that no row is out of
date, `found` that no pair is missing, and the order of the rows does not count. -/
structure Records (written : List ProcessType) (rows : List ProcessRow) : Prop where
  distinct : (rows.map ProcessRow.pair).Nodup
  kept : ∀ row ∈ rows, ∃ process,
    latest written row.app row.type = some process ∧ row.Keeps process
  found : ∀ app type process, latest written app type = some process →
    (app, type) ∈ rows.map ProcessRow.pair

/-- **Writing a row down keeps the record**, whether the row is added or takes the place of an older
one. -/
theorem Records.put {written : List ProcessType} {rows : List ProcessRow} {row : ProcessRow}
    {process : ProcessType} (h : Records written rows) (hrow : row.Keeps process) :
    Records (written ++ [process]) (row.put rows) where
  distinct := by
    rw [ProcessRow.pairs_put]
    split
    · exact h.distinct
    · next hnew =>
      refine List.nodup_append.mpr ⟨h.distinct, List.nodup_singleton _, ?_⟩
      rintro pair hpair other hother rfl
      exact hnew (List.mem_singleton.mp hother ▸ hpair)
  kept other hmem := by
    rw [latest_concat]
    -- A row after the writing is the new one, or an old one of another pair.
    rcases Ledger.mem_put.mp hmem with rfl | ⟨hearlier, hnot⟩
    · exact ⟨process, if_pos (hrow.isOf_iff.mpr rfl), hrow⟩
    · -- the row is about another pair, so the new process does not count for it
      obtain ⟨earlier, hlatest, hkeeps⟩ := h.kept other hearlier
      refine ⟨earlier, ?_, hkeeps⟩
      rw [if_neg, hlatest]
      intro hof
      rw [ProcessRow.isOf_iff.mpr (hrow.isOf_iff.mp hof).symm] at hnot
      cases hnot
  found app type last hlast := by
    have hadded : (app, type) = row.pair ∨ (app, type) ∈ rows.map ProcessRow.pair := by
      rw [latest_concat] at hlast
      split at hlast
      · next hof => exact .inl (hrow.isOf_iff.mp hof).symm
      · exact .inr (h.found app type last hlast)
    rw [ProcessRow.pairs_put]
    split
    · next hthere => exact hadded.elim (fun heq => heq ▸ hthere) id
    · exact List.mem_append.mpr (hadded.symm.imp_right List.mem_singleton.mpr)

/-! ### Formations -/

/-- The formation of an application of which certain processes are wanted. The last two fields are
what scaling asks of a formation, so what is read from the store can be scaled. -/
structure IsFormationOf (wanted : String → Option ProcessType) (formation : Formation) : Prop where
  /-- The process types come in the order of code points, each of them once. -/
  ascending : ∃ types : List String, formation.map (·.1) = types.map Value.text ∧
    types.Pairwise (· < ·)
  mem_iff : ∀ type process, (.text type, process) ∈ formation ↔ wanted type = some process
  process?_eq : ∀ type, formation.process? type = wanted type
  keyed : formation.IsKeyed
  typed : formation.IsTyped

/-- The entry of a row in a formation. -/
def entryOf? (row : ProcessRow) : Except Failure (Value × ProcessType) := do
  return (.text row.type, ← row.process?)

theorem entryOf?_eq_ok {row : ProcessRow} {process : ProcessType} (h : row.Keeps process)
    {entry : Value × ProcessType} :
    entryOf? row = .ok entry ↔ entry = (.text row.type, process) := by
  rw [entryOf?, h.reads]
  exact ⟨fun heq => (Except.ok.inj heq).symm, fun heq => congrArg _ heq.symm⟩

/-- **Rows that are strictly ascending make a formation**, if there is one for each process type of
which a process is wanted, and it keeps this process. -/
theorem exists_formation_of_sorted {wanted : String → Option ProcessType} {sorted : List ProcessRow}
    (hsorted : sorted.Pairwise fun a b => a.type < b.type)
    (hkept : ∀ row ∈ sorted, ∃ process, wanted row.type = some process ∧ row.Keeps process)
    (hfound : ∀ type process, wanted type = some process → ∃ row ∈ sorted, row.type = type) :
    ∃ formation, sorted.mapM entryOf? = .ok formation ∧ IsFormationOf wanted formation := by
  -- each row keeps a process, so each one can be read
  obtain ⟨formation, hformation⟩ : ∃ formation : Formation,
      sorted.mapM entryOf? = .ok formation := by
    refine exists_mapM_eq_ok fun row hrow => ?_
    obtain ⟨process, -, hkeeps⟩ := hkept row hrow
    exact ⟨_, (entryOf?_eq_ok hkeeps).mpr rfl⟩
  have hmem : ∀ entry, entry ∈ formation ↔ ∃ row ∈ sorted, ∃ process,
      wanted row.type = some process ∧ row.Keeps process ∧ entry = (.text row.type, process) := by
    intro entry
    rw [mem_of_mapM_eq_ok hformation]
    refine exists_congr fun row => and_congr_right fun hrow => ?_
    obtain ⟨process, hwanted, hkeeps⟩ := hkept row hrow
    rw [entryOf?_eq_ok hkeeps]
    constructor
    · exact fun heq => ⟨process, hwanted, hkeeps, heq⟩
    · rintro ⟨other, hother, -, rfl⟩
      rw [Option.some.inj (hwanted.symm.trans hother)]
  -- the keys are the types of the rows, and in their order
  have hkeys : formation.map (·.1) = (sorted.map (·.type)).map Value.text := by
    rw [eq_comm, List.map_map, ← List.forall₂_eq_eq_eq, List.forall₂_map_left_iff,
      List.forall₂_map_right_iff]
    refine (mapM_eq_ok.mp hformation).imp fun row entry hentry => ?_
    obtain ⟨process, -, hentry⟩ := bind_eq_ok.mp hentry
    rw [← Except.ok.inj hentry]
    rfl
  have hascending := List.pairwise_map.mpr hsorted
  -- an entry of the formation is a wanted process: each has a row, and each row keeps one
  have hiff : ∀ type process, (.text type, process) ∈ formation ↔ wanted type = some process := by
    intro type process
    rw [hmem]
    constructor
    · rintro ⟨row, -, other, hwanted, -, heq⟩
      obtain ⟨htype, rfl⟩ := Prod.mk.inj heq
      rw [Value.text.inj htype, hwanted]
    · intro hwanted
      obtain ⟨row, hrow, rfl⟩ := hfound type process hwanted
      obtain ⟨other, hother, hkeeps⟩ := hkept row hrow
      obtain rfl := Option.some.inj (hother.symm.trans hwanted)
      exact ⟨row, hrow, other, hother, hkeeps, rfl⟩
  -- strictly ascending keys are distinct, which makes looking up agree with membership
  have hnodup : (sorted.map (·.type)).Nodup := hascending.imp String.ne_of_lt
  have hkeyed : formation.IsKeyed := by
    refine ⟨fun entry hentry => ?_, ?_⟩
    · obtain ⟨row, -, process, -, hkeeps, rfl⟩ := (hmem entry).mp hentry
      exact hkeeps.type
    · rw [hkeys]
      exact hnodup.map fun _ _ heq => Value.text.inj heq
  have htyped : formation.IsTyped := by
    intro entry hentry
    obtain ⟨row, -, process, -, hkeeps, rfl⟩ := (hmem entry).mp hentry
    exact ⟨⟨row.type, rfl⟩, hkeeps.storable⟩
  have hfinds : ∀ type, formation.process? type = wanted type := by
    intro type
    ext process
    rw [← hiff]
    exact ⟨htyped.mem_of_process?, hkeyed.process?_of_mem htyped⟩
  exact ⟨formation, hformation, ⟨_, hkeys, hascending⟩, hiff, hfinds, hkeyed, htyped⟩

/-- **The rows of an application make the formation of its latest processes.** They are read in the
order of their types, which is that of code points. -/
theorem Records.exists_formation {written : List ProcessType} {rows : List ProcessRow}
    (h : Records written rows) (app : String) :
    ∃ formation, (inOrder (fun a b : ProcessRow => a.type < b.type)
        (rows.filter fun row => row.app = app)).mapM entryOf? = .ok formation ∧
      IsFormationOf (latest written app) formation := by
  have hmem : ∀ row, row ∈ inOrder (fun a b : ProcessRow => a.type < b.type)
      (rows.filter fun row => row.app = app) ↔ row ∈ rows ∧ row.app = app := by
    intro row
    rw [(perm_inOrder _ _).mem_iff, List.mem_filter, decide_eq_true_eq]
  -- within one application the process types alone are distinct
  have hdistinct : ((rows.filter fun row => row.app = app).map (·.type)).Nodup := by
    refine List.Nodup.of_map (fun type => (app, type)) ?_
    have hpairs : ((rows.filter fun row => row.app = app).map (·.type)).map
        (fun type => (app, type)) = (rows.filter fun row => row.app = app).map ProcessRow.pair := by
      rw [List.map_map]
      refine List.map_congr_left fun row hrow => ?_
      rw [Function.comp_apply, ProcessRow.pair, of_decide_eq_true (List.mem_filter.mp hrow).2]
    rw [hpairs]
    exact h.distinct.sublist (List.filter_sublist.map _)
  -- Distinct types have one ascending arrangement, and that is the one the store reads them in.
  refine exists_formation_of_sorted
    (strict_inOrder ProcessRow.type (fun _ _ _ _ => rfl) hdistinct) ?_ ?_
  · intro row hrow
    obtain ⟨hthere, rfl⟩ := (hmem row).mp hrow
    exact h.kept row hthere
  · intro type process hlatest
    obtain ⟨row, hrow, hpair⟩ := List.mem_map.mp (h.found app type process hlatest)
    obtain ⟨rfl, rfl⟩ := Prod.mk.inj hpair
    exact ⟨row, (hmem row).mpr ⟨hrow, rfl⟩, rfl⟩

/-! ### Updates -/

/-- Something is wanted of a process type, and written down. Each update has a name and a moment of
its own, as if it came from a repository of its own. -/
structure Update where
  /-- The name of the file, as the repository knows it. -/
  file : Value
  /-- The moment of the update. -/
  now : Int
  process : ProcessType

/-- Makes an update. -/
def Update.work (site : Surroundings) (update : Update) : Disk ProcessType :=
  ProcessStore.update { site with now := update.now } update.file update.process

/-- Makes updates, one after the other, whatever is answered. -/
def updates (site : Surroundings) :
    List Update → Files → List (Except Failure ProcessType) × Files
  | [], files => ([], files)
  | update :: rest, files =>
    let made := update.work site files
    let later := updates site rest made.2
    (made.1 :: later.1, later.2)

/-- An update of the store that some names lead to, at a moment of the calendar. -/
structure Update.IsLegal (names : Value → Prop) (update : Update) : Prop where
  file : names update.file
  moment : ∃ text, Calendar.timestamp update.now = .ok text
  storable : update.process.IsStorable

/-- The file at a place, which some names lead to, records the processes that were written down.
This is the invariant of a run of updates. -/
def Follows (site : Surroundings) (names : Value → Prop) (place : Place)
    (written : List ProcessType) (files : Files) : Prop :=
  ∃ database, (∀ file, names file → Disk.Keeps site file place database files) ∧
    Records written database.processRows

/-- A formation is read from the rows of its application. -/
theorem formation_apply {site : Surroundings} {file : Value} {place : Place} {database : Database}
    {files : Files} (h : Disk.Keeps site file place database files) (app : String) :
    formation site file (.text app) files =
      ((inOrder (fun a b : ProcessRow => a.type < b.type)
        (database.processRows.filter fun row => row.app = app)).mapM entryOf?, files) := by
  -- the rows of the application, in the order of their types
  have hrows : database.processesOf (.text app) =
      .ok (inOrder (fun a b : ProcessRow => a.type < b.type)
        (database.processRows.filter fun row => row.app = app)) := by
    obtain ⟨jobs, processes, events, rfl⟩ := Database.exists_tables h.founded
    rw [Database.processesOf, Database.processes?, Database.require, Cell.bind_text]
    show Except.ok (inOrder _ (processes.contents.filter _)) =
      Except.ok (inOrder _ (processes.contents.filter _))
    congr 3
    funext row
    rw [Cell.asText_text, decide_eq_decide, Option.some.injEq]
    exact eq_comm
  have hquery : ((do Disk.query (← Disk.connect site file)
                      (Database.processesOf (.text app))) : Disk _) files =
      (.ok (inOrder (fun a b : ProcessRow => a.type < b.type)
        (database.processRows.filter fun row => row.app = app)), files) := by
    rw [Disk.connect_bind h, Disk.query_eq h, hrows]
  -- What is read are those rows, and nothing is written while reading.
  rw [formation, Disk.bind_apply, Disk.during_of_ok hquery]
  rfl

namespace Follows

variable {site : Surroundings} {names : Value → Prop} {place : Place}
  {written : List ProcessType} {files : Files}

/-- **An update answers with its process**, and is on record afterwards. -/
theorem update (h : Follows site names place written files) {update : Update}
    (hlegal : update.IsLegal names) :
    ∃ after, update.work site files = (.ok update.process, after) ∧
      Follows site names place (written ++ [update.process]) after := by
  obtain ⟨database, hkeeps, hrecords⟩ := h
  obtain ⟨text, hnow⟩ := hlegal.moment
  obtain ⟨row, hrow, hkept⟩ := ProcessRow.exists_keeps hlegal.storable text
  obtain ⟨changed, after, hupdate, hwrite, hfounded, -, hrows⟩ :=
    update_of_row ((hkeeps update.file hlegal.file).at_time update.now) hnow hrow
  refine ⟨after, ?_, changed, fun file hfile => ?_, ?_⟩
  · rw [← hkept.reads]
    exact hupdate
  · exact (hkeeps file hfile).rewritten_self hwrite hfounded
  · rw [hrows]
    exact hrecords.put hkept

/-- **All updates answer with their processes**, and are on record afterwards. By induction on the
history, whose steps are `Follows.update`. -/
theorem updates (h : Follows site names place written files) {history : List Update}
    (hlegal : ∀ update ∈ history, update.IsLegal names) :
    (updates site history files).1 = history.map (fun update => .ok update.process) ∧
      Follows site names place (written ++ history.map (·.process))
        (ProcessStore.updates site history files).2 := by
  induction history generalizing written files with
  | nil =>
    refine ⟨rfl, ?_⟩
    rw [List.map_nil, List.append_nil]
    exact h
  | cons first rest ih =>
    obtain ⟨hfirst, hrest⟩ := List.forall_mem_cons.mp hlegal
    obtain ⟨after, hmade, hafter⟩ := h.update hfirst
    obtain ⟨hanswers, hlast⟩ := ih hafter hrest
    rw [ProcessStore.updates, hmade]
    refine ⟨congrArg _ hanswers, ?_⟩
    rw [List.map_cons, List.append_cons]
    exact hlast

end Follows

/-! ### The map -/

/-- A store that goes by some names answers like a map from applications and process types to
processes. -/
structure IsMap (site : Surroundings) (names : Value → Prop)
    (wanted : String → String → Option ProcessType) (files : Files) : Prop where
  /-- Whoever opens the store finds it as it is. -/
  opens : ∀ file, names file → ∀ now,
    ProcessStore.open { site with now } file files = (.ok (), files)
  reads : ∀ file, names file → ∀ now app, ∃ read,
    formation { site with now } file (.text app) files = (.ok read, files) ∧
      IsFormationOf (wanted app) read

theorem Follows.isMap {site : Surroundings} {names : Value → Prop} {place : Place}
    {written : List ProcessType} {files : Files} (h : Follows site names place written files) :
    IsMap site names (latest written) files := by
  obtain ⟨database, hkeeps, hrecords⟩ := h
  constructor
  · intro file hfile now
    exact Disk.during_of_ok (Disk.initialise_eq ((hkeeps file hfile).at_time now))
  · intro file hfile now app
    obtain ⟨read, hread, hof⟩ := hrecords.exists_formation app
    refine ⟨read, ?_, hof⟩
    rw [formation_apply ((hkeeps file hfile).at_time now) app, hread]

/-- **The process store is a map.** Whatever was written down since the store was opened for the
first time, each update answered with its process, and of every application the latest processes
are read, by whichever name and at whatever moment. -/
theorem isMap_latest {site : Surroundings} {names : Value → Prop} {place : Place}
    {files made : Files} {database : Database}
    (hawaits : Disk.Awaits site names place files made database)
    (hvacant : database.processRows = []) {first : Value} {history : List Update}
    (hfirst : names first) (now : Int) (hlegal : ∀ update ∈ history, update.IsLegal names) :
    ∃ opened, ProcessStore.open { site with now } first files = (.ok (), opened) ∧
      (updates site history opened).1 = history.map (fun update => .ok update.process) ∧
      IsMap site names (latest (history.map (·.process))) (updates site history opened).2 := by
  -- Opening the file first leaves a database that keeps to the empty record.
  obtain ⟨opened, hmade, hkeeps⟩ := hawaits.initialise hfirst now
  have hrows : database.initialise.processRows = [] := hvacant
  have hfollows : Follows site names place [] opened := by
    refine ⟨_, hkeeps, ?_⟩
    rw [hrows]
    exact ⟨List.nodup_nil, fun _ hmem => (nomatch hmem), fun _ _ _ hlatest => nomatch hlatest⟩
  obtain ⟨hanswers, hlast⟩ := hfollows.updates hlegal
  exact ⟨opened, Disk.during_of_ok hmade, hanswers, hlast.isMap⟩

/-- A process of an application that runs under a command. -/
def wish (app type command : String) (quantity : Nat) : ProcessType :=
  ⟨.text type, .text command, .whole quantity, .text app⟩

/-- A process type is wanted twice, in between others of its application and of another one. -/
def rewriting : List Update :=
  [⟨.text "state.db", 1700000000, wish "shop" "web" "./run" 1⟩,
    ⟨.text "/tmp/state.db", 1700000001, wish "blog" "web" "./blog" 5⟩,
    ⟨.text "state.db", 1700000002, wish "shop" "clock" "./tick" 0⟩,
    ⟨.text "/tmp/state.db", 1700000003, wish "shop" "web" "./serve" 9223372036854775807⟩]

/-- **What was wanted later stands in the place of what was wanted first**, and the process types
are in order although they came in another one. -/
theorem isMap_rewriting :
    ∃ opened, ProcessStore.open ⟨["tmp"], .text "state.db", 1700000000⟩ (.text "state.db")
        [(["tmp"], .directory)] = (.ok (), opened) ∧
      (updates ⟨["tmp"], .text "state.db", 0⟩ rewriting opened).1 =
        rewriting.map (fun update => .ok update.process) ∧
      IsMap ⟨["tmp"], .text "state.db", 0⟩ JobStore.isEitherName
        (latest (rewriting.map (·.process)))
        (updates ⟨["tmp"], .text "state.db", 0⟩ rewriting opened).2 ∧
      latest (rewriting.map (·.process)) "shop" "web" =
        some (wish "shop" "web" "./serve" 9223372036854775807) ∧
      latest (rewriting.map (·.process)) "shop" "clock" =
        some (wish "shop" "clock" "./tick" 0) := by
  have hawaits : Disk.Awaits ⟨["tmp"], .text "state.db", 0⟩ JobStore.isEitherName
      ["state.db", "tmp"] [(["tmp"], .directory)]
      [(["tmp"], .directory), (["state.db", "tmp"], .file (.text ""))] .blank := by
    refine ⟨?_, ⟨_, rfl, rfl⟩, ⟨rfl, rfl⟩, rfl⟩
    rintro file (rfl | rfl) <;> rfl
  have hstorable : ∀ app type command quantity, CellNumber.fits (quantity : Nat) = true →
      (wish app type command quantity).IsStorable := fun _ _ _ _ hfits =>
    ⟨⟨_, rfl⟩, ⟨_, rfl⟩, ⟨_, rfl, hfits⟩, ⟨_, rfl⟩⟩
  have hlegal : ∀ update ∈ rewriting, update.IsLegal JobStore.isEitherName := by
    simp only [rewriting, List.forall_mem_cons]
    exact ⟨⟨.inl rfl, ⟨_, rfl⟩, hstorable _ _ _ _ (by decide)⟩,
      ⟨.inr rfl, ⟨_, rfl⟩, hstorable _ _ _ _ (by decide)⟩,
      ⟨.inl rfl, ⟨_, rfl⟩, hstorable _ _ _ _ (by decide)⟩,
      ⟨.inr rfl, ⟨_, rfl⟩, hstorable _ _ _ _ (by decide)⟩, fun _ h => nomatch h⟩
  obtain ⟨opened, hopen, hanswers, hmap⟩ :=
    isMap_latest hawaits rfl (.inl rfl) 1700000000 hlegal
  exact ⟨opened, hopen, hanswers, hmap, rfl, rfl⟩

end ProcessStore

end Rollout
