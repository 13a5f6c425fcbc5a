import Rollout.Proofs.Answers
import Rollout.Proofs.StatePaths

/-!
# One name, one file

A store and the event log find their file anew on every access. This file says that a name which
led to a file leads there for good.

* `Companion.Used place before after`: what the use of a database file may do to a tree. It leaves
  directories as they are and takes nothing away but companions of the file.
* `Usage`: one use of a store or of the log under some name, at some moment; `Usage.effects` is what
  a sequence of them leaves of a tree.
* `Disk.Withstands site name I`: an invariant of trees that holds on while the file of a name is
  found and used. It holds on along every use (`Withstands.effect`) and every sequence of uses
  (`Disk.effects_of_withstands`).
* `StatePath.IsFoundForGood`: everything that is meant by finding a file for good. It is what comes
  of looking for a state file whenever that succeeds (`StatePath.find_confined_for_good`).

There are two invariants. Under the name alone, the path leads where it led
(`Disk.withstands_leadsTo`), even where the file cannot be opened. Among uses of other names the
file has to be there (`Disk.withstands_stands`), and it must not be taken for what another database
left behind, because that is cleared away.
-/

namespace Rollout

namespace FileTree

variable {κ : Type}

/-! ### Taking away and writing -/

/-- Taking something away changes nothing elsewhere. -/
theorem node?_remove_of_ne {place other : Place} (h : other ≠ place) (tree : FileTree κ) :
    (remove place tree).node? other = tree.node? other := by
  refine node?_congr ?_
  induction tree with
  | nil => rfl
  | cons entry rest ih =>
    obtain ⟨at', content⟩ := entry
    change (remove place rest).lookup other = rest.lookup other at ih
    -- the entry is taken away, which lies elsewhere, or it stays
    by_cases hplace : at' = place
    · have hrest : remove place ((at', content) :: rest) = remove place rest := by
        rw [remove, List.filter_cons_of_neg (by simpa using hplace)]
        rfl
      rw [hrest, ih, List.lookup_cons, hplace, beq_eq_false_iff_ne.mpr h]
    · have hrest : remove place ((at', content) :: rest) =
          (at', content) :: remove place rest := by
        rw [remove, List.filter_cons_of_pos (by simpa using hplace)]
        rfl
      rw [hrest, List.lookup_cons, List.lookup_cons, ih]

/-- Where something was taken away no directory is. -/
theorem isDirectory_remove_self {place : Place} (hplace : place ≠ []) (tree : FileTree κ) :
    (remove place tree).isDirectory place = false := by
  -- No entry of the place is left.
  have hlookup : (remove place tree).lookup place = none := by
    refine List.lookup_eq_none_iff.mpr fun entry hmem => ?_
    have hother : entry.1 ≠ place := of_decide_eq_true (List.mem_filter.mp hmem).2
    exact bne_iff_ne.mpr hother.symm
  rw [isDirectory, node?_eq_lookup hplace, hlookup]

theorem ne_root_of_isDirectory {tree : FileTree κ} {place : Place}
    (h : tree.isDirectory place = false) : place ≠ [] := by
  rintro rfl
  cases h

/-- A file was made where nothing was, and nothing else was changed. It is what finding a file does
at most to what stands at its own place. -/
structure Created (place : Place) (content : κ) (before after : FileTree κ) : Prop where
  vacant : before.holds place = false
  here : after.node? place = some (.file content)
  elsewhere : ∀ other, other ≠ place → after.node? other = before.node? other

end FileTree

namespace Companion

open FileTree

variable {place : Place} {before between after files : Files}

/-! ### Using a database file -/

/-- What the use of a database file may do to a tree: directories are left as they are, and nothing
is taken away but companions of the file. Contents are not looked at, since finding a file does not
look at them either. -/
structure Used (place : Place) (before after : Files) : Prop where
  directories : ∀ other, after.isDirectory other = before.isDirectory other
  others : ∀ other, other ≠ journal place → other ≠ log place →
    before.holds other = true → after.holds other = true

theorem Used.refl (place : Place) (files : Files) : Used place files files :=
  ⟨fun _ => rfl, fun _ _ _ hholds => hholds⟩

theorem Used.trans (h : Used place before between) (h' : Used place between after) :
    Used place before after :=
  ⟨fun other => (h'.directories other).trans (h.directories other),
    fun other hjournal hlog hholds =>
      h'.others other hjournal hlog (h.others other hjournal hlog hholds)⟩

/-- A file is written. -/
theorem used_write {other : Place} (h : files.isDirectory other = false) (content : Content) :
    Used place files (write other content files) := by
  have hother := ne_root_of_isDirectory h
  constructor
  -- Where the file is written there was no directory, and there is none now.
  · intro third
    by_cases hthird : third = other
    · rw [hthird, h, isDirectory, node?_write_self hother]
    · rw [isDirectory, isDirectory, node?_write_of_ne hthird]
  · intro third _ _ hholds
    by_cases hthird : third = other
    · rw [hthird, holds, node?_write_self hother]
      rfl
    · rw [holds, node?_write_of_ne hthird]
      exact hholds

/-- A companion that is a file is taken away. -/
theorem used_remove {companion : Place} (hcompanion : companion = journal place ∨
    companion = log place) (h : files.isDirectory companion = false) :
    Used place files (files.remove companion) := by
  constructor
  · intro other
    by_cases hother : other = companion
    · rw [hother, h, isDirectory_remove_self (ne_root_of_isDirectory h)]
    · rw [isDirectory, isDirectory, node?_remove_of_ne hother]
  · intro other hjournal hlog hholds
    have hother : other ≠ companion := by
      rintro rfl
      exact hcompanion.elim hjournal hlog
    rw [holds, node?_remove_of_ne hother]
    exact hholds

theorem isDirectory_of_left? {content : Content} (h : left? place files = some (.file content)) :
    files.isDirectory place = false := by
  rw [isDirectory, (Option.filter_eq_some_iff.mp h).1]

theorem used_settleJournal (place : Place) (content : Content) (files : Files) :
    Used place files (settleJournal place content files).2 := by
  rw [settleJournal]
  -- A journal that was left behind is cleared away if the database can do so; in all other cases
  -- nothing is done.
  split
  · exact .refl _ _
  · split <;> exact .refl _ _
  · next hleft =>
    split
    · exact used_remove (.inl rfl) (isDirectory_of_left? hleft)
    · exact .refl _ _

theorem used_settleLog (place : Place) (content : Content) (files : Files) :
    Used place files (settleLog place content files).2 := by
  rw [settleLog]
  -- A log is cleared away, or an index is written for it, or nothing is done.
  split
  · exact .refl _ _
  · exact .refl _ _
  · next hleft =>
    split
    · exact used_remove (.inr rfl) (isDirectory_of_left? hleft)
    · split
      · exact .refl _ _
      · next hindex => exact used_write (Bool.eq_false_iff.mpr hindex) _

theorem used_settle (place : Place) (content : Content) (files : Files) :
    Used place files (settle place content files).2 := by
  have hjournal := used_settleJournal place content files
  rw [settle]
  -- The log is only looked at once the journal is settled.
  split
  · next between heq =>
    rw [heq] at hjournal
    exact hjournal.trans (used_settleLog place content between)
  · next failure between heq =>
    rw [heq] at hjournal
    exact hjournal

/-- A log that is written on is no directory. -/
theorem isDirectory_log_of_settle {content : Content}
    (h : settle place content files = (.ok (.logged true), after)) :
    after.isDirectory (log place) = false := by
  rw [settle] at h
  split at h
  · next between heq =>
    have hused := used_settleLog place content between
    rw [h] at hused
    rw [hused.directories]
    rw [settleLog] at h
    split at h
    · cases h
    · cases h
    · next hleft => exact isDirectory_of_left? hleft
  · cases h

theorem used_store {access : Access} (database : Database)
    (hplace : files.isDirectory place = false)
    (hlog : access = .logged true → files.isDirectory (log place) = false) :
    Used place files (store access place database files).2 := by
  cases access with
  | journalled =>
    rw [store]
    split
    · exact .refl _ _
    · next hjournalled =>
      rw [isUnjournalled, Bool.or_eq_true, not_or, Bool.not_eq_true] at hjournalled
      -- the journal is taken away before the database is written
      have hremoved : Used place files (files.remove (journal place)) :=
        used_remove (.inl rfl) hjournalled.1
      exact hremoved.trans (used_write ((hremoved.directories place).trans hplace) _)
  | logged isIndexed =>
    cases isIndexed with
    | false => exact .refl _ _
    | true =>
      -- the log is written before the database
      have hwritten : Used place files (write (log place) .bytes files) := used_write (hlog rfl) _
      exact hwritten.trans (used_write ((hwritten.directories place).trans hplace) _)

end Companion

namespace Disk

open Companion

variable {α β : Type} {place : Place} {files after : Files}

/-! ### Statements -/

/-- Work does no more than use the database file at a place. It says nothing of what is written,
only of what stays as it was. -/
def Uses (place : Place) (work : Disk α) : Prop := ∀ files, Used place files (work files).2

theorem Uses.ofExcept_bind {next : α → Disk β} (known : Except Failure α)
    (hnext : ∀ value, Uses place (next value)) : Uses place (ofExcept known >>= next) := by
  intro files
  cases known with
  | error failure =>
    rw [ofExcept_error_bind]
    exact .refl place files
  | ok value =>
    rw [Disk.ofExcept_bind]
    exact hnext value files

/-- What may be written is no directory: neither the file at a place nor, where changes are logged,
its log. -/
structure Ready (place : Place) (access : Access) (files : Files) : Prop where
  file : files.isDirectory place = false
  log : access = .logged true → files.isDirectory (log place) = false

/-- Reading the database at a place looks at the companions of its file first. -/
theorem databaseAt_apply (place : Place) (files : Files) :
    databaseAt place files =
      match files.content? place with
      | none => (.error (.storage .unopenable), files)
      | some content =>
        match settle place content files with
        | (.ok access, settled) => (content.database?.map (access, ·), settled)
        | (.error failure, settled) => (.error failure, settled) := by
  have hget : (get : Disk Files) files = (.ok files, files) := rfl
  rw [databaseAt, bind_apply, hget]
  -- Without content there is no database to settle.
  cases hcontent : files.content? place with
  | none =>
    simp only [hcontent]
    rfl
  | some content =>
    simp only [hcontent]
    rw [bind_apply, ofFunction]
    rcases settle place content files with ⟨failure | access, settled⟩
    · rfl
    · cases content.database? <;> rfl

/-- Reading the database at a place uses its file. -/
theorem used_databaseAt (place : Place) (files : Files) :
    Used place files (databaseAt place files).2 := by
  rw [databaseAt_apply]
  split
  · exact .refl place files
  · next content _ =>
    have hused := used_settle place content files
    split <;> next hsettle =>
      rw [hsettle] at hused
      exact hused

/-- What was read may be written. -/
theorem ready_of_databaseAt {access : Access} {database : Database}
    (h : databaseAt place files = (.ok (access, database), after)) : Ready place access after := by
  rw [databaseAt_apply] at h
  -- A reading that went well found content and settled the companions.
  split at h
  · cases h
  · next content hcontent =>
    -- a place that has content is no directory
    have hfile : files.isDirectory place = false := by
      rw [FileTree.content?] at hcontent
      split at hcontent
      · next hnode => rw [FileTree.isDirectory, hnode]
      · cases hcontent
    have hused := used_settle place content files
    split at h
    · next found settled hsettle =>
      rw [hsettle] at hused
      cases hdatabase : content.database? with
      | error failure =>
        rw [hdatabase] at h
        cases h
      | ok stored =>
        rw [hdatabase] at h
        obtain ⟨hresult, rfl⟩ := Prod.mk.inj h
        obtain ⟨rfl, rfl⟩ := Prod.mk.inj (Except.ok.inj hresult)
        -- settling the journal makes no directory of the place, nor of its log
        refine ⟨(hused.directories place).trans hfile, ?_⟩
        rintro rfl
        exact isDirectory_log_of_settle hsettle
    · cases h

/-- **What follows the reading of a database finds what may be written.** -/
theorem Uses.databaseAt_bind {next : Access × Database → Disk α}
    (hnext : ∀ access database files, Ready place access files →
      Used place files (next (access, database) files).2) :
    Uses place (databaseAt place >>= next) := by
  intro files
  have hused := used_databaseAt place files
  rw [bind_apply]
  -- What was settled on the way is a use already, and the rest starts from there.
  rcases hat : databaseAt place files with ⟨failure | ⟨access, database⟩, after⟩ <;>
    rw [hat] at hused
  · exact hused
  · exact hused.trans (hnext access database after (ready_of_databaseAt hat))

theorem Uses.query (place : Place) (f : Database → Except Failure α) :
    Uses place (Disk.query place f) :=
  databaseAt_bind fun _ _ files _ => .refl place files

/-- A database is written if it was changed. -/
theorem Ready.used_store {access : Access} (h : Ready place access files)
    (database changed : Database) :
    Used place files (store access place database changed files).2 := by
  rw [store]
  split
  · exact Companion.used_store changed h.file h.log
  · exact .refl _ _

theorem Uses.reshape (place : Place) (f : Database → Except Failure Database) :
    Uses place (Disk.reshape place f) := by
  refine databaseAt_bind fun access database files hready => ?_
  cases hf : f database with
  | error failure =>
    simp only [hf]
    exact .refl place files
  | ok changed =>
    simp only [hf]
    exact hready.used_store database changed

theorem Uses.transact (place : Place) (f : Database → Except Failure (α × Database)) :
    Uses place (Disk.transact place f) := by
  refine databaseAt_bind fun access database files hready => ?_
  by_cases haccess : access = .logged false
  · -- nothing is written without leave, whatever comes of the statement
    simp only [if_pos haccess]
    cases f database with
    | error failure =>
      by_cases hkind : failure.kind ≠ .integrity
      · simp only [if_pos hkind]
        exact .refl place files
      · simp only [if_neg hkind]
        exact .refl place files
    | ok result => exact .refl place files
  · simp only [if_neg haccess]
    cases f database with
    | error failure => exact .refl place files
    | ok result =>
      obtain ⟨answer, changed⟩ := result
      have hused := hready.used_store database changed
      show Used place files
        ((store access place database changed >>= fun _ => pure answer : Disk α) files).2
      rw [bind_apply]
      -- Whether the database could be written or not, the tree is what the store has made of it.
      rcases hstore : store access place database changed files with ⟨failure | ⟨⟩, after⟩ <;>
        rw [hstore] at hused <;> exact hused

theorem Uses.change (place : Place) (f : Database → Except Failure Database) :
    Uses place (Disk.change place f) := .transact place _

/-! ### What holds on along work -/

/-- Work keeps an invariant of trees, whatever comes of it. An invariant is kept by work in two
steps if it is kept by both. -/
def Preserves (I : Files → Prop) (work : Disk α) : Prop := ∀ files, I files → I (work files).2

theorem Preserves.ofExcept (I : Files → Prop) (known : Except Failure α) :
    Preserves I (ofExcept known) := fun _ h => h

theorem Preserves.bind {I : Files → Prop} {work : Disk α} {next : α → Disk β}
    (h : Preserves I work) (hnext : ∀ value, Preserves I (next value)) :
    Preserves I (work >>= next) := by
  intro files hfiles
  have hwork := h files hfiles
  rw [bind_apply]
  rcases hresult : work files with ⟨failure | value, after⟩ <;> rw [hresult] at hwork
  · exact hwork
  · exact hnext value after hwork

theorem Preserves.during {I : Files → Prop} {work : Disk α} (h : Preserves I work)
    (action : Except Failure StoreAction) : Preserves I (Disk.during action work) := by
  intro files hfiles
  rw [during_apply]
  exact h files hfiles

/-- An invariant of trees holds on while the file of a name is found and used. The two parts are
kept apart because a file may be found and then fail to open. -/
structure Withstands (site : Surroundings) (name : Value) (I : Files → Prop) : Prop where
  found : ∀ files, I files → I (connect site name files).2
  used : ∀ files place opened after, I files → connect site name files = (.ok place, opened) →
    Used place opened after → I after

namespace Withstands

variable {site : Surroundings} {name : Value} {I : Files → Prop}

theorem atMoment (h : Withstands site name I) (now : Int) : Withstands { site with now } name I :=
  ⟨h.found, h.used⟩

/-- **An access keeps what withstands it.** Of what follows the finding of the file it is only known
that it uses the place that was found. -/
theorem connect_bind {next : Place → Disk α} (h : Withstands site name I)
    (hnext : ∀ place, Uses place (next place)) : Preserves I (connect site name >>= next) := by
  intro files hfiles
  have hfound := h.found files hfiles
  rw [bind_apply]
  -- Without a place there is nothing to use, and finding alone keeps the invariant.
  rcases hconnect : connect site name files with ⟨failure | place, opened⟩ <;>
    rw [hconnect] at hfound
  · exact hfound
  · exact h.used files place opened _ hfiles hconnect (hnext place opened)

theorem initialise (h : Withstands site name I) : Preserves I (Disk.initialise site name) :=
  h.connect_bind fun place => .reshape place _

end Withstands

end Disk

/-! ### Uses of a store -/

/-- What a store or the event log is asked for. These are all the uses that the program makes of its
files. -/
inductive Service where
  | openJobs
  | jobs (app : Value)
  | addJob (job : Job)
  | removeJob (job : Job)
  | openProcesses
  | update (process : ProcessType)
  | formation (app : Value)
  | log (event : Event)
  | events (limit : Value)

/-- One use of a store or of the event log. The moment goes into the rows that are written, and has
no part in which file is found. -/
structure Usage where
  /-- The name of the file, as the user knows it. -/
  file : Value
  /-- The moment of the use. -/
  now : Int
  service : Service

/-- What a use leaves of a tree, whether it succeeds or not. -/
def Usage.effect (site : Surroundings) (usage : Usage) (files : Files) : Files :=
  let site := { site with now := usage.now }
  match usage.service with
  | .openJobs => (JobStore.open site usage.file files).2
  | .jobs app => (JobStore.list site usage.file app files).2
  | .addJob job => (JobStore.add site usage.file job files).2
  | .removeJob job => (JobStore.remove site usage.file job files).2
  | .openProcesses => (ProcessStore.open site usage.file files).2
  | .update process => (ProcessStore.update site usage.file process files).2
  | .formation app => (ProcessStore.formation site usage.file app files).2
  | .log event => (EventLog.log site usage.file event files).2
  | .events limit => (EventLog.latest site usage.file limit files).2

/-- What a sequence of uses leaves of a tree. -/
def Usage.effects (site : Surroundings) (usages : List Usage) (files : Files) : Files :=
  usages.foldl (fun files usage => usage.effect site files) files

namespace Disk

open Companion StatePath

variable {site : Surroundings} {name other : Value} {text : String} {path file : Path}
  {place : Place} {files after : Files} {I : Files → Prop}

/-- **Every use of a store keeps what withstands it.** It does not matter which store is used, nor
whether the use succeeds. -/
theorem Withstands.effect {usage : Usage} (h : Withstands site usage.file I) (hfiles : I files) :
    I (usage.effect site files) := by
  obtain ⟨name, now, service⟩ := usage
  have hat : Withstands { site with now } name I := h.atMoment now
  -- each use is made of the four steps that `I` withstands: founding, connecting, asking and
  -- changing
  cases service with
  | openJobs => exact hat.initialise.during _ files hfiles
  | jobs app =>
    refine Preserves.bind (.during (hat.connect_bind fun place => .query place _) _)
      (fun rows => .ofExcept I _) files hfiles
  | addJob job =>
    refine Preserves.during (hat.connect_bind fun place => ?_) _ files hfiles
    exact .ofExcept_bind _ fun _ => .ofExcept_bind _ fun _ => .ofExcept_bind _ fun _ =>
      .change place _
  | removeJob job =>
    refine Preserves.during (hat.connect_bind fun place => ?_) _ files hfiles
    exact .ofExcept_bind _ fun _ => .change place _
  | openProcesses => exact hat.initialise.during _ files hfiles
  | update process =>
    refine Preserves.bind (.during (hat.connect_bind fun place => ?_) _)
      (fun row => .ofExcept I _) files hfiles
    exact .ofExcept_bind _ fun _ => .transact place _
  | formation app =>
    refine Preserves.bind (.during (hat.connect_bind fun place => .query place _) _)
      (fun rows => .ofExcept I _) files hfiles
  | log event =>
    refine Preserves.bind hat.initialise (fun _ => hat.connect_bind fun place => ?_) files hfiles
    exact .ofExcept_bind _ fun _ => .ofExcept_bind _ fun _ => .change place _
  | events limit =>
    exact Preserves.bind hat.initialise (fun _ => hat.connect_bind fun place => .query place _)
      files hfiles

/-- **So does every sequence of uses.** By induction on the uses, which may be of different
files. -/
theorem effects_of_withstands {usages : List Usage}
    (h : ∀ usage ∈ usages, Withstands site usage.file I) (hfiles : I files) :
    I (Usage.effects site usages files) := by
  -- On the uses: the invariant is what one of them hands on to the next.
  induction usages generalizing files with
  | nil => exact hfiles
  | cons usage rest ih =>
    obtain ⟨hfirst, hrest⟩ := List.forall_mem_cons.mp h
    exact ih hrest (hfirst.effect hfiles)

/-! ### Finding the file -/

theorem used_openFile (path : Path) (place : Place) (files : Files) :
    Used place files (openFile path files).2 :=
  ⟨isDirectory_openFile path files, fun _ _ _ hholds =>
    (FileTree.Grown.of_isPrefix (prefix_openFile path files)).holds hholds⟩

/-- Finding a file only adds to the files. -/
theorem prefix_connect (site : Surroundings) (name : Value) (files : Files) :
    files <+: (connect site name files).2 := by
  rw [connect, bind_apply, ofFunction, resolve, ← chosen]
  -- A name that is no text leads nowhere; a text is resolved, which may make directories, and then
  -- opened.
  cases chosen site name with
  | text text =>
    have hprefix := prefix_ofText site.workingDirectory files text
    rcases hfound : ofText site.workingDirectory files text with ⟨failure | path, made⟩ <;>
      rw [hfound] at hprefix <;> simp only [hfound]
    · exact hprefix
    · exact hprefix.trans (prefix_openFile path made)
  | _ => exact List.prefix_refl files

/-- An access is to the file that the path of the name leads to. -/
theorem place_of_connect (h : connect site name files = (.ok place, after)) :
    ∃ text, chosen site name = .text text ∧
      (settle files (.ofText site.workingDirectory text)).place = place := by
  obtain ⟨text, path, found, htext, hfound, hopen⟩ := exists_of_connect h
  obtain ⟨-, rfl⟩ := leadsTo_of_ofText hfound
  exact ⟨text, htext, (openFile_eq_ok hopen).2.2.1⟩

/-! ### What withstands -/

/-- A companion of a file is another file. -/
theorem beside_ne {place : Place} (hplace : place ≠ []) {ending : String} (hending : ending ≠ "") :
    place ≠ beside ending place := by
  cases place with
  | nil => exact absurd rfl hplace
  | cons name parent =>
    intro heq
    have hname : name = name ++ ending := (List.cons.inj heq).1
    exact hending (String.append_eq_left_iff.mp hname.symm)

theorem parent_ne_beside {path : Path} (hplace : path.place ≠ []) (ending : String) :
    path.parent.place ≠ beside ending path.place := by
  rcases path with ⟨doubled, _ | ⟨name, parent⟩⟩
  · exact absurd rfl hplace
  · exact fun heq => absurd (congrArg List.length heq) (Nat.ne_of_lt (Nat.lt_succ_self _))

/-- A path leads where it led, whatever use is made of the file. -/
theorem leadsTo_used (h : LeadsTo files path file) (hused : Used file.place files after) :
    LeadsTo after path file := by
  refine h.of_same (hused.directories _) fun hholds => ?_
  -- The directory of the file is no companion of it, so it was not taken away.
  by_cases hroot : file.place = []
  · rw [Path.parent, hroot]
    rfl
  · exact hused.others _ (parent_ne_beside hroot _) (parent_ne_beside hroot _) hholds

/-- **Where a path leads withstands the use of its file.** Directories are only ever made, and never
where there was something before. -/
theorem withstands_leadsTo (htext : chosen site name = .text text) :
    Withstands site name (LeadsTo · (.ofText site.workingDirectory text) file) where
  found files h := by
    rw [connect_eq_openFile htext h]
    exact leadsTo_used h (used_openFile file file.place files)
  used files place opened after h hconnect hused := by
    have hopened := used_openFile file file.place files
    rw [connect_eq_openFile htext h] at hconnect
    -- The file that is used is the one that the path leads to.
    obtain ⟨-, -, rfl, -⟩ := openFile_eq_ok hconnect
    rw [hconnect] at hopened
    exact leadsTo_used h (hopened.trans hused)

namespace Stands

/-- A file is there for good where nothing is taken away. -/
theorem grown (h : Stands path file files) (hgrown : files.Grown after) :
    Stands path file after := by
  have hfile : after.isDirectory file.place = false := by
    rw [FileTree.isDirectory, hgrown _ h.isThere]
    exact h.isFile
  -- The path is either the directory of the file or the file itself.
  have hdirectory : after.isDirectory path.place = files.isDirectory path.place := by
    cases hbefore : files.isDirectory path.place with
    | true => exact hgrown.isDirectory hbefore
    | false =>
      -- a path that is no directory is the path of the file
      have hpath : path = file := by
        rw [← h.leads.settled, settle_of_not_findsDirectory]
        rw [FileTree.findsDirectory, hbefore, Bool.and_false]
      rw [hpath, hfile]
  exact ⟨h.leads.of_same hdirectory hgrown.holds, hgrown.isDirectory h.hasDirectory,
    hgrown.holds h.isThere, hfile⟩

/-- A file is still there after the use of a file that it is no companion of. -/
theorem used (h : Stands path file files) (hused : Used place files after)
    (hjournal : file.place ≠ journal place) (hlog : file.place ≠ log place) :
    Stands path file after where
  leads := h.leads.of_same (hused.directories _) fun _ => FileTree.holds_of_isDirectory
    ((hused.directories _).trans h.hasDirectory)
  hasDirectory := (hused.directories _).trans h.hasDirectory
  isThere := hused.others _ hjournal hlog h.isThere
  isFile := (hused.directories _).trans h.isFile

end Stands

/-- **A file that is there withstands the use of files that it is no companion of.** A companion of
a database that is used may be deleted along with the transaction. -/
theorem withstands_stands
    (h : ∀ files opened place, Stands path file files →
      connect site other files = (.ok place, opened) →
      file.place ≠ journal place ∧ file.place ≠ log place) :
    Withstands site other (Stands path file) where
  found files hstands := hstands.grown (.of_isPrefix (prefix_connect site other files))
  used files place opened after hstands hconnect hused := by
    have hgrown := FileTree.Grown.of_isPrefix (prefix_connect site other files)
    rw [hconnect] at hgrown
    obtain ⟨hjournal, hlog⟩ := h files opened place hstands hconnect
    exact (hstands.grown hgrown).used hused hjournal hlog

/-- A place is no companion of the file that a name may lead to, nor of the one in the directory of
that name. Which of the two a name leads to depends on the tree, so both are asked for. -/
def IsApart (site : Surroundings) (place : Place) (name : Value) : Prop :=
  ∀ text, chosen site name = .text text →
    ∀ path ∈ [Path.ofText site.workingDirectory text,
        (Path.ofText site.workingDirectory text).inside fileName],
      place ≠ journal path.place ∧ place ≠ log path.place

theorem IsApart.withstands_stands (h : IsApart site file.place other) :
    Withstands site other (Stands path file) := by
  refine Disk.withstands_stands fun files opened place _ hconnect => ?_
  obtain ⟨text, htext, rfl⟩ := place_of_connect hconnect
  refine h text htext _ ?_
  rw [StatePath.settle]
  split
  · exact List.mem_cons_of_mem _ List.mem_cons_self
  · exact List.mem_cons_self

/-- The name of a companion ends as companions of its kind do. -/
theorem suffix_of_eq_beside {ending last : String} {parent : Place}
    (h : last :: parent = beside ending place) : ending.toList <:+ last.toList := by
  cases place with
  | nil => cases h
  | cons first rest =>
    have hlast : last = first ++ ending := (List.cons.inj h).1
    rw [hlast, String.toList_append]
    exact List.suffix_append _ _

/-- **A file that is not named like a companion is apart from all names.** Whatever file they lead
to, its journal and its log end otherwise. -/
theorem isApart_of_name {last : String} (hjournal : ¬ "-journal".toList <:+ last.toList)
    (hlog : ¬ "-wal".toList <:+ last.toList) (parent : Place) (site : Surroundings)
    (name : Value) : IsApart site (last :: parent) name := fun _ _ _ _ =>
  ⟨fun heq => hjournal (suffix_of_eq_beside heq), fun heq => hlog (suffix_of_eq_beside heq)⟩

/-- A file that is there withstands its own use. -/
theorem withstands_stands_self (htext : chosen site name = .text text) :
    Withstands site name (Stands (.ofText site.workingDirectory text) file) := by
  refine withstands_stands fun files opened place hstands hconnect => ?_
  rw [connect_eq_openFile htext hstands.leads] at hconnect
  obtain ⟨-, -, rfl, -⟩ := openFile_eq_ok hconnect
  have hroot := FileTree.ne_root_of_isDirectory hstands.isFile
  -- A file is no companion of its own.
  exact ⟨beside_ne hroot (by decide), beside_ne hroot (by decide)⟩

end Disk

/-! ### Found for good -/

namespace StatePath

open FileTree

/-- Looks for the state file of a name. -/
def find (site : Surroundings) (name : Value) (files : Files) : Except Failure Path × Files :=
  resolve site.workingDirectory site.databasePath name files

/-- A name leads to a file for good. The parts go from the file at hand to uses of the name, and
from there to uses of other names in between. -/
structure IsFoundForGood (site : Surroundings) (name : Value) (file : Path) (files : Files) :
    Prop where
  /-- The directory of the file is there. -/
  hasParent : files.finds file.parent = true
  /-- Looking again finds the same file and makes nothing. -/
  again : find site name files = (.ok file, files)
  /-- So it does when the file has been made meanwhile. -/
  created : ∀ content later, Created file.place content files later →
    find site name later = (.ok file, later)
  /-- Whatever uses were made of the name, each access by it is to that file and no other. -/
  alone : ∀ usages : List Usage,
    (∀ usage ∈ usages, Disk.chosen site usage.file = Disk.chosen site name) →
    Disk.connect site name (Usage.effects site usages files) =
      Disk.openFile file (Usage.effects site usages files)
  /-- Once the file was opened it is reached again and again, also among uses of other names, unless
  it is taken for a companion of another file. -/
  amongOthers : ∀ opened, Disk.openFile file files = (.ok file.place, opened) →
    ∀ usages : List Usage,
      (∀ usage ∈ usages, Disk.chosen site usage.file = Disk.chosen site name ∨
        Disk.IsApart site file.place usage.file) →
      Disk.connect site name (Usage.effects site usages opened) =
        (.ok file.place, Usage.effects site usages opened)

variable {site : Surroundings} {name : Value} {text : String} {file : Path} {files : Files}

theorem find_eq (htext : Disk.chosen site name = .text text) (files : Files) :
    find site name files = ofText site.workingDirectory files text := by
  rw [find, resolve, ← Disk.chosen, htext]

/-- A path still leads to its file once the file has been made. -/
theorem LeadsTo.created {path : Path} {content : Content} {later : Files}
    (h : LeadsTo files path file) (hcreated : Created file.place content files later) :
    LeadsTo later path file := by
  -- nothing that was there has changed
  have hothers : ∀ other, files.holds other = true → later.node? other = files.node? other := by
    intro other hholds
    refine hcreated.elsewhere other ?_
    rintro rfl
    exact absurd (hcreated.vacant.symm.trans hholds) Bool.false_ne_true
  refine h.of_same ?_ fun hholds => ?_
  -- If the path is that of the file, it was no directory before and is none now.
  · by_cases hpath : path.place = file.place
    · have hbefore : files.isDirectory file.place = false := by
        refine Bool.eq_false_iff.mpr fun hdirectory => ?_
        exact absurd (hcreated.vacant.symm.trans (holds_of_isDirectory hdirectory))
          Bool.false_ne_true
      rw [hpath, hbefore, isDirectory, hcreated.here]
    · rw [isDirectory, isDirectory, hcreated.elsewhere _ hpath]
  · rw [holds, hothers _ hholds]
    exact hholds

/-- **A path that leads to a file leads there for good.** Both invariants are used: that of the path
for uses of the name alone, and that of the file among uses of others. -/
theorem LeadsTo.isFoundForGood (htext : Disk.chosen site name = .text text)
    (h : LeadsTo files (.ofText site.workingDirectory text) file) :
    IsFoundForGood site name file files where
  hasParent := h.hasParent
  again := (find_eq htext files).trans h.ofText_eq
  created content later hcreated := (find_eq htext later).trans (h.created hcreated).ofText_eq
  alone usages husages := by
    have hkept : ∀ usage ∈ usages, Disk.Withstands site usage.file
        (LeadsTo · (.ofText site.workingDirectory text) file) := fun usage hmem =>
      Disk.withstands_leadsTo ((husages usage hmem).trans htext)
    exact Disk.connect_eq_openFile htext (Disk.effects_of_withstands hkept h)
  amongOthers opened hopen usages husages := by
    -- once opened, the file stands there, whatever is done through other names
    have hstands : Disk.Stands (.ofText site.workingDirectory text) file
        (Usage.effects site usages opened) := by
      refine Disk.effects_of_withstands (fun usage hmem => ?_) (.of_openFile h hopen)
      rcases husages usage hmem with hsame | hapart
      · exact Disk.withstands_stands_self (hsame.trans htext)
      · exact hapart.withstands_stands
    rw [Disk.connect_eq_openFile htext hstands.leads, Disk.openFile_of_stands hopen hstands]

/-- **Looking for a state file is confined, and what is found is found for good.** For every tree,
working directory and text: all that was there is there as it was, and all that is new are
directories properly above the path of the text, which is in normal form. The file is found where
nothing stands in the way; and if it is found, every access leads to it from then on. -/
theorem find_confined_for_good (files : Files) (htext : Disk.chosen site name = .text text) :
    (Path.IsNormal site.workingDirectory →
        Path.IsNormal (Path.ofText site.workingDirectory text).place) ∧
      GrownAbove (Path.ofText site.workingDirectory text).place files (find site name files).2 ∧
      (files.IsClear (.ofText site.workingDirectory text) →
        ∃ file, (find site name files).1 = .ok file) ∧
      ∀ file, (find site name files).1 = .ok file →
        file = settle files (.ofText site.workingDirectory text) ∧
          IsFoundForGood site name file (find site name files).2 := by
  rw [find_eq htext]
  refine ⟨fun hnormal => Path.isNormal_ofText hnormal text, grownAbove_ofText _ files text,
    fun hclear => ?_, fun file hfile => ?_⟩
  · obtain ⟨file, made, hfound⟩ := ofText_of_isClear hclear
    exact ⟨file, by rw [hfound]⟩
  -- What was found is what the path leads to, and from there on it is about accesses only.
  · obtain ⟨hleads, hsettled⟩ := leadsTo_of_ofText (Prod.ext hfile rfl)
    exact ⟨hsettled, hleads.isFoundForGood htext⟩

/-- A directory to work in. -/
def workshop : Surroundings := ⟨["work"], .text "default.db", 1700000000⟩

/-- A name with parts that say nothing, a way back, and a directory that is missing. -/
def untidy : Value := .text ".//a/../b/./c/"

/-- The store of that name is opened, the directory that was made for it is taken for the name of a
store, and an event is logged beside it. -/
def busy : List Usage :=
  [⟨untidy, 1700000001, .openJobs⟩, ⟨.text "b", 1700000002, .openProcesses⟩,
    ⟨.text "/work/events.db", 1700000003,
      .log ⟨.text "info", .text "started", .text "web", .none⟩⟩]

/-- What is made for that name: the directory that was missing, and the file. -/
def tidied : Files :=
  [(["work"], .directory), (["b", "work"], .directory), (["c", "b", "work"], .file (.text ""))]

/-- **The untidy name leads to one file for good**: nothing is made for the way back, the directory
that was missing is made, and the file is reached again after all that was done beside it. -/
theorem found_untidy :
    Disk.chosen workshop untidy = .text ".//a/../b/./c/" ∧
      find workshop untidy [(["work"], .directory)] =
        (.ok ⟨false, ["c", "b", "work"]⟩, [(["work"], .directory), (["b", "work"], .directory)]) ∧
      GrownAbove ["c", "b", "work"] [(["work"], .directory)]
        (find workshop untidy [(["work"], .directory)]).2 ∧
      IsFoundForGood workshop untidy ⟨false, ["c", "b", "work"]⟩
        (find workshop untidy [(["work"], .directory)]).2 ∧
      Disk.connect workshop untidy (Usage.effects workshop busy tidied) =
        (.ok ["c", "b", "work"], Usage.effects workshop busy tidied) := by
  have hchosen : Disk.chosen workshop untidy = .text ".//a/../b/./c/" := rfl
  have hfound : find workshop untidy [(["work"], .directory)] =
      (.ok ⟨false, ["c", "b", "work"]⟩, [(["work"], .directory), (["b", "work"], .directory)]) :=
    rfl
  -- All of this is found by looking: where the name leads, and what is made on the way.
  have hopen : Disk.openFile ⟨false, ["c", "b", "work"]⟩
      (find workshop untidy [(["work"], .directory)]).2 = (.ok ["c", "b", "work"], tidied) := rfl
  obtain ⟨-, hgrown, -, hgood⟩ := find_confined_for_good [(["work"], .directory)] hchosen
  obtain ⟨-, hgood⟩ := hgood _ (congrArg Prod.fst hfound)
  refine ⟨hchosen, hfound, hgrown, hgood, hgood.amongOthers tidied hopen busy ?_⟩
  exact fun usage _ => .inr (Disk.isApart_of_name (by decide) (by decide) _ _ _)

/-- A file that is named like the journal of another one is cleared away when that one is used, and
then its name may become a directory. -/
example : (Disk.connect workshop (.text "a-journal") <| Usage.effects workshop
    [⟨.text "a-journal", 1700000001, .openJobs⟩, ⟨.text "a", 1700000002, .openJobs⟩,
      ⟨.text "a-journal/x", 1700000003, .openJobs⟩]
    [(["work"], .directory)]).1.toOption = some ["relman.db", "a-journal", "work"] := by
  decide +kernel

end StatePath

end Rollout
