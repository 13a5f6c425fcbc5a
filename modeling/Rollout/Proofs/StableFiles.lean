import Rollout.Proofs.StatePaths
import Rollout.Storage.File

/-!
# Files that stay where they are

Every access to a store finds its file anew, and finding a file may make directories and an empty
file on the way. A store that was opened once has its file, so from then on finding it changes
nothing. This file says what has to be the case for that, and that it stays the case:

* `Disk.Stands path file files`: a path leads to a file that is there, in its directory;
* `Disk.Keeps site name place database files`: the file of a name is at a place, holds a database
  with all of its tables, and has no companions;
* `FileTree.Rewritten place content before after`: only what is in one file was changed;
* `Disk.Keeps.rewritten_self` and `Disk.Keeps.rewritten_other`: a store is kept when its own file is
  rewritten, and when another one is.

A file that was found is there (`Disk.stands_of_connect`), and a file that is there is found without
a change. So what was made on the way is found the next time (`Disk.connect_again`), and what
finding a file looks at are directories and the presence of files, never contents
(`Disk.connect_congr`).
-/

namespace Rollout

namespace FileTree

variable {κ : Type}

/-! ### Looking after writing -/

/-- A file that was written has its content. The root is no entry of a tree, so nothing can be
written there. -/
theorem node?_write_self {place : Place} (hplace : place ≠ []) (content : κ) (tree : FileTree κ) :
    (write place content tree).node? place = some (.file content) := by
  rw [node?_eq_lookup hplace]
  -- Writing replaces the first entry of the place or appends one, so the first entry found is the
  -- one that was written.
  induction tree with
  | nil => simp [write]
  | cons entry rest ih =>
    rw [write]
    split
    · simp
    · next hne => rw [List.lookup_cons, beq_eq_false_iff_ne.mpr (Ne.symm hne)]; exact ih

/-- Writing a file changes nothing elsewhere. -/
theorem node?_write_of_ne {place other : Place} (h : other ≠ place) (content : κ)
    (tree : FileTree κ) : (write place content tree).node? other = tree.node? other := by
  refine node?_congr ?_
  induction tree with
  | nil => simp [write, List.lookup_cons, beq_eq_false_iff_ne.mpr h]
  | cons entry rest ih =>
    rw [write]
    split
    · next heq =>
      rw [List.lookup_cons, List.lookup_cons, heq, beq_eq_false_iff_ne.mpr h]
    · rw [List.lookup_cons, List.lookup_cons, ih]

/-- Where nothing is, nothing is taken away. -/
theorem remove_of_node?_none {place : Place} {tree : FileTree κ} (h : tree.node? place = none) :
    remove place tree = tree := by
  have hroot : place ≠ [] := ne_root_of_missing (node?_eq_none_iff.mp h)
  rw [node?_eq_lookup hroot] at h
  rw [remove, List.filter_eq_self]
  intro entry hmem
  rw [decide_eq_true_eq]
  -- An entry of the place would have been found.
  intro heq
  have hsome := List.lookup_eq_none_iff.mp h entry hmem
  rw [heq] at hsome
  exact absurd hsome (by simp)

/-! ### One file rewritten -/

/-- Nothing but the content of one file was changed. The file was there before, so that no directory
entry is made or lost: this is what tells an access to a database from the making of one. -/
structure Rewritten (place : Place) (content : κ) (before after : FileTree κ) : Prop where
  wasFile : ∃ old, before.node? place = some (.file old)
  here : after.node? place = some (.file content)
  /-- All else is as it was. -/
  elsewhere : ∀ other, other ≠ place → after.node? other = before.node? other

namespace Rewritten

variable {place : Place} {content : κ} {before after : FileTree κ}

/-- Rewriting a file keeps all directories. -/
theorem isDirectory_eq (h : Rewritten place content before after) (other : Place) :
    after.isDirectory other = before.isDirectory other := by
  obtain ⟨old, hold⟩ := h.wasFile
  -- At the place itself a file stood before and stands now, and a file is no directory.
  by_cases hother : other = place
  · rw [hother, isDirectory, isDirectory, h.here, hold]
  · rw [isDirectory, isDirectory, h.elsewhere other hother]

/-- Rewriting a file neither makes nor takes away anything. -/
theorem holds_eq (h : Rewritten place content before after) (other : Place) :
    after.holds other = before.holds other := by
  obtain ⟨old, hold⟩ := h.wasFile
  by_cases hother : other = place
  · rw [hother, holds, holds, h.here, hold]
    rfl
  · rw [holds, holds, h.elsewhere other hother]

end Rewritten

end FileTree

namespace Disk

/-! ### Steps on files -/

/-- After a step that succeeded the next one starts; after one that failed nothing does. What the
first step made stays in either case. -/
theorem bind_apply {α β : Type} (work : Disk α) (next : α → Disk β) (files : Files) :
    (work >>= next) files =
      match work files with
      | (.ok result, files) => next result files
      | (.error failure, files) => (.error failure, files) := by
  show (match work files with | (result, files) => ExceptT.bindCont next result files) = _
  rcases work files with ⟨result | result, files'⟩ <;> rfl

/-! ### Finding a file -/

/-- The name of a file, or the default. -/
def chosen (site : Surroundings) (name : Value) : Value :=
  if name.isTrue then name else site.databasePath

/-- What is opened is there, was nameable, and was not refused: the converse of each of the reasons
that opening a file can fail for. -/
theorem openFile_eq_ok {path : Path} {place : Place} {files opened : Files}
    (h : openFile path files = (.ok place, opened)) :
    path.place.any FileTree.hasNull = false ∧ isUnopenable files path = false ∧
      path.place = place ∧ opened.holds path.place = true := by
  rw [openFile] at h
  split at h
  · cases h
  · next hnull =>
    split at h
    · cases h
    · next hopenable =>
      rw [Bool.not_eq_true] at hnull hopenable
      split at h
      -- Either the file was there already, or an empty one has just been added.
      · next hholds =>
        obtain ⟨hplace, rfl⟩ := Prod.mk.inj h
        exact ⟨hnull, hopenable, Except.ok.inj hplace, hholds⟩
      · obtain ⟨hplace, rfl⟩ := Prod.mk.inj h
        exact ⟨hnull, hopenable, Except.ok.inj hplace, FileTree.holds_add_self files _ _⟩

/-- Opening a file adds an empty one or nothing. It adds one only where nothing is, which is why no
directory is ever hidden by it. -/
theorem openFile_snd (path : Path) (files : Files) :
    (openFile path files).2 = files ∨ files.holds path.place = false ∧
      (openFile path files).2 = files.add path.place (.file (.text "")) := by
  rw [openFile]
  split
  · exact .inl rfl
  · split
    · exact .inl rfl
    · split
      · exact .inl rfl
      · next hvacant => exact .inr ⟨Bool.eq_false_iff.mpr hvacant, rfl⟩

theorem prefix_openFile (path : Path) (files : Files) : files <+: (openFile path files).2 := by
  rcases openFile_snd path files with hsame | ⟨-, hadded⟩
  · exact ⟨[], (List.append_nil files).trans hsame.symm⟩
  · exact ⟨_, hadded.symm⟩

theorem isDirectory_openFile (path : Path) (files : Files) (other : Place) :
    (openFile path files).2.isDirectory other = files.isDirectory other := by
  rcases openFile_snd path files with hsame | ⟨hvacant, hadded⟩
  · rw [hsame]
  · rw [hadded, FileTree.isDirectory_add_file hvacant]

/-- A file is found where the path of its name leads, and then opened. -/
theorem exists_of_connect {site : Surroundings} {name : Value} {place : Place}
    {files made : Files} (h : connect site name files = (.ok place, made)) :
    ∃ text path found, chosen site name = .text text ∧
      StatePath.ofText site.workingDirectory files text = (.ok path, found) ∧
      openFile path found = (.ok place, made) := by
  rw [connect, bind_apply, ofFunction, StatePath.resolve, ← chosen] at h
  -- A name that is no text is refused before any file is looked at.
  cases htext : chosen site name with
  | text text =>
    rw [htext] at h
    rcases hfound : StatePath.ofText site.workingDirectory files text with ⟨failure | path, found⟩
    · simp only [hfound] at h
      cases h
    · simp only [hfound] at h
      exact ⟨text, path, found, rfl, hfound, h⟩
  | _ =>
    rw [htext] at h
    cases h

/-- Where a path leads to a file, an access only opens that file. -/
theorem connect_eq_openFile {site : Surroundings} {name : Value} {text : String} {path : Path}
    {files : Files} (htext : chosen site name = .text text)
    (h : StatePath.LeadsTo files (.ofText site.workingDirectory text) path) :
    connect site name files = openFile path files := by
  rw [connect, bind_apply, ofFunction, StatePath.resolve, ← chosen, htext]
  simp only [h.ofText_eq]
  rfl

/-- A path leads to a file that is there, in its directory. These four facts are all that finding
the file looks at, and they are about directories and the presence of files only. -/
structure Stands (path file : Path) (files : Files) : Prop where
  leads : StatePath.LeadsTo files path file
  hasDirectory : files.isDirectory file.parent.place = true
  isThere : files.holds file.place = true
  isFile : files.isDirectory file.place = false

/-- Whether a file is there is a matter of directories and of what is there. -/
theorem Stands.congr {path file : Path} {files changed : Files} (h : Stands path file files)
    (hdirectory : ∀ other, changed.isDirectory other = files.isDirectory other)
    (hholds : ∀ other, changed.holds other = files.holds other) : Stands path file changed where
  leads := h.leads.of_same (hdirectory _) (hholds _).trans
  hasDirectory := (hdirectory _).trans h.hasDirectory
  isThere := (hholds _).trans h.isThere
  isFile := (hdirectory _).trans h.isFile

/-- A file that was opened is there. -/
theorem Stands.of_openFile {path file : Path} {place : Place} {files opened : Files}
    (h : StatePath.LeadsTo files path file) (hopen : openFile file files = (.ok place, opened)) :
    Stands path file opened := by
  obtain ⟨-, hopenable, -, hthere⟩ := openFile_eq_ok hopen
  -- What opening added is a file, so all that was a directory is one and nothing has been lost.
  have hgrown := FileTree.Grown.of_isPrefix (prefix_openFile file files)
  have hsame := isDirectory_openFile file files
  rw [hopen] at hgrown hsame
  simp only [isUnopenable, Bool.or_eq_false_iff, Bool.not_eq_false'] at hopenable
  obtain ⟨⟨⟨hfile, hparent⟩, -⟩, -⟩ := hopenable
  exact ⟨h.of_same (hsame _) hgrown.holds, (hsame _).trans hparent, hthere, (hsame _).trans hfile⟩

/-- A file that could be opened is opened without a change as long as it is there. Of the reasons to
refuse it, the length of its name and the limit are those of the path alone and were passed before;
the other two are what `Stands` says. -/
theorem openFile_of_stands {path file : Path} {place : Place} {before opened files : Files}
    (hopen : openFile file before = (.ok place, opened)) (h : Stands path file files) :
    openFile file files = (.ok place, files) := by
  obtain ⟨hnull, hopenable, hplace, -⟩ := openFile_eq_ok hopen
  have hopenable' : isUnopenable files file = false := by
    rw [isUnopenable, Bool.or_eq_false_iff, Bool.or_eq_false_iff] at hopenable ⊢
    obtain ⟨⟨-, hlength⟩, hlimit⟩ := hopenable
    refine ⟨⟨?_, hlength⟩, hlimit⟩
    rw [h.isFile, h.hasDirectory]
    rfl
  rw [openFile, hnull, hopenable', h.isThere, hplace]
  rfl

/-- A file that was found is there. -/
theorem stands_of_connect {site : Surroundings} {name : Value} {place : Place}
    {files made : Files} (h : connect site name files = (.ok place, made)) :
    ∃ text file found, chosen site name = .text text ∧
      openFile file found = (.ok place, made) ∧
      Stands (.ofText site.workingDirectory text) file made := by
  obtain ⟨text, file, found, htext, hfound, hopen⟩ := exists_of_connect h
  obtain ⟨hleads, -⟩ := StatePath.leadsTo_of_ofText hfound
  exact ⟨text, file, found, htext, hopen, .of_openFile hleads hopen⟩

/-- **Finding a file again changes nothing**: once its directory and the file have been made, the
same name leads to the same place. -/
theorem connect_again {site : Surroundings} {name : Value} {place : Place} {files made : Files}
    (h : connect site name files = (.ok place, made)) :
    connect site name made = (.ok place, made) := by
  -- The path leads to the file now, so resolving it makes no directory, and opening it adds no
  -- file.
  obtain ⟨text, file, found, htext, hopen, hstands⟩ := stands_of_connect h
  rw [connect_eq_openFile htext hstands.leads, openFile_of_stands hopen hstands]

/-- **Finding a file looks at directories and at what is there, and at nothing else.** So the
contents of files may change without a name leading elsewhere. -/
theorem connect_congr {site : Surroundings} {name : Value} {place : Place} {files changed : Files}
    (hdirectory : ∀ other, changed.isDirectory other = files.isDirectory other)
    (hholds : ∀ other, changed.holds other = files.holds other)
    (h : connect site name files = (.ok place, files)) :
    connect site name changed = (.ok place, changed) := by
  obtain ⟨text, file, found, htext, hopen, hstands⟩ := stands_of_connect h
  -- `Stands` is stated in what agrees on both trees, and it is all that finding the file needs.
  have hstands' : Stands (.ofText site.workingDirectory text) file changed :=
    hstands.congr hdirectory hholds
  rw [connect_eq_openFile htext hstands'.leads, openFile_of_stands hopen hstands']

/-! ### Stores that are kept -/

/-- The file of a name is a store in order: it is found at a place, it holds a database with all of
its tables, and nothing stands beside it. An access to such a store neither makes anything on the
way nor recovers anything, so it comes down to the database. -/
structure Keeps (site : Surroundings) (name : Value) (place : Place) (database : Database)
    (files : Files) : Prop where
  found : connect site name files = (.ok place, files)
  content : files.node? place = some (.file (.database database))
  alone : Companion.IsAlone place files
  journalled : Companion.isUnjournalled place files = false
  founded : database.initialise = database

namespace Keeps

variable {site : Surroundings} {name other : Value} {place place' : Place}
  {database database' : Database} {files after : Files}

theorem database_unique (h : Keeps site name place database files)
    (h' : Keeps site other place database' files) : database = database' := by
  have hcontent := h.content.symm.trans h'.content
  simpa only [Option.some.injEq, Entry.file.injEq, Content.database.injEq] using hcontent

/-- What stands beside a file is not the file of a store that is in order: where a journal or a log
would stand there is nothing, and where a store is there is a database. -/
theorem beside_ne (h : Keeps site name place database files)
    (h' : Keeps site other place' database' files) :
    Companion.journal place ≠ place' ∧ Companion.log place ≠ place' := by
  constructor
  · rintro rfl
    have := h.alone.1.symm.trans h'.content
    cases this
  · rintro rfl
    have := h.alone.2.symm.trans h'.content
    cases this

/-- Rewriting a file leaves the surroundings of every store as they were. -/
theorem surroundings (h : Keeps site name place database files)
    (h' : Keeps site other place' database' files) {content : Content}
    (hwrite : FileTree.Rewritten place' content files after) :
    connect site name after = (.ok place, after) ∧ Companion.IsAlone place after ∧
      Companion.isUnjournalled place after = false := by
  -- The rewritten file is none of the companions, so these are still missing.
  obtain ⟨hjournal, hlog⟩ := h.beside_ne h'
  refine ⟨connect_congr hwrite.isDirectory_eq hwrite.holds_eq h.found, ⟨?_, ?_⟩, ?_⟩
  · rw [hwrite.elsewhere _ hjournal]
    exact h.alone.1
  · rw [hwrite.elsewhere _ hlog]
    exact h.alone.2
  · rw [← h.journalled, Companion.isUnjournalled, Companion.isUnjournalled, hwrite.isDirectory_eq]

/-- A store whose file is rewritten with all tables is in order, with what was written. -/
theorem rewritten_self {changed : Database} (h : Keeps site name place database files)
    (hwrite : FileTree.Rewritten place (.database changed) files after)
    (hfounded : changed.initialise = changed) : Keeps site name place changed after := by
  obtain ⟨hfound, halone, hjournalled⟩ := h.surroundings h hwrite
  exact ⟨hfound, hwrite.here, halone, hjournalled, hfounded⟩

theorem rewritten_other {changed : Database} (h : Keeps site name place database files)
    (h' : Keeps site other place' database' files) (hne : place ≠ place')
    (hwrite : FileTree.Rewritten place' (.database changed) files after) :
    Keeps site name place database after := by
  obtain ⟨hfound, halone, hjournalled⟩ := h.surroundings h' hwrite
  exact ⟨hfound, (hwrite.elsewhere _ hne).trans h.content, halone, hjournalled, h.founded⟩

/-- A file without companions is a store in order once a database with all tables was written to
it. -/
theorem of_rewritten
    (hfound : connect site name files = (.ok place, files)) (halone : Companion.IsAlone place files)
    (hjournalled : Companion.isUnjournalled place files = false)
    (hwrite : FileTree.Rewritten place (.database database) files after)
    (hfounded : database.initialise = database) : Keeps site name place database after := by
  have hbeside : Companion.journal place ≠ place ∧ Companion.log place ≠ place := by
    obtain ⟨old, hold⟩ := hwrite.wasFile
    constructor <;> intro heq
    · cases hold.symm.trans (heq ▸ halone.1)
    · cases hold.symm.trans (heq ▸ halone.2)
  refine ⟨connect_congr hwrite.isDirectory_eq hwrite.holds_eq hfound, hwrite.here, ⟨?_, ?_⟩, ?_,
    hfounded⟩
  · rw [hwrite.elsewhere _ hbeside.1]
    exact halone.1
  · rw [hwrite.elsewhere _ hbeside.2]
    exact halone.2
  · rw [← hjournalled, Companion.isUnjournalled, Companion.isUnjournalled, hwrite.isDirectory_eq]

/-- **A change to one store seen from any store**: it holds the database that was written, if the
two share their file, and what it held before otherwise. -/
theorem rewritten {changed : Database} (h : Keeps site name place database files)
    (h' : Keeps site other place' database' files)
    (hwrite : FileTree.Rewritten place' (.database changed) files after)
    (hfounded : changed.initialise = changed) :
    ∃ seen, Keeps site name place seen after ∧
      (database = database' ∧ seen = changed ∨ seen = database) := by
  -- Two names may well lead to the same place, and then the two stores are one.
  by_cases hplace : place = place'
  · subst hplace
    exact ⟨changed, h.rewritten_self hwrite hfounded, .inl ⟨h.database_unique h', rfl⟩⟩
  · exact ⟨database, h.rewritten_other h' hplace hwrite, .inr rfl⟩

end Keeps

end Disk

end Rollout
