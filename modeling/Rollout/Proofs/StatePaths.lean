import Mathlib.Data.List.Basic
import Rollout.Files.StatePath

/-!
# Where the state file is found

The state file is looked for again on every access, and looking for it may make directories. This
file says what that can do to a tree, for every tree and every text:

* `FileTree.GrownAbove place before after`: all that was there is there as it was, and all that is
  new are directories properly above a place. Looking for a state file does no more than that, also
  where it fails halfway (`StatePath.grownAbove_ofText`).
* `StatePath.LeadsTo tree path file`: a path leads to a file whose directory is there. Then looking
  finds the file and makes nothing (`LeadsTo.ofText_eq`).
* `StatePath.leadsTo_of_ofText`: what was found once is what the path leads to from then on.
* `StatePath.ofText_of_isClear`: where nothing stands in the way, the file is found.

A path could lead elsewhere the second time only if it had become a directory on the way. What is
made lies properly above it, so it has not.
-/

namespace Rollout

namespace Path

/-! ### Normal form -/

/-- The names on the way are neither blank nor one of the names for here and for one level up, and
none of them has a separator in it. -/
def IsNormal (place : Place) : Prop :=
  ∀ name ∈ place, name ≠ "" ∧ name ≠ "." ∧ name ≠ ".." ∧ '/' ∉ name.toList

theorem isNormal_step {place : Place} {name : String} (h : IsNormal place)
    (hname : '/' ∉ name.toList) : IsNormal (step place name) := by
  rw [step]
  -- A step stays, goes up or goes down by one name.
  split
  · exact h
  · next hstays =>
    rw [not_or] at hstays
    split
    · exact fun other hmem => h other (List.mem_of_mem_tail hmem)
    · next hup => exact List.forall_mem_cons.mpr ⟨⟨hstays.1, hstays.2, hup, hname⟩, h⟩

theorem isNormal_walk {place : Place} (h : IsNormal place) (text : String) :
    IsNormal (walk place text) := by
  refine List.foldlRecOn _ _ h fun place hplace name hmem => isNormal_step hplace ?_
  rw [String.toList_ofList]
  exact Text.not_mem_of_mem_pieces hmem

/-- **The path of a text is in normal form**, from any working directory that is. Dots and doubled
strokes in the text are gone, except for the doubled stroke that a path may begin with. -/
theorem isNormal_ofText {workingDirectory : Place} (h : IsNormal workingDirectory)
    (text : String) : IsNormal (ofText workingDirectory text).place := by
  rw [ofText]
  split
  · exact isNormal_walk (List.forall_mem_nil _) text
  · exact isNormal_walk h text

/-! ### Above -/

/-- A place is on the way to another one, and not that place itself. Places are written with the
last name first, so what is above is a suffix. -/
def IsAbove (above place : Place) : Prop := above <:+ place ∧ above ≠ place

/-- What is on the way to a directory is above all that is in it. -/
theorem isAbove_cons {above parent : Place} (h : above <:+ parent) (name : String) :
    IsAbove above (name :: parent) := by
  refine ⟨h.trans (List.suffix_cons _ _), ?_⟩
  rintro rfl
  exact absurd h.length_le (Nat.not_succ_le_self _)

end Path

namespace FileTree

variable {κ : Type}

/-! ### Growing -/

/-- What was there is still there, as the same file or as a directory. There may be more. -/
def Grown (before after : FileTree κ) : Prop :=
  ∀ place, before.holds place = true → after.node? place = before.node? place

theorem Grown.refl (tree : FileTree κ) : tree.Grown tree := fun _ _ => rfl

theorem Grown.holds {before after : FileTree κ} (h : before.Grown after) {place : Place}
    (hplace : before.holds place = true) : after.holds place = true := by
  rw [FileTree.holds, h place hplace]
  exact hplace

theorem Grown.isDirectory {before after : FileTree κ} (h : before.Grown after) {place : Place}
    (hplace : before.isDirectory place = true) : after.isDirectory place = true := by
  rw [FileTree.isDirectory, h place (holds_of_isDirectory hplace)]
  exact hplace

theorem Grown.of_isPrefix {before after : FileTree κ} (h : before <+: after) :
    before.Grown after := by
  obtain ⟨added, rfl⟩ := h
  exact fun place hplace => node?_append_of_holds hplace added

theorem isDirectory_add_file {place : Place} {tree : FileTree κ} (h : tree.holds place = false)
    (content : κ) (other : Place) :
    (tree.add place (.file content)).isDirectory other = tree.isDirectory other := by
  by_cases hother : other = place
  · rw [hother, isDirectory, isDirectory, node?_add_self h, node?_eq_none_iff.mpr h]
  · rw [isDirectory, isDirectory, node?_add_of_ne hother]

/-! ### Growing by directories -/

variable {before after : FileTree κ} {place : Place}

/-- Nothing but directories properly above a place was made. It is what looking for a state file may
do at most, and it may do less if it fails on the way. -/
structure GrownAbove (place : Place) (before after : FileTree κ) : Prop where
  /-- All that was there is there as it was. -/
  kept : before.Grown after
  added : ∀ other, before.holds other = false → after.holds other = true →
    after.node? other = some .directory ∧ Path.IsAbove other place

theorem GrownAbove.refl (place : Place) (tree : FileTree κ) : GrownAbove place tree tree where
  kept := .refl tree
  added other hmissing hholds := by
    rw [hmissing] at hholds
    cases hholds

/-- Directories on the way to a place, and the place itself, were added. How far it came is left
open, so failed attempts are included. -/
def MadeWay (place : Place) (before after : FileTree κ) : Prop :=
  ∃ made : List Place, after = before ++ made.map (·, .directory) ∧ ∀ other ∈ made, other <:+ place

theorem MadeWay.refl (place : Place) (tree : FileTree κ) : MadeWay place tree tree :=
  ⟨[], (List.append_nil tree).symm, List.forall_mem_nil _⟩

theorem MadeWay.trans {between : FileTree κ} (h : MadeWay place before between)
    (h' : MadeWay place between after) : MadeWay place before after := by
  obtain ⟨first, rfl, hfirst⟩ := h
  obtain ⟨second, rfl, hsecond⟩ := h'
  refine ⟨first ++ second, ?_, List.forall_mem_append.mpr ⟨hfirst, hsecond⟩⟩
  rw [List.map_append, List.append_assoc]

theorem MadeWay.cons {parent : Place} (h : MadeWay parent before after) (name : String) :
    MadeWay (name :: parent) before after := by
  obtain ⟨made, hmade, hway⟩ := h
  exact ⟨made, hmade, fun other hmem => (hway other hmem).trans (List.suffix_cons name parent)⟩

theorem MadeWay.isPrefix (h : MadeWay place before after) : before <+: after := by
  obtain ⟨made, rfl, -⟩ := h
  exact List.prefix_append _ _

/-- What is there only since is a directory on the way. -/
theorem MadeWay.added (h : MadeWay place before after) {other : Place}
    (hmissing : before.holds other = false) (hholds : after.holds other = true) :
    after.node? other = some .directory ∧ other <:+ place := by
  obtain ⟨made, rfl, hway⟩ := h
  rw [holds, node?_append_of_missing hmissing] at hholds
  rw [node?_append_of_missing hmissing]
  obtain ⟨entry, hentry⟩ := Option.isSome_iff_exists.mp hholds
  -- an entry that is looked up is one of those that were added
  obtain ⟨front, back, hsplit, -⟩ := List.lookup_eq_some_iff.mp hentry
  have hmem : (other, entry) ∈ made.map (·, (.directory : Entry κ)) := by
    rw [hsplit]
    exact List.mem_append_right _ List.mem_cons_self
  obtain ⟨place, hplace, heq⟩ := List.mem_map.mp hmem
  obtain ⟨rfl, rfl⟩ := Prod.mk.inj heq
  exact ⟨hentry, hway _ hplace⟩

theorem madeWay_makeDirectory (tree : FileTree κ) (path : Path) :
    MadeWay path.place tree (tree.makeDirectory path).2 := by
  rw [makeDirectory]
  split
  · exact .refl _ _
  · refine ⟨[path.place], rfl, fun other hmem => ?_⟩
    obtain rfl := List.mem_singleton.mp hmem
    exact List.suffix_refl _

/-- **Making a directory makes directories on the way to it**, as far as it comes. This holds of
failed attempts too, which leave behind what they have made. -/
theorem madeWay_makeDirectories (doubled : Bool) (tree : FileTree κ) (place : Place) :
    MadeWay place tree (tree.makeDirectories doubled place).2 := by
  -- along the place, whose tail is the directory that is made first
  induction place with
  | nil => exact .refl _ _
  | cons name parent ih =>
    rw [makeDirectories]
    split
    · exact madeWay_makeDirectory tree ⟨doubled, name :: parent⟩
    -- The parent may have failed, and then what was made of it is all that was made.
    · rcases hparent : tree.makeDirectories doubled parent with ⟨failure | ⟨⟩, between⟩ <;>
        rw [hparent] at ih
      · exact ih.cons name
      · exact (ih.cons name).trans (madeWay_makeDirectory between ⟨doubled, name :: parent⟩)

/-- A directory that was made is found. -/
theorem finds_makeDirectory {tree made : FileTree κ} {path : Path}
    (h : tree.makeDirectory path = (.ok (), made)) : made.finds path = true := by
  rw [makeDirectory] at h
  split at h
  · cases h
  · next hfree =>
    -- A name that was refused for its length would have been an obstacle.
    obtain rfl := (Prod.mk.inj h).2
    have hshort : isTooLong path = false := by
      rw [obstacle?] at hfree
      split_ifs at hfree with _ _ _ hlong
      exact Bool.eq_false_iff.mpr hlong
    rw [finds, hshort, holds_add_self]
    rfl

/-- **What is made with all its ancestors is found.** Some or all of it may have been there
before. -/
theorem finds_makeDirectories {doubled : Bool} {tree made : FileTree κ} {place : Place}
    (h : tree.makeDirectories doubled place = (.ok (), made)) :
    made.finds ⟨doubled, place⟩ = true := by
  cases place with
  | nil => exact finds_root made doubled
  | cons name parent =>
    rw [makeDirectories] at h
    split at h
    · exact finds_makeDirectory h
    · rcases hparent : makeDirectories doubled tree parent with ⟨failure | ⟨⟩, between⟩ <;>
        rw [hparent] at h
      · cases h
      · exact finds_makeDirectory h

/-! ### Nothing in the way -/

/-- Nothing keeps the directories above a path from being made: no name on the way is refused, and
no file lies on it. The path itself may be anything, also a name that is too long. -/
structure IsClear (tree : FileTree κ) (path : Path) : Prop where
  names : ∀ above, Path.IsAbove above path.place →
    hasNull (above.headD "") = false ∧ isTooLong ⟨path.doubled, above⟩ = false
  places : ∀ above, Path.IsAbove above path.place → tree.holds above = true →
    tree.isDirectory above = true

/-- A directory is made if its name is taken and the one before it is there. -/
theorem makeDirectory_of_isDirectory {tree : FileTree κ} {path : Path}
    (hnull : hasNull (path.place.headD "") = false) (hshort : isTooLong path = false)
    (hparent : tree.isDirectory path.parent.place = true) :
    tree.makeDirectory path = (.ok (), tree.add path.place .directory) := by
  have hlimit : ¬ path.text.utf8ByteSize > pathLimit := by
    rw [isTooLong, Bool.or_eq_false_iff] at hshort
    exact of_decide_eq_false hshort.1
  have hfree : tree.obstacle? path = none := by
    rw [obstacle?, hnull, hparent, hshort, if_neg hlimit]
    rfl
  rw [makeDirectory, hfree]

/-- A directory that was made after its ancestors is one. -/
theorem isDirectory_makeDirectories {doubled : Bool} {tree made : FileTree κ} {place : Place}
    (hvacant : tree.holds place = true → tree.isDirectory place = true)
    (h : tree.makeDirectories doubled place = (.ok (), made)) :
    made.isDirectory place = true := by
  have hway := tree.madeWay_makeDirectories doubled place
  rw [h] at hway
  have hholds : made.holds place = true :=
    (Bool.and_eq_true_iff.mp (finds_makeDirectories h)).2
  -- It was there before, or it was made now, and what is made is a directory.
  cases hbefore : tree.holds place with
  | true => exact (Grown.of_isPrefix hway.isPrefix).isDirectory (hvacant hbefore)
  | false => rw [isDirectory, (hway.added hbefore hholds).1]

/-- **Where nothing stands in the way, a directory is made with all its ancestors.** In the way are
names that no file can have, and files on the way. -/
theorem makeDirectories_of_clear {doubled : Bool} {tree : FileTree κ} {place : Place}
    (hnames : ∀ above, above <:+ place →
      hasNull (above.headD "") = false ∧ isTooLong ⟨doubled, above⟩ = false)
    (hplaces : ∀ above, above <:+ place → tree.holds above = true →
      tree.isDirectory above = true) :
    ∃ made, tree.makeDirectories doubled place = (.ok (), made) := by
  -- Along the place, as far up as directories are missing.
  induction place with
  | nil => exact ⟨tree, rfl⟩
  | cons name parent ih =>
    have hparent := List.suffix_cons name parent
    obtain ⟨hnull, hshort⟩ := hnames _ (List.suffix_refl _)
    rw [makeDirectories]
    split
    · -- the parent is there, and is a directory
      next hfinds =>
      have hholds : tree.holds parent = true := (Bool.and_eq_true_iff.mp hfinds).2
      exact ⟨_, makeDirectory_of_isDirectory hnull hshort (hplaces _ hparent hholds)⟩
    · -- the parent is made first, and nothing stands in its way either
      obtain ⟨between, hbetween⟩ := ih (fun above h => hnames above (h.trans hparent))
        fun above h => hplaces above (h.trans hparent)
      rw [hbetween]
      exact ⟨_, makeDirectory_of_isDirectory hnull hshort
        (isDirectory_makeDirectories (hplaces _ hparent) hbetween)⟩

end FileTree

namespace StatePath

open FileTree

variable {κ : Type} {tree made later : FileTree κ} {path file : Path} {workingDirectory : Place}
  {text : String}

/-! ### Looking for a state file -/

/-- **A directory that was prepared is found.** -/
theorem finds_of_prepare {prepared : FileTree κ}
    (h : prepare tree path = (.ok (), prepared)) : prepared.finds path.parent = true := by
  rw [prepare] at h
  split at h
  · next hfinds => rwa [← (Prod.mk.inj h).2]
  · exact finds_makeDirectories h

theorem prefix_prepare (tree : FileTree κ) (path : Path) : tree <+: (prepare tree path).2 := by
  rw [prepare]
  split
  · exact List.prefix_refl tree
  · exact (tree.madeWay_makeDirectories path.doubled path.parent.place).isPrefix

/-- Preparing the directory of a path makes directories properly above the path. -/
theorem grownAbove_prepare (tree : FileTree κ) (path : Path) :
    GrownAbove path.place tree (prepare tree path).2 := by
  rw [prepare]
  split
  · exact .refl _ _
  · next hmissing =>
    -- At the root there is always something, so a path whose parent is missing has one.
    rcases path with ⟨doubled, _ | ⟨name, parent⟩⟩
    · exact absurd (finds_root tree doubled) hmissing
    · have hmade := tree.madeWay_makeDirectories doubled parent
      refine ⟨Grown.of_isPrefix hmade.isPrefix, fun other hbefore hholds => ?_⟩
      obtain ⟨hnode, hway⟩ := hmade.added hbefore hholds
      exact ⟨hnode, Path.isAbove_cons hway name⟩

theorem settle_of_not_findsDirectory (h : tree.findsDirectory path = false) :
    settle tree path = path := by
  rw [settle, h, if_neg Bool.false_ne_true]

/-- In a directory the state file has a name of its own, and there is nothing to prepare. -/
theorem settle_of_findsDirectory (h : tree.findsDirectory path = true) :
    settle tree path = path.inside fileName ∧
      prepare tree (path.inside fileName) = (.ok (), tree) := by
  obtain ⟨hshort, hdirectory⟩ := Bool.and_eq_true_iff.mp h
  refine ⟨by rw [settle, if_pos h], prepare_of_finds ?_⟩
  rw [Path.parent_inside, finds, hshort, holds_of_isDirectory hdirectory]
  rfl

/-- **Looking for a state file makes directories properly above its path, and nothing else**,
whether it is found or not. -/
theorem grownAbove_ofText (workingDirectory : Place) (tree : FileTree κ) (text : String) :
    GrownAbove (Path.ofText workingDirectory text).place tree
      (ofText workingDirectory tree text).2 := by
  rw [ofText]
  cases hdirectory : tree.findsDirectory (.ofText workingDirectory text) with
  | true =>
    obtain ⟨hsettle, hprepare⟩ := settle_of_findsDirectory hdirectory
    simp only [hsettle, hprepare]
    exact .refl _ _
  | false =>
    simp only [settle_of_not_findsDirectory hdirectory]
    exact grownAbove_prepare tree _

theorem prefix_ofText (workingDirectory : Place) (tree : FileTree κ) (text : String) :
    tree <+: (ofText workingDirectory tree text).2 := prefix_prepare tree _

/-- A path leads to a file whose directory is there. A path that is a directory leads to the state
file inside of it, and any other path leads to itself. -/
structure LeadsTo (tree : FileTree κ) (path file : Path) : Prop where
  settled : settle tree path = file
  hasParent : tree.finds file.parent = true

/-- **A path that leads to a file leads there without anything being made.** -/
theorem LeadsTo.ofText_eq (h : LeadsTo tree (.ofText workingDirectory text) file) :
    ofText workingDirectory tree text = (.ok file, tree) := by
  rw [ofText]
  simp only [h.settled, prepare_of_finds h.hasParent]
  rfl

/-- **What was found once is what the path leads to from then on.** The file is decided by the tree
as it was, before directories were made in it. -/
theorem leadsTo_of_ofText (h : ofText workingDirectory tree text = (.ok file, made)) :
    LeadsTo made (.ofText workingDirectory text) file ∧
      file = settle tree (.ofText workingDirectory text) := by
  have hgrown := grownAbove_ofText workingDirectory tree text
  rw [h] at hgrown
  rw [ofText] at h
  generalize hpath : Path.ofText workingDirectory text = path at h hgrown ⊢
  -- A directory leads inside, where nothing has to be made.
  cases hdirectory : tree.findsDirectory path with
  | true =>
    obtain ⟨hsettle, hprepare⟩ := settle_of_findsDirectory hdirectory
    simp only [hsettle, hprepare] at h
    obtain ⟨hfile, rfl⟩ := Prod.mk.inj h
    obtain rfl : path.inside fileName = file := Except.ok.inj hfile
    exact ⟨⟨hsettle, finds_of_prepare hprepare⟩, hsettle.symm⟩
  | false =>
    have hsettle := settle_of_not_findsDirectory hdirectory
    simp only [hsettle] at h
    rcases hprepare : prepare tree path with ⟨failure | ⟨⟩, prepared⟩ <;> rw [hprepare] at h
    · cases h
    obtain ⟨hfile, rfl⟩ := Prod.mk.inj h
    obtain rfl : path = file := Except.ok.inj hfile
    refine ⟨⟨settle_of_not_findsDirectory ?_, finds_of_prepare hprepare⟩, hsettle.symm⟩
    -- the path itself is not among what was made
    by_contra hmade
    rw [Bool.not_eq_false, findsDirectory, Bool.and_eq_true_iff] at hmade
    obtain ⟨hshort, hdirectory'⟩ := hmade
    cases hholds : tree.holds path.place with
    | true =>
      rw [findsDirectory, hshort, Bool.true_and, isDirectory, ← hgrown.kept _ hholds,
        ← isDirectory, hdirectory'] at hdirectory
      cases hdirectory
    | false =>
      exact (hgrown.added _ hholds (holds_of_isDirectory hdirectory')).2.2 rfl

/-- A path leads where it led, as long as it is a directory as before and the directory of the file
is still there. -/
theorem LeadsTo.of_same (h : LeadsTo tree path file)
    (hdirectory : later.isDirectory path.place = tree.isDirectory path.place)
    (hparent : tree.holds file.parent.place = true → later.holds file.parent.place = true) :
    LeadsTo later path file := by
  obtain ⟨hshort, hholds⟩ := Bool.and_eq_true_iff.mp h.hasParent
  -- Where it leads depends on whether it is a directory, and that it leads there on the directory
  -- of the file.
  constructor
  · rw [← h.settled, settle, settle, findsDirectory, findsDirectory, hdirectory]
  · rw [finds, hshort, hparent hholds]
    rfl

/-- **Where nothing stands in the way, the file is found.** With `leadsTo_of_ofText` it is the same
file ever after. -/
theorem ofText_of_isClear (h : tree.IsClear (.ofText workingDirectory text)) :
    ∃ file made, ofText workingDirectory tree text = (.ok file, made) := by
  rw [ofText]
  generalize Path.ofText workingDirectory text = path at h ⊢
  cases hdirectory : tree.findsDirectory path with
  | true =>
    -- a directory is there already
    obtain ⟨hsettle, hprepare⟩ := settle_of_findsDirectory hdirectory
    simp only [hsettle, hprepare]
    exact ⟨_, _, rfl⟩
  | false =>
    simp only [settle_of_not_findsDirectory hdirectory]
    have hprepared : ∃ made, prepare tree path = (.ok (), made) := by
      rw [prepare]
      split
      · exact ⟨_, rfl⟩
      · next hmissing =>
        rcases path with ⟨doubled, _ | ⟨name, parent⟩⟩
        · -- the root is always found
          exact absurd (finds_root tree doubled) hmissing
        · -- directories are made above the file only, where nothing stands in the way
          refine makeDirectories_of_clear (fun above hway => ?_) fun above hway => ?_
          · exact h.names above (Path.isAbove_cons hway name)
          · exact h.places above (Path.isAbove_cons hway name)
    obtain ⟨made, hmade⟩ := hprepared
    simp only [hmade]
    exact ⟨_, _, rfl⟩

end StatePath

end Rollout
