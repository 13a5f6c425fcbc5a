import Mathlib.Logic.Relation
import Rollout.Proofs.Ledger

/-!
# Moves of a ledger

Rolling out, scaling and cleaning up all come down to four moves of the ledger, whatever fails on
the way: a new job is scheduled and tracked; a tracked job is only scheduled anew, since the store
refuses its name; a name is given up by both sides; what is wanted is written down. `Ledger.Move`
lists them, and every operation is shown elsewhere to make moves and nothing else.

Two invariants follow once and for all:

* `Ledger.IsSound`: every row reads back as a job of its name, and no name has two rows;
* `Ledger.Agrees app`: among the names of an application, the scheduler runs those that are tracked.

The second one is why a rollout converges. It survives aborted work because a name enters the
scheduler first and the store second, and leaves them in the same order: in between lies only a call
to the store, which does not fail.
-/

namespace Rollout

open Relation (ReflTransGen)

namespace Ledger

/-! ### Names after a change -/

variable (ledger : Ledger)

@[simp] theorem tracked_schedule (definition : Definition) :
    (ledger.schedule definition).tracked = ledger.tracked := rfl

@[simp] theorem tracked_unschedule (name : String) :
    (ledger.unschedule name).tracked = ledger.tracked := rfl

@[simp] theorem tracked_add (row : JobRow) :
    (ledger.add row).tracked = ledger.tracked ++ [row.name] := List.map_append

@[simp] theorem scheduled_add (row : JobRow) : (ledger.add row).scheduled = ledger.scheduled := rfl

@[simp] theorem scheduled_remove (name : String) :
    (ledger.remove name).scheduled = ledger.scheduled := rfl

@[simp] theorem tracked_want (row : ProcessRow) : (ledger.want row).tracked = ledger.tracked := rfl

@[simp] theorem scheduled_want (row : ProcessRow) :
    (ledger.want row).scheduled = ledger.scheduled := rfl

theorem tracked_remove (name : String) :
    (ledger.remove name).tracked = ledger.tracked.filter (· ≠ name) := by
  rw [tracked, remove, tracked, List.filter_map]
  rfl

theorem mem_scheduled_schedule {definition : Definition} {name : String} :
    name ∈ (ledger.schedule definition).scheduled ↔
      name = definition.name ∨ name ∈ ledger.scheduled :=
  Named.mem_names_set definition.name name definition ledger.definitions

theorem mem_scheduled_unschedule {name other : String} :
    other ∈ (ledger.unschedule name).scheduled ↔ other ≠ name ∧ other ∈ ledger.scheduled :=
  Named.mem_names_erase name other ledger.definitions

theorem mem_tracked_remove {name other : String} :
    other ∈ (ledger.remove name).tracked ↔ other ≠ name ∧ other ∈ ledger.tracked := by
  rw [tracked_remove, List.mem_filter, decide_eq_true_eq, and_comm]

/-! ### Giving a name up -/

/-- A name is neither scheduled nor tracked any longer. -/
def retire (name : String) (ledger : Ledger) : Ledger := (ledger.unschedule name).remove name

theorem mem_scheduled_retire {name other : String} :
    other ∈ (ledger.retire name).scheduled ↔ other ≠ name ∧ other ∈ ledger.scheduled := by
  rw [retire, scheduled_remove, mem_scheduled_unschedule]

theorem mem_tracked_retire {name other : String} :
    other ∈ (ledger.retire name).tracked ↔ other ≠ name ∧ other ∈ ledger.tracked := by
  rw [retire, mem_tracked_remove, tracked_unschedule]

/-- Names are given up, one after the other. -/
def retireAll (names : List String) (ledger : Ledger) : Ledger :=
  names.foldl (fun ledger name => ledger.retire name) ledger

@[simp] theorem retireAll_nil : ledger.retireAll [] = ledger := rfl

@[simp] theorem retireAll_cons (name : String) (rest : List String) :
    ledger.retireAll (name :: rest) = (ledger.retire name).retireAll rest := rfl

variable {ledger}

theorem mem_scheduled_retireAll {names : List String} {other : String} :
    other ∈ (ledger.retireAll names).scheduled ↔ other ∉ names ∧ other ∈ ledger.scheduled := by
  -- On the names: each is gone once it was given up, and none comes back.
  induction names generalizing ledger with
  | nil => simp
  | cons name rest ih =>
    rw [retireAll_cons, ih, mem_scheduled_retire, List.mem_cons, not_or]
    exact ⟨fun ⟨h, h', h''⟩ => ⟨⟨h', h⟩, h''⟩, fun ⟨⟨h', h⟩, h''⟩ => ⟨h, h', h''⟩⟩

theorem mem_tracked_retireAll {names : List String} {other : String} :
    other ∈ (ledger.retireAll names).tracked ↔ other ∉ names ∧ other ∈ ledger.tracked := by
  induction names generalizing ledger with
  | nil => simp
  | cons name rest ih =>
    rw [retireAll_cons, ih, mem_tracked_retire, List.mem_cons, not_or]
    exact ⟨fun ⟨h, h', h''⟩ => ⟨⟨h', h⟩, h''⟩, fun ⟨⟨h', h⟩, h''⟩ => ⟨h, h', h''⟩⟩

/-! ### Sound ledgers -/

/-- A row reads back as a job of its name. Rows that a store has written are like this, and
everything that joins jobs by name relies on it. -/
def IsReadable (row : JobRow) : Prop := ∃ job, row.job? = .ok job ∧ job.name? = .ok row.name

theorem app_of_job? {row : JobRow} {job : Job} (h : row.job? = .ok job) :
    job.app = .text row.app := by
  obtain ⟨environment, -, hjob⟩ := bind_eq_ok.mp h
  rw [← Except.ok.inj hjob]

theorem IsReadable.isNameOf {row : JobRow} (h : IsReadable row) : IsNameOf row.app row.name := by
  obtain ⟨job, hjob, hname⟩ := h
  exact Job.isNameOf_of_name? (app_of_job? hjob) hname

theorem isReadable_of_tracks {row : JobRow} {job : Job} (htracks : row.Tracks job)
    (hname : job.name? = .ok row.name) : IsReadable row := by
  obtain ⟨kept, hkept, halike⟩ := htracks
  exact ⟨kept, hkept, halike.name?_eq.trans hname⟩

/-- All rows can be read, and each name has one. It is what a store keeps to by itself, whatever it
is asked for. -/
structure IsSound (ledger : Ledger) : Prop where
  readable : ∀ row ∈ ledger.jobs, IsReadable row
  distinct : ledger.tracked.Nodup

theorem IsSound.name_of_job? (h : ledger.IsSound) {row : JobRow} (hrow : row ∈ ledger.jobs)
    {job : Job} (hjob : row.job? = .ok job) : job.name? = .ok row.name := by
  obtain ⟨read, hread, hname⟩ := h.readable row hrow
  rw [hjob] at hread
  rw [Except.ok.inj hread]
  exact hname

/-- **The tracked jobs of an application can be listed**, and they have the names of their rows.
Soundness is what keeps a row from being unreadable. -/
theorem IsSound.exists_listed (h : ledger.IsSound) (app : String) :
    ∃ jobs, (ledger.rowsOf app).mapM JobRow.job? = .ok jobs ∧
      List.Forall₂ (fun row job => row.job? = .ok job ∧ job.name? = .ok row.name)
        (ledger.rowsOf app) jobs := by
  -- along the rows, each of which reads back
  have hrows : ∀ row ∈ ledger.rowsOf app, IsReadable row :=
    fun row hmem => h.readable row (List.mem_of_mem_filter hmem)
  generalize ledger.rowsOf app = rows at hrows
  induction rows with
  | nil => exact ⟨[], rfl, .nil⟩
  | cons row rest ih =>
    obtain ⟨job, hjob, hname⟩ := hrows row List.mem_cons_self
    obtain ⟨jobs, hjobs, hall⟩ := ih fun other hmem => hrows other (List.mem_cons_of_mem _ hmem)
    refine ⟨job :: jobs, ?_, .cons ⟨hjob, hname⟩ hall⟩
    rw [List.mapM_cons, hjob, hjobs]
    rfl

/-- The listed jobs are what the rows of the application read back as. -/
theorem mem_listed {rows : List JobRow} {listed : List Job}
    (h : rows.mapM JobRow.job? = .ok listed) {kept : Job} :
    kept ∈ listed ↔ ∃ row ∈ rows, row.job? = .ok kept := mem_of_mapM_eq_ok h

/-- The tracked names of an application. -/
def trackedOf (app : String) (ledger : Ledger) : List String := (ledger.rowsOf app).map (·.name)

/-- **A tracked name belongs to the application that its row says.** So to ask for the names of an
application is to ask the rows, or to look at how the names begin. -/
theorem IsSound.mem_trackedOf (h : ledger.IsSound) {app name : String} :
    name ∈ ledger.trackedOf app ↔ IsNameOf app name ∧ name ∈ ledger.tracked := by
  constructor
  · intro hmem
    obtain ⟨row, hrow, rfl⟩ := List.mem_map.mp hmem
    obtain ⟨hjobs, happ⟩ := List.mem_filter.mp hrow
    rw [decide_eq_true_eq] at happ
    exact ⟨happ ▸ (h.readable row hjobs).isNameOf, List.mem_map_of_mem hjobs⟩
  · rintro ⟨hname, hmem⟩
    obtain ⟨row, hrow, rfl⟩ := List.mem_map.mp hmem
    -- a name tells its application, and so does the row that reads back under it
    have happ : row.app = app := (h.readable row hrow).isNameOf.app_unique hname
    exact List.mem_map_of_mem (List.mem_filter.mpr ⟨hrow, decide_eq_true happ⟩)

theorem IsSound.nodup_trackedOf (h : ledger.IsSound) (app : String) :
    (ledger.trackedOf app).Nodup :=
  h.distinct.sublist (List.filter_sublist.map _)

/-! ### Agreement -/

/-- Among the names of the application, the scheduler runs those that are tracked. It is what
operations on applications are to keep up, and it says nothing of other applications. -/
def Agrees (app : String) (ledger : Ledger) : Prop :=
  ∀ name, IsNameOf app name → (name ∈ ledger.scheduled ↔ name ∈ ledger.tracked)

/-! ### Moves -/

/-- One move for an application. These are whole strokes: each of them changes both sides, or
changes neither side's names. -/
inductive Move (app : String) : Ledger → Ledger → Prop where
  /-- A job of a new name is scheduled and tracked. -/
  | place {ledger : Ledger} {definition : Definition} {row : JobRow}
      (hname : IsNameOf app definition.name) (hnew : definition.name ∉ ledger.tracked)
      (hrow : row.name = definition.name) (hreadable : IsReadable row) :
      Move app ledger ((ledger.schedule definition).add row)
  /-- A job that is tracked is scheduled anew. -/
  | redefine {ledger : Ledger} {definition : Definition} (hname : IsNameOf app definition.name)
      (hmem : definition.name ∈ ledger.tracked) : Move app ledger (ledger.schedule definition)
  /-- A name is given up. -/
  | retire {ledger : Ledger} {name : String} (hname : IsNameOf app name) :
      Move app ledger (ledger.retire name)
  /-- What is wanted of a process type is written down. -/
  | want {ledger : Ledger} (row : ProcessRow) : Move app ledger (ledger.want row)

/-- Moves for an application, one after the other. -/
abbrev Moves (app : String) : Ledger → Ledger → Prop := ReflTransGen (Move app)

variable {app : String} {after : Ledger}

/-- A move keeps a ledger sound: a name gets a row only if it has none. -/
theorem Move.isSound (h : Move app ledger after) (hsound : ledger.IsSound) : after.IsSound := by
  obtain ⟨hrows, hdistinct⟩ := hsound
  -- Only a placement adds a row, and all other moves keep rows or take them away.
  cases h with
  | place hname hnew hrow hreadable =>
    constructor
    · intro other hmem
      rcases List.mem_append.mp hmem with hold | hlast
      · exact hrows other hold
      · rw [List.mem_singleton.mp hlast]
        exact hreadable
    -- the store tracks a new name only if it is new
    · rw [tracked_add, tracked_schedule, List.nodup_append]
      refine ⟨hdistinct, List.nodup_singleton _, ?_⟩
      rintro other hother last hlast rfl
      rw [List.mem_singleton.mp hlast, hrow] at hother
      exact hnew hother
  | redefine => exact ⟨hrows, hdistinct⟩
  | retire =>
    exact ⟨fun other hmem => hrows other (List.mem_of_mem_filter hmem),
      hdistinct.sublist (List.filter_sublist.map _)⟩
  | want => exact ⟨hrows, hdistinct⟩

/-- A move changes both sides alike, as far as names go. -/
theorem Move.agrees (h : Move app ledger after) (hagrees : ledger.Agrees app) :
    after.Agrees app := by
  intro name hname
  have hbefore := hagrees name hname
  -- Each move is looked at under one name, by what it does to either side.
  cases h with
  | place hplaced hnew hrow hreadable =>
    rw [scheduled_add, mem_scheduled_schedule, tracked_add, tracked_schedule, List.mem_append,
      List.mem_singleton, hrow, hbefore, or_comm]
  | redefine hredefined hmem =>
    rw [mem_scheduled_schedule, tracked_schedule, hbefore]
    -- a name that is scheduled anew was tracked, and so scheduled already
    refine ⟨?_, Or.inr⟩
    rintro (rfl | htracked)
    · exact hmem
    · exact htracked
  | retire => rw [mem_scheduled_retire, mem_tracked_retire, hbefore]
  | want =>
    rw [scheduled_want, tracked_want]
    exact hbefore

/-- **Soundness is never lost.** By induction on the moves, which place jobs of new names or take
names away. -/
theorem isSound_of_moves (h : Moves app ledger after) (hsound : ledger.IsSound) :
    after.IsSound := by
  -- Move by move, from the first one on.
  induction h with
  | refl => exact hsound
  | tail _ hmove ih => exact hmove.isSound ih

/-- **Agreement is never lost.** Each move does the same to both sides, so neither can get ahead of
the other. -/
theorem agrees_of_moves (h : Moves app ledger after) (hagrees : ledger.Agrees app) :
    after.Agrees app := by
  induction h with
  | refl => exact hagrees
  | tail _ hmove ih => exact hmove.agrees ih

/-- Giving up names of the application is a number of moves. -/
theorem moves_retireAll {names : List String} (h : ∀ name ∈ names, IsNameOf app name) :
    Moves app ledger (ledger.retireAll names) := by
  -- On the names, of which the first is given up first.
  induction names generalizing ledger with
  | nil => exact .refl
  | cons name rest ih =>
    exact .head (.retire (h name List.mem_cons_self))
      (ih fun other hmem => h other (List.mem_cons_of_mem _ hmem))

end Ledger

end Rollout
