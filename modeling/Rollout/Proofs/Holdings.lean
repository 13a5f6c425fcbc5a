import Rollout.Proofs.Placing

/-!
# What a ledger holds

Names alone do not say what runs. A ledger *holds* a job if the scheduler runs the definition of the
job under its name and a row reads back as the job in all seven fields (`Ledger.Holds`). A ledger
*wants* a number of instances of a process type if the process store says this number and nothing
else (`Ledger.IsWanted`).

Both are local: what happens under other names, or to other process types, does not touch them. That
is all that is proved here; who places what, and when, is told by the operations.
-/

namespace Rollout

/-! ### Named things by name -/

namespace Named

variable {α : Type}

/-- After a name was set, it has what it was set to, and all others have what they had. -/
theorem lookup_set (name other : String) (value : α) (table : Named α) :
    (set name value table).lookup other =
      if other = name then some value else table.lookup other := by
  induction table with
  | nil =>
    rw [set, List.lookup_cons, List.lookup_nil]
    by_cases hother : other = name
    · rw [if_pos hother, beq_iff_eq.mpr hother]
    · rw [if_neg hother, beq_eq_false_iff_ne.mpr hother]
  | cons entry rest ih =>
    obtain ⟨key, first⟩ := entry
    rw [set]
    -- the first entry is the one to set, or setting goes on behind it
    by_cases hkey : key = name
    · rw [if_pos hkey, List.lookup_cons, List.lookup_cons, hkey]
      by_cases hother : other = name
      · rw [if_pos hother, beq_iff_eq.mpr hother]
      · rw [if_neg hother, beq_eq_false_iff_ne.mpr hother]
    · rw [if_neg hkey, List.lookup_cons, List.lookup_cons, ih]
      by_cases hother : other = key
      · subst hother
        rw [if_neg hkey, if_neg hkey, beq_self_eq_true]
      · rw [beq_eq_false_iff_ne.mpr hother]

/-- After a name was taken away, all others have what they had. -/
theorem lookup_erase {name other : String} (h : other ≠ name) (table : Named α) :
    (erase name table).lookup other = table.lookup other := by
  induction table with
  | nil => rfl
  | cons entry rest ih =>
    obtain ⟨key, first⟩ := entry
    rw [erase, List.filter_cons]
    by_cases hkey : key = name
    · rw [if_neg (by simpa using hkey), List.lookup_cons, beq_eq_false_iff_ne.mpr (hkey ▸ h)]
      exact ih
    · rw [if_pos (by simpa using hkey), List.lookup_cons, List.lookup_cons]
      cases other == key with
      | true => rfl
      | false => exact ih

end Named

/-- Writing a row down makes no difference where rows about its process type are left out. -/
theorem ProcessRow.filter_put_of_not {row : ProcessRow} {test : ProcessRow → Bool}
    (h : ∀ kept, isOf row.app row.type kept = true → test kept = false) (rows : List ProcessRow) :
    (row.put rows).filter test = rows.filter test := by
  have hrow : test row = false := h row (by simp [isOf])
  rw [put]
  split
  · -- a row that is written over is left out, and so is the new one
    clear * - h hrow
    induction rows with
    | nil => rfl
    | cons first rest ih =>
      rw [List.map_cons, List.filter_cons, List.filter_cons, ih]
      by_cases hfirst : isOf row.app row.type first = true
      · rw [if_pos hfirst, hrow, h first hfirst]
        rfl
      · rw [if_neg hfirst]
  · rw [List.filter_append, List.filter_cons_of_neg (by rw [hrow]; exact Bool.false_ne_true),
      List.filter_nil, List.append_nil]

namespace Ledger

/-! ### Jobs -/

/-- The scheduler runs the definition of the job under its name, and a row of that name reads back
as the job. -/
def Holds (ledger : Ledger) (job : Job) : Prop :=
  ∃ definition row, Placement.definition? job = .ok definition ∧
    ledger.definitions.lookup definition.name = some definition ∧
    row ∈ ledger.jobs ∧ row.name = definition.name ∧ row.Tracks job

variable {ledger after : Ledger} {job : Job} {jobs : List Job}

theorem Holds.mem_tracked (h : ledger.Holds job) {name : String} (hname : job.name? = .ok name) :
    name ∈ ledger.tracked := by
  obtain ⟨definition, row, hdefinition, -, hrow, hrowName, -⟩ := h
  rw [Placement.name_of_definition? hdefinition] at hname
  rw [← Except.ok.inj hname, ← hrowName]
  exact List.mem_map_of_mem hrow

/-- A job stays held when another one is placed under a new name. -/
theorem Holds.place (h : ledger.Holds job) {definition : Definition}
    (hnew : definition.name ∉ ledger.tracked) (row : JobRow) :
    ((ledger.schedule definition).add row).Holds job := by
  obtain ⟨own, kept, hown, hlookup, hkept, hname, htracks⟩ := id h
  refine ⟨own, kept, hown, ?_, List.mem_append_left _ hkept, hname, htracks⟩
  -- a job that is held is tracked, so the new name is not its own
  have hne : own.name ≠ definition.name := by
    intro heq
    rw [← heq] at hnew
    exact hnew (h.mem_tracked (Placement.name_of_definition? hown))
  show (Named.set definition.name definition ledger.definitions).lookup own.name = some own
  rw [Named.lookup_set, if_neg hne, hlookup]

/-- **Jobs stay held when others are placed.** Placing adds rows and definitions, and takes none
away. -/
theorem Placed.holds_of_holds (hplaced : Placed jobs ledger after) (h : ledger.Holds job) :
    after.Holds job := by
  induction hplaced with
  | nil => exact h
  | cons _ hnew _ _ _ _ ih => exact ih (h.place hnew _)

/-- **Jobs that were placed are held.** By induction on the jobs; the ones placed first stay held
while the others are placed. -/
theorem Placed.holds (hplaced : Placed jobs ledger after) : ∀ job ∈ jobs, after.Holds job := by
  induction hplaced with
  | nil => exact fun _ hmem => nomatch hmem
  | @cons job rest ledger after definition row hdefinition hnew hrow happ htracks hrest ih =>
    intro other hmem
    rcases List.mem_cons.mp hmem with rfl | hlater
    · refine hrest.holds_of_holds ⟨definition, row, hdefinition, ?_, ?_, hrow, htracks⟩
      · show (Named.set definition.name definition ledger.definitions).lookup definition.name = _
        rw [Named.lookup_set, if_pos rfl]
      · exact List.mem_append_right _ List.mem_cons_self
    · exact ih other hlater

/-- **Jobs stay held when other names are given up.** -/
theorem Holds.retireAll (h : ledger.Holds job) {name : String} (hname : job.name? = .ok name)
    {gone : List String} (hleft : name ∉ gone) : (ledger.retireAll gone).Holds job := by
  induction gone generalizing ledger with
  | nil => exact h
  | cons first rest ih =>
    rw [List.mem_cons, not_or] at hleft
    obtain ⟨hne, hleft'⟩ := hleft
    refine ih ?_ hleft'
    obtain ⟨own, kept, hown, hlookup, hkept, hkeptName, htracks⟩ := h
    -- definition and row both stand under the name of the job, which is not the one given up
    have hsame : own.name = name := by
      rw [Placement.name_of_definition? hown] at hname
      exact Except.ok.inj hname
    refine ⟨own, kept, hown, ?_, List.mem_filter.mpr ⟨hkept, ?_⟩, hkeptName, htracks⟩
    · show (Named.erase first ledger.definitions).lookup own.name = some own
      rw [Named.lookup_erase (hsame ▸ hne), hlookup]
    · rw [decide_eq_true_eq, hkeptName, hsame]
      exact hne

/-- Two rows of one name are one row, so what a row of a held job reads back as is the job. -/
theorem Holds.alike (h : ledger.Holds job) (hsound : ledger.IsSound) {row : JobRow} {kept : Job}
    (hmem : row ∈ ledger.jobs) (hkept : row.job? = .ok kept) (hname : job.name? = .ok row.name) :
    kept.Alike job := by
  obtain ⟨definition, own, hdefinition, -, hown, hownName, read, hread, halike⟩ := h
  rw [Placement.name_of_definition? hdefinition] at hname
  -- names of rows are distinct in a sound ledger
  have hsame : own = row :=
    List.inj_on_of_nodup_map hsound.distinct hown hmem (hownName.trans (Except.ok.inj hname))
  rw [hsame, hkept] at hread
  rw [Except.ok.inj hread]
  exact halike

/-- A job that is held is among the listed ones of its application. -/
theorem Holds.exists_listed (h : ledger.Holds job) {app : String} (happ : job.app = .text app)
    {listed : List Job} (hlisted : (ledger.rowsOf app).mapM JobRow.job? = .ok listed) :
    ∃ kept ∈ listed, kept.Alike job := by
  obtain ⟨definition, own, -, -, hown, -, read, hread, halike⟩ := h
  have hof : own ∈ ledger.rowsOf app := by
    refine List.mem_filter.mpr ⟨hown, decide_eq_true ?_⟩
    have hreadApp := app_of_job? hread
    rw [halike.app, happ] at hreadApp
    exact (Value.text.inj hreadApp).symm
  exact ⟨read, (mem_listed hlisted).mpr ⟨own, hof, hread⟩, halike⟩

/-! ### Wanted quantities -/

/-- The process store says the quantity of the process type, and nothing else. There is a row, and
all rows of the pair say the same. -/
def IsWanted (app type : String) (target : Nat) (ledger : Ledger) : Prop :=
  ∀ cell, (app, type, cell) ∈ ledger.processes.map (fun row => (row.app, row.type, row.quantity)) ↔
    cell = .int target

/-- The rows after one was written: this one, and those about other process types. -/
theorem mem_put {row other : ProcessRow} {rows : List ProcessRow} :
    other ∈ row.put rows ↔
      other = row ∨ other ∈ rows ∧ ProcessRow.isOf row.app row.type other = false := by
  rw [ProcessRow.put]
  split
  · next hany =>
    obtain ⟨first, hfirst, hof⟩ := List.any_eq_true.mp hany
    rw [List.mem_map]
    constructor
    · rintro ⟨earlier, hearlier, rfl⟩
      split
      · exact .inl rfl
      · next hnot => exact .inr ⟨hearlier, eq_false_of_ne_true hnot⟩
    · rintro (rfl | ⟨hmem, hnot⟩)
      · exact ⟨first, hfirst, if_pos hof⟩
      · refine ⟨other, hmem, ?_⟩
        rw [hnot]
        rfl
  · next hnone =>
    -- there was no row to replace, so all rows are about other process types
    have hother : ∀ earlier ∈ rows, ProcessRow.isOf row.app row.type earlier = false :=
      List.any_eq_false.mp (eq_false_of_ne_true hnone) |> fun h earlier hmem =>
        eq_false_of_ne_true (h earlier hmem)
    rw [List.mem_append, List.mem_singleton, or_comm]
    exact or_congr_right ⟨fun hmem => ⟨hmem, hother other hmem⟩, fun h => h.1⟩

/-- **What was written down is wanted.** -/
theorem isWanted_want (row : ProcessRow) {target : Nat} (h : row.quantity.toValue = .int target)
    (ledger : Ledger) : IsWanted row.app row.type target (ledger.want row) := by
  -- the only cell that is an integer as a value is an integer
  have hquantity : row.quantity = .int target := by
    cases hcell : row.quantity with
    | int n =>
      rw [hcell] at h
      rw [Value.int.inj h]
    | null | real | text =>
      rw [hcell] at h
      cases h
  intro cell
  rw [List.mem_map]
  constructor
  · -- a row about this process type other than the one written would have been replaced
    rintro ⟨other, hmem, heq⟩
    obtain ⟨happ, heq⟩ := Prod.mk.inj heq
    obtain ⟨htype, rfl⟩ := Prod.mk.inj heq
    rcases mem_put.mp hmem with rfl | ⟨-, hnot⟩
    · exact hquantity
    · rw [ProcessRow.isOf, happ, htype] at hnot
      simp at hnot
  · rintro rfl
    exact ⟨row, mem_put.mpr (.inl rfl), by rw [hquantity]⟩

/-- **What is wanted of other process types stays.** Rows of another pair are neither changed nor
moved. -/
theorem IsWanted.want {app type : String} {target : Nat} (h : IsWanted app type target ledger)
    {row : ProcessRow} (hother : type ≠ row.type) : IsWanted app type target (ledger.want row) := by
  intro cell
  rw [← h cell, List.mem_map, List.mem_map]
  refine exists_congr fun other => and_congr_left fun heq => ?_
  obtain ⟨-, heq⟩ := Prod.mk.inj heq
  obtain ⟨htype, -⟩ := Prod.mk.inj heq
  have hnot : other.type ≠ row.type := htype ▸ hother
  show other ∈ row.put ledger.processes ↔ _
  rw [mem_put, ProcessRow.isOf, decide_eq_false hnot, Bool.and_false, and_iff_left rfl,
    or_iff_right]
  rintro rfl
  exact hnot rfl

theorem processes_retireAll (gone : List String) (ledger : Ledger) :
    (ledger.retireAll gone).processes = ledger.processes := by
  induction gone generalizing ledger with
  | nil => rfl
  | cons name rest ih => exact ih (ledger.retire name)

end Ledger

end Rollout
