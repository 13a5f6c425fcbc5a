/-!
# Named things

Things under names of their own, in the order in which the names arrived. Setting a name that is
there keeps its place; erasing it and setting it again moves it to the end.
-/

namespace Rollout

/-- Things by name, in order of arrival. Nothing in the type keeps a name from standing twice;
tables that are made by setting names have each of them once (`nodup_names_set`). -/
abbrev Named (α : Type) := List (String × α)

namespace Named

variable {α : Type}

/-- The names, in order of arrival. -/
def names (table : Named α) : List String := table.map (·.1)

/-- Sets a name: a new one goes to the end, a present one keeps its place. -/
def set (name : String) (value : α) : Named α → Named α
  | [] => [(name, value)]
  | entry :: rest =>
    if entry.1 = name then (name, value) :: rest else entry :: set name value rest

/-- Sets names, one after the other. -/
def collect (entries : List (String × α)) : Named α :=
  entries.foldl (fun table entry => set entry.1 entry.2 table) []

/-- Takes a name away, wherever it stands. A name that is not there is no failure here: whoever
takes it away has asked for it before. -/
def erase (name : String) (table : Named α) : Named α := table.filter fun entry => entry.1 ≠ name

/-- A name is there. -/
def has (table : Named α) (name : String) : Bool := table.any fun entry => entry.1 = name

/-- Setting adds a name at most. -/
theorem mem_names_set (name other : String) (value : α) (table : Named α) :
    other ∈ (set name value table).names ↔ other = name ∨ other ∈ table.names := by
  induction table with
  | nil => simp [set, names]
  | cons entry rest ih =>
    unfold set
    split
    · next h => subst h; simp [names]
    -- The name is looked for further back, so the first entry stays a name like any other.
    · simp only [names, List.map_cons, List.mem_cons] at ih ⊢
      rw [ih]
      constructor
      · rintro (h | h | h) <;> simp [h]
      · rintro (h | h | h) <;> simp [h]

/-- A new name goes to the end. -/
theorem set_of_not_mem {name : String} (value : α) {table : Named α} (h : name ∉ table.names) :
    set name value table = table ++ [(name, value)] := by
  induction table with
  | nil => rfl
  | cons entry rest ih =>
    rw [names, List.map_cons, List.mem_cons, not_or] at h
    rw [set, if_neg (Ne.symm h.1), ih h.2]
    rfl

/-- A name that is there keeps its place. -/
theorem names_set_of_mem {name : String} (value : α) {table : Named α} (h : name ∈ table.names) :
    (set name value table).names = table.names := by
  induction table with
  | nil => cases h
  | cons entry rest ih =>
    rw [set]
    split
    · next heq => rw [names, names, List.map_cons, List.map_cons, heq]
    -- The first entry has another name, so the name must be among the rest.
    · next hne =>
      rw [names, List.map_cons, List.mem_cons] at h
      have hrest : name ∈ names rest := h.resolve_left (Ne.symm hne)
      have hnames := ih hrest
      simp only [names] at hnames ⊢
      rw [List.map_cons, List.map_cons, hnames]

/-- Names that are distinct stay so when one is set. -/
theorem nodup_names_set (name : String) (value : α) {table : Named α} (h : table.names.Nodup) :
    (set name value table).names.Nodup := by
  by_cases hmem : name ∈ table.names
  · rw [names_set_of_mem value hmem]
    exact h
  · rw [set_of_not_mem value hmem, names, List.map_append, List.nodup_append]
    -- A name that is new differs from all that are there.
    refine ⟨h, List.pairwise_singleton _ _, ?_⟩
    rintro other hother last hlast rfl
    rw [List.map_cons, List.map_nil, List.mem_singleton] at hlast
    rw [hlast] at hother
    exact hmem hother

/-- Setting names one after the other ends with the last of them. -/
theorem collect_concat (entries : List (String × α)) (last : String × α) :
    collect (entries ++ [last]) = set last.1 last.2 (collect entries) := by
  rw [collect, List.foldl_append]
  rfl

/-- Erasing takes away one name and no other. -/
theorem mem_names_erase (name other : String) (table : Named α) :
    other ∈ (erase name table).names ↔ other ≠ name ∧ other ∈ table.names := by
  simp only [erase, names, List.mem_map, List.mem_filter, decide_eq_true_eq]
  constructor
  · rintro ⟨entry, ⟨hmem, hne⟩, rfl⟩
    exact ⟨hne, entry, hmem, rfl⟩
  · rintro ⟨hne, entry, hmem, rfl⟩
    exact ⟨entry, ⟨hmem, hne⟩, rfl⟩

/-- A name is there if it is among the names. -/
theorem has_iff (table : Named α) (name : String) : table.has name = true ↔ name ∈ table.names := by
  simp [has, names]

end Named

end Rollout
