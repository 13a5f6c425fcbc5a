import Rollout.Proofs.Holdings
import Rollout.Proofs.Instances
import Rollout.Proofs.Releases

/-!
# Instances on both sides

Where a call fails in the middle of scaling, scheduler and job store may part by one instance.
`Ledger.Brought release type start tracked scheduled ledger` says where a process type then stands:
the instances up to one ordinal are tracked, those up to another one are scheduled, and from `start`
nothing else has changed, neither under other names (`Ledger.SameUnder`) nor in what is wanted. The
four calls that scaling makes of scheduler and job store each move one of the two ordinals by one:

* `Brought.schedule` and `Brought.unschedule` move the one for what is scheduled;
* `Brought.add` and `Brought.remove` move the one for what is tracked.

All four follow from what happens to an initial range of names when the next one is added
(`IsRange.extend`) or the last one is taken away (`IsRange.shorten`).

What is written down about a process type replaces what was written down before, and says its
application, its type and its quantity (`ProcessRow.fields_of_ofProcess`).
-/

namespace Rollout

/-! ### Names that are there -/

theorem Named.mem_names_iff_lookup {α : Type} {name : String} {table : Named α} :
    name ∈ table.names ↔ (table.lookup name).isSome = true := by
  rw [← not_iff_not, Bool.not_eq_true, Option.isSome_eq_false_iff, Option.isNone_iff_eq_none,
    List.lookup_eq_none_iff, names, List.mem_map]
  simp only [not_exists, not_and, bne_iff_ne]
  exact forall₂_congr fun entry _ => ne_comm

/-! ### Formations -/

namespace Formation

variable {formation : Formation} {type : String} {process : ProcessType} {count : Nat}

theorem count?_of_process? (hknown : formation.process? type = some process)
    (hquantity : process.quantity = .whole count) : formation.count? type = some count :=
  count?_eq_some.mpr ⟨process, hknown, hquantity⟩

end Formation

/-! ### Rows of processes -/

namespace ProcessRow

/-- What the row of a process says of it, if the process counts whole instances. -/
theorem fields_of_ofProcess {now type app : String} {process : ProcessType} {row : ProcessRow}
    {count : Nat} (htype : process.type = .text type) (happ : process.app = .text app)
    (hquantity : process.quantity = .whole count) (h : ofProcess now process = .ok row) :
    row.app = app ∧ row.type = type ∧ row.quantity.toValue = .int count := by
  rw [ofProcess, htype, happ, hquantity] at h
  -- Binding goes parameter by parameter, and so do the checks of the columns.
  simp only [bind_eq_ok] at h
  obtain ⟨appCell, happCell, typeCell, htypeCell, _, -, countCell, hcountCell, _, -, keptApp,
    hkeptApp, keptType, hkeptType, _, -, keptCount, hkeptCount, _, -, hrow⟩ := h
  obtain rfl := Except.ok.inj happCell
  obtain rfl := Except.ok.inj htypeCell
  obtain rfl := Except.ok.inj hrow
  refine ⟨(Except.ok.inj hkeptApp).symm, (Except.ok.inj hkeptType).symm, ?_⟩
  -- an integer is bound as itself or not at all
  rw [Quantity.toValue, Cell.bind] at hcountCell
  split at hcountCell
  · obtain rfl := Except.ok.inj hcountCell
    obtain rfl := Except.ok.inj hkeptCount
    rfl
  · cases hcountCell

/-- Writing a row down makes no difference to the rows about another process type. -/
theorem filter_isOf_put {app type : String} {row : ProcessRow} (h : row.app = app → type ≠ row.type)
    (rows : List ProcessRow) :
    (row.put rows).filter (isOf app type) = rows.filter (isOf app type) := by
  -- A row that is replaced is of the same application and type as the new one, so it is not among
  -- those in question.
  refine filter_put_of_not (fun kept hkept => ?_) rows
  rw [isOf, Bool.and_eq_true, decide_eq_true_eq, decide_eq_true_eq] at hkept
  rw [isOf, hkept.1, hkept.2, Bool.and_eq_false_iff, decide_eq_false_iff_not,
    decide_eq_false_iff_not]
  exact not_and_or.mp fun hboth => h hboth.1 hboth.2.symm

end ProcessRow

/-! ### Initial ranges of names -/

namespace IsRange

open World (instanceName?)

variable {release : Release} {type name : String} {count : Nat} {names names' : List String}

/-- The name of an instance is there exactly if its ordinal is in the range. -/
theorem mem_iff (h : IsRange count (HasInstance release type names)) {n : Nat}
    (hname : instanceName? release type n = .ok name) : name ∈ names ↔ 1 ≤ n ∧ n ≤ count := by
  have hhas : name ∈ names ↔ HasInstance release type names n := by
    -- An ordinal has one name, so to have an instance is to have that name.
    refine ⟨fun hmem => ⟨name, hname, hmem⟩, ?_⟩
    rintro ⟨other, hother, hmem⟩
    rwa [Except.ok.inj (hother.symm.trans hname)] at hmem
  rw [hhas, h]
  omega

/-- The name of the next instance extends an initial range. -/
theorem extend (h : IsRange count (HasInstance release type names))
    (hname : instanceName? release type (count + 1) = .ok name)
    (hmem : ∀ other, other ∈ names' ↔ other = name ∨ other ∈ names) :
    IsRange (count + 1) (HasInstance release type names') := by
  intro ordinal
  have hordinal := h ordinal
  constructor
  · rintro ⟨other, hother, hin⟩
    rcases (hmem other).mp hin with rfl | hold
    · obtain ⟨-, -, -, heq⟩ := JobName.fields_of_text? hother hname
      have := Value.int.inj heq
      omega
    · have := hordinal.mp ⟨other, hother, hold⟩
      omega
  · intro hbounds
    -- the new instance, or one of those before
    by_cases hlast : ordinal = (count + 1 : Nat)
    · exact ⟨name, hlast ▸ hname, (hmem name).mpr (.inl rfl)⟩
    · obtain ⟨other, hother, hold⟩ := hordinal.mpr (by omega)
      exact ⟨other, hother, (hmem other).mpr (.inr hold)⟩

/-- Without the name of its last instance an initial range is shorter. -/
theorem shorten (h : IsRange (count + 1) (HasInstance release type names))
    (hname : instanceName? release type (count + 1) = .ok name)
    (hmem : ∀ other, other ∈ names' ↔ other ≠ name ∧ other ∈ names) :
    IsRange count (HasInstance release type names') := by
  intro ordinal
  have hordinal := h ordinal
  constructor
  · rintro ⟨other, hother, hin⟩
    obtain ⟨hne, hold⟩ := (hmem other).mp hin
    have hbounds := hordinal.mp ⟨other, hother, hold⟩
    -- the last ordinal has the name that was taken away
    have hlast : ordinal ≠ (count + 1 : Nat) := by
      rintro rfl
      exact hne (Except.ok.inj (hother.symm.trans hname))
    omega
  · intro hbounds
    obtain ⟨other, hother, hold⟩ := hordinal.mpr (by omega)
    refine ⟨other, hother, (hmem other).mpr ⟨?_, hold⟩⟩
    rintro rfl
    obtain ⟨-, -, -, heq⟩ := JobName.fields_of_text? hother hname
    have := Value.int.inj heq
    omega

end IsRange

namespace Ledger

open World (instanceName?)

variable {release : Release} {type name : String} {ledger middle after start : Ledger}
  {tracked scheduled : Nat}

/-! ### Other names -/

/-- The two ledgers say the same under the name, on both sides: what is scheduled under it, and
which rows have it. -/
structure SameUnder (name : String) (ledger after : Ledger) : Prop where
  definition : after.definitions.lookup name = ledger.definitions.lookup name
  rows : after.jobs.filter (·.name = name) = ledger.jobs.filter (·.name = name)

namespace SameUnder

theorem refl (name : String) (ledger : Ledger) : ledger.SameUnder name ledger := ⟨rfl, rfl⟩

theorem trans (h : SameUnder name ledger middle) (h' : SameUnder name middle after) :
    SameUnder name ledger after :=
  ⟨h'.definition.trans h.definition, h'.rows.trans h.rows⟩

theorem mem_scheduled (h : SameUnder name ledger after) :
    name ∈ after.scheduled ↔ name ∈ ledger.scheduled := by
  rw [Ledger.scheduled, Ledger.scheduled, Named.mem_names_iff_lookup, Named.mem_names_iff_lookup,
    h.definition]

theorem mem_tracked (h : SameUnder name ledger after) :
    name ∈ after.tracked ↔ name ∈ ledger.tracked := by
  -- A name is tracked if some row has it.
  have hmem (ledger : Ledger) :
      name ∈ ledger.tracked ↔ ∃ row, row ∈ ledger.jobs.filter (·.name = name) := by
    simp [Ledger.tracked, List.mem_map, List.mem_filter]
  rw [hmem, hmem, h.rows]

theorem schedule {definition : Definition} (hne : name ≠ definition.name) (ledger : Ledger) :
    SameUnder name ledger (ledger.schedule definition) :=
  ⟨(Named.lookup_set definition.name name definition ledger.definitions).trans (if_neg hne), rfl⟩

theorem unschedule {other : String} (hne : name ≠ other) (ledger : Ledger) :
    SameUnder name ledger (ledger.unschedule other) :=
  ⟨Named.lookup_erase hne ledger.definitions, rfl⟩

theorem add {row : JobRow} (hne : name ≠ row.name) (ledger : Ledger) :
    SameUnder name ledger (ledger.add row) := by
  refine ⟨rfl, ?_⟩
  rw [Ledger.add, List.filter_append, List.filter_cons_of_neg (by simpa using Ne.symm hne),
    List.filter_nil, List.append_nil]

theorem remove {other : String} (hne : name ≠ other) (ledger : Ledger) :
    SameUnder name ledger (ledger.remove other) := by
  refine ⟨rfl, ?_⟩
  rw [Ledger.remove, List.filter_filter]
  refine List.filter_congr fun row _ => ?_
  by_cases hrow : row.name = name
  · simp [hrow, hne]
  · simp [hrow]

theorem want (row : ProcessRow) (ledger : Ledger) : SameUnder name ledger (ledger.want row) :=
  ⟨rfl, rfl⟩

end SameUnder

/-! ### Where a process type stands -/

/-- From the ledger at the start the instances of a process type came to be those up to two
ordinals, one for what is tracked and one for what is scheduled. Nothing else changed. It is the
invariant of scaling one process type: between two pairs of calls the ordinals agree, and within a
pair they are one apart. -/
structure Brought (release : Release) (type : String) (start : Ledger) (tracked scheduled : Nat)
    (ledger : Ledger) : Prop where
  tracked : IsRange tracked (HasInstance release type ledger.tracked)
  scheduled : IsRange scheduled (HasInstance release type ledger.scheduled)
  names : ∀ name, (∀ n : Nat, instanceName? release type n ≠ .ok name) →
    SameUnder name start ledger
  processes : ledger.processes = start.processes

namespace Brought

theorem schedule {definition : Definition} (h : Brought release type start tracked scheduled ledger)
    (hname : instanceName? release type (scheduled + 1) = .ok definition.name) :
    Brought release type start tracked (scheduled + 1) (ledger.schedule definition) where
  tracked := h.tracked
  scheduled := h.scheduled.extend hname fun _ => mem_scheduled_schedule ledger
  names other hother := (h.names other hother).trans
    (.schedule (fun heq => hother _ (heq ▸ hname)) ledger)
  processes := h.processes

/-- Nothing moves if an instance is scheduled that is scheduled already. -/
theorem reschedule {definition : Definition} {n : Nat}
    (h : Brought release type start tracked scheduled ledger)
    (hname : instanceName? release type n = .ok definition.name) (hpos : 1 ≤ n)
    (hle : n ≤ scheduled) :
    Brought release type start tracked scheduled (ledger.schedule definition) where
  tracked := h.tracked
  scheduled := by
    -- The name is there already, so scheduling it replaces a definition and adds no name.
    have hsame (other : String) :
        other ∈ (ledger.schedule definition).scheduled ↔ other ∈ ledger.scheduled := by
      refine (mem_scheduled_schedule ledger).trans (or_iff_right_of_imp ?_)
      rintro rfl
      exact (h.scheduled.mem_iff hname).mpr ⟨hpos, hle⟩
    exact fun ordinal => (exists_congr fun other => and_congr_right fun _ => hsame other).trans
      (h.scheduled ordinal)
  names other hother := (h.names other hother).trans
    (.schedule (fun heq => hother _ (heq ▸ hname)) ledger)
  processes := h.processes

theorem add {row : JobRow} (h : Brought release type start tracked scheduled ledger)
    (hname : instanceName? release type (tracked + 1) = .ok row.name) :
    Brought release type start (tracked + 1) scheduled (ledger.add row) where
  tracked := h.tracked.extend hname fun other => by
    rw [tracked_add, List.mem_append, List.mem_singleton, or_comm]
  scheduled := h.scheduled
  names other hother := (h.names other hother).trans
    (.add (fun heq => hother _ (heq ▸ hname)) ledger)
  processes := h.processes

theorem unschedule (h : Brought release type start tracked (scheduled + 1) ledger)
    (hname : instanceName? release type (scheduled + 1) = .ok name) :
    Brought release type start tracked scheduled (ledger.unschedule name) where
  tracked := h.tracked
  scheduled := h.scheduled.shorten hname fun _ => mem_scheduled_unschedule ledger
  names other hother := (h.names other hother).trans
    (.unschedule (fun heq => hother _ (heq ▸ hname)) ledger)
  processes := h.processes

theorem remove (h : Brought release type start (tracked + 1) scheduled ledger)
    (hname : instanceName? release type (tracked + 1) = .ok name) :
    Brought release type start tracked scheduled (ledger.remove name) where
  tracked := h.tracked.shorten hname fun _ => mem_tracked_remove ledger
  scheduled := h.scheduled
  names other hother := (h.names other hother).trans
    (.remove (fun heq => hother _ (heq ▸ hname)) ledger)
  processes := h.processes

end Brought

end Ledger

end Rollout
