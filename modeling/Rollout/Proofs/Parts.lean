import Rollout.Proofs.Agreement
import Rollout.Proofs.Isolation

/-!
# Parts of a ledger

A *part* of a ledger is what it holds under some of the names, and perhaps what is wanted of
processes. A call is *within* a part if all that it can change lies there. Two things are known of
such calls, and they are all that is needed about work that is done side by side:

* it makes no difference to any part that has nothing in common with its own
  (`Ledger.sameOn_answer_apart`);
* on two ledgers that are the same on its part it is answered alike and does the same there
  (`Ledger.alike_answer`).

A list of jobs shows more than the part, so two such answers need not be equal; but the same jobs
are found in them under the names of the part (`Call.Alike`).
-/

namespace Rollout

/-- A part of what ledgers hold. What is wanted of processes is taken as a whole, since no result
here divides it. -/
structure Part where
  /-- The names under which definitions and rows belong to it. -/
  names : String → Bool
  /-- What is wanted of processes belongs to it. -/
  wanted : Bool

/-- The two parts have nothing in common. Work that keeps to one of them cannot be noticed in the
other one. -/
structure Part.Apart (part other : Part) : Prop where
  names : ∀ name, part.names name = true → other.names name = false
  wanted : part.wanted = true → other.wanted = false

theorem Part.Apart.symm {part other : Part} (h : part.Apart other) : other.Apart part where
  names := fun name hother => Bool.eq_false_iff.mpr fun hname =>
    Bool.false_ne_true ((h.names name hname).symm.trans hother)
  wanted := fun hother => Bool.eq_false_iff.mpr fun hwanted =>
    Bool.false_ne_true ((h.wanted hwanted).symm.trans hother)

namespace Named

variable {α : Type} {name : String}

/-- What is set under a name that counts is set among those that count. -/
theorem filter_set_of_counts (test : String → Bool) (h : test name = true) (value : α)
    (table : Named α) :
    (set name value table).filter (fun entry => test entry.1) =
      set name value (table.filter fun entry => test entry.1) := by
  induction table with
  | nil => exact List.filter_cons_of_pos h
  | cons entry rest ih =>
    rw [set]
    split
    · -- the entry is set here, and counts
      next hname =>
      rw [List.filter_cons_of_pos (by exact h), List.filter_cons_of_pos (by rw [hname]; exact h),
        set, if_pos hname]
    · -- the entry stays, and goes with the others if it counts
      next hname =>
      rw [List.filter_cons, List.filter_cons, ih]
      split
      · rw [set, if_neg hname]
      · rfl

theorem filter_erase_comm (test : String → Bool) (table : Named α) :
    (erase name table).filter (fun entry => test entry.1) =
      erase name (table.filter fun entry => test entry.1) := by
  rw [erase, erase, List.filter_filter, List.filter_filter]
  exact List.filter_congr fun entry _ => Bool.and_comm _ _

/-- A name that counts is there if it is among those that count. -/
theorem mem_names_filter (test : String → Bool) (h : test name = true) (table : Named α) :
    name ∈ names (table.filter fun entry => test entry.1) ↔ name ∈ table.names := by
  simp only [names, List.mem_map, List.mem_filter]
  constructor
  · rintro ⟨entry, ⟨hmem, -⟩, rfl⟩
    exact ⟨entry, hmem, rfl⟩
  · rintro ⟨entry, hmem, rfl⟩
    exact ⟨entry, ⟨hmem, h⟩, rfl⟩

end Named

/-! ### Ledgers that are the same on a part -/

namespace Ledger

variable {part : Part} {ledger middle after twin : Ledger}

/-- The two ledgers hold the same of a part, in the same order. The order matters, as lists of jobs
are answered in it. -/
structure SameOn (part : Part) (ledger twin : Ledger) : Prop where
  definitions : ledger.definitions.filter (fun entry => part.names entry.1) =
    twin.definitions.filter fun entry => part.names entry.1
  jobs : ledger.jobs.filter (fun row => part.names row.name) =
    twin.jobs.filter fun row => part.names row.name
  processes : part.wanted = true → ledger.processes = twin.processes

namespace SameOn

theorem refl (part : Part) (ledger : Ledger) : ledger.SameOn part ledger :=
  ⟨rfl, rfl, fun _ => rfl⟩

theorem symm (h : ledger.SameOn part twin) : twin.SameOn part ledger :=
  ⟨h.definitions.symm, h.jobs.symm, fun hwanted => (h.processes hwanted).symm⟩

theorem trans (h : ledger.SameOn part middle) (h' : middle.SameOn part after) :
    ledger.SameOn part after :=
  ⟨h.definitions.trans h'.definitions, h.jobs.trans h'.jobs,
    fun hwanted => (h.processes hwanted).trans (h'.processes hwanted)⟩

theorem mem_scheduled (h : ledger.SameOn part twin) {name : String}
    (hname : part.names name = true) : name ∈ ledger.scheduled ↔ name ∈ twin.scheduled := by
  rw [scheduled, ← Named.mem_names_filter part.names hname, h.definitions,
    Named.mem_names_filter part.names hname, scheduled]

theorem mem_jobs (h : ledger.SameOn part twin) {row : JobRow}
    (hname : part.names row.name = true) : row ∈ ledger.jobs ↔ row ∈ twin.jobs := by
  have hmem : row ∈ ledger.jobs.filter (fun row => part.names row.name) ↔
      row ∈ twin.jobs.filter (fun row => part.names row.name) := by rw [h.jobs]
  rw [List.mem_filter, List.mem_filter] at hmem
  exact ⟨fun hrow => (hmem.mp ⟨hrow, hname⟩).1, fun hrow => (hmem.mpr ⟨hrow, hname⟩).1⟩

/-- The same names of the part are tracked. -/
theorem mem_tracked (h : ledger.SameOn part twin) {name : String}
    (hname : part.names name = true) : name ∈ ledger.tracked ↔ name ∈ twin.tracked := by
  rw [tracked, tracked, List.mem_map, List.mem_map]
  constructor
  · rintro ⟨row, hrow, rfl⟩
    exact ⟨row, (h.mem_jobs hname).mp hrow, rfl⟩
  · rintro ⟨row, hrow, rfl⟩
    exact ⟨row, (h.mem_jobs hname).mpr hrow, rfl⟩

/-! What is done to both ledgers. -/

theorem schedule (h : ledger.SameOn part twin) {definition : Definition}
    (hname : part.names definition.name = true) :
    (ledger.schedule definition).SameOn part (twin.schedule definition) where
  definitions := by
    rw [Ledger.schedule, Ledger.schedule, Named.filter_set_of_counts _ hname,
      Named.filter_set_of_counts _ hname, h.definitions]
  jobs := h.jobs
  processes := h.processes

theorem unschedule (h : ledger.SameOn part twin) (name : String) :
    (ledger.unschedule name).SameOn part (twin.unschedule name) where
  definitions := by
    rw [Ledger.unschedule, Ledger.unschedule, Named.filter_erase_comm, Named.filter_erase_comm,
      h.definitions]
  jobs := h.jobs
  processes := h.processes

theorem add (h : ledger.SameOn part twin) (row : JobRow) :
    (ledger.add row).SameOn part (twin.add row) where
  definitions := h.definitions
  jobs := by rw [Ledger.add, Ledger.add, List.filter_append, List.filter_append, h.jobs]
  processes := h.processes

theorem remove (h : ledger.SameOn part twin) (name : String) :
    (ledger.remove name).SameOn part (twin.remove name) where
  definitions := h.definitions
  jobs := by
    -- it makes no difference which of the two filters comes first
    rw [Ledger.remove, Ledger.remove, List.filter_filter, List.filter_filter]
    simp only [Bool.and_comm (part.names _)]
    rw [← List.filter_filter, ← List.filter_filter, h.jobs]
  processes := h.processes

theorem want (h : ledger.SameOn part twin) (row : ProcessRow) :
    (ledger.want row).SameOn part (twin.want row) where
  definitions := h.definitions
  jobs := h.jobs
  processes := fun hwanted => congrArg row.put (h.processes hwanted)

/-! What is done to one of them, outside of the part. -/

theorem of_schedule {definition : Definition} (hname : part.names definition.name = false)
    (ledger : Ledger) : ledger.SameOn part (ledger.schedule definition) where
  definitions := (Named.filter_set part.names hname _ _).symm
  jobs := rfl
  processes := fun _ => rfl

theorem of_unschedule {name : String} (hname : part.names name = false) (ledger : Ledger) :
    ledger.SameOn part (ledger.unschedule name) where
  definitions := (Named.filter_erase part.names hname _).symm
  jobs := rfl
  processes := fun _ => rfl

theorem of_add {row : JobRow} (hname : part.names row.name = false) (ledger : Ledger) :
    ledger.SameOn part (ledger.add row) where
  definitions := rfl
  jobs := by
    have hnone : [row].filter (fun row => part.names row.name) = [] :=
      List.filter_cons_of_neg (Bool.eq_false_iff.mp hname)
    rw [Ledger.add, List.filter_append, hnone, List.append_nil]
  processes := fun _ => rfl

theorem of_remove {name : String} (hname : part.names name = false) (ledger : Ledger) :
    ledger.SameOn part (ledger.remove name) where
  definitions := rfl
  jobs := by
    rw [Ledger.remove, List.filter_filter]
    refine List.filter_congr fun row _ => ?_
    by_cases hrow : row.name = name
    · rw [hrow, hname, Bool.false_and]
    · rw [decide_eq_true hrow, Bool.and_true]
  processes := fun _ => rfl

theorem of_want (hwanted : part.wanted = false) (row : ProcessRow) (ledger : Ledger) :
    ledger.SameOn part (ledger.want row) :=
  ⟨rfl, rfl, fun h => absurd h (Bool.eq_false_iff.mp hwanted)⟩

theorem of_retire {name : String} (hname : part.names name = false) (ledger : Ledger) :
    ledger.SameOn part (ledger.retire name) :=
  (of_unschedule hname ledger).trans (of_remove hname _)

theorem of_retireAll {names : List String} (hnames : ∀ name ∈ names, part.names name = false)
    (ledger : Ledger) : ledger.SameOn part (ledger.retireAll names) := by
  induction names generalizing ledger with
  | nil => exact .refl part ledger
  | cons name rest ih =>
    exact (of_retire (hnames name List.mem_cons_self) ledger).trans
      (ih (fun other hmem => hnames other (List.mem_cons_of_mem _ hmem)) _)

end SameOn

end Ledger

/-! ### Listed jobs of a part -/

/-- The same jobs are found in both lists under the names of the part. This is as far as scaling
looks into the list of tracked jobs. -/
def Part.FindsSame (part : Part) (jobs others : List Job) : Prop :=
  ∃ tracked kept, Scale.byName jobs = .ok tracked ∧ Scale.byName others = .ok kept ∧
    ∀ name, part.names name = true → Scale.find? tracked name = Scale.find? kept name

namespace Ledger

variable {part : Part} {ledger twin : Ledger}

/-- **What is found under a name** among the listed jobs of an application is what the row of the
name reads back as. -/
theorem IsSound.find?_eq_some (h : ledger.IsSound) {app : String} {jobs : List Job}
    (hjobs : (ledger.rowsOf app).mapM JobRow.job? = .ok jobs) :
    ∃ tracked, Scale.byName jobs = .ok tracked ∧ ∀ name job,
      Scale.find? tracked name = some job ↔
        ∃ row ∈ ledger.rowsOf app, row.name = name ∧ row.job? = .ok job := by
  obtain ⟨tracked, htracked, hby⟩ := Scale.byName_of_namesOf (h.namesOf_listed hjobs)
  have hfound {name : String} {job : Job} (hfind : Scale.find? tracked name = some job) :
      ∃ row ∈ ledger.rowsOf app, row.name = name ∧ row.job? = .ok job := by
    obtain ⟨row, hrow, hread⟩ := (mem_listed hjobs).mp (Scale.listed_of_find? htracked hfind).1
    have hname := h.name_of_job? (List.mem_of_mem_filter hrow) hread
    rw [(hby.find?_some hfind).1] at hname
    exact ⟨row, hrow, (Except.ok.inj hname).symm, hread⟩
  refine ⟨tracked, htracked, fun name job => ⟨hfound, ?_⟩⟩
  rintro ⟨row, hrow, rfl, hread⟩
  cases hfind : Scale.find? tracked row.name with
  | none => exact absurd (List.mem_map_of_mem hrow) (hby.find?_none hfind)
  | some found =>
    -- names are distinct, so it is the same row that is found
    obtain ⟨row', hrow', hname, hread'⟩ := hfound hfind
    obtain rfl := List.inj_on_of_nodup_map h.distinct (List.mem_of_mem_filter hrow')
      (List.mem_of_mem_filter hrow) hname
    rw [hread] at hread'
    rw [Except.ok.inj hread']

/-- **The same is found** under the names of a part on which two ledgers are the same. What is
listed beside it may differ, and nothing is looked up under other names. -/
theorem SameOn.findsSame (h : ledger.SameOn part twin) (hsound : ledger.IsSound)
    (htwin : twin.IsSound) (app : String) :
    ∃ jobs others, ledger.listed? (.text app) = .ok jobs ∧
      twin.listed? (.text app) = .ok others ∧ part.FindsSame jobs others := by
  obtain ⟨jobs, hjobs, -⟩ := hsound.exists_listed app
  obtain ⟨others, hothers, -⟩ := htwin.exists_listed app
  obtain ⟨tracked, htracked, hfind⟩ := hsound.find?_eq_some hjobs
  obtain ⟨kept, hkept, hfind'⟩ := htwin.find?_eq_some hothers
  refine ⟨jobs, others, (listed?_text app ledger).trans hjobs,
    (listed?_text app twin).trans hothers, tracked, kept, htracked, hkept, fun name hname => ?_⟩
  refine Option.ext fun job => ?_
  -- both lookups are told by the rows of the name, and these are the same
  rw [hfind, hfind']
  refine exists_congr fun row => ?_
  rw [rowsOf, rowsOf, List.mem_filter, List.mem_filter]
  constructor
  · rintro ⟨⟨hrow, happ⟩, rfl, hread⟩
    exact ⟨⟨(h.mem_jobs hname).mp hrow, happ⟩, rfl, hread⟩
  · rintro ⟨⟨hrow, happ⟩, rfl, hread⟩
    exact ⟨⟨(h.mem_jobs hname).mpr hrow, happ⟩, rfl, hread⟩

end Ledger

/-! ### Calls within a part -/

namespace Call

/-- All that the call can change lies in the part. What is placed is textual, so that it can be read
back. -/
def IsWithin (part : Part) : Call → Prop
  | schedule definition => part.names definition.name = true
  | unschedule name => ∃ given, name = .text given ∧ part.names given = true
  | report => False
  | list app => ∃ given, app = .text given
  | add job => job.IsTextual ∧ ∃ given, job.name? = .ok given ∧ part.names given = true
  | remove job => ∃ given, job.name? = .ok given ∧ part.names given = true
  | update _ => part.wanted = true
  | log _ | wait _ | cancelled => True

/-- The two answers are equal, or they list jobs among which the same are found. -/
def Alike (part : Part) : (request : Call) → request.Answer → request.Answer → Prop
  | list _, answer, other =>
    ∃ jobs others, answer = .ok jobs ∧ other = .ok others ∧ part.FindsSame jobs others
  | schedule _, answer, other | unschedule _, answer, other | add _, answer, other
  | remove _, answer, other | log _, answer, other => answer = other
  | report, answer, other => answer = other
  | update _, answer, other => answer = other
  | wait _, answer, other => answer = other
  | cancelled, answer, other => answer = other

end Call

namespace Ledger

variable {part other : Part} {ledger twin : Ledger} {request : Call} {now : String}

/-- A job with a name of the part is admitted alike on both ledgers. -/
theorem SameOn.admit?_eq (h : ledger.SameOn part twin) {job : Job} {given : String}
    (hname : job.name? = .ok given) (hgiven : part.names given = true) :
    JobRow.admit? now ledger.jobs job = JobRow.admit? now twin.jobs job := by
  rw [JobRow.admit?, JobRow.admit?, hname]
  show (Document.write job.environment >>= _) = (Document.write job.environment >>= _)
  cases Document.write job.environment with
  | error failure => rfl
  | ok document =>
    show (JobRow.ofJob given document now job >>= _) = (JobRow.ofJob given document now job >>= _)
    cases hrow : JobRow.ofJob given document now job with
    | error failure => rfl
    | ok row =>
      -- only whether the name is tracked already depends on the ledger
      have hmem : row.name ∈ ledger.jobs.map (·.name) ↔ row.name ∈ twin.jobs.map (·.name) := by
        rw [(JobRow.fields_of_ofJob hrow).1]
        exact h.mem_tracked hgiven
      show JobRow.unique? ledger.jobs row = JobRow.unique? twin.jobs row
      rw [JobRow.unique?, JobRow.unique?]
      simp only [hmem]

/-- **A call within a part is answered alike** on two ledgers that are the same there, and they are
the same there afterwards. -/
theorem alike_answer (moment : Moment) (hwithin : request.IsWithin part)
    (h : ledger.SameOn part twin) (hsound : ledger.IsSound) (htwin : twin.IsSound) :
    request.Alike part (ledger.answer moment request).1 (twin.answer moment request).1 ∧
      (ledger.answer moment request).2.SameOn part (twin.answer moment request).2 := by
  cases request with
  | schedule definition =>
    rw [answer, answer]
    cases definition.image.reference? with
    | error failure => exact ⟨rfl, h⟩
    | ok reference => exact ⟨rfl, h.schedule hwithin⟩
  | unschedule name =>
    obtain ⟨given, rfl, hgiven⟩ := hwithin
    -- the name is scheduled on both ledgers or on none
    by_cases hscheduled : given ∈ ledger.scheduled
    · rw [answer_unschedule_of_mem hscheduled,
        answer_unschedule_of_mem ((h.mem_scheduled hgiven).mp hscheduled)]
      exact ⟨rfl, h.unschedule given⟩
    · rw [answer_unschedule_of_not_mem hscheduled,
        answer_unschedule_of_not_mem (mt (h.mem_scheduled hgiven).mpr hscheduled)]
      exact ⟨rfl, h⟩
  | report => exact hwithin.elim
  | list app =>
    obtain ⟨given, rfl⟩ := hwithin
    exact ⟨h.findsSame hsound htwin given, h⟩
  | add job =>
    obtain ⟨-, given, hname, hgiven⟩ := hwithin
    rw [answer, answer, h.admit?_eq hname hgiven]
    cases JobRow.admit? moment.now twin.jobs job with
    | error failure => exact ⟨rfl, h⟩
    | ok row => exact ⟨rfl, h.add row⟩
  | remove job =>
    obtain ⟨given, hname, hgiven⟩ := hwithin
    rw [answer, answer, hname]
    exact ⟨rfl, h.remove given⟩
  | update process =>
    rw [answer, answer]
    split
    · split
      · next row hrow => exact ⟨rfl, h.want row⟩
      · exact ⟨rfl, h⟩
    · exact ⟨rfl, h⟩
  | log event => exact ⟨rfl, h⟩
  | wait seconds => exact ⟨rfl, h⟩
  | cancelled => exact ⟨rfl, h⟩

/-- **A call within a part makes no difference to any other.** A case for each call; all of them act
on one name or on none. -/
theorem sameOn_answer_apart (moment : Moment) (hwithin : request.IsWithin part)
    (hapart : part.Apart other) (ledger : Ledger) :
    ledger.SameOn other (ledger.answer moment request).2 := by
  cases request with
  | schedule definition =>
    rw [answer]
    split
    · exact .of_schedule (hapart.names _ hwithin) ledger
    · exact .refl other ledger
  | unschedule name =>
    obtain ⟨given, rfl, hgiven⟩ := hwithin
    by_cases hscheduled : given ∈ ledger.scheduled
    · rw [answer_unschedule_of_mem hscheduled]
      exact .of_unschedule (hapart.names _ hgiven) ledger
    · rw [answer_unschedule_of_not_mem hscheduled]
      exact .refl other ledger
  | report => exact hwithin.elim
  | list app => exact .refl other ledger
  | add job =>
    obtain ⟨-, given, hname, hgiven⟩ := hwithin
    rw [answer]
    split
    · next row hrow =>
      -- the new row has a name of the part, so the other one does not see it
      have hrowName := (JobRow.name_of_admit? hrow).1
      rw [hname] at hrowName
      exact .of_add (Except.ok.inj hrowName ▸ hapart.names _ hgiven) ledger
    · exact .refl other ledger
  | remove job =>
    obtain ⟨given, hname, hgiven⟩ := hwithin
    rw [answer, hname]
    exact .of_remove (hapart.names _ hgiven) ledger
  | update process =>
    rw [answer]
    split
    · split
      · next row hrow => exact .of_want (hapart.wanted hwithin) row ledger
      · exact .refl other ledger
    · exact .refl other ledger
  | log | wait | cancelled => exact .refl other ledger

/-- **A call within a part keeps a ledger sound.** -/
theorem isSound_answer (moment : Moment) (hwithin : request.IsWithin part)
    (hsound : ledger.IsSound) : (ledger.answer moment request).2.IsSound := by
  cases request with
  | schedule definition =>
    rw [answer]
    split
    · exact ⟨hsound.readable, hsound.distinct⟩
    · exact hsound
  | unschedule name => exact ⟨hsound.readable, hsound.distinct⟩
  | report => exact hsound
  | list app => exact hsound
  | add job =>
    rw [answer]
    split
    · -- a new row is readable, as its job names itself, and its name is new to the store
      next row hrow =>
      obtain ⟨hname, hnew⟩ := JobRow.name_of_admit? hrow
      refine ⟨fun other hmem => ?_, ?_⟩
      · rcases List.mem_append.mp hmem with hold | hlast
        · exact hsound.readable other hold
        · rw [List.mem_singleton.mp hlast]
          exact isReadable_of_tracks (hwithin.1.tracks hrow) hname
      · rw [tracked_add, List.nodup_append]
        refine ⟨hsound.distinct, List.nodup_singleton _, ?_⟩
        rintro given hgiven last hlast rfl
        rw [List.mem_singleton.mp hlast] at hgiven
        exact hnew hgiven
    · exact hsound
  | remove job =>
    rw [answer]
    split
    · -- fewer rows are as readable and as distinct
      exact ⟨fun row hmem => hsound.readable row (List.mem_of_mem_filter hmem),
        hsound.distinct.sublist (List.filter_sublist.map _)⟩
    · exact hsound
  | update process =>
    rw [answer]
    split
    · split
      · exact ⟨hsound.readable, hsound.distinct⟩
      · exact hsound
    · exact hsound
  | log | wait | cancelled => exact hsound

end Ledger

end Rollout
