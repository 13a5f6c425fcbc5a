import Rollout.Operation.RollOut
import Rollout.Proofs.Moves

/-!
# What placing jobs does

A job that is placed is scheduled and then tracked. On a ledger this is all or almost nothing:
`World.place_cases` says that a job is placed, or that nothing is done, or, when its name is tracked
already, that it is only scheduled anew. For a list of jobs `Ledger.Placed` is the relation between
the ledger before and the ledger after, and `World.placeAll_cases` says that an initial part of the
list is placed and where the work stops.

What can be said of a ledger after jobs were placed:

* its names are the names before and then the names of the jobs (`Placed.exists_names`);
* no job had a name that was tracked before (`Placed.mem_tracked`): this is all that keeps a new
  generation apart from the one before;
* it was reached by moves of the application, so it is as sound as before (`Placed.moves`).
-/

namespace Rollout

/-! ### Running work in a world -/

namespace World

variable {α β : Type} {stores : Stores} {world after : World}

/-- **What becomes of work in two steps**: both are done, or the first one fails. It is how a run of
many calls is taken apart. -/
theorem run_bind_cases {work : Action α} {next : α → Action β} {result : Except Failure β}
    (h : World.run stores (work >>= next).attempt world = (result, after)) :
    (∃ value between, World.run stores work.attempt world = (.ok value, between) ∧
      World.run stores (next value).attempt between = (result, after)) ∨
    ∃ failure, World.run stores work.attempt world = (.error failure, after) ∧
      result = .error failure := by
  rw [World.run, Work.run_attempt_bind] at h
  cases hfirst : Plan.run (answer stores) work.attempt world with
  | mk first between =>
    rw [hfirst] at h
    cases first with
    | ok value => exact .inl ⟨value, between, hfirst, h⟩
    | error failure =>
      obtain ⟨rfl, rfl⟩ := Prod.mk.inj h
      exact .inr ⟨failure, hfirst, rfl⟩

/-- What is known beforehand needs no world. -/
theorem run_ofExcept_bind_cases {value : Except Failure α} {next : α → Action β}
    {result : Except Failure β}
    (h : World.run stores (Work.ofExcept value >>= next).attempt world = (result, after)) :
    (∃ known, value = .ok known ∧ World.run stores (next known).attempt world = (result, after)) ∨
    ∃ failure, value = .error failure ∧ result = .error failure ∧ after = world := by
  rcases run_bind_cases h with ⟨known, between, hvalue, hnext⟩ | ⟨failure, hvalue, hresult⟩
  · obtain ⟨rfl, rfl⟩ := Prod.mk.inj hvalue
    exact .inl ⟨known, rfl, hnext⟩
  · obtain ⟨rfl, rfl⟩ := Prod.mk.inj hvalue
    exact .inr ⟨failure, rfl, hresult, rfl⟩

end World

/-! ### Definitions -/

namespace Placement

theorem name_of_definition? {job : Job} {definition : Definition}
    (h : definition? job = .ok definition) : job.name? = .ok definition.name := by
  obtain ⟨name, hname, h⟩ := bind_eq_ok.mp h
  obtain ⟨environment, -, h⟩ := bind_eq_ok.mp h
  rw [hname, ← Except.ok.inj h]

/-- A job that can be stored is defined by its own fields as soon as it has a name. -/
theorem definition?_of_isStorable {job : Job} (hjob : job.IsStorable) {name : String}
    (hname : job.name? = .ok name) :
    definition? job = .ok ⟨name, job.command, job.image, job.environment⟩ := by
  obtain ⟨environment, henvironment, hnodup⟩ := hjob.environment
  rw [definition?, hname, henvironment]
  show ((Environment.ofValue? (.ofFields environment)) >>= _) = _
  rw [Environment.ofValue?_ofFields hnodup]
  rfl

theorem reference?_of_isStorable {job : Job} (hjob : job.IsStorable) :
    ∃ reference, job.image.reference? = .ok reference := by
  obtain ⟨repo, hrepo⟩ := hjob.repo
  obtain ⟨id, hid⟩ := hjob.id
  rw [Image.reference?, hid, hrepo, Value.shown?_text]
  exact ⟨_, rfl⟩

end Placement

/-! ### Names of jobs -/

namespace Job

/-- Jobs and their names. -/
abbrev NamesOf (jobs : List Job) (names : List String) : Prop :=
  List.Forall₂ (fun job name => job.name? = .ok name) jobs names

/-- Each of the jobs has one of the names. -/
theorem exists_name_of_mem {jobs : List Job} {names : List String} (h : NamesOf jobs names)
    {job : Job} (hmem : job ∈ jobs) : ∃ name ∈ names, job.name? = .ok name := by
  induction h with
  | nil => cases hmem
  | @cons first name rest names hname _ ih =>
    rcases List.mem_cons.mp hmem with rfl | hrest
    · exact ⟨name, List.mem_cons_self, hname⟩
    · obtain ⟨other, hother, hjob⟩ := ih hrest
      exact ⟨other, List.mem_cons_of_mem _ hother, hjob⟩

/-- Jobs have their names only. -/
theorem names_unique {jobs : List Job} {names names' : List String} (h : NamesOf jobs names)
    (h' : NamesOf jobs names') : names = names' := by
  induction h generalizing names' with
  | nil => exact (List.forall₂_nil_left_iff.mp h').symm
  | cons hname _ ih =>
    cases h' with
    | cons hname' hrest =>
      rw [hname] at hname'
      rw [Except.ok.inj hname', ih hrest]

/-- Of two parts of the jobs each has its own names. -/
theorem namesOf_of_append {jobs rest : List Job} {names : List String}
    (h : NamesOf (jobs ++ rest) names) :
    NamesOf jobs (names.take jobs.length) ∧ NamesOf rest (names.drop jobs.length) := by
  have htake := List.forall₂_take jobs.length h
  have hdrop := List.forall₂_drop jobs.length h
  rw [List.take_left] at htake
  rw [List.drop_left] at hdrop
  exact ⟨htake, hdrop⟩

theorem map_label_eq {jobs : List Job} {names : List String} (h : NamesOf jobs names) :
    jobs.map label = names := by
  induction h with
  | nil => rfl
  | cons hname _ ih => rw [List.map_cons, label_of_name? hname, ih]

theorem mem_names_iff {jobs : List Job} {names : List String} (h : NamesOf jobs names)
    {name : String} : name ∈ names ↔ ∃ job ∈ jobs, job.name? = .ok name := by
  induction h with
  | nil => simp
  | @cons first given rest names hname _ ih =>
    rw [List.mem_cons, List.exists_mem_cons_iff, ih, hname, Except.ok.injEq, eq_comm]

end Job

/-! ### Ledgers after placing -/

namespace Ledger

/-- The listed jobs of an application have its tracked names. -/
theorem IsSound.namesOf_listed {ledger : Ledger} (hsound : ledger.IsSound) {app : String}
    {jobs : List Job} (h : (ledger.rowsOf app).mapM JobRow.job? = .ok jobs) :
    Job.NamesOf jobs (ledger.trackedOf app) := by
  obtain ⟨listed, hlisted, hrows⟩ := hsound.exists_listed app
  rw [h] at hlisted
  obtain rfl := Except.ok.inj hlisted
  rw [Job.NamesOf, trackedOf, List.forall₂_map_right_iff]
  exact List.Forall₂.flip (hrows.imp fun _ _ hrow => hrow.2)

/-- The jobs were placed, one after the other, each under a name that was new. The store would not
have admitted a name that is tracked. -/
inductive Placed : List Job → Ledger → Ledger → Prop where
  /-- Nothing was to be placed. -/
  | nil {ledger : Ledger} : Placed [] ledger ledger
  /-- The first job was placed, and then the others. -/
  | cons {job : Job} {rest : List Job} {ledger after : Ledger} {definition : Definition}
      {row : JobRow} (hdefinition : Placement.definition? job = .ok definition)
      (hnew : definition.name ∉ ledger.tracked) (hrow : row.name = definition.name)
      (happ : job.app = .text row.app) (htracks : row.Tracks job)
      (hrest : Placed rest ((ledger.schedule definition).add row) after) :
      Placed (job :: rest) ledger after

namespace Placed

variable {jobs : List Job} {ledger after : Ledger} {app : String}

/-- Jobs that were placed have names. -/
theorem exists_names (h : Placed jobs ledger after) :
    ∃ names, Job.NamesOf jobs names ∧
      after.tracked = ledger.tracked ++ names ∧
      ∀ name, name ∈ after.scheduled ↔ name ∈ names ∨ name ∈ ledger.scheduled := by
  induction h with
  | nil => exact ⟨[], .nil, (List.append_nil _).symm, by simp⟩
  | @cons job rest ledger after definition row hdefinition hnew hrow happ htracks hrest ih =>
    obtain ⟨names, hnames, htracked, hscheduled⟩ := ih
    -- the first job adds its name at the end of the names before, and the others follow it
    refine ⟨definition.name :: names, .cons (Placement.name_of_definition? hdefinition) hnames, ?_,
      ?_⟩
    · rw [htracked, tracked_add, tracked_schedule, hrow, List.append_assoc]
      rfl
    · intro name
      rw [hscheduled, scheduled_add, mem_scheduled_schedule, List.mem_cons, or_left_comm, or_assoc]

/-- What is tracked after jobs were placed: the names from before, and those of the jobs, which were
not tracked before. -/
theorem mem_tracked (h : Placed jobs ledger after) (hsound : after.IsSound) {name : String} :
    (name ∈ after.tracked ↔ name ∈ ledger.tracked ∨ ∃ job ∈ jobs, job.name? = .ok name) ∧
      ((∃ job ∈ jobs, job.name? = .ok name) → name ∉ ledger.tracked) := by
  obtain ⟨names, hnames, htracked, -⟩ := h.exists_names
  rw [htracked, List.mem_append, ← Job.mem_names_iff hnames]
  refine ⟨Iff.rfl, fun hnew hold => ?_⟩
  -- the names after the jobs were placed are distinct, the old ones and the new ones together
  have hdistinct := hsound.distinct
  rw [htracked, List.nodup_append] at hdistinct
  exact hdistinct.2.2 name hold name hnew rfl

/-- **Placing jobs is a number of moves.** Whatever moves keep is therefore kept by a rollout up to
its cleanup. -/
theorem moves (h : Placed jobs ledger after) (hjobs : ∀ job ∈ jobs, job.app = .text app) :
    Moves app ledger after := by
  induction h with
  | nil => exact .refl
  | cons hdefinition hnew hrow happ htracks hrest ih =>
    -- a job is placed by one move, which needs a row that reads back under its name
    have hname := Placement.name_of_definition? hdefinition
    have hof := Job.isNameOf_of_name? (hjobs _ List.mem_cons_self) hname
    have hreadable := isReadable_of_tracks htracks (hname.trans (congrArg _ hrow.symm))
    exact .head (.place hof hnew hrow hreadable)
      (ih fun job hmem => hjobs job (List.mem_cons_of_mem _ hmem))

theorem append {others : List Job} {last : Ledger} (h : Placed jobs ledger after)
    (h' : Placed others after last) : Placed (jobs ++ others) ledger last := by
  induction h with
  | nil => exact h'
  | cons hdefinition hnew hrow happ htracks _ ih =>
    exact .cons hdefinition hnew hrow happ htracks (ih h')

end Placed

end Ledger

/-! ### Runs -/

namespace World

variable {opened : Opened} {stores : Stores} {world after : World} {ledger : Ledger}

/-- **What becomes of placing a job**: it is placed; or nothing is done, because the job has no name
or because of a fault; or its name is tracked already and it is only scheduled anew. -/
theorem place_cases {job : Job} {result : Except Failure Unit}
    (hserve : stores.Serve opened) (hshows : world.Shows opened ledger)
    (hspares : world.Spares .add) (hjob : job.IsStorable)
    (h : World.run stores (Placement.place job).attempt world = (result, after)) :
    world.Follows after ∧
      ((∃ placed, result = .ok () ∧ Ledger.Placed [job] ledger placed ∧ after.Shows opened placed) ∨
      (∃ failure, result = .error failure ∧ after.Shows opened ledger ∧
        (world.Spares .schedule → ∃ failure, job.name? = .error failure)) ∨
      ∃ failure definition, result = .error failure ∧
        Placement.definition? job = .ok definition ∧ definition.name ∈ ledger.tracked ∧
        after.Shows opened (ledger.schedule definition)) := by
  rcases run_ofExcept_bind_cases h with ⟨definition, hdefinition, h⟩ | ⟨failure, hfailure, rfl, rfl⟩
  · have hname := Placement.name_of_definition? hdefinition
    rcases run_bind_cases h with ⟨_, between, hschedule, hadd⟩ | ⟨failure, hschedule, rfl⟩
    -- the job is scheduled, and whether it is tracked is up to the job store
    · obtain ⟨hfollows, hcase⟩ := answer_schedule stores hshows hschedule
      rcases hcase with ⟨-, hscheduled⟩ | ⟨_, hfailure, -⟩
      · obtain ⟨hfollows', hcase⟩ := answer_add hserve hscheduled (hfollows.spares hspares) hjob
          hname hadd
        refine ⟨hfollows.trans hfollows', ?_⟩
        rcases hcase with ⟨row, rfl, hnew, hadded, hrow, happ, htracks⟩ | ⟨failure, rfl, hmem,
            hrefused⟩
        · exact .inl ⟨_, rfl, .cons hdefinition hnew hrow happ htracks .nil, hadded⟩
        · exact .inr (.inr ⟨failure, definition, rfl, hdefinition, hmem, hrefused⟩)
      · cases hfailure
    · obtain ⟨hfollows, hcase⟩ := answer_schedule stores hshows hschedule
      refine ⟨hfollows, ?_⟩
      rcases hcase with ⟨hok, -⟩ | ⟨cause, -, hrefused, hreason⟩
      · cases hok
      · refine .inr (.inl ⟨failure, rfl, hrefused, fun hspared => ?_⟩)
        -- the image of a storable job has a reference, so only a fault can be the reason
        obtain ⟨reference, href⟩ := Placement.reference?_of_isStorable hjob
        have himage : definition.image = job.image := by
          rw [Placement.definition?_of_isStorable hjob hname] at hdefinition
          rw [← Except.ok.inj hdefinition]
        have hcause := hreason hspared
        rw [himage, href] at hcause
        cases hcause
  · refine ⟨.refl _, .inr (.inl ⟨failure, rfl, hshows, fun _ => ?_⟩)⟩
    -- a storable job has a definition as soon as it has a name
    cases hname : job.name? with
    | ok name =>
      rw [Placement.definition?_of_isStorable hjob hname] at hfailure
      cases hfailure
    | error cause => exact ⟨cause, rfl⟩

/-- How placing jobs stops at one of them: nothing was done about it, or its name was tracked
already and it was only scheduled anew. -/
inductive StopsAt (opened : Opened) (after : World) (job : Job) (ledger : Ledger) : Prop where
  /-- Nothing was done. -/
  | refused (hshows : after.Shows opened ledger)
  /-- The job was scheduled anew. -/
  | redefined {definition : Definition} (hdefinition : Placement.definition? job = .ok definition)
      (hmem : definition.name ∈ ledger.tracked)
      (hshows : after.Shows opened (ledger.schedule definition))

/-- **What becomes of placing jobs**: the first ones are placed, and if the work stops at one of
them, then for a reason. -/
theorem placeAll_cases {jobs : List Job} {result : Except Failure Unit}
    (hserve : stores.Serve opened) (hshows : world.Shows opened ledger)
    (hspares : world.Spares .add) (hjobs : ∀ job ∈ jobs, job.IsStorable)
    (h : World.run stores (Placement.placeAll jobs).attempt world = (result, after)) :
    world.Follows after ∧ ∃ done rest middle, jobs = done ++ rest ∧
      Ledger.Placed done ledger middle ∧
      (rest = [] ∧ result = .ok () ∧ after.Shows opened middle ∨
        ∃ job tail failure, rest = job :: tail ∧ result = .error failure ∧
          StopsAt opened after job middle ∧
          (world.Spares .schedule → ∀ name, job.name? = .ok name → name ∈ middle.tracked)) := by
  induction jobs generalizing world ledger with
  | nil =>
    obtain ⟨rfl, rfl⟩ := Prod.mk.inj h
    exact ⟨.refl _, [], [], ledger, rfl, .nil, .inl ⟨rfl, rfl, hshows⟩⟩
  | cons job rest ih =>
    have hjob := hjobs job List.mem_cons_self
    rcases run_bind_cases h with ⟨_, between, hfirst, hrest⟩ | ⟨failure, hfirst, rfl⟩
    -- the first job is placed, and the others are placed on what it left
    · obtain ⟨hfollows, hcase⟩ := place_cases hserve hshows hspares hjob hfirst
      rcases hcase with ⟨placed, -, hplaced, hshown⟩ | ⟨_, hfailure, -⟩ | ⟨_, _, hfailure, -⟩
      · obtain ⟨hfollows', done, others, middle, rfl, hdone, hend⟩ :=
          ih hshown (hfollows.spares hspares)
            (fun other hmem => hjobs other (List.mem_cons_of_mem _ hmem)) hrest
        refine ⟨hfollows.trans hfollows', job :: done, others, middle, rfl, hplaced.append hdone,
          ?_⟩
        rcases hend with hend | ⟨last, tail, failure, hothers, hresult, hstops, hreason⟩
        · exact .inl hend
        · exact .inr ⟨last, tail, failure, hothers, hresult, hstops,
            fun hspared => hreason (hfollows.spares hspared)⟩
      · cases hfailure
      · cases hfailure
    -- the work stops at the first job, for one of two reasons
    · obtain ⟨hfollows, hcase⟩ := place_cases hserve hshows hspares hjob hfirst
      refine ⟨hfollows, [], job :: rest, ledger, rfl, .nil, .inr ⟨job, rest, failure, rfl, rfl, ?_⟩⟩
      rcases hcase with ⟨_, hok, -⟩ | ⟨_, -, hshown, hreason⟩ | ⟨_, definition, -, hdefinition,
          hmem, hshown⟩
      · cases hok
      · refine ⟨.refused hshown, fun hspared name hname => ?_⟩
        obtain ⟨cause, hcause⟩ := hreason hspared
        rw [hname] at hcause
        cases hcause
      · refine ⟨.redefined hdefinition hmem hshown, fun _ name hname => ?_⟩
        rw [Placement.name_of_definition? hdefinition] at hname
        rw [← Except.ok.inj hname]
        exact hmem

end World

end Rollout
