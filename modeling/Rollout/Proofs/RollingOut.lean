import Rollout.Proofs.Placing

/-!
# What a rollout does

Inputs are *typed* when they hold what the interface says they hold: texts where texts belong, whole
numbers where numbers belong, and numbers that fit the columns that keep them (`Blueprint.IsTyped`,
`Formation.IsTyped`). For typed inputs all jobs of a release can be stored, so that a rollout can
only end early because a name is tracked already, because a name cannot be made, or because of a
fault.

`World.rollOut_cases` says what a rollout does to a ledger: it makes moves, and if it comes to its
end, the ledger is the one before with all jobs of the release placed in it, and the cleanup has the
jobs that were tracked before.
-/

namespace Rollout

/-! ### Typed inputs -/

/-- A blueprint for a release of the application as its interface types it. Of the configuration
nothing is asked; whether it makes an environment is a matter of each result. -/
structure Blueprint.IsTyped (app : String) (blueprint : Blueprint) : Prop where
  app : blueprint.release.app = .text app
  version : ∃ n, blueprint.release.version = .int n ∧ CellNumber.fits n = true
  repo : ∃ s, blueprint.image.repo = .text s
  id : ∃ s, blueprint.image.id = .text s

/-- A formation as its interface types it: processes by process type, with whole quantities of 64
bits. -/
def Formation.IsTyped (formation : Formation) : Prop :=
  ∀ entry ∈ formation, (∃ type, entry.1 = .text type) ∧ entry.2.IsStorable

namespace CellNumber

theorem fits_iff {n : Int} : fits n = true ↔ -bound ≤ n ∧ n < bound := by
  rw [fits, Bool.and_eq_true, decide_eq_true_eq, decide_eq_true_eq]

theorem writable_of_fits {n : Int} (h : fits n = true) : Numeral.Writable n = true := by
  have hbound : Numeral.twoTo 63 < Numeral.writableBound := by decide +kernel
  rw [fits_iff, bound] at h
  rw [Numeral.Writable, decide_eq_true_eq]
  omega

theorem fits_of_le {m n : Nat} (hle : m ≤ n) (h : fits n = true) : fits m = true := by
  rw [fits_iff] at h ⊢
  omega

end CellNumber

/-! ### The jobs of a release -/

namespace Job

/-- **The jobs of the expanded entries**: one for each instance from one up to the quantity. -/
theorem Template.mem_expand {template : Template} {entries : Formation} {jobs : List Job}
    (h : template.expand entries = .ok jobs) (job : Job) :
    job ∈ jobs ↔ ∃ entry ∈ entries, ∃ count, entry.2.quantity.count? = .ok count ∧
      ∃ n, n < count ∧ job = template.job entry.1 entry.2.command (n + 1) := by
  induction entries generalizing jobs with
  | nil =>
    obtain rfl := Except.ok.inj h
    simp
  | cons entry rest ih =>
    obtain ⟨type, process⟩ := entry
    obtain ⟨count, hcount, h⟩ := bind_eq_ok.mp h
    obtain ⟨others, hothers, h⟩ := bind_eq_ok.mp h
    obtain rfl := Except.ok.inj h
    -- the jobs of the first entry are those of its instances
    have hhere : job ∈ template.jobs type process.command count ↔
        ∃ n, n < count ∧ job = template.job type process.command (n + 1) := by
      rw [Template.jobs, List.mem_map]
      simp only [List.mem_range, eq_comm]
    rw [List.mem_append, hhere, ih hothers]
    constructor
    · rintro (hfirst | ⟨entry, hmem, hentry⟩)
      · exact ⟨(type, process), List.mem_cons_self, count, hcount, hfirst⟩
      · exact ⟨entry, List.mem_cons_of_mem _ hmem, hentry⟩
    · rintro ⟨entry, hmem, count', hcount', hjob⟩
      rcases List.mem_cons.mp hmem with rfl | hrest
      · rw [hcount] at hcount'
        obtain rfl := Except.ok.inj hcount'
        exact .inl hjob
      · exact .inr ⟨entry, hrest, count', hcount', hjob⟩

/-- Whole quantities can be counted. -/
theorem Template.exists_expand (template : Template) {entries : Formation}
    (h : ∀ entry ∈ entries, ∃ count, entry.2.quantity = .whole count) :
    ∃ jobs, template.expand entries = .ok jobs := by
  induction entries with
  | nil => exact ⟨[], rfl⟩
  | cons entry rest ih =>
    obtain ⟨type, process⟩ := entry
    obtain ⟨⟨count, hcount⟩, hrest⟩ := List.forall_mem_cons.mp h
    obtain ⟨others, hothers⟩ := ih hrest
    rw [expand, hcount, hothers]
    exact ⟨_, rfl⟩

end Job

namespace Blueprint

variable {app : String} {blueprint : Blueprint}

/-- What the jobs of a release share, given their environment. -/
def template (blueprint : Blueprint) (environment : Environment) : Job.Template :=
  ⟨blueprint.release.app, blueprint.release.version, environment, blueprint.image⟩

/-- **The jobs of a release**: one for each entry of the formation and each instance of it. -/
theorem mem_jobs {formation : Formation} {jobs : List Job}
    (h : blueprint.jobs formation = .ok jobs) :
    ∃ environment, Environment.ofVars blueprint.vars = .ok environment ∧
      ∀ job, job ∈ jobs ↔ ∃ entry ∈ formation, ∃ count, entry.2.quantity.count? = .ok count ∧
        ∃ n, n < count ∧
          job = (blueprint.template environment).job entry.1 entry.2.command (n + 1) := by
  obtain ⟨environment, henvironment, h⟩ := bind_eq_ok.mp h
  obtain ⟨entries, hentries, h⟩ := bind_eq_ok.mp h
  refine ⟨environment, henvironment, fun job => ?_⟩
  -- sorting changes the order of the entries only
  have hsame : ∀ entry, entry ∈ entries ↔ entry ∈ formation := by
    rw [Job.sorted?] at hentries
    split at hentries
    · obtain rfl := Except.ok.inj hentries
      exact Value.mem_sortedEntries formation
    · cases hentries
  rw [Job.Template.mem_expand h]
  constructor
  · rintro ⟨entry, hmem, hentry⟩
    exact ⟨entry, (hsame entry).mp hmem, hentry⟩
  · rintro ⟨entry, hmem, hentry⟩
    exact ⟨entry, (hsame entry).mpr hmem, hentry⟩

/-- **The jobs of a release can be told** if its variables make an environment, and the process
types of the formation are texts with whole quantities. -/
theorem exists_jobs_of_texts {formation : Formation} {environment : Environment}
    (henvironment : Environment.ofVars blueprint.vars = .ok environment)
    (htypes : ∀ entry ∈ formation, ∃ type, entry.1 = .text type)
    (hquantities : ∀ entry ∈ formation, ∃ count, entry.2.quantity = .whole count) :
    ∃ jobs, blueprint.jobs formation = .ok jobs := by
  have hcounted : ∀ entry ∈ Value.sortedEntries formation,
      ∃ count, entry.2.quantity = .whole count := fun entry hmem =>
    hquantities entry ((Value.mem_sortedEntries formation entry).mp hmem)
  obtain ⟨jobs, hjobs⟩ := (blueprint.template environment).exists_expand hcounted
  rw [Blueprint.jobs, Job.expand, henvironment, Job.sorted?,
    if_pos (Value.allComparable_of_texts htypes)]
  exact ⟨jobs, hjobs⟩

theorem version_of_mem_jobs {formation : Formation} {jobs : List Job}
    (h : blueprint.jobs formation = .ok jobs) {job : Job} (hmem : job ∈ jobs) :
    job.version = blueprint.release.version := by
  obtain ⟨environment, -, hjobs⟩ := mem_jobs h
  obtain ⟨entry, -, count, -, n, -, rfl⟩ := (hjobs job).mp hmem
  rfl

/-- The job of an instance can be stored. -/
theorem isStorable_job (hblueprint : blueprint.IsTyped app) {environment : Environment}
    (henvironment : Environment.ofVars blueprint.vars = .ok environment) {type command : String}
    {ordinal : Nat} (hordinal : CellNumber.fits ordinal = true) :
    ((blueprint.template environment).job (.text type) (.text command) ordinal).IsStorable where
  app := ⟨app, hblueprint.app⟩
  version := hblueprint.version
  type := ⟨type, rfl⟩
  ordinal := ⟨ordinal, rfl, hordinal⟩
  environment := ⟨environment, rfl, Environment.nodup_of_ofVars henvironment⟩
  repo := hblueprint.repo
  id := hblueprint.id
  command := ⟨command, rfl⟩

/-- **The jobs of a typed release can be stored**, and they are jobs of its application. -/
theorem isStorable_of_mem_jobs (hblueprint : blueprint.IsTyped app) {formation : Formation}
    (hformation : formation.IsTyped) {jobs : List Job} (h : blueprint.jobs formation = .ok jobs)
    {job : Job} (hmem : job ∈ jobs) : job.IsStorable ∧ job.app = .text app := by
  obtain ⟨environment, henvironment, hjobs⟩ := mem_jobs h
  obtain ⟨⟨type, process⟩, hentry, count, hcount, n, hn, rfl⟩ := (hjobs job).mp hmem
  obtain ⟨⟨type, rfl⟩, hprocess⟩ := hformation _ hentry
  obtain ⟨command, hcommand⟩ := hprocess.command
  obtain ⟨quantity, hquantity, hfits⟩ := hprocess.quantity
  rw [hquantity] at hcount
  obtain rfl : quantity = count := Except.ok.inj hcount
  rw [hcommand]
  -- an instance counts up to the quantity at most, which fits
  exact ⟨isStorable_job hblueprint henvironment (CellNumber.fits_of_le (by omega) hfits),
    hblueprint.app⟩

theorem exists_shown_version (hblueprint : blueprint.IsTyped app) :
    ∃ shown, blueprint.release.version.shown? = .ok shown := by
  obtain ⟨n, hversion, hfits⟩ := hblueprint.version
  rw [hversion, Value.shown?, Value.writable, CellNumber.writable_of_fits hfits]
  exact ⟨_, rfl⟩

theorem isStorable_event (hblueprint : blueprint.IsTyped app) (level message : String) :
    Event.IsStorable ⟨.text level, .text message, blueprint.release.app,
      blueprint.release.version⟩ :=
  ⟨⟨level, rfl⟩, ⟨app, hblueprint.app⟩, hblueprint.version, ⟨message, rfl⟩⟩

end Blueprint

/-! ### A rollout -/

namespace World

variable {opened : Opened} {stores : Stores} {world after : World} {ledger : Ledger} {app : String}

/-- Logging goes well where no fault fails. -/
theorem run_log {event : Event} {result : Except Failure Unit} (hserve : stores.Serve opened)
    (hshows : world.Shows opened ledger) (hspares : world.Spares .log) (hevent : event.IsStorable)
    (h : World.run stores (Action.log event).attempt world = (result, after)) :
    world.Follows after ∧ result = .ok () ∧ after.Shows opened ledger := by
  cases hanswer : answer stores (.log event) world with
  | mk logged between =>
    obtain ⟨hfollows, hlogged, hshown⟩ := answer_log hserve hshows hspares hevent hanswer
    -- the answer to the one request is all that the work tells
    have hrun : World.run stores (Action.log event).attempt world = (.ok (), between) := by
      rw [World.run, Action.log, Work.attempt_ofPlan, Plan.run_bind, Call.ask, Plan.run_ask,
        hanswer, hlogged]
      rfl
    rw [h] at hrun
    obtain ⟨rfl, rfl⟩ := Prod.mk.inj hrun
    exact ⟨hfollows, rfl, hshown⟩

/-- Work that starts by listing jobs goes on with those that are tracked. -/
theorem run_list_bind {α : Type} {next : List Job → Action α} {result : Except Failure α}
    (hserve : stores.Serve opened) (hshows : world.Shows opened ledger) (hsound : ledger.IsSound)
    (hspares : world.Spares .list)
    (h : World.run stores (Action.list (.text app) >>= next).attempt world = (result, after)) :
    ∃ listed between, (ledger.rowsOf app).mapM JobRow.job? = .ok listed ∧ world.Follows between ∧
      between.Shows opened ledger ∧
      World.run stores (next listed).attempt between = (result, after) := by
  obtain ⟨listed, hlisted, -⟩ := hsound.exists_listed app
  rcases run_bind_cases h with ⟨known, between, hlist, hnext⟩ | ⟨failure, hlist, -⟩
  · obtain ⟨hfollows, hshown, hanswer⟩ := answer_list hserve hshows hspares hlist
    rw [hlisted] at hanswer
    obtain rfl := Except.ok.inj hanswer
    exact ⟨known, between, hlisted, hfollows, hshown, hnext⟩
  · -- the rows of a sound ledger can all be read
    obtain ⟨-, -, hanswer⟩ := answer_list hserve hshows hspares hlist
    rw [hlisted] at hanswer
    cases hanswer

/-- Work that starts by logging an event goes on. -/
theorem run_log_bind {α : Type} {event : Event} {next : Unit → Action α} {result : Except Failure α}
    (hserve : stores.Serve opened) (hshows : world.Shows opened ledger)
    (hspares : world.Spares .log) (hevent : event.IsStorable)
    (h : World.run stores (Action.log event >>= next).attempt world = (result, after)) :
    ∃ between, world.Follows between ∧ between.Shows opened ledger ∧
      World.run stores (next ()).attempt between = (result, after) := by
  rcases run_bind_cases h with ⟨_, between, hlog, hnext⟩ | ⟨failure, hlog, -⟩
  · obtain ⟨hfollows, -, hshown⟩ := run_log hserve hshows hspares hevent hlog
    exact ⟨between, hfollows, hshown, hnext⟩
  · obtain ⟨-, hok, -⟩ := run_log hserve hshows hspares hevent hlog
    cases hok

/-- Where placing jobs stopped, it had made moves. -/
theorem StopsAt.exists_moves {job : Job} (h : StopsAt opened after job ledger)
    (happ : job.app = .text app) :
    ∃ stopped, after.Shows opened stopped ∧ Ledger.Moves app ledger stopped := by
  cases h with
  | refused hshows => exact ⟨ledger, hshows, .refl⟩
  | redefined hdefinition hmem hshows =>
    have hname := Job.isNameOf_of_name? happ (Placement.name_of_definition? hdefinition)
    exact ⟨_, hshows, .single (.redefine hname hmem)⟩

/-- The world spares the points at which a rollout meets the job store and the event log. The
scheduler may still fail, which is how agreement is put to the test. -/
structure SparesStores (world : World) : Prop where
  list : world.Spares .list
  add : world.Spares .add
  remove : world.Spares .remove
  log : world.Spares .log

theorem Follows.sparesStores (h : world.Follows after) (hspares : world.SparesStores) :
    after.SparesStores :=
  ⟨h.spares hspares.list, h.spares hspares.add, h.spares hspares.remove, h.spares hspares.log⟩

theorem sparesStores_of_no_faults (h : world.faults = []) : world.SparesStores :=
  ⟨spares_of_no_faults h _, spares_of_no_faults h _, spares_of_no_faults h _,
    spares_of_no_faults h _⟩

/-- **What a rollout does**: it makes moves, and if it comes to its end, all jobs of the release are
placed and the cleanup has the jobs that were tracked before. -/
theorem rollOut_cases {policy : Policy} {blueprint : Blueprint} {formation : Formation}
    {result : Except Failure Cleanup}
    (hserve : stores.Serve opened) (hshows : world.Shows opened ledger) (hsound : ledger.IsSound)
    (hspares : world.SparesStores) (hblueprint : blueprint.IsTyped app)
    (hformation : formation.IsTyped)
    (h : World.run stores (rollOut policy blueprint formation).attempt world = (result, after)) :
    world.Follows after ∧ ∃ moved, after.Shows opened moved ∧ Ledger.Moves app ledger moved ∧
      ∀ cleanup, result = .ok cleanup → ∃ stale jobs,
        (ledger.rowsOf app).mapM JobRow.job? = .ok stale ∧
        blueprint.jobs formation = .ok jobs ∧ Ledger.Placed jobs ledger moved ∧
        Cleanup.make? stale policy.grace policy.retries policy.delay blueprint.release
          policy.events = .ok cleanup := by
  rw [rollOut, hblueprint.app] at h
  obtain ⟨stale, world₁, hstale, hfollows₁, hshows₁, h⟩ :=
    run_list_bind hserve hshows hsound hspares.list h
  rcases run_ofExcept_bind_cases h with ⟨jobs, hjobs, h⟩ | ⟨failure, -, rfl, rfl⟩
  -- the jobs cannot be made: nothing was done but listing
  case inr => exact ⟨hfollows₁, ledger, hshows₁, .refl, fun cleanup hcleanup => nomatch hcleanup⟩
  -- from here on the work is about storable jobs of the application
  have hstorable : ∀ job ∈ jobs, job.IsStorable ∧ job.app = .text app := fun job hmem =>
    Blueprint.isStorable_of_mem_jobs hblueprint hformation hjobs hmem
  have hspares₁ := hfollows₁.sparesStores hspares
  rcases run_bind_cases h with ⟨_, world₂, hplace, h⟩ | ⟨failure, hplace, rfl⟩
  · -- all jobs are placed, and what follows does not fail
    obtain ⟨hfollows₂, done, rest, moved, hsplit, hplaced, hend⟩ := placeAll_cases hserve hshows₁
      hspares₁.add (fun job hmem => (hstorable job hmem).1) hplace
    rcases hend with ⟨rfl, -, hshows₂⟩ | ⟨_, _, _, -, hfailure, -⟩
    · rw [List.append_nil] at hsplit
      rw [← hsplit] at hplaced
      have hfollows := hfollows₁.trans hfollows₂
      obtain ⟨shown, hshown⟩ := Blueprint.exists_shown_version hblueprint
      rw [hshown] at h
      rcases run_ofExcept_bind_cases h with ⟨_, -, h⟩ | ⟨_, hfailure, -⟩
      · obtain ⟨world₃, hfollows₃, hshows₃, h⟩ := run_log_bind hserve hshows₂
          (hfollows.spares hspares.log) (Blueprint.isStorable_event hblueprint _ _) h
        obtain ⟨rfl, rfl⟩ := Prod.mk.inj h
        exact ⟨hfollows.trans hfollows₃, moved, hshows₃,
          hplaced.moves fun job hmem => (hstorable job hmem).2,
          fun cleanup hcleanup => ⟨stale, jobs, hstale, hjobs, hplaced, hcleanup⟩⟩
      · cases hfailure
    · cases hfailure
  · -- placing stopped at a job, which is as well one of the application
    obtain ⟨hfollows₂, done, rest, moved, hsplit, hplaced, hend⟩ := placeAll_cases hserve hshows₁
      hspares₁.add (fun job hmem => (hstorable job hmem).1) hplace
    rcases hend with ⟨-, hok, -⟩ | ⟨job, tail, _, hrest, -, hstops, -⟩
    · cases hok
    · have hmem : job ∈ jobs := by
        rw [hsplit, hrest]
        exact List.mem_append_right _ List.mem_cons_self
      obtain ⟨stopped, hshows₂, hstopped⟩ := hstops.exists_moves (hstorable job hmem).2
      have hmoves : Ledger.Moves app ledger moved := hplaced.moves fun other hother =>
        (hstorable other (hsplit ▸ List.mem_append_left _ hother)).2
      exact ⟨hfollows₁.trans hfollows₂, stopped, hshows₂, hmoves.trans hstopped,
        fun cleanup hcleanup => nomatch hcleanup⟩

end World

end Rollout
