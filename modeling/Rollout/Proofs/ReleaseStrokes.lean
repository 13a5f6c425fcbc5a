import Rollout.Proofs.Strokes

/-!
# Releases in strokes

A rollout places the jobs of a release, and a scaling places or withdraws instances and writes down
what is wanted of process types. Both do nothing else, whatever is asked and whatever fails
(`Ledger.Worked.of_rollOut`, `Ledger.Worked.of_scale`). The jobs that they place are those that are
handed in for the release (`Blueprint.Submits`), and those that they withdraw were listed for its
application.

A scaling goes through the formation as it finds it, so it has to be known as well what it makes of
the formation: every process that it leaves stems from one that was there
(`ProcessType.StemsFrom`).
-/

namespace Rollout

/-! ### What a release may do -/

/-- The job is one that is handed in for a release: for a process of the formation, as an instance
up to a limit. -/
structure Blueprint.Submits (blueprint : Blueprint) (formation : Formation) (limits : Nat → Prop)
    (job : Job) : Prop where
  app : job.app = blueprint.release.app
  version : job.version = blueprint.release.version
  image : job.image = blueprint.image
  environment : ∃ environment, Environment.ofVars blueprint.vars = .ok environment ∧
    job.environment = .ofFields environment
  type : (∃ entry ∈ formation, job.type = entry.1) ∨ ∃ type, job.type = .text type
  command : ∃ entry ∈ formation, job.command = entry.2.command
  ordinal : ∃ ordinal limit : Nat, job.ordinal = .int ordinal ∧ ordinal ≤ limit ∧ limits limit

/-- What a release may do. -/
def Scope.ofRelease (blueprint : Blueprint) (formation : Formation) (limits : Nat → Prop) :
    Scope where
  places := blueprint.Submits formation limits
  -- only what was listed for the application is withdrawn
  withdraws := fun job =>
    ∀ app, blueprint.release.app = .text app → job.app = .text app
  writes := fun process => process.app = blueprint.release.app ∨
    ∃ entry ∈ formation, process.app = entry.2.app ∧ entry.2.app.isTrue = true
  tries := False

namespace Ledger

variable {stores : Stores} {scope : Scope} {moment : Moment} {ledger middle after : Ledger}
  {record : List Attempt} {blueprint : Blueprint} {formation : Formation} {limits : Nat → Prop}

/-- The jobs that are listed for an application are jobs of it. -/
theorem app_of_mem_listed {app : String} {jobs : List Job}
    (h : ledger.listed? (.text app) = .ok jobs) : ∀ job ∈ jobs, job.app = .text app := by
  obtain ⟨rows, hrows, hlisted⟩ := bind_eq_ok.mp h
  -- each listed job is read from a row of the application
  have hof : ∀ row ∈ rows, row.app = app := by
    obtain rfl := Except.ok.inj hrows
    intro row hmem
    have happ := (List.mem_filter.mp hmem).2
    rw [decide_eq_true_eq] at happ
    exact (Option.some.inj happ).symm
  intro job hmem
  obtain ⟨row, hrow, hjob⟩ := (mem_listed hlisted).mp hmem
  rw [app_of_job? hjob, hof row hrow]

/-! ### Rolling out -/

/-- The jobs of a release are handed in for it. -/
theorem submits_of_mem_jobs {jobs : List Job} (h : blueprint.jobs formation = .ok jobs)
    (hlimits : ∀ entry ∈ formation, ∀ count, entry.2.quantity.count? = .ok count → limits count) :
    ∀ job ∈ jobs, blueprint.Submits formation limits job := by
  obtain ⟨environment, henvironment, hmem⟩ := Blueprint.mem_jobs h
  intro job hjob
  obtain ⟨entry, hentry, count, hcount, n, hn, rfl⟩ := (hmem job).mp hjob
  exact ⟨rfl, rfl, rfl, ⟨environment, henvironment, rfl⟩, .inl ⟨entry, hentry, rfl⟩,
    ⟨entry, hentry, rfl⟩, ⟨n + 1, count, rfl, hn, hlimits entry hentry count hcount⟩⟩

/-- **All that a rollout does** are strokes, and perhaps half of one more. Its cleanup is not part
of it, which works in strokes of its own. -/
theorem Worked.of_rollOut {policy : Policy} {result : Except Failure Cleanup}
    (limits : Nat → Prop) (hstore : stores.jobs.isSome = true)
    (hlimits : ∀ entry ∈ formation, ∀ count, entry.2.quantity.count? = .ok count → limits count)
    (h : Ran stores moment (rollOut policy blueprint formation).attempt ledger record result
      after) :
    Worked (.ofRelease blueprint formation limits) moment.now record (failureOf? result) ledger
      after := by
  -- listing and logging do nothing, and placing jobs does what it does
  refine bind h (fun hlist => of_eq hlist.list_cases.1) fun _ h => ?_
  refine bind_ofExcept h fun jobs hjobs h => ?_
  refine bind h (of_placeAll hstore (submits_of_mem_jobs hjobs hlimits)) fun _ h => ?_
  refine bind_ofExcept h fun version _ h => ?_
  exact bind h (fun hlog => of_eq hlog.log_cases) fun _ hmake => of_eq hmake.done_cases.2.2

/-- A rollout that came to its end: all jobs of the release were placed, and the cleanup has the
jobs that were tracked before. -/
theorem Ran.rollOut_ok {policy : Policy} {cleanup : Cleanup}
    (h : Ran stores moment (rollOut policy blueprint formation).attempt ledger record (.ok cleanup)
      after) :
    ledger.listed? blueprint.release.app = .ok cleanup.stale ∧
      cleanup.release = blueprint.release ∧ cleanup.events = policy.events ∧
      ∃ jobs placing, blueprint.jobs formation = .ok jobs ∧
        Ran stores moment (Placement.placeAll jobs).attempt ledger placing (.ok ()) after := by
  -- the steps that were done, one after the other
  obtain ⟨stale, _, _, _, hlist, h, -⟩ := h.work_bind_ok
  obtain ⟨jobs, hjobs, h⟩ := h.ofExcept_bind_ok
  obtain ⟨_, placed, placing, _, hplaced, h, -⟩ := h.work_bind_ok
  obtain ⟨version, -, h⟩ := h.ofExcept_bind_ok
  obtain ⟨_, _, _, _, hlog, hmake, -⟩ := h.work_bind_ok
  obtain ⟨hcleanup, -, rfl⟩ := hmake.done_cases
  obtain ⟨rfl, hrelease, hevents⟩ := Session.cleanup_of_make? hcleanup.symm
  -- listing and logging did nothing
  obtain ⟨rfl, hlisted⟩ := hlist.list_cases
  obtain rfl := hlog.log_cases
  exact ⟨hlisted _ rfl, hrelease, hevents, jobs, placing, hjobs, hplaced⟩

/-! ### Scaling -/

namespace Worked

variable {type : String} {process : ProcessType} {target : Nat}

/-- **Growing** places instances up to the target. Their command is that of the process, wherever
the process stands now. -/
theorem of_growTo {result : Except Failure Unit} (hstore : stores.jobs.isSome = true)
    (hprocess : ∃ entry ∈ formation, process.command = entry.2.command) (htarget : limits target)
    (h : Ran stores moment (Scale.growTo blueprint type process target).attempt ledger record result
      after) :
    Worked (.ofRelease blueprint formation limits) moment.now record (failureOf? result) ledger
      after := by
  refine bind_ofExcept h fun environment henvironment h => ?_
  refine bind_ofExcept h fun current hcurrent h => ?_
  rw [Scale.placeFrom_eq_placeAll] at h
  refine of_placeAll hstore (fun job hmem => ?_) h
  obtain ⟨n, hn, rfl⟩ := List.mem_map.mp hmem
  rw [List.mem_range'_1] at hn
  exact ⟨rfl, rfl, rfl, ⟨environment, henvironment, rfl⟩, .inr ⟨type, rfl⟩, hprocess,
    ⟨n, target, rfl, by omega, htarget⟩⟩

/-- **Shrinking** withdraws instances that were listed. -/
theorem of_withdrawAbove {tracked : List (String × Job)} {jobs : List Job} {count : Nat}
    {result : Except Failure Unit} (htracked : Scale.byName jobs = .ok tracked)
    (hjobs : ∀ job ∈ jobs, scope.withdraws job)
    (h : Ran stores moment
      (Scale.withdrawAbove blueprint.release tracked type target count).attempt ledger record result
      after) :
    Worked scope moment.now record (failureOf? result) ledger after := by
  induction count generalizing ledger record with
  | zero =>
    obtain ⟨rfl, rfl, rfl⟩ := h.done_cases
    exact refl _
  | succ count ih =>
    refine bind h (fun h => ?_) fun _ hrest => ih hrest
    refine bind_ofExcept h fun name hname h => ?_
    cases hfind : Scale.find? tracked name with
    | none =>
      rw [hfind] at h
      exact of_eq h.done_cases.2.2
    | some job =>
      rw [hfind] at h
      exact of_withdraw (hjobs job (Scale.listed_of_find? htracked hfind).1) h

theorem of_shrinkTo {result : Except Failure Unit}
    (h : Ran stores moment (Scale.shrinkTo blueprint.release type process target).attempt ledger
      record result after) :
    Worked (.ofRelease blueprint formation limits) moment.now record (failureOf? result) ledger
      after := by
  refine bind h (fun hlist => of_eq hlist.list_cases.1) fun hlist h => ?_
  refine bind_ofExcept h fun tracked htracked h => ?_
  refine bind_ofExcept h fun current hcurrent h => ?_
  refine of_withdrawAbove htracked (fun job hmem app happ => ?_) h
  have hlisted := hlist.list_cases.2 _ rfl
  rw [happ] at hlisted
  exact app_of_mem_listed hlisted job hmem

/-- **Adjusting a process type** places or withdraws instances. -/
theorem of_adjust {result : Except Failure Unit} (hstore : stores.jobs.isSome = true)
    (hprocess : ∃ entry ∈ formation, process.command = entry.2.command) (htarget : limits target)
    (h : Ran stores moment (Scale.adjust blueprint type process target).attempt ledger record result
      after) :
    Worked (.ofRelease blueprint formation limits) moment.now record (failureOf? result) ledger
      after := by
  rw [Scale.adjust] at h
  split at h
  · exact of_growTo hstore hprocess htarget h
  · exact of_shrinkTo h
  · exact of_eq h.done_cases.2.2

end Worked

/-- Logging a change of quantity does nothing that shows. -/
theorem Ran.logChange_cases {release : Release} {type : String} {process : ProcessType}
    {target : Nat} {result : Except Failure Unit}
    (h : Ran stores moment (Scale.logChange release type process target).attempt ledger record
      result after) : after = ledger := by
  rw [Scale.logChange] at h
  split at h
  · rcases h.ofExcept_bind_cases with ⟨current, -, h⟩ | ⟨_, -, -, -, hafter⟩
    · rcases h.ofExcept_bind_cases with ⟨target, -, h⟩ | ⟨_, -, -, -, hafter⟩
      · exact h.log_cases
      · exact hafter
    · exact hafter
  · exact h.done_cases.2.2

end Ledger

/-- The process is one of the formation, as a scaling may have left it. Its quantity may have
changed, and an application may have been filled in. -/
structure ProcessType.StemsFrom (process : ProcessType) (blueprint : Blueprint)
    (formation : Formation) : Prop where
  command : ∃ entry ∈ formation, process.command = entry.2.command
  app : process.app.isTrue = true → process.app = blueprint.release.app ∨
    ∃ entry ∈ formation, process.app = entry.2.app ∧ entry.2.app.isTrue = true

namespace Formation

/-- A process that is replaced is the new one, and the others stay. -/
theorem mem_or_of_mem_replace {type : String} {process : ProcessType} {formation : Formation} :
    ∀ entry ∈ formation.replace type process, entry ∈ formation ∨ entry.2 = process := by
  induction formation with
  | nil => exact fun entry hmem => nomatch hmem
  | cons first rest ih =>
    intro entry hmem
    rw [replace] at hmem
    split at hmem
    · rcases List.mem_cons.mp hmem with rfl | hrest
      · exact .inr rfl
      · exact .inl (List.mem_cons_of_mem _ hrest)
    · rcases List.mem_cons.mp hmem with rfl | hrest
      · exact .inl List.mem_cons_self
      · exact (ih entry hrest).imp_left (List.mem_cons_of_mem _)

end Formation

namespace Ledger.Worked

variable {stores : Stores} {moment : Moment} {ledger after : Ledger} {record : List Attempt}
  {blueprint : Blueprint} {formation current : Formation} {limits : Nat → Prop} {type : String}
  {process : ProcessType} {target : Nat}

/-- **Scaling a process type** adjusts it and writes down what is wanted of it. The process that
comes out stems from the same formation, so the next request can be treated alike. -/
theorem of_scaleType {result : ProcessType × Except Failure Unit}
    (hstore : stores.jobs.isSome = true) (hprocess : process.StemsFrom blueprint formation)
    (htarget : limits target)
    (h : Ran stores moment (Scale.scaleType blueprint type process target) ledger record result
      after) :
    Worked (.ofRelease blueprint formation limits) moment.now record (failureOf? result.2) ledger
        after ∧ result.1.StemsFrom blueprint formation := by
  obtain ⟨changed, middle, first, second, hchanged, h, rfl⟩ := h.bind_cases (Work.attempt _)
  have hadjusted : Worked (.ofRelease blueprint formation limits) moment.now first
      (failureOf? changed) ledger middle :=
    bind hchanged (of_adjust hstore hprocess.command htarget) fun _ hlog =>
      of_eq hlog.logChange_cases
  cases changed with
  | error failure =>
    obtain ⟨rfl, rfl, rfl⟩ := h.done_cases
    rw [List.append_nil]
    exact ⟨hadjusted, hprocess⟩
  | ok _ =>
    -- the process takes its quantity before the process store does
    obtain ⟨kept, last, third, fourth, hupdate, hkept, rfl⟩ :=
      Ran.bind_cases (Action.update (process.scaled target blueprint.release.app)).attempt h
    obtain ⟨rfl, rfl, rfl⟩ := hkept.done_cases
    have happ : (process.scaled target blueprint.release.app).app = blueprint.release.app ∨
        ∃ entry ∈ formation, (process.scaled target blueprint.release.app).app = entry.2.app ∧
          entry.2.app.isTrue = true := by
      rw [ProcessType.scaled]
      dsimp only
      split
      · next htrue => exact hprocess.app htrue
      · exact .inl rfl
    refine ⟨trans hadjusted.strokes ?_ first, hprocess.command, fun _ => happ⟩
    rw [List.append_nil]
    rcases hupdate.update_cases with rfl | ⟨row, hrow, rfl⟩
    · exact refl _
    · exact of_stroke (.wanted happ hrow)

/-- **Scaling process types** goes from one to the next, whatever the formation has become. By
induction on the request, which stops at an entry that fails. -/
theorem of_scaleTypes {request : ScaleRequest} {result : Scale.Result}
    (hstore : stores.jobs.isSome = true)
    (hcurrent : ∀ entry ∈ current, entry.2.StemsFrom blueprint formation)
    (htargets : ∀ entry ∈ request, limits entry.2)
    (h : Ran stores moment (Scale.scaleTypes blueprint request current) ledger record result
      after) :
    Worked (.ofRelease blueprint formation limits) moment.now record (failureOf? result.ending)
        ledger after ∧
      ∀ entry ∈ result.formation, entry.2.StemsFrom blueprint formation := by
  induction request generalizing ledger record current with
  | nil =>
    obtain ⟨rfl, rfl, rfl⟩ := h.done_cases
    exact ⟨refl _, hcurrent⟩
  | cons first rest ih =>
    obtain ⟨type, target⟩ := first
    have hrest := fun entry hmem => htargets entry (List.mem_cons_of_mem _ hmem)
    rw [Scale.scaleTypes] at h
    split at h
    · exact ih hcurrent hrest h
    · next process hfind =>
      obtain ⟨entry, hmem, -, rfl⟩ := Value.exists_mem_of_find? hfind
      obtain ⟨scaled, middle, first, second, hscaled, h, rfl⟩ :=
        h.bind_cases (Scale.scaleType blueprint type _ target)
      obtain ⟨hworked, hstems⟩ := of_scaleType hstore (hcurrent _ hmem)
        (htargets _ List.mem_cons_self) hscaled
      -- the process that was scaled still stems from the formation, and so do the others
      have hreplaced (process : ProcessType) (hprocess : process.StemsFrom blueprint formation) :
          ∀ entry ∈ current.replace type process, entry.2.StemsFrom blueprint formation := by
        intro entry hmem
        rcases Formation.mem_or_of_mem_replace entry hmem with hold | rfl
        · exact hcurrent entry hold
        · exact hprocess
      obtain ⟨process, _ | _⟩ := scaled
      · obtain ⟨rfl, rfl, rfl⟩ := h.done_cases
        rw [List.append_nil]
        exact ⟨hworked, hreplaced process hstems⟩
      · obtain ⟨hlater, hlast⟩ := ih (hreplaced process hstems) hrest h
        exact ⟨trans hworked.strokes hlater first, hlast⟩

/-- **All that a scaling does** are strokes, and perhaps half of one more. The formation that it
leaves stems from the one before. -/
theorem of_scale {quantities : List (Value × Value)} {result : Scale.Result}
    (limits : Nat → Prop) (hstore : stores.jobs.isSome = true)
    (hlimits : ∀ request, ScaleRequest.ofEntries quantities = .ok request →
      ∀ entry ∈ request, limits entry.2)
    (h : Ran stores moment (Scale.scale blueprint quantities formation) ledger record result
      after) :
    Worked (.ofRelease blueprint formation limits) moment.now record (failureOf? result.ending)
        ledger after ∧
      ∀ entry ∈ result.formation, entry.2.StemsFrom blueprint formation := by
  have hself : ∀ entry ∈ formation, entry.2.StemsFrom blueprint formation :=
    fun entry hmem => ⟨⟨entry, hmem, rfl⟩, fun htrue => .inr ⟨entry, hmem, rfl, htrue⟩⟩
  rw [Scale.scale_eq] at h
  split at h
  · obtain ⟨rfl, rfl, rfl⟩ := h.done_cases
    exact ⟨refl _, hself⟩
  · next request hrequest => exact of_scaleTypes hstore hself (hlimits request hrequest) h

end Ledger.Worked

end Rollout
