import Rollout.Operation.Scale
import Rollout.Proofs.Retiring

/-!
# What scaling does

A process type is scaled upward by placing instances and downward by withdrawing them, and either
can be broken off. On a ledger:

* `World.growTo_cases`: an initial part of the missing instances is placed, from the lowest on;
* `World.shrinkTo_cases`: an initial part of the superfluous instances is given up, from the highest
  on;
* `World.scaleType_cases`: the process takes its new quantity if and only if nothing was broken off.

The two loops are brought to the shape of the loops that are known already. Growing is placing a
list of jobs (`placeFrom_eq_placeAll`), so it needs no induction of its own. Shrinking goes down a
list of ordinals, each of which must be tracked when the loop starts and scheduled when its turn
comes.
-/

namespace Rollout

/-! ### Instances -/

/-- The jobs of `count` instances from the first one on. -/
def Job.Template.instances (template : Job.Template) (type command : Value) (first count : Nat) :
    List Job := (List.range' first count).map (template.job type command)

/-- A first part of the instances are instances, and so is the rest. -/
theorem Job.Template.instances_eq_append {template : Job.Template} {type command : Value}
    {first total : Nat} {done rest : List Job}
    (h : template.instances type command first total = done ++ rest) :
    ∃ count left, count + left = total ∧ done = template.instances type command first count ∧
      rest = template.instances type command (first + count) left := by
  obtain ⟨lower, upper, hrange, rfl, rfl⟩ := List.map_eq_append_iff.mp h
  obtain ⟨count, hcount, rfl, rfl⟩ := List.range'_eq_append_iff.mp hrange
  refine ⟨count, total - count, by omega, rfl, ?_⟩
  rw [instances, Nat.mul_one]

/-- Placing instances one by one is placing their list. -/
theorem Scale.placeFrom_eq_placeAll (template : Job.Template) (type : String) (command : Value)
    (first count : Nat) :
    placeFrom template type command first count =
      Placement.placeAll (template.instances (.text type) command first count) := by
  induction count generalizing first with
  | zero => rfl
  | succ count ih =>
    rw [placeFrom, ih]
    rfl

/-- The ordinals above a target, from the highest on. -/
def Scale.ordinalsAbove (target : Nat) : Nat → List Nat
  | 0 => []
  | count + 1 => (target + count + 1) :: ordinalsAbove target count

/-- The highest ordinals come first. -/
theorem Scale.ordinalsAbove_append {target count : Nat} {gone left : List Nat}
    (h : ordinalsAbove target count = gone ++ left) :
    ∃ rest, rest + gone.length = count ∧ left = ordinalsAbove target rest ∧
      ∀ n, n ∈ gone ↔ target + rest < n ∧ n ≤ target + count := by
  induction gone generalizing count with
  | nil =>
    refine ⟨count, rfl, h.symm, fun n => ?_⟩
    simp only [List.not_mem_nil, false_iff]
    omega
  | cons first gone ih =>
    cases count with
    | zero => cases h
    | succ count =>
      obtain ⟨hfirst, hrest⟩ := List.cons.inj h
      obtain ⟨rest, hlength, hleft, hmem⟩ := ih hrest
      refine ⟨rest, by rw [List.length_cons]; omega, hleft, fun n => ?_⟩
      rw [List.mem_cons, hmem, ← hfirst]
      omega

/-! ### Withdrawing -/

namespace World

variable {opened : Opened} {stores : Stores} {world after : World} {ledger : Ledger} {app : String}

/-- **What becomes of withdrawing a job**: it is given up by both sides, or nothing is done. There
is no third way, since removal from the store is spared. -/
theorem withdraw_cases {job : Job} {name : String} {result : Except Failure Unit}
    (hserve : stores.Serve opened) (hshows : world.Shows opened ledger)
    (hspares : world.Spares .remove) (hname : job.name? = .ok name)
    (h : World.run stores (Placement.withdraw job).attempt world = (result, after)) :
    world.Follows after ∧
      (result = .ok () ∧ name ∈ ledger.scheduled ∧ after.Shows opened (ledger.retire name) ∨
        ∃ failure, result = .error failure ∧ after.Shows opened ledger ∧
          (world.Spares .unschedule → name ∉ ledger.scheduled)) := by
  rw [Placement.withdraw, hname] at h
  rcases run_ofExcept_bind_cases h with ⟨_, hknown, h⟩ | ⟨_, hfailure, -⟩
  -- it is taken from the scheduler first, and only then from the job store
  · obtain rfl := Except.ok.inj hknown
    rcases run_bind_cases h with ⟨_, world₁, hunschedule, hremove⟩ | ⟨failure, hunschedule, rfl⟩
    · obtain ⟨hfollows₁, hcase⟩ := answer_unschedule stores hshows hunschedule
      rcases hcase with ⟨-, hmem, hshown₁⟩ | ⟨_, hfailure, -⟩
      · obtain ⟨hfollows₂, rfl, hshown₂⟩ :=
          answer_remove hserve hshown₁ (hfollows₁.spares hspares) hname hremove
        exact ⟨hfollows₁.trans hfollows₂, .inl ⟨rfl, hmem, hshown₂⟩⟩
      · cases hfailure
    · obtain ⟨hfollows₁, hcase⟩ := answer_unschedule stores hshows hunschedule
      rcases hcase with ⟨hok, -⟩ | ⟨_, -, hshown, hreason⟩
      · cases hok
      · exact ⟨hfollows₁, .inr ⟨failure, rfl, hshown, hreason⟩⟩
  · cases hfailure

end World

/-! ### Tracked jobs by name -/

namespace Scale

/-- Jobs by name are the jobs under their names. A job is then found under its own name and under no
other. -/
structure ByName (tracked : List (String × Job)) (names : List String) : Prop where
  own : ∀ entry ∈ tracked, entry.2.name? = .ok entry.1
  names : tracked.map (·.1) = names

/-- The jobs by name are jobs of the list, under their names. -/
theorem mem_of_byName {jobs : List Job} {tracked : List (String × Job)}
    (h : byName jobs = .ok tracked) :
    ∀ entry ∈ tracked, entry.2 ∈ jobs ∧ entry.2.name? = .ok entry.1 := by
  induction jobs generalizing tracked with
  | nil =>
    obtain rfl := Except.ok.inj h
    exact fun entry hmem => nomatch hmem
  | cons job rest ih =>
    rw [byName, List.mapM_cons] at h
    obtain ⟨first, hfirst, h⟩ := bind_eq_ok.mp h
    obtain ⟨others, hothers, h⟩ := bind_eq_ok.mp h
    obtain ⟨name, hname, hfirst⟩ := bind_eq_ok.mp hfirst
    obtain rfl := Except.ok.inj hfirst
    obtain rfl := Except.ok.inj h
    intro entry hmem
    rcases List.mem_cons.mp hmem with rfl | hrest
    · exact ⟨List.mem_cons_self, hname⟩
    · exact (ih hothers entry hrest).imp_left (List.mem_cons_of_mem _)

theorem byName_own {jobs : List Job} {tracked : List (String × Job)}
    (h : byName jobs = .ok tracked) : ByName tracked (tracked.map (·.1)) where
  own entry hmem := (mem_of_byName h entry hmem).2
  names := rfl

/-- What is found stands in the table, under the name that was looked for. -/
theorem mem_of_find? {tracked : List (String × Job)} {name : String} {job : Job}
    (hfind : find? tracked name = some job) : (name, job) ∈ tracked := by
  -- the last job of a name is found, so the list is searched from its end
  rw [find?, List.lookup_eq_some_iff] at hfind
  obtain ⟨before, later, hsplit, -⟩ := hfind
  rw [← List.mem_reverse, hsplit]
  exact List.mem_append_right _ List.mem_cons_self

/-- A job that is found is one of the list, and has the name that was looked for. -/
theorem listed_of_find? {jobs : List Job} {tracked : List (String × Job)} {name : String}
    {job : Job} (h : byName jobs = .ok tracked) (hfind : find? tracked name = some job) :
    job ∈ jobs ∧ job.name? = .ok name :=
  mem_of_byName h (name, job) (mem_of_find? hfind)

/-- Jobs that have names can be found by them. -/
theorem byName_of_namesOf {jobs : List Job} {names : List String}
    (h : Job.NamesOf jobs names) : ∃ tracked, byName jobs = .ok tracked ∧ ByName tracked names := by
  induction h with
  | nil => exact ⟨[], rfl, (fun _ hmem => nomatch hmem), rfl⟩
  | @cons job name jobs names hname _ ih =>
    obtain ⟨tracked, hby, hown, hnames⟩ := ih
    refine ⟨(name, job) :: tracked, ?_, ?_, ?_⟩
    · rw [byName, List.mapM_cons, hname]
      rw [byName] at hby
      rw [hby]
      rfl
    · intro entry hmem
      rcases List.mem_cons.mp hmem with rfl | hrest
      · exact hname
      · exact hown entry hrest
    · rw [List.map_cons, hnames]

/-- A job that is found has the name that was looked for. -/
theorem ByName.find?_some {tracked : List (String × Job)} {names : List String}
    (h : ByName tracked names) {name : String} {job : Job} (hfind : find? tracked name = some job) :
    job.name? = .ok name ∧ name ∈ names := by
  have hmem := mem_of_find? hfind
  refine ⟨h.own _ hmem, ?_⟩
  rw [← h.names]
  exact List.mem_map_of_mem hmem

/-- A name that is not found is not there. -/
theorem ByName.find?_none {tracked : List (String × Job)} {names : List String}
    (h : ByName tracked names) {name : String} (hfind : find? tracked name = none) :
    name ∉ names := by
  rw [← h.names]
  intro hmem
  obtain ⟨entry, hentry, rfl⟩ := List.mem_map.mp hmem
  rw [find?, List.lookup_eq_none_iff] at hfind
  have := hfind entry (List.mem_reverse.mpr hentry)
  exact absurd this (by simp)

end Scale

/-! ### Scaling down -/

namespace World

variable {opened : Opened} {stores : Stores} {world after : World} {ledger : Ledger} {app : String}

open Scale

/-- The name of an instance of a release. -/
def instanceName? (release : Release) (type : String) (ordinal : Nat) : Except Failure String :=
  JobName.text? release.app release.version (.text type) (.int ordinal)

/-- **What becomes of withdrawing one instance**: it was tracked and is given up, or nothing is
done. -/
theorem withdrawOrdinal_cases {release : Release} {tracked : List (String × Job)}
    {names : List String} {type : String} {ordinal : Nat} {result : Except Failure Unit}
    (hserve : stores.Serve opened) (hshows : world.Shows opened ledger)
    (hspares : world.Spares .remove) (htracked : ByName tracked names)
    (h : World.run stores (withdrawOrdinal release tracked type ordinal).attempt world =
      (result, after)) :
    world.Follows after ∧
      ((∃ name, result = .ok () ∧ instanceName? release type ordinal = .ok name ∧ name ∈ names ∧
          after.Shows opened (ledger.retire name)) ∨
        ∃ failure, result = .error failure ∧ after.Shows opened ledger ∧
          (world.Spares .unschedule → ∀ name, instanceName? release type ordinal = .ok name →
            name ∉ names ∨ name ∉ ledger.scheduled)) := by
  rcases run_ofExcept_bind_cases h with ⟨name, hname, h⟩ | ⟨failure, hnameless, rfl, rfl⟩
  · have hnamed : instanceName? release type ordinal = .ok name := hname
    cases hfind : find? tracked name with
    | none =>
      -- the names of the tracked jobs are looked at, not those of the scheduler
      rw [hfind] at h
      obtain ⟨rfl, rfl⟩ := Prod.mk.inj h
      refine ⟨.refl _, .inr ⟨_, rfl, hshows, fun _ other hother => .inl ?_⟩⟩
      rw [hnamed] at hother
      rw [← Except.ok.inj hother]
      exact htracked.find?_none hfind
    | some job =>
      rw [hfind] at h
      obtain ⟨hjob, hmem⟩ := htracked.find?_some hfind
      obtain ⟨hfollows, hcase⟩ := withdraw_cases hserve hshows hspares hjob h
      refine ⟨hfollows, ?_⟩
      rcases hcase with ⟨rfl, -, hshown⟩ | ⟨failure, rfl, hshown, hreason⟩
      · exact .inl ⟨name, rfl, hnamed, hmem, hshown⟩
      · refine .inr ⟨failure, rfl, hshown, fun hspared other hother => .inr ?_⟩
        rw [hnamed] at hother
        rw [← Except.ok.inj hother]
        exact hreason hspared
  · -- without a name there is nothing to say about names
    refine ⟨.refl _, .inr ⟨failure, rfl, hshows, fun _ other hother => ?_⟩⟩
    rw [instanceName?, hnameless] at hother
    cases hother

/-- The names of instances. -/
abbrev InstanceNames (release : Release) (type : String) (ordinals : List Nat)
    (names : List String) : Prop :=
  List.Forall₂ (fun ordinal name => instanceName? release type ordinal = .ok name) ordinals names

/-- **What becomes of withdrawing instances**: the highest ones are given up, and each of them was
tracked at the start. Where the loop stops, the instance was not tracked or is not scheduled, or has
no name, or there was a fault. -/
theorem withdrawAbove_cases {release : Release} {tracked : List (String × Job)}
    {names : List String} {type : String} {target count : Nat} {result : Except Failure Unit}
    (hserve : stores.Serve opened) (hshows : world.Shows opened ledger)
    (hspares : world.SparesStores) (htracked : ByName tracked names)
    (h : World.run stores (withdrawAbove release tracked type target count).attempt world =
      (result, after)) :
    world.Follows after ∧ ∃ gone left given, ordinalsAbove target count = gone ++ left ∧
      InstanceNames release type gone given ∧ (∀ name ∈ given, name ∈ names) ∧
      after.Shows opened (ledger.retireAll given) ∧
      (left = [] ∧ result = .ok () ∨
        ∃ ordinal rest failure, left = ordinal :: rest ∧ result = .error failure ∧
          (world.Spares .unschedule → ∀ name, instanceName? release type ordinal = .ok name →
            name ∉ names ∨ name ∉ (ledger.retireAll given).scheduled)) := by
  -- the highest ordinal goes first, so the induction is on how many there are above the target
  induction count generalizing world ledger with
  | zero =>
    obtain ⟨rfl, rfl⟩ := Prod.mk.inj h
    exact ⟨.refl _, [], [], [], rfl, .nil, (fun _ hmem => nomatch hmem), hshows, .inl ⟨rfl, rfl⟩⟩
  | succ count ih =>
    rcases run_bind_cases h with ⟨_, world₁, hfirst, hrest⟩ | ⟨failure, hfirst, rfl⟩
    · obtain ⟨hfollows₁, hcase⟩ :=
        withdrawOrdinal_cases hserve hshows hspares.remove htracked hfirst
      rcases hcase with ⟨name, -, hname, hmem, hshown₁⟩ | ⟨_, hfailure, -⟩
      -- the others are given up from a ledger without the first one
      · obtain ⟨hfollows₂, gone, left, given, hsplit, hgiven, hnames, hshown₂, hend⟩ :=
          ih hshown₁ (hfollows₁.sparesStores hspares) hrest
        refine ⟨hfollows₁.trans hfollows₂, (target + count + 1) :: gone, left, name :: given, ?_,
          .cons hname hgiven, ?_, hshown₂, ?_⟩
        · rw [ordinalsAbove, hsplit]
          rfl
        · intro other hother
          rcases List.mem_cons.mp hother with rfl | hother
          · exact hmem
          · exact hnames other hother
        · rcases hend with hend | ⟨ordinal, rest, failure, hleft, hresult, hreason⟩
          · exact .inl hend
          · exact .inr ⟨ordinal, rest, failure, hleft, hresult,
              fun hspared => hreason (hfollows₁.spares hspared)⟩
      · cases hfailure
    · obtain ⟨hfollows₁, hcase⟩ :=
        withdrawOrdinal_cases hserve hshows hspares.remove htracked hfirst
      rcases hcase with ⟨_, hok, -⟩ | ⟨_, -, hshown, hreason⟩
      · cases hok
      · exact ⟨hfollows₁, [], _, [], rfl, .nil, (fun _ hmem => nomatch hmem), hshown,
          .inr ⟨_, _, failure, rfl, rfl, hreason⟩⟩

/-- **What becomes of scaling down**: instances are given up from the highest on. Those that are
given up are the first ones of the descending ordinals, and all of them if it succeeds. -/
theorem shrinkTo_cases {release : Release} {type : String} {process : ProcessType}
    {current target : Nat} {result : Except Failure Unit}
    (hserve : stores.Serve opened) (hshows : world.Shows opened ledger) (hsound : ledger.IsSound)
    (hspares : world.SparesStores) (happ : release.app = .text app)
    (hquantity : process.quantity = .whole current)
    (h : World.run stores (shrinkTo release type process target).attempt world = (result, after)) :
    world.Follows after ∧ ∃ gone left given,
      ordinalsAbove target (current - target) = gone ++ left ∧
      InstanceNames release type gone given ∧ (∀ name ∈ given, name ∈ ledger.trackedOf app) ∧
      after.Shows opened (ledger.retireAll given) ∧
      (left = [] ∧ result = .ok () ∨
        ∃ ordinal rest failure, left = ordinal :: rest ∧ result = .error failure ∧
          (world.Spares .unschedule → ∀ name, instanceName? release type ordinal = .ok name →
            name ∉ ledger.trackedOf app ∨ name ∉ (ledger.retireAll given).scheduled)) := by
  rw [shrinkTo, happ] at h
  obtain ⟨jobs, world₁, hjobs, hfollows₁, hshown₁, h⟩ :=
    run_list_bind hserve hshows hsound hspares.list h
  -- the listed jobs all have names, so they can be looked up by them
  obtain ⟨tracked, hby, htracked⟩ := byName_of_namesOf (hsound.namesOf_listed hjobs)
  rw [hby] at h
  rcases run_ofExcept_bind_cases h with ⟨_, hknown, h⟩ | ⟨_, hfailure, -⟩
  · obtain rfl := Except.ok.inj hknown
    rw [hquantity] at h
    rcases run_ofExcept_bind_cases h with ⟨_, hknown, h⟩ | ⟨_, hfailure, -⟩
    · obtain rfl := Except.ok.inj hknown
      obtain ⟨hfollows₂, gone, left, given, hsplit, hgiven, hmem, hshown₂, hend⟩ :=
        withdrawAbove_cases hserve hshown₁ (hfollows₁.sparesStores hspares) htracked h
      refine ⟨hfollows₁.trans hfollows₂, gone, left, given, hsplit, hgiven, hmem, hshown₂, ?_⟩
      rcases hend with hend | ⟨ordinal, rest, failure, hleft, hresult, hreason⟩
      · exact .inl hend
      · exact .inr ⟨ordinal, rest, failure, hleft, hresult,
          fun hspared => hreason (hfollows₁.spares hspared)⟩
    · cases hfailure
  · cases hfailure

/-- **What becomes of scaling up**: instances are placed from the lowest on. -/
theorem growTo_cases {blueprint : Blueprint} {type command : String} {process : ProcessType}
    {current target : Nat} {result : Except Failure Unit}
    (hserve : stores.Serve opened) (hshows : world.Shows opened ledger)
    (hspares : world.SparesStores) (hblueprint : blueprint.IsTyped app)
    (hcommand : process.command = .text command) (hquantity : process.quantity = .whole current)
    (htarget : CellNumber.fits target = true) (hlt : current < target)
    (h : World.run stores (growTo blueprint type process target).attempt world = (result, after)) :
    world.Follows after ∧
      ((∃ failure cause, Environment.ofVars blueprint.vars = .error cause ∧
          result = .error failure ∧ after.Shows opened ledger) ∨
        ∃ environment count middle, Environment.ofVars blueprint.vars = .ok environment ∧
          Ledger.Placed ((blueprint.template environment).instances (.text type) (.text command)
            (current + 1) count) ledger middle ∧
          (current + count = target ∧ result = .ok () ∧ after.Shows opened middle ∨
            ∃ failure, current + count < target ∧ result = .error failure ∧
              StopsAt opened after ((blueprint.template environment).job (.text type)
                (.text command) (current + count + 1)) middle ∧
              (world.Spares .schedule → ∀ name,
                instanceName? blueprint.release type (current + count + 1) = .ok name →
                  name ∈ middle.tracked))) := by
  rw [growTo, hquantity, hcommand] at h
  rcases run_ofExcept_bind_cases h with ⟨environment, henvironment, h⟩ |
      ⟨failure, hfailure, rfl, rfl⟩
  · rcases run_ofExcept_bind_cases h with ⟨_, hknown, h⟩ | ⟨_, hfailure, -⟩
    · obtain rfl := Except.ok.inj hknown
      rw [placeFrom_eq_placeAll] at h
      -- instances up to the target fit, as the target does
      have hstorable : ∀ job ∈ (blueprint.template environment).instances (.text type)
          (.text command) (current + 1) (target - current), job.IsStorable := by
        intro job hmem
        obtain ⟨n, hn, rfl⟩ := List.mem_map.mp hmem
        rw [List.mem_range'_1] at hn
        exact Blueprint.isStorable_job hblueprint henvironment
          (CellNumber.fits_of_le (by omega) htarget)
      obtain ⟨hfollows, done, rest, middle, hsplit, hplaced, hend⟩ :=
        placeAll_cases hserve hshows hspares.add hstorable h
      refine ⟨hfollows, .inr ?_⟩
      -- the list stops at a place, and that is an ordinal
      obtain ⟨count, left, hcount, rfl, rfl⟩ := Job.Template.instances_eq_append hsplit
      refine ⟨environment, count, middle, henvironment, hplaced, ?_⟩
      cases left with
      | zero =>
        rcases hend with ⟨-, hresult, hshown⟩ | ⟨_, _, _, hrest, -⟩
        · exact .inl ⟨by omega, hresult, hshown⟩
        · cases hrest
      | succ left =>
        rcases hend with ⟨hnone, -⟩ | ⟨job, tail, failure, hrest, hresult, hstops, hreason⟩
        · cases hnone
        · -- the work stopped at the first instance of the rest
          rw [Job.Template.instances, List.range'_succ, List.map_cons] at hrest
          obtain ⟨rfl, -⟩ := List.cons.inj hrest
          have hordinal : current + 1 + count = current + count + 1 := by omega
          rw [hordinal] at hstops hreason
          exact .inr ⟨failure, by omega, hresult, hstops, hreason⟩
    · cases hfailure
  · exact ⟨.refl _, .inl ⟨failure, failure, hfailure, rfl, hshows⟩⟩

end World

/-! ### One process type -/

namespace Ledger

open World Scale

/-- The instances of a process type were brought from one quantity to another. It is said in terms
of the ledger, for scaling that is not broken off. -/
inductive Adjusted (app : String) (blueprint : Blueprint) (type command : String) :
    (current target : Nat) → Ledger → Ledger → Prop where
  /-- The missing instances were placed. -/
  | grown {current target : Nat} {ledger moved : Ledger} {environment : Environment}
      (hlt : current < target)
      (henvironment : Environment.ofVars blueprint.vars = .ok environment)
      (hplaced : Placed ((blueprint.template environment).instances (.text type) (.text command)
        (current + 1) (target - current)) ledger moved) :
      Adjusted app blueprint type command current target ledger moved
  /-- The superfluous instances were given up. -/
  | shrunk {current target : Nat} {ledger : Ledger} {ordinals : List Nat} {given : List String}
      (hgt : target < current) (hordinals : ∀ n, n ∈ ordinals ↔ target < n ∧ n ≤ current)
      (hgiven : InstanceNames blueprint.release type ordinals given)
      (htracked : ∀ name ∈ given, name ∈ ledger.trackedOf app) :
      Adjusted app blueprint type command current target ledger (ledger.retireAll given)
  /-- There was nothing to do. -/
  | kept {current : Nat} {ledger : Ledger} :
      Adjusted app blueprint type command current current ledger ledger

/-- The instances of a process type were to be brought from one quantity to another, and the work
was broken off. If it was `calm`, that is, without a fault, there is another reason. -/
inductive BrokenOff (app : String) (blueprint : Blueprint) (type command : String) (calm : Prop) :
    (current target : Nat) → Ledger → Ledger → Prop where
  /-- Nothing was done, since there is no environment. -/
  | refused {current target : Nat} {ledger : Ledger} {failure : Failure}
      (hfailure : Environment.ofVars blueprint.vars = .error failure) :
      BrokenOff app blueprint type command calm current target ledger ledger
  /-- Some of the missing instances were placed, and the next one was not. -/
  | growing {current target count : Nat} {ledger middle stopped : Ledger}
      {environment : Environment} (hlt : current + count < target)
      (henvironment : Environment.ofVars blueprint.vars = .ok environment)
      (hplaced : Placed ((blueprint.template environment).instances (.text type) (.text command)
        (current + 1) count) ledger middle)
      (hstopped : stopped = middle ∨ ∃ definition, Placement.definition?
        ((blueprint.template environment).job (.text type) (.text command) (current + count + 1)) =
          .ok definition ∧ definition.name ∈ middle.tracked ∧ stopped = middle.schedule definition)
      (hreason : calm → ∀ name,
        instanceName? blueprint.release type (current + count + 1) = .ok name →
          name ∈ middle.tracked) :
      BrokenOff app blueprint type command calm current target ledger stopped
  /-- Some of the superfluous instances were given up, and the next one was not. -/
  | shrinking {current target rest : Nat} {ledger : Ledger} {ordinals : List Nat}
      {given : List String} (hrest : 0 < rest) (hle : target + rest ≤ current)
      (hordinals : ∀ n, n ∈ ordinals ↔ target + rest < n ∧ n ≤ current)
      (hgiven : InstanceNames blueprint.release type ordinals given)
      (htracked : ∀ name ∈ given, name ∈ ledger.trackedOf app)
      (hreason : calm → ∀ name, instanceName? blueprint.release type (target + rest) = .ok name →
        name ∉ ledger.trackedOf app ∨ name ∉ (ledger.retireAll given).scheduled) :
      BrokenOff app blueprint type command calm current target ledger (ledger.retireAll given)

variable {app : String} {blueprint : Blueprint} {type command : String} {current target : Nat}
  {ledger moved : Ledger} {calm : Prop}

/-- Instances that were given up have names of the application. -/
theorem isNameOf_of_instanceNames (happ : blueprint.release.app = .text app) {ordinals : List Nat}
    {given : List String} (h : InstanceNames blueprint.release type ordinals given) :
    ∀ name ∈ given, IsNameOf app name := by
  induction h with
  | nil => exact fun _ hmem => nomatch hmem
  | @cons ordinal name ordinals names hname _ ih =>
    intro other hmem
    rcases List.mem_cons.mp hmem with rfl | hrest
    · rw [instanceName?, happ] at hname
      exact ⟨_, _, _, hname⟩
    · exact ih other hrest

theorem app_of_mem_instances (happ : blueprint.release.app = .text app) {environment : Environment}
    {kind order : Value} {first count : Nat} {job : Job}
    (h : job ∈ (blueprint.template environment).instances kind order first count) :
    job.app = .text app := by
  obtain ⟨n, -, rfl⟩ := List.mem_map.mp h
  exact happ

theorem Adjusted.moves (h : Adjusted app blueprint type command current target ledger moved)
    (happ : blueprint.release.app = .text app) : Moves app ledger moved := by
  cases h with
  | grown _ _ hplaced => exact hplaced.moves fun job hmem => app_of_mem_instances happ hmem
  | shrunk _ _ hgiven _ => exact moves_retireAll (isNameOf_of_instanceNames happ hgiven)
  | kept => exact .refl

/-- Work that was broken off made moves as well. -/
theorem BrokenOff.moves
    (h : BrokenOff app blueprint type command calm current target ledger moved)
    (happ : blueprint.release.app = .text app) : Moves app ledger moved := by
  cases h with
  | refused => exact .refl
  | growing _ _ hplaced hstopped _ =>
    have hmoves := hplaced.moves fun job hmem => app_of_mem_instances happ hmem
    -- the last move may be one that only overwrote a definition
    rcases hstopped with rfl | ⟨definition, hdefinition, hmem, rfl⟩
    · exact hmoves
    · have hname := Placement.name_of_definition? hdefinition
      exact hmoves.tail (.redefine (Job.isNameOf_of_name? happ hname) hmem)
  | shrinking _ _ _ hgiven _ _ => exact moves_retireAll (isNameOf_of_instanceNames happ hgiven)

end Ledger

/-- The order between a whole quantity and a target. -/
theorem Scale.adjust_eq {blueprint : Blueprint} {type : String} {process : ProcessType}
    {current target : Nat} (hquantity : process.quantity = .whole current) :
    adjust blueprint type process target =
      if current < target then growTo blueprint type process target
      else if target < current then shrinkTo blueprint.release type process target
      else pure () := by
  have hcompare : process.quantity.compare? target = some (compare current target) := by
    rw [hquantity]
    rfl
  rw [adjust, hcompare]
  rcases Nat.lt_trichotomy current target with hlt | rfl | hgt
  · rw [Nat.compare_eq_lt.mpr hlt, if_pos hlt]
  · rw [Nat.compare_eq_eq.mpr rfl, if_neg (Nat.lt_irrefl _), if_neg (Nat.lt_irrefl _)]
  · rw [Nat.compare_eq_gt.mpr hgt, if_neg (Nat.lt_asymm hgt), if_pos hgt]

namespace World

open Scale

variable {opened : Opened} {stores : Stores} {world after : World} {ledger : Ledger} {app : String}
  {blueprint : Blueprint} {type command : String} {process : ProcessType} {current target : Nat}

/-- No fault lies in wait for the scheduler. If the stores are spared too, scaling fails only where
the instances do not allow it. -/
def SparesScheduler (world : World) : Prop := world.Spares .schedule ∧ world.Spares .unschedule

/-- **What becomes of the instances of a process type**: they are brought to the target, or the work
is broken off. -/
theorem adjust_cases {result : Except Failure Unit}
    (hserve : stores.Serve opened) (hshows : world.Shows opened ledger) (hsound : ledger.IsSound)
    (hspares : world.SparesStores) (hblueprint : blueprint.IsTyped app)
    (hcommand : process.command = .text command) (hquantity : process.quantity = .whole current)
    (htarget : CellNumber.fits target = true)
    (h : World.run stores (adjust blueprint type process target).attempt world = (result, after)) :
    world.Follows after ∧ ∃ moved, after.Shows opened moved ∧
      (result = .ok () ∧ Ledger.Adjusted app blueprint type command current target ledger moved ∨
        ∃ failure, result = .error failure ∧
          Ledger.BrokenOff app blueprint type command world.SparesScheduler current target ledger
            moved) := by
  rw [adjust_eq hquantity] at h
  rcases Nat.lt_trichotomy current target with hlt | rfl | hgt
  · -- instances are missing
    rw [if_pos hlt] at h
    obtain ⟨hfollows, hcase⟩ := growTo_cases hserve hshows hspares hblueprint hcommand hquantity
      htarget hlt h
    refine ⟨hfollows, ?_⟩
    rcases hcase with ⟨failure, cause, hcause, hresult, hshown⟩ | ⟨environment, count, middle,
        henvironment, hplaced, hend⟩
    · exact ⟨ledger, hshown, .inr ⟨failure, hresult, .refused hcause⟩⟩
    · rcases hend with ⟨hcount, hresult, hshown⟩ | ⟨failure, hcount, hresult, hstops, hreason⟩
      · obtain rfl : count = target - current := by omega
        exact ⟨middle, hshown, .inl ⟨hresult, .grown hlt henvironment hplaced⟩⟩
      -- where placing stopped, nothing was done, or a definition was overwritten
      · cases hstops with
        | refused hshown =>
          exact ⟨middle, hshown, .inr ⟨failure, hresult, .growing hcount henvironment hplaced
            (.inl rfl) fun hcalm => hreason hcalm.1⟩⟩
        | redefined hdefinition hmem hshown =>
          exact ⟨_, hshown, .inr ⟨failure, hresult, .growing hcount henvironment hplaced
            (.inr ⟨_, hdefinition, hmem, rfl⟩) fun hcalm => hreason hcalm.1⟩⟩
  · -- the process says that nothing is to be done, and nothing is looked at
    rw [if_neg (Nat.lt_irrefl _), if_neg (Nat.lt_irrefl _)] at h
    obtain ⟨rfl, rfl⟩ := Prod.mk.inj h
    exact ⟨.refl _, ledger, hshows, .inl ⟨rfl, .kept⟩⟩
  · -- instances are superfluous, and some of the highest ones are given up
    rw [if_neg (Nat.lt_asymm hgt), if_pos hgt] at h
    obtain ⟨hfollows, gone, left, given, hsplit, hgiven, hmem, hshown, hend⟩ :=
      shrinkTo_cases hserve hshows hsound hspares hblueprint.app hquantity h
    obtain ⟨rest, hlength, hleft, hgone⟩ := ordinalsAbove_append hsplit
    refine ⟨hfollows, _, hshown, ?_⟩
    rcases hend with ⟨hnone, hresult⟩ | ⟨ordinal, others, failure, hothers, hresult, hreason⟩
    -- no ordinals are left above the target
    · have hzero : rest = 0 := by
        cases rest with
        | zero => rfl
        | succ rest =>
          rw [hnone] at hleft
          cases hleft
      subst hzero
      exact .inl ⟨hresult, .shrunk hgt (fun n => by rw [hgone]; omega) hgiven hmem⟩
    · cases rest with
      | zero =>
        rw [hothers] at hleft
        cases hleft
      | succ rest =>
        rw [hothers] at hleft
        -- the loop stopped at the highest of the ordinals that are left
        obtain ⟨rfl, -⟩ := List.cons.inj hleft
        exact .inr ⟨failure, hresult, .shrinking (Nat.succ_pos rest) (by omega)
          (fun n => by rw [hgone]; omega) hgiven hmem fun hcalm => hreason hcalm.2⟩

/-- Logging a change of quantity goes well. -/
theorem logChange_cases {result : Except Failure Unit} (hserve : stores.Serve opened)
    (hshows : world.Shows opened ledger) (hspares : world.Spares .log)
    (hblueprint : blueprint.IsTyped app) (hquantity : process.quantity = .whole current)
    (hcurrent : CellNumber.fits current = true) (htarget : CellNumber.fits target = true)
    (h : World.run stores (logChange blueprint.release type process target).attempt world =
      (result, after)) :
    world.Follows after ∧ result = .ok () ∧ after.Shows opened ledger := by
  -- both quantities fit, so both can be shown
  have hshown : ∀ n : Nat, CellNumber.fits n = true →
      (Value.int n).shown? = .ok (Value.int n).shown := by
    intro n hn
    rw [Value.shown?, Value.writable, CellNumber.writable_of_fits hn]
    rfl
  rw [logChange, hquantity] at h
  split at h
  · rw [Quantity.toValue, hshown _ hcurrent, hshown _ htarget] at h
    rcases run_ofExcept_bind_cases h with ⟨_, -, h⟩ | ⟨_, hfailure, -⟩
    · rcases run_ofExcept_bind_cases h with ⟨_, -, h⟩ | ⟨_, hfailure, -⟩
      · exact run_log hserve hshows hspares (Blueprint.isStorable_event hblueprint _ _) h
      · cases hfailure
    · cases hfailure
  · obtain ⟨rfl, rfl⟩ := Prod.mk.inj h
    exact ⟨.refl _, rfl, hshows⟩

/-- A process that was scaled can be stored. -/
theorem isStorable_scaled (hprocess : process.IsStorable) (htarget : CellNumber.fits target = true)
    (app : String) : (process.scaled target (.text app)).IsStorable := by
  obtain ⟨htype, hcommand, -, owner, happ⟩ := hprocess
  refine ⟨htype, hcommand, ⟨target, rfl, htarget⟩, ?_⟩
  rw [ProcessType.scaled]
  split
  · exact ⟨owner, happ⟩
  · exact ⟨app, rfl⟩

/-- **What becomes of a process type**: it keeps its quantity if the work was broken off, and takes
the new one otherwise, even if that could not be written down. -/
theorem scaleType_cases {scaled : ProcessType} {ending : Except Failure Unit}
    (hserve : stores.Serve opened) (hshows : world.Shows opened ledger) (hsound : ledger.IsSound)
    (hspares : world.SparesStores) (hblueprint : blueprint.IsTyped app)
    (hprocess : process.IsStorable) (hcommand : process.command = .text command)
    (hquantity : process.quantity = .whole current) (htarget : CellNumber.fits target = true)
    (h : World.run stores (scaleType blueprint type process target) world =
      ((scaled, ending), after)) :
    world.Follows after ∧
      ((∃ failure moved, scaled = process ∧ ending = .error failure ∧ after.Shows opened moved ∧
          Ledger.BrokenOff app blueprint type command world.SparesScheduler current target ledger
            moved) ∨
        ∃ moved, scaled = process.scaled target (.text app) ∧
          Ledger.Adjusted app blueprint type command current target ledger moved ∧
          ((∃ row : ProcessRow, ending = .ok () ∧ after.Shows opened (moved.want row) ∧
              scaled.app = .text row.app ∧ process.type = .text row.type ∧
              row.quantity.toValue = .int target) ∨
            ∃ failure, ending = .error failure ∧ after.Shows opened moved ∧
              (stores.processes.isSome = true → ¬world.Spares .update))) := by
  -- the quantity of a storable process fits
  have hcurrent : CellNumber.fits current = true := by
    obtain ⟨n, hn, hfits⟩ := hprocess.quantity
    rw [hquantity] at hn
    obtain rfl : current = n := Quantity.whole.inj hn
    exact hfits
  rw [scaleType, run_plan_bind] at h
  cases hrun : World.run stores (Work.attempt do
      adjust blueprint type process target
      logChange blueprint.release type process target) world with
  | mk result world₁ =>
    rw [hrun] at h
    rcases run_bind_cases hrun with ⟨_, between, hadjust, hlog⟩ | ⟨failure, hadjust, rfl⟩
    · obtain ⟨hfollows₁, moved, hshown₁, hcase⟩ := adjust_cases hserve hshows hsound hspares
        hblueprint hcommand hquantity htarget hadjust
      rcases hcase with ⟨-, hadjusted⟩ | ⟨_, hfailure, -⟩
      · obtain ⟨hfollows₂, rfl, hshown₂⟩ := logChange_cases hserve hshown₁
          (hfollows₁.spares hspares.log) hblueprint hquantity hcurrent htarget hlog
        have hfollows := hfollows₁.trans hfollows₂
        rw [hblueprint.app] at h
        dsimp only at h
        rw [run_plan_bind] at h
        -- from here on the process has its new quantity, whatever the store says
        have hstorable := isStorable_scaled hprocess htarget app
        cases hupdate : answer stores (.update (process.scaled target (.text app))) world₁ with
        | mk kept world₂ =>
          have hattempt : World.run stores
              (Action.update (process.scaled target (.text app))).attempt world₁ = (kept, world₂) :=
            hupdate
          rw [hattempt] at h
          obtain ⟨hfirst, rfl⟩ := Prod.mk.inj h
          obtain ⟨rfl, rfl⟩ := Prod.mk.inj hfirst
          obtain ⟨hfollows₃, hcase⟩ := answer_update hserve hshown₂ hstorable hupdate
          refine ⟨hfollows.trans hfollows₃, .inr ⟨moved, rfl, hadjusted, ?_⟩⟩
          rcases hcase with ⟨row, rfl, hshown₃, happ, htype, hrow⟩ | ⟨failure, rfl, hshown₃,
              hreason⟩
          · exact .inl ⟨row, rfl, hshown₃, happ, htype, hrow.symm⟩
          · exact .inr ⟨failure, rfl, hshown₃,
              fun hstore hspared => hreason hstore (hfollows.spares hspared)⟩
      · cases hfailure
    · obtain ⟨hfollows₁, moved, hshown₁, hcase⟩ := adjust_cases hserve hshows hsound hspares
        hblueprint hcommand hquantity htarget hadjust
      rcases hcase with ⟨hok, -⟩ | ⟨_, -, hbroken⟩
      · cases hok
      · obtain ⟨hfirst, rfl⟩ := Prod.mk.inj h
        obtain ⟨rfl, rfl⟩ := Prod.mk.inj hfirst
        exact ⟨hfollows₁, .inl ⟨failure, moved, rfl, rfl, hshown₁, hbroken⟩⟩

end World

end Rollout
