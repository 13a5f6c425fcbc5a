import Rollout.Proofs.Instances

/-!
# A release from its rollout on

When a release is rolled out of whose version nothing was tracked before, the tracked instances of
each of its process types are those from one up to the quantity that the formation wants
(`Session.Launched.hasInstance_iff`).

The cleanup that comes with the rollout never touches them, whenever it runs: it was given the names
of other versions only. This is `Session.Spares`, and it stays true whatever is done to the task
(`Session.Spares.afterTaskDeed`). So for what becomes of a release only scaling counts.
-/

namespace Rollout

/-! ### Formations by process type -/

/-- A formation is keyed by process type: each process stands under its own type, and no type stands
there twice. -/
structure Formation.IsKeyed (formation : Formation) : Prop where
  own : ∀ entry ∈ formation, entry.2.type = entry.1
  distinct : (formation.map (·.1)).Nodup

/-- How many instances of a process type a formation wants, if it knows the process type and
counts. -/
def Formation.count? (formation : Formation) (type : String) : Option Nat := do
  match (← formation.process? type).quantity with
  | .whole count => some count
  | _ => none

namespace Formation

variable {formation : Formation} {type : String} {process : ProcessType} {count : Nat}

/-- What is counted is the quantity of a process. -/
theorem count?_eq_some : formation.count? type = some count ↔
    ∃ process, formation.process? type = some process ∧ process.quantity = .whole count := by
  rw [count?, Option.bind_eq_bind, Option.bind_eq_some_iff]
  refine exists_congr fun process => and_congr_right fun _ => ?_
  cases process.quantity with
  | whole n =>
    exact ⟨fun h => congrArg _ (Option.some.inj h), fun h => congrArg _ (Quantity.whole.inj h)⟩
  | flag | real => exact ⟨fun h => (nomatch h), fun h => nomatch h⟩

/-- After a process was scaled its type has the target, and all others are as they were. -/
theorem count?_replace (owner : Value) (hknown : formation.process? type = some process)
    (target : Nat) (other : String) :
    count? (formation.replace type (process.scaled target owner)) other =
      if other = type then some target else formation.count? other := by
  rw [count?, process?_replace]
  split
  · next heq =>
    rw [heq, hknown]
    rfl
  · rfl

theorem IsTyped.exists_count? (h : formation.IsTyped)
    (hknown : formation.process? type = some process) :
    ∃ count, formation.count? type = some count ∧ process.quantity = .whole count ∧
      CellNumber.fits count = true := by
  obtain ⟨count, hquantity, hfits⟩ := (h _ (h.mem_of_process? hknown)).2.quantity
  exact ⟨count, count?_eq_some.mpr ⟨process, hknown, hquantity⟩, hquantity, hfits⟩

/-- In a keyed formation each process is found under its type. -/
theorem IsKeyed.process?_of_mem (h : formation.IsKeyed) (htyped : formation.IsTyped)
    (hmem : (.text type, process) ∈ formation) : formation.process? type = some process := by
  have hdistinct := h.distinct
  clear h
  induction formation with
  | nil => cases hmem
  | cons entry rest ih =>
    obtain ⟨key, first⟩ := entry
    obtain ⟨⟨key, rfl⟩, -, hrest⟩ := isTyped_cons.mp htyped
    obtain ⟨hnew, hdistinct'⟩ := List.nodup_cons.mp hdistinct
    rw [process?_cons_text]
    rcases List.mem_cons.mp hmem with heq | hlater
    · obtain ⟨hkey, rfl⟩ := Prod.mk.inj heq
      rw [if_pos (Value.text.inj hkey).symm]
    -- the type stands at a later place, and so not here
    · have hne : key ≠ type := by
        rintro rfl
        exact hnew (List.mem_map_of_mem (f := (·.1)) hlater)
      rw [if_neg hne, ih hrest hlater hdistinct']

end Formation

/-- **The jobs of a release with a keyed formation**: one for each known process type and each
instance of it up to its quantity. -/
theorem Blueprint.mem_jobs_of_isKeyed {blueprint : Blueprint} {formation : Formation}
    {jobs : List Job} (htyped : formation.IsTyped) (hkeyed : formation.IsKeyed)
    (h : blueprint.jobs formation = .ok jobs) :
    ∃ environment, Environment.ofVars blueprint.vars = .ok environment ∧
      ∀ job, job ∈ jobs ↔ ∃ type process count n, formation.process? type = some process ∧
        process.quantity = .whole count ∧ n < count ∧
        job = (blueprint.template environment).job (.text type) process.command (n + 1) := by
  obtain ⟨environment, henvironment, hjobs⟩ := mem_jobs h
  refine ⟨environment, henvironment, fun job => (hjobs job).trans ?_⟩
  -- in a keyed formation the entry of a process type is the one that is found for it
  constructor
  · rintro ⟨⟨key, process⟩, hmem, count, hcount, n, hn, rfl⟩
    obtain ⟨⟨type, rfl⟩, hprocess⟩ := htyped _ hmem
    obtain ⟨quantity, hquantity, -⟩ := hprocess.quantity
    rw [hquantity] at hcount
    obtain rfl : quantity = count := Except.ok.inj hcount
    exact ⟨type, process, quantity, n, hkeyed.process?_of_mem htyped hmem, hquantity, hn, rfl⟩
  · rintro ⟨type, process, count, n, hknown, hquantity, hn, rfl⟩
    refine ⟨_, htyped.mem_of_process? hknown, count, ?_, n, hn, rfl⟩
    rw [hquantity]
    rfl

/-! ### Names of other versions -/

namespace Ledger

variable {release : Release} {app type : String} {version : Int} {ledger : Ledger}

/-- A name of an instance of a release is a name of its version. -/
theorem isVersionOf_of_text? {given : String} {kind ordinal : Value}
    (happ : release.app = .text app) (hversion : release.version = .int version)
    (h : JobName.text? release.app release.version kind ordinal = .ok given) :
    IsVersionOf app version given := by
  rw [happ, hversion] at h
  exact ⟨_, _, h⟩

/-- Names of other versions can be given up without a loss of instances. -/
theorem hasInstance_retireAll_foreign (happ : release.app = .text app)
    (hversion : release.version = .int version) {gone : List String}
    (hgone : ∀ given ∈ gone, ¬IsVersionOf app version given) (ordinal : Int) :
    HasInstance release type (ledger.retireAll gone).tracked ordinal ↔
      HasInstance release type ledger.tracked ordinal := by
  constructor
  · rintro ⟨given, hgiven, hmem⟩
    exact ⟨given, hgiven, (mem_tracked_retireAll.mp hmem).2⟩
  · rintro ⟨given, hgiven, hmem⟩
    exact ⟨given, hgiven, mem_tracked_retireAll.mpr
      ⟨fun hin => hgone given hin (isVersionOf_of_text? happ hversion hgiven), hmem⟩⟩

/-- **Once the jobs of a release are placed the instances are those that the formation wants**, if
nothing of the version was tracked before. -/
theorem Placed.hasInstance_of_jobs {blueprint : Blueprint} {formation : Formation} {jobs : List Job}
    {placed : Ledger} (h : Placed jobs ledger placed) (hsound : placed.IsSound)
    (happ : blueprint.release.app = .text app) (hversion : blueprint.release.version = .int version)
    (hfresh : ∀ given ∈ ledger.tracked, ¬IsVersionOf app version given)
    (htyped : formation.IsTyped) (hkeyed : formation.IsKeyed)
    (hjobs : blueprint.jobs formation = .ok jobs) (type : String) (ordinal : Int) :
    HasInstance blueprint.release type placed.tracked ordinal ↔
      ∃ count, formation.count? type = some count ∧ 1 ≤ ordinal ∧ ordinal ≤ count := by
  obtain ⟨environment, -, hmem⟩ := Blueprint.mem_jobs_of_isKeyed htyped hkeyed hjobs
  constructor
  · rintro ⟨given, hgiven, htracked⟩
    rcases (h.mem_tracked hsound).1.mp htracked with hbefore | ⟨job, hjob, hname⟩
    · -- the version is fresh, so no instance of it was tracked before
      exact absurd (isVersionOf_of_text? happ hversion hgiven) (hfresh given hbefore)
    · obtain ⟨kind, process, count, n, hknown, hquantity, hn, rfl⟩ := (hmem job).mp hjob
      obtain ⟨-, -, htype, hordinal⟩ := JobName.fields_of_text? hgiven hname
      obtain rfl := Value.text.inj htype
      rw [Value.int.inj hordinal]
      exact ⟨count, Formation.count?_eq_some.mpr ⟨process, hknown, hquantity⟩, by omega, by omega⟩
  · -- each instance that is wanted has a job, and each job was placed under its name
    rintro ⟨count, hcount, hfirst, hlast⟩
    obtain ⟨process, hknown, hquantity⟩ := Formation.count?_eq_some.mp hcount
    obtain ⟨n, hn⟩ := Int.eq_ofNat_of_zero_le (show 0 ≤ ordinal - 1 by omega)
    obtain rfl : ordinal = (n + 1 : Nat) := by omega
    have hjob := (hmem _).mpr ⟨type, process, count, n, hknown, hquantity, by omega, rfl⟩
    obtain ⟨names, hnames, -, -⟩ := h.exists_names
    obtain ⟨given, -, hgiven⟩ := Job.exists_name_of_mem hnames hjob
    exact ⟨given, hgiven, (h.mem_tracked hsound).1.mpr (.inr ⟨_, hjob, hgiven⟩)⟩

end Ledger

namespace Session

open Ledger

variable {app : String} {opened : Opened} {session after : Session} {ledger moved : Ledger}
  {blueprint : Blueprint} {version : Int} {number : Nat} {name : Value}

/-- A session in order in which a task is not to retire names of a version. The instances of that
version are then changed by scaling alone. -/
structure Spares (app : String) (opened : Opened) (version : Int) (number : Nat) (session : Session)
    (ledger : Ledger) : Prop extends InOrder app opened session ledger where
  foreign : ∀ task, session.tasks[number]? = some task → ∀ given, task.Retires given →
    ¬IsVersionOf app version given

/-- **What is done to the task is nothing to the version**: names of other versions are gone, and
that is all. -/
theorem Spares.afterTaskDeed (h : session.Spares app opened version number ledger) {deed : Deed}
    (hdeed : deed.task? = some number) :
    ∃ gone, (∀ given ∈ gone, ¬IsVersionOf app version given) ∧
      (session.afterDeed deed).Spares app opened version number (ledger.retireAll gone) ∧
      session.world.Follows (session.afterDeed deed).world ∧
      (session.afterDeed deed).formations = session.formations := by
  obtain ⟨gone, horder, hfollows, hretired, hformations, htasks⟩ := h.toInOrder.afterTaskDeed hdeed
  refine ⟨gone, ?_, ⟨horder, ?_⟩, hfollows, hformations⟩
  · intro given hmem
    obtain ⟨task, htask, hretires⟩ := hretired given hmem
    exact h.foreign task htask given hretires
  · intro task htask given hretires
    obtain ⟨earlier, hearlier, hsame⟩ := htasks number task htask
    rw [Task.Retires, hsame.cleanup] at hretires
    exact h.foreign earlier hearlier given hretires

/-! ### Launches -/

/-- Nothing of a version is tracked. A rollout of it cannot be refused for a name that is taken. -/
def IsFresh (app : String) (version : Int) (session : Session) : Prop :=
  ∀ given ∈ session.tracked, ¬IsVersionOf app version given

/-- A release was rolled out of whose version nothing was tracked, and the task that came with it
spares the version. -/
structure Launched (app : String) (opened : Opened) (blueprint : Blueprint) (version : Int)
    (number : Nat) (formation : Formation) (ledger : Ledger) (after : Session) (moved : Ledger) :
    Prop where
  spares : after.Spares app opened version number moved
  fresh : ∀ given ∈ ledger.tracked, ¬IsVersionOf app version given
  rolledOut : ∃ calm placed task, RolledOut app blueprint formation calm ledger placed moved task

/-- **A rollout of a fresh version is a launch.** -/
theorem IsFresh.launched (hfresh : session.IsFresh app version)
    (h : session.InOrder app opened ledger) (hblueprint : blueprint.IsTyped app)
    (hrun : session.perform (Step.rollOut blueprint name) = (.ok number, after)) :
    ∃ formation moved, session.formation? name = some formation ∧
      after.formations = session.formations ∧ session.world.Follows after.world ∧
      Launched app opened blueprint version number formation ledger after moved := by
  rw [IsFresh, h.tracked_eq] at hfresh
  obtain ⟨moved, horder, -, hfollows, hformations, hcase⟩ := perform_rollOut_cases h hblueprint hrun
  rcases hcase with ⟨_, hfailure, -⟩ | ⟨formation, placed, task, hnumber, hformation, htasks, hout⟩
  · cases hfailure
  obtain rfl := Except.ok.inj hnumber
  refine ⟨formation, moved, hformation, hformations, hfollows, ⟨horder, ?_⟩, hfresh, _, _, _, hout⟩
  intro other hother given hretires
  rw [htasks, List.getElem?_concat_length] at hother
  obtain rfl := Option.some.inj hother
  -- what the new task is to retire was tracked before
  have hold := (Job.mem_names_iff hout.stale).mpr hretires
  exact hfresh given (h.sound.mem_trackedOf.mp hold).2

/-- **After a launch the instances are those that the formation wants.** -/
theorem Launched.hasInstance_iff {formation : Formation}
    (h : Launched app opened blueprint version number formation ledger after moved)
    (hsound : ledger.IsSound) (hblueprint : blueprint.IsTyped app)
    (hversion : blueprint.release.version = .int version) (htyped : formation.IsTyped)
    (hkeyed : formation.IsKeyed) (type : String) (ordinal : Int) :
    HasInstance blueprint.release type moved.tracked ordinal ↔
      ∃ count, formation.count? type = some count ∧ 1 ≤ ordinal ∧ ordinal ≤ count := by
  obtain ⟨_, placed, _, hout⟩ := h.rolledOut
  obtain ⟨jobs, gone, hjobs, hplaced, rfl, hgone⟩ := hout.exists_gone
  -- what the cleanup has given up since then was tracked before the rollout
  rw [hasInstance_retireAll_foreign hblueprint.app hversion fun given hmem =>
    h.fresh given (hsound.mem_trackedOf.mp (hgone given hmem)).2]
  have hplacedSound := isSound_of_moves (hplaced.moves fun job hmem =>
    (Blueprint.isStorable_of_mem_jobs hblueprint htyped hjobs hmem).2) hsound
  exact hplaced.hasInstance_of_jobs hplacedSound hblueprint.app hversion h.fresh htyped hkeyed hjobs
    type ordinal

end Session

theorem Formation.isKeyed_web (count : Nat) : (Formation.web count).IsKeyed := by
  refine ⟨fun entry hmem => ?_, List.nodup_singleton _⟩
  rw [List.mem_singleton.mp hmem]

end Rollout
