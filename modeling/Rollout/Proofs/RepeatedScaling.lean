import Rollout.Proofs.Agreement
import Rollout.Proofs.Running

/-!
# Scaling a release again and again

After a rollout of a fresh version the tracked instances are those that the formation wants, and all
of them are scheduled (`Ledger.Placed.inStep`). Scaling keeps it so whatever the requests
ask for, and even if they come with other variables or another image (`World.scale_of_inStep`). As
long as it is so and no fault lies in wait, a request fails only if its quantities are not valid
(`World.run_scaleAll`).

Nothing is asked of names that are not of the release. Scheduler and job store need not agree there,
and a rollout that met faults is as good as any if it came to its end.
-/

namespace Rollout

open Ledger

/-- A request to scale a release, with the configuration and the image that come with it. They may
differ from those that the release was rolled out with. -/
structure ScaleCall where
  blueprint : Blueprint
  quantities : List (Value × Value)

/-- How a request is to end: quantities that are not valid are refused, and all else succeeds. -/
def ScaleCall.due (call : ScaleCall) : Except Failure Unit :=
  match ScaleRequest.ofEntries call.quantities with
  | .ok _ => .ok ()
  | .error issues => .error (.invalidQuantities issues)

/-- Makes requests one after the other, whether they succeed or not. Each finds the formation as the
one before it left it, which is how the process stores it between two requests. The results are how
they ended. -/
def Scale.scaleAll :
    List ScaleCall → Formation → Plan Collaborators (List (Except Failure Unit))
  | [], _ => return []
  | call :: rest, formation => do
    let result ← scale call.blueprint call.quantities formation
    let endings ← scaleAll rest result.formation
    return result.ending :: endings

/-! ### Process types that make names -/

/-- All process types of the formation are field names. No type then fails for its name, and names
are all that their instances need. -/
def Formation.IsNamed (formation : Formation) : Prop :=
  ∀ key ∈ formation.map (·.1), ∃ type, key = .text type ∧ isFieldName type = true

namespace Formation

variable {formation scaled : Formation} {type : String} {process : ProcessType}

theorem IsNamed.isFieldName (h : formation.IsNamed) (htyped : formation.IsTyped)
    (hknown : formation.process? type = some process) : isFieldName type = true := by
  obtain ⟨other, heq, hvalid⟩ := h _ (List.mem_map_of_mem (htyped.mem_of_process? hknown))
  rw [Value.text.inj heq]
  exact hvalid

/-- Working a request off leaves the process types alone. -/
theorem keys_of_scaled {app : String} {blueprint : Blueprint} {request : ScaleRequest}
    {ledger after : Ledger} (h : Scaled app blueprint request ledger formation after scaled) :
    scaled.map (·.1) = formation.map (·.1) := by
  -- Entry by entry: a type that is not known changes nothing, and one that is known is replaced in
  -- its place.
  induction h with
  | nil => rfl
  | skip _ _ ih => exact ih
  | cons _ _ _ _ _ _ ih => rw [ih, keys_replace]

end Formation

/-! ### Being in step -/

/-- A sound ledger is in step with a formation: the instances of the release are those that the
formation wants, all of them are scheduled, and all process types can make names. It is less than
agreement, since names of other releases may stand in the store without being scheduled. -/
structure Ledger.InStep (release : Release) (formation : Formation) (ledger : Ledger) : Prop where
  sound : ledger.IsSound
  counts : Counts release formation ledger
  scheduled : ledger.SchedulesTracked release
  typed : formation.IsTyped
  named : formation.IsNamed

/-- The request is one for the release, and its configuration and its quantities can be worked
with. -/
structure ScaleCall.IsRegular (app : String) (release : Release) (call : ScaleCall) : Prop where
  release : call.blueprint.release = release
  typed : call.blueprint.IsTyped app
  vars : ∃ environment, Environment.ofVars call.blueprint.vars = .ok environment
  fits : World.FitQuantities call.quantities

namespace World

variable {opened : Opened} {stores : Stores} {world after : World} {ledger : Ledger} {app : String}
  {release : Release} {formation : Formation} {call : ScaleCall}

/-- **A request that meets no fault** ends as it is to end, and leaves everything in step. -/
theorem scale_of_inStep {result : Scale.Result} (hserve : stores.Serve opened)
    (hstore : stores.processes.isSome = true) (hshows : world.Shows opened ledger)
    (hnone : world.faults = []) (happ : isFieldName app = true)
    (hcall : call.IsRegular app release) (h : ledger.InStep release formation)
    (hrun : run stores (Scale.scale call.blueprint call.quantities formation) world =
      (result, after)) :
    result.ending = call.due ∧ after.faults = [] ∧
      ∃ moved, after.Shows opened moved ∧ moved.InStep release result.formation := by
  obtain ⟨rfl, htyped, ⟨environment, henvironment⟩, hfits⟩ := hcall
  obtain ⟨hfollows, hcase⟩ := scale_cases hserve hstore hshows h.sound
    (sparesStores_of_no_faults hnone) htyped h.typed hfits hrun
  rw [ScaleCall.due]
  rcases hcase with ⟨issues, hissues, hshown, rfl⟩ |
      ⟨request, done, rest, middle, between, hrequest, rfl, hdone, hend⟩
  · -- quantities that are not valid are refused before anything is done
    rw [hissues]
    exact ⟨rfl, hfollows.faults_eq_nil hnone, ledger, hshown, h⟩
  have hdoneFits : ∀ entry ∈ done, CellNumber.fits entry.2 = true :=
    fun entry hmem => hfits _ hrequest entry (List.mem_append_left _ hmem)
  -- what was worked off of the request left everything in step
  have hmoves := hdone.moves htyped.app
  have hbetween : middle.InStep call.blueprint.release between :=
    { sound := isSound_of_moves hmoves h.sound
      counts := Counts.of_scaled hdone h.counts h.sound htyped.app h.typed hdoneFits
      scheduled := h.scheduled.of_moves hmoves
      typed := hdone.isTyped hdoneFits h.typed
      named := by
        rw [Formation.IsNamed, Formation.keys_of_scaled hdone]
        exact h.named }
  -- Either the whole request was worked off, or an entry stopped it.
  rcases hend with ⟨-, rfl, hshown⟩ | ⟨type, target, tail, failure, moved, rfl, -, -, hstopped⟩
  · rw [hrequest]
    exact ⟨rfl, hfollows.faults_eq_nil hnone, middle, hshown, hbetween⟩
  · -- only a fault stops a request where everything is in step
    have htarget := hfits _ hrequest (type, target) (List.mem_append_right _ List.mem_cons_self)
    exact (hbetween.counts.not_stopped hbetween.scheduled hbetween.sound htyped happ hbetween.typed
      (fun _ hknown => hbetween.named.isFieldName hbetween.typed hknown) henvironment htarget
      ⟨spares_of_no_faults hnone _, spares_of_no_faults hnone _⟩ (spares_of_no_faults hnone _)
      hstopped).elim

/-- **Requests that meet no fault** all end as they are to end. -/
theorem run_scaleAll {calls : List ScaleCall} (hserve : stores.Serve opened)
    (hstore : stores.processes.isSome = true) (hshows : world.Shows opened ledger)
    (hnone : world.faults = []) (happ : isFieldName app = true)
    (hcalls : ∀ call ∈ calls, call.IsRegular app release) (h : ledger.InStep release formation) :
    (run stores (Scale.scaleAll calls formation) world).1 = calls.map ScaleCall.due := by
  -- On the requests: each leaves everything in step, which is what the next one starts from.
  induction calls generalizing world ledger formation with
  | nil => rfl
  | cons call rest ih =>
    rw [Scale.scaleAll, run_plan_bind, run_plan_bind]
    cases hrun : run stores (Scale.scale call.blueprint call.quantities formation) world with
    | mk result after =>
      obtain ⟨hending, hnone', moved, hshown, hmoved⟩ := scale_of_inStep hserve hstore hshows hnone
        happ (hcalls call List.mem_cons_self) h hrun
      rw [List.map_cons, ← hending, ← ih hshown hnone'
        (fun other hmem => hcalls other (List.mem_cons_of_mem _ hmem)) hmoved]
      rfl

end World

/-! ### What a rollout leaves -/

namespace Ledger

variable {app : String} {stores : Stores} {moment : Moment} {ledger after : Ledger}
  {record : List Attempt} {blueprint : Blueprint} {formation : Formation} {version : Int}

/-- **Textual jobs that were all placed** were placed one after the other, each under a name that
was new. -/
theorem Ran.placed {jobs : List Job} (hstore : stores.jobs.isSome = true)
    (htextual : ∀ job ∈ jobs, job.IsTextual) (happ : ∀ job ∈ jobs, job.app = .text app)
    (h : Ran stores moment (Placement.placeAll jobs).attempt ledger record (.ok ()) after) :
    Placed jobs ledger after := by
  -- On the jobs: the first is scheduled and tracked, and the rest starts on the ledger with its
  -- row.
  induction jobs generalizing ledger record with
  | nil =>
    obtain ⟨-, -, rfl⟩ := h.done_cases
    exact .nil
  | cons job rest ih =>
    obtain ⟨_, middle, _, _, hplace, hrest, -⟩ := h.work_bind_ok
    obtain ⟨definition, hdefinition, hplace⟩ := hplace.ofExcept_bind_ok
    obtain ⟨_, _, _, _, hschedule, hadd, -⟩ := hplace.work_bind_ok
    obtain ⟨-, rfl, -⟩ | ⟨_, ⟨⟩, -⟩ := hschedule.schedule_cases
    obtain ⟨row, hrow, -, rfl⟩ | ⟨_, _, ⟨⟩, -⟩ := hadd.add_cases hstore
    -- what was admitted reads back as the job, under the name of its definition
    obtain ⟨hname, hnew⟩ := JobRow.name_of_admit? hrow
    rw [Placement.name_of_definition? hdefinition] at hname
    have hof := happ job List.mem_cons_self
    have hrowApp := (JobRow.fields_of_admit? hrow).1 app hof
    rw [← Except.ok.inj hname] at hnew
    exact .cons hdefinition hnew (Except.ok.inj hname).symm (hrowApp ▸ hof)
      ((htextual job List.mem_cons_self).tracks hrow)
      (ih (fun other hmem => htextual other (List.mem_cons_of_mem _ hmem))
        (fun other hmem => happ other (List.mem_cons_of_mem _ hmem)) hrest)

/-- What is placed is scheduled as well. -/
theorem Placed.schedulesTracked {jobs : List Job} {release : Release}
    (h : Placed jobs ledger after) (happ : release.app = .text app)
    (hversion : release.version = .int version)
    (hfresh : ∀ given ∈ ledger.tracked, ¬IsVersionOf app version given) :
    after.SchedulesTracked release := by
  obtain ⟨names, -, htracked, hscheduled⟩ := h.exists_names
  intro kind order given hgiven hmem
  rw [htracked] at hmem
  -- Names of the release were not tracked before, so those that are tracked now were placed.
  rcases List.mem_append.mp hmem with hold | hnew
  · exact absurd (isVersionOf_of_text? happ hversion hgiven) (hfresh given hold)
  · exact (hscheduled given).mpr (.inl hnew)

/-- **A rollout that came to its end**, with faults on its way or without: its jobs were placed, and
its cleanup has the tracked jobs of the application from before. -/
theorem Ran.placed_of_rollOut {policy : Policy} {cleanup : Cleanup}
    (hstore : stores.jobs.isSome = true) (hsound : ledger.IsSound)
    (happ : blueprint.release.app = .text app) (hblueprint : blueprint.IsTextual)
    (hformation : formation.IsTextual)
    (h : Ran stores moment (rollOut policy blueprint formation).attempt ledger record (.ok cleanup)
      after) :
    after.IsSound ∧ cleanup.events = policy.events ∧
      Job.NamesOf cleanup.stale (ledger.trackedOf app) ∧
      ∃ jobs, blueprint.jobs formation = .ok jobs ∧ Placed jobs ledger after := by
  obtain ⟨hlisted, -, hevents, jobs, placing, hjobs, hran⟩ := h.rollOut_ok
  have hsubmits : ∀ job ∈ jobs, blueprint.Submits formation (fun _ => True) job :=
    submits_of_mem_jobs hjobs fun _ _ _ _ => trivial
  have hof : ∀ job ∈ jobs, job.app = .text app := fun job hmem => (hsubmits job hmem).app.trans happ
  have hplaced := hran.placed hstore
    (fun job hmem => (hsubmits job hmem).isTextual hblueprint hformation) hof
  rw [happ, listed?_text] at hlisted
  exact ⟨isSound_of_moves (hplaced.moves hof) hsound, hevents, hsound.namesOf_listed hlisted, jobs,
    hjobs, hplaced⟩

/-- **After a rollout of a fresh version everything is in step.** -/
theorem Placed.inStep {jobs : List Job} (h : Placed jobs ledger after) (hsound : after.IsSound)
    (happ : blueprint.release.app = .text app) (hversion : blueprint.release.version = .int version)
    (hfresh : ∀ given ∈ ledger.tracked, ¬IsVersionOf app version given)
    (htyped : formation.IsTyped) (hkeyed : formation.IsKeyed) (hnamed : formation.IsNamed)
    (hjobs : blueprint.jobs formation = .ok jobs) :
    after.InStep blueprint.release formation where
  sound := hsound
  counts := h.hasInstance_of_jobs hsound happ hversion hfresh htyped hkeyed hjobs
  scheduled := h.schedulesTracked happ hversion hfresh
  typed := htyped
  named := hnamed

end Ledger

end Rollout
