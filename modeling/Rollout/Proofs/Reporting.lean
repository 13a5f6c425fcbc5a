import Rollout.Proofs.ReleaseStrokes
import Rollout.Proofs.WorkingLog

/-!
# What operations report

An operation reports to the log what it came to. This file reads the reports off the conversation
of an operation (`reported`), for every conversation in which the log took what it was told, and
says for which conversations there is which report:

* a rollout reports one event if all of its jobs were scheduled and tracked, and it succeeds then;
  otherwise it fails and reports nothing (`tells_rollOut`);
* a cleanup that comes to its end reports one event, which is an error if and only if the cleanup
  failed (`Cleanup.tells_afterGrace`).

That all jobs were scheduled and tracked is told by what was said about them: `Placement.Placed`
lists the calls and that each of them succeeded.
-/

namespace Rollout

open Plan (Leads leads_done_iff leads_call_iff leads_bind_iff leads_work_bind_iff)

variable {α β : Type} {allowed : Event → Prop} {blueprint : Blueprint} {exchanges : List Said}

/-! ### What is said in one step -/

theorem Call.leads_ask_iff {request : Call} {answer : request.Answer} :
    Leads request.ask exchanges (.done answer) ↔ exchanges = [⟨request, answer⟩] :=
  Plan.leads_ask_iff

namespace Action

theorem leads_schedule_iff {definition : Definition} :
    Leads (schedule definition).attempt exchanges (.done (.ok ())) ↔
      exchanges = [⟨.schedule definition, .ok ()⟩] :=
  Call.leads_ask_iff

theorem leads_unschedule_iff {name : String} :
    Leads (unschedule name).attempt exchanges (.done (.ok ())) ↔
      exchanges = [⟨.unschedule (.text name), .ok ()⟩] :=
  Call.leads_ask_iff

theorem leads_add_iff {job : Job} : Leads (add job).attempt exchanges (.done (.ok ())) ↔
    exchanges = [⟨.add job, .ok ()⟩] :=
  Call.leads_ask_iff

theorem leads_remove_iff {job : Job} : Leads (remove job).attempt exchanges (.done (.ok ())) ↔
    exchanges = [⟨.remove job, .ok ()⟩] :=
  Call.leads_ask_iff

theorem leads_list_iff {app : Value} {result : Except Failure (List Job)} :
    Leads (list app).attempt exchanges (.done result) ↔ exchanges = [⟨.list app, result⟩] :=
  Call.leads_ask_iff

end Action

/-- What is known beforehand needs nothing to be said. -/
theorem Work.leads_ofExcept_bind_iff {known : Except Failure α} {next : α → Action β}
    {result : Except Failure β} :
    Leads (Work.ofExcept known >>= next).attempt exchanges (.done result) ↔
      (∃ value, known = .ok value ∧ Leads (next value).attempt exchanges (.done result)) ∨
      ∃ failure, known = .error failure ∧ exchanges = [] ∧ result = .error failure := by
  cases known with
  | ok value =>
    refine ⟨fun h => .inl ⟨value, rfl, h⟩, ?_⟩
    rintro (⟨_, heq, h⟩ | ⟨_, heq, -⟩)
    · obtain rfl := Except.ok.inj heq
      exact h
    · cases heq
  | error failure =>
    refine ⟨fun h => ?_, ?_⟩
    · obtain ⟨rfl, rfl⟩ := leads_done_iff.mp h
      exact .inr ⟨failure, rfl, rfl, rfl⟩
    -- Only the second case fits a failure that is known beforehand.
    · rintro (⟨_, heq, -⟩ | ⟨_, heq, rfl, rfl⟩)
      · cases heq
      · obtain rfl := Except.error.inj heq
        exact .here

/-- An event that is taken is all that is said. -/
theorem Action.said_of_log {event : Event} {result : Except Failure Unit}
    (h : Leads (Action.log event).attempt exchanges (.done result))
    (htaken : ∀ exchange ∈ exchanges, exchange.IsTaken) :
    exchanges = [⟨.log event, .ok ()⟩] ∧ result = .ok () := by
  obtain ⟨answer, later, rfl, hlater⟩ := leads_call_iff.mp h
  -- The event was taken, so the log has no failure to weigh.
  obtain rfl := htaken _ List.mem_cons_self event answer rfl
  obtain ⟨rfl, rfl⟩ := leads_done_iff.mp hlater
  exact ⟨rfl, rfl⟩

/-! ### Placing and withdrawing -/

namespace Placement

variable {job : Job} {jobs : List Job}

theorem reports_place (job : Job) : Action.Reports allowed (place job) :=
  .bind (.of_ofExcept _) fun definition => .bind (.ask (.schedule definition) nofun) fun _ =>
    .ask (.add job) nofun

theorem reports_placeAll (jobs : List Job) : Action.Reports allowed (placeAll jobs) := by
  induction jobs with
  | nil => exact .of_pure ()
  | cons job rest ih => exact .bind (reports_place job) fun _ => ih

theorem reports_withdraw (job : Job) : Action.Reports allowed (withdraw job) :=
  .bind (.of_ofExcept _) fun name => .bind (.ask (.unschedule (.text name)) nofun) fun _ =>
    .ask (.remove job) nofun

/-- What is said when jobs are placed, one after the other: each is scheduled and tracked, with
nothing between the two calls. -/
inductive Placed : List Job → List Said → Prop where
  | nil : Placed [] []
  | cons {job : Job} {rest : List Job} {definition : Definition} {exchanges : List Said}
      (hdefinition : definition? job = .ok definition) (hrest : Placed rest exchanges) :
    Placed (job :: rest) (⟨.schedule definition, .ok ()⟩ :: ⟨.add job, .ok ()⟩ :: exchanges)

/-- Two calls are made one after the other, and both succeed. -/
theorem leads_pair_iff {first second : Action Unit} {request other : Call}
    {answer : request.Answer} {answer' : other.Answer}
    (hfirst : ∀ {exchanges}, Leads first.attempt exchanges (.done (.ok ())) ↔
      exchanges = [⟨request, answer⟩])
    (hsecond : ∀ {exchanges}, Leads second.attempt exchanges (.done (.ok ())) ↔
      exchanges = [⟨other, answer'⟩]) :
    Leads (first >>= fun _ => second).attempt exchanges (.done (.ok ())) ↔
      exchanges = [⟨request, answer⟩, ⟨other, answer'⟩] := by
  -- A failure of the first call would be the result, so only the case of two successes is left.
  rw [leads_work_bind_iff]
  simp only [hfirst, hsecond]
  constructor
  · rintro (⟨_, _, _, rfl, rfl, rfl⟩ | ⟨_, -, heq⟩)
    · rfl
    · cases heq
  · rintro rfl
    exact .inl ⟨(), _, _, rfl, rfl, rfl⟩

theorem leads_place_iff : Leads (place job).attempt exchanges (.done (.ok ())) ↔
    ∃ definition, definition? job = .ok definition ∧
      exchanges = [⟨.schedule definition, .ok ()⟩, ⟨.add job, .ok ()⟩] := by
  rw [place, Work.leads_ofExcept_bind_iff]
  constructor
  · rintro (⟨definition, hdefinition, h⟩ | ⟨_, -, -, heq⟩)
    · exact ⟨definition, hdefinition,
        (leads_pair_iff Action.leads_schedule_iff Action.leads_add_iff).mp h⟩
    · cases heq
  · rintro ⟨definition, hdefinition, h⟩
    exact .inl ⟨definition, hdefinition,
      (leads_pair_iff Action.leads_schedule_iff Action.leads_add_iff).mpr h⟩

/-- **All jobs are placed if each of them is scheduled and tracked**, and only then. The
conversation alone tells it, so nothing is asked of the world in which it was had. -/
theorem leads_placeAll_iff :
    Leads (placeAll jobs).attempt exchanges (.done (.ok ())) ↔ Placed jobs exchanges := by
  -- On the jobs, each of which takes its two calls off the conversation.
  induction jobs generalizing exchanges with
  | nil =>
    constructor
    · intro h
      obtain ⟨rfl, -⟩ := leads_done_iff.mp h
      exact .nil
    · intro h
      cases h
      exact .here
  | cons job rest ih =>
    rw [placeAll_cons, leads_work_bind_iff]
    constructor
    · -- the first job goes well, and then the others do
      rintro (⟨_, first, second, hfirst, hsecond, rfl⟩ | ⟨_, -, heq⟩)
      · obtain ⟨definition, hdefinition, rfl⟩ := leads_place_iff.mp hfirst
        exact .cons hdefinition (ih.mp hsecond)
      · cases heq
    · intro h
      cases h with
      | cons hdefinition hrest =>
        exact .inl ⟨(), _, _, leads_place_iff.mpr ⟨_, hdefinition, rfl⟩, ih.mpr hrest, rfl⟩

/-- What is placed has a name. -/
theorem Placed.exists_name (h : Placed jobs exchanges) (hmem : job ∈ jobs) :
    ∃ name, job.name? = .ok name := by
  induction h with
  | nil => cases hmem
  | cons hdefinition _ ih =>
    rcases List.mem_cons.mp hmem with rfl | hrest
    · obtain ⟨name, hname, -⟩ := bind_eq_ok.mp hdefinition
      exact ⟨name, hname⟩
    · exact ih hrest

theorem leads_withdraw_iff : Leads (withdraw job).attempt exchanges (.done (.ok ())) ↔
    ∃ name, job.name? = .ok name ∧
      exchanges = [⟨.unschedule (.text name), .ok ()⟩, ⟨.remove job, .ok ()⟩] := by
  rw [withdraw, Work.leads_ofExcept_bind_iff]
  constructor
  · rintro (⟨name, hname, h⟩ | ⟨_, -, -, heq⟩)
    · exact ⟨name, hname, (leads_pair_iff Action.leads_unschedule_iff Action.leads_remove_iff).mp h⟩
    · cases heq
  · rintro ⟨name, hname, h⟩
    exact .inl ⟨name, hname,
      (leads_pair_iff Action.leads_unschedule_iff Action.leads_remove_iff).mpr h⟩

end Placement

/-! ### Rolling out -/

/-- Settings that a cleanup can be made with. A rollout that has placed its jobs then cannot fail at
making its cleanup. -/
structure Policy.IsValid (policy : Policy) : Prop where
  grace : ∃ seconds, Cleanup.secondsOf policy.grace = .ok seconds
  retries : ∃ n, policy.retries.toInteger = .ok n
  delay : ∃ seconds, Cleanup.secondsOf policy.delay = .ok seconds

/-- With valid settings there is a cleanup of whatever is stale. -/
theorem Policy.IsValid.exists_cleanup {policy : Policy} (h : policy.IsValid) (stale : List Job)
    (release : Release) (events : Value) : ∃ cleanup,
      Cleanup.make? stale policy.grace policy.retries policy.delay release events =
        .ok cleanup := by
  obtain ⟨⟨grace, hgrace⟩, ⟨retries, hretries⟩, ⟨delay, hdelay⟩⟩ := h
  rw [Cleanup.make?, hgrace, hretries, hdelay]
  exact ⟨_, rfl⟩

/-- The version of a release that the log keeps can be shown. -/
theorem Release.IsKept.shown {release : Release} (h : release.IsKept) :
    ∃ version, release.version.shown? = .ok version := by
  rw [Value.shown?]
  rcases h.version with hversion | ⟨n, hversion, hfits⟩
  · rw [hversion]
    exact ⟨_, rfl⟩
  · rw [hversion, Value.writable, CellNumber.writable_of_fits hfits]
    exact ⟨_, rfl⟩

/-- The stale jobs were listed, and then all jobs of the formation were scheduled and tracked. It
says what was said and not what came of it, so it can be decided from the conversation alone. -/
def Blueprint.IsPlaced (blueprint : Blueprint) (formation : Formation) (exchanges : List Said) :
    Prop :=
  ∃ jobs stale placed rest, blueprint.jobs formation = .ok jobs ∧ Placement.Placed jobs placed ∧
    exchanges = ⟨.list blueprint.release.app, .ok stale⟩ :: (placed ++ rest)

/-- What a rollout tells the log, and whether it succeeds, going by what was said. It succeeds
exactly if it told the log, and then the message has the number of its jobs. -/
inductive Blueprint.Tells (blueprint : Blueprint) (formation : Formation) (exchanges : List Said) :
    Except Failure α → List Event → Prop where
  /-- All jobs were placed. -/
  | placed {jobs : List Job} {version : String} {value : α}
      (hplaced : blueprint.IsPlaced formation exchanges)
      (hjobs : blueprint.jobs formation = .ok jobs)
      (hversion : blueprint.release.version.shown? = .ok version) :
    Tells blueprint formation exchanges (.ok value)
      [.info blueprint.release s!"Scheduled {jobs.length} job(s) for release v{version}"]
  /-- It was aborted before. -/
  | aborted {failure : Failure} (hnot : ¬blueprint.IsPlaced formation exchanges) :
    Tells blueprint formation exchanges (.error failure) []

theorem reports_rollOut (policy : Policy)
    (hinfo : ∀ message, allowed (.info blueprint.release message)) (formation : Formation) :
    Action.Reports allowed (rollOut policy blueprint formation) :=
  .bind (.of_list _) fun _ => .bind (.of_ofExcept _) fun jobs =>
    .bind (Placement.reports_placeAll jobs) fun _ => .bind (.of_ofExcept _) fun _ =>
      .bind (.of_log (hinfo _)) fun _ => .of_ofExcept _

/-- Once all jobs are placed a rollout says so and succeeds. -/
theorem said_of_placed {policy : Policy} {stale : List Job} {count : Nat}
    {answer : Except Failure Cleanup} (hpolicy : policy.IsValid)
    (hrelease : blueprint.release.IsKept)
    (h : Leads (do
        let version ← Work.ofExcept blueprint.release.version.shown?
        Action.log
          (.info blueprint.release s!"Scheduled {count} job(s) for release v{version}")
        Work.ofExcept (Cleanup.make? stale policy.grace policy.retries policy.delay
          blueprint.release policy.events) : Action Cleanup).attempt exchanges (.done answer))
    (htaken : ∀ exchange ∈ exchanges, exchange.IsTaken) :
    ∃ version cleanup, blueprint.release.version.shown? = .ok version ∧ answer = .ok cleanup ∧
      exchanges = [⟨.log (.info blueprint.release
        s!"Scheduled {count} job(s) for release v{version}"), .ok ()⟩] := by
  obtain ⟨version, hversion⟩ := hrelease.shown
  obtain ⟨cleanup, hcleanup⟩ := hpolicy.exists_cleanup stale blueprint.release policy.events
  rcases Work.leads_ofExcept_bind_iff.mp h with ⟨_, hshown, htell⟩ | ⟨_, hshown, -⟩ <;>
    cases hversion.symm.trans hshown
  rcases leads_work_bind_iff.mp htell with ⟨_, told, last, htold, hmade, rfl⟩ | ⟨_, htold, -⟩
  · obtain ⟨rfl, -⟩ := Action.said_of_log htold fun exchange hmem =>
      htaken exchange (List.mem_append_left _ hmem)
    rw [hcleanup] at hmade
    obtain ⟨rfl, rfl⟩ := leads_done_iff.mp hmade
    exact ⟨version, cleanup, hversion, rfl, rfl⟩
  -- The log took the event, so telling it did not fail.
  · cases (Action.said_of_log htold htaken).2

/-- **A rollout tells the log that all of its jobs were placed**, and it tells nothing if they were
not. -/
theorem tells_rollOut {policy : Policy} {formation : Formation} {answer : Except Failure Cleanup}
    (hpolicy : policy.IsValid) (hrelease : blueprint.release.IsKept)
    (h : Leads (rollOut policy blueprint formation).attempt exchanges (.done answer))
    (htaken : ∀ exchange ∈ exchanges, exchange.IsTaken) :
    blueprint.Tells formation exchanges answer (reported exchanges) := by
  rcases leads_work_bind_iff.mp h with ⟨stale, _, later, hlist, hexpand, rfl⟩ |
      ⟨failure, hlist, rfl⟩ <;> obtain rfl := Action.leads_list_iff.mp hlist
  -- The jobs are known, and from here on it depends on whether all of them can be placed.
  · rcases Work.leads_ofExcept_bind_iff.mp hexpand with ⟨jobs, hjobs, hplace⟩ |
        ⟨failure, hjobs, rfl, rfl⟩
    · rcases leads_work_bind_iff.mp hplace with ⟨_, placed, rest, hplaced, htell, rfl⟩ |
          ⟨failure, hfailed, rfl⟩
      · obtain ⟨version, cleanup, hversion, rfl, rfl⟩ := said_of_placed hpolicy hrelease htell
          fun exchange hmem =>
            htaken exchange (List.mem_append_right _ (List.mem_append_right _ hmem))
        rw [reported_append, reported_append,
          Plan.Reports.reported_eq_nil (Placement.reports_placeAll jobs) hplaced]
        exact .placed
          ⟨jobs, stale, placed, _, hjobs, Placement.leads_placeAll_iff.mp hplaced, rfl⟩
          hjobs hversion
      · rw [reported_append, Plan.Reports.reported_eq_nil (Placement.reports_placeAll jobs) hfailed]
        -- had all jobs been placed, placing them would not have failed
        refine .aborted fun ⟨others, _, placed, rest, hothers, hplaced, heq⟩ => ?_
        obtain rfl := Except.ok.inj (hjobs.symm.trans hothers)
        obtain rfl := (List.cons.inj heq).2
        obtain ⟨left, hfirst, hlast⟩ := hfailed.of_append
        obtain rfl := hfirst.unique (Placement.leads_placeAll_iff.mpr hplaced)
        cases (leads_done_iff.mp hlast).2
    -- the formation does not say which jobs are to be placed
    · exact .aborted fun ⟨_, _, _, _, hothers, _⟩ => nomatch hjobs.symm.trans hothers
  -- the stale jobs could not be listed, and that comes before everything else
  · refine .aborted fun ⟨_, _, _, _, _, _, heq⟩ => ?_
    cases (List.cons.inj heq).1

theorem Survey.reports_survey (app : Value) : Action.Reports allowed (survey app) :=
  .bind (.of_list app) fun _ => .bind (.ask .report nofun) fun _ => .of_ofExcept _

/-! ### Cleaning up -/

namespace Cleanup

variable {cleanup : Cleanup} {progress : Progress} {outcome : Outcome}

theorem reports_withRetries {delay : Binary64} {step : Action Unit}
    (h : Action.Reports allowed step) (retries : Nat) :
    Action.Reports allowed (withRetries delay step retries) := by
  -- Waits and further tries report no more than the step itself.
  induction retries with
  | zero => exact h
  | succ retries ih =>
    refine Plan.Reports.bind h fun tried => ?_
    cases tried with
    | ok _ => exact .done
    | error failure =>
      refine Plan.Reports.bind (.ask (.wait delay) nofun) fun waited => ?_
      match waited with
      | .error _ => exact .done
      | .ok true => exact .done
      | .ok false => exact ih

theorem reports_retire (job : Job) : Action.Reports allowed (cleanup.retire job) :=
  .bind (reports_withRetries (.bind (.of_ofExcept _) fun name =>
    .ask (.unschedule (.text name)) nofun) _) fun _ =>
      reports_withRetries (.ask (.remove job) nofun) _

theorem reports_finish {event : Event} (h : allowed event) (phase : Phase) :
    (finish progress phase event).Reports allowed := by
  refine .bind (Action.Reports.of_log h) fun logged => ?_
  cases logged <;> exact .done

/-- Where a cleanup stops, it reports that it was cancelled, or that it failed. -/
theorem reports_stopAt (hinfo : ∀ message, allowed (.info cleanup.release message))
    (herror : ∀ message, allowed (.error cleanup.release message)) (progress : Progress) (job : Job)
    (failure : Failure) : (cleanup.stopAt progress job failure).Reports allowed := by
  refine .bind (.ask .cancelled nofun) fun cancelled => ?_
  cases job.name? with
  | error crash => exact .done
  | ok name =>
    dsimp only
    split
    · exact reports_finish (hinfo _) _
    · exact reports_finish (herror _) _

/-- A sweep reports only at its end: retiring a job is no event. -/
theorem reports_sweep (hinfo : ∀ message, allowed (.info cleanup.release message))
    (herror : ∀ message, allowed (.error cleanup.release message)) (progress : Progress)
    (jobs : List Job) : (cleanup.sweep progress jobs).Reports allowed := by
  -- On the jobs that are left: wherever it ends, it is with one of the two kinds of events.
  induction jobs generalizing progress with
  | nil => exact reports_finish (hinfo _) _
  | cons job rest ih =>
    refine .bind (.ask .cancelled nofun) fun cancelled => ?_
    split
    · exact reports_finish (hinfo _) _
    · refine .bind (reports_retire job) fun retired => ?_
      cases retired with
      | error failure => exact reports_stopAt hinfo herror progress job failure
      | ok _ => exact ih _

/-- **A cleanup reports what it came to**, and nothing else. There is one event at its end, and
whether it is an error depends on how it ended. -/
theorem reports_afterGrace (hinfo : ∀ message, allowed (.info cleanup.release message))
    (herror : ∀ message, allowed (.error cleanup.release message)) (progress : Progress)
    (grace : Except Failure Bool) : (cleanup.afterGrace progress grace).Reports allowed := by
  match grace with
  | .error _ => exact .done
  | .ok true => exact reports_finish (hinfo _) _
  | .ok false => exact reports_sweep hinfo herror _ _

/-- What a run of a cleanup tells the log, and how it ended. A run that did not come to its end
tells nothing, since the failure leaves the run at once. -/
inductive Tells (cleanup : Cleanup) (grace : Except Failure Bool) :
    Outcome → List Event → Prop where
  /-- It came to its end. -/
  | ended {progress : Progress} {message : String}
      (hphase : progress.phase = .done ∨ progress.phase = .cancelled) :
    Tells cleanup grace ⟨progress, none⟩ [.info cleanup.release message]
  /-- A job could not be removed. -/
  | failed {progress : Progress} {message : String} (hphase : progress.phase = .failed) :
    Tells cleanup grace ⟨progress, none⟩ [.error cleanup.release message]
  /-- It did not come to its end: the wait itself failed, or there was a job without a name. -/
  | crashed {progress : Progress} {failure : Failure}
      (hreason : grace = .error failure ∨ ∃ job ∈ cleanup.stale, job.name? = .error failure) :
    Tells cleanup grace ⟨progress, some failure⟩ []

/-- The end of a run is told, and the run is over. -/
theorem said_of_finish {phase : Phase} {event : Event}
    (h : Leads (finish progress phase event) exchanges (.done outcome))
    (htaken : ∀ exchange ∈ exchanges, exchange.IsTaken) :
    exchanges = [⟨.log event, .ok ()⟩] ∧ outcome = ⟨{ progress with phase }, none⟩ := by
  -- The event is the only thing said, and what the log answers is not looked at.
  obtain ⟨logged, first, second, hfirst, hsecond, rfl⟩ := leads_bind_iff.mp h
  obtain ⟨rfl, rfl⟩ := Action.said_of_log hfirst fun exchange hmem =>
    htaken exchange (List.mem_append_left _ hmem)
  obtain ⟨rfl, rfl⟩ := leads_done_iff.mp hsecond
  exact ⟨rfl, rfl⟩

theorem tells_stopAt {grace : Except Failure Bool} {job : Job} {failure : Failure}
    (hmem : job ∈ cleanup.stale)
    (h : Leads (cleanup.stopAt progress job failure) exchanges (.done outcome))
    (htaken : ∀ exchange ∈ exchanges, exchange.IsTaken) :
    cleanup.Tells grace outcome (reported exchanges) := by
  obtain ⟨flag, later, rfl, hlater⟩ := leads_call_iff.mp h
  have hlast : ∀ exchange ∈ later, exchange.IsTaken := fun exchange hmem =>
    htaken exchange (List.mem_cons_of_mem _ hmem)
  -- both messages give the name of the job
  cases hname : job.name? with
  | error crash =>
    simp only [hname] at hlater
    obtain ⟨rfl, rfl⟩ := leads_done_iff.mp hlater
    exact .crashed (.inr ⟨job, hmem, hname⟩)
  | ok name =>
    simp only [hname] at hlater
    -- The question for a cancellation decides what is told.
    cases flag with
    | true =>
      obtain ⟨rfl, rfl⟩ := said_of_finish hlater hlast
      exact .ended (.inr rfl)
    | false =>
      obtain ⟨rfl, rfl⟩ := said_of_finish hlater hlast
      exact .failed rfl

theorem tells_sweep {grace : Except Failure Bool} {jobs : List Job}
    (hjobs : ∀ job ∈ jobs, job ∈ cleanup.stale)
    (h : Leads (cleanup.sweep progress jobs) exchanges (.done outcome))
    (htaken : ∀ exchange ∈ exchanges, exchange.IsTaken) :
    cleanup.Tells grace outcome (reported exchanges) := by
  -- On the jobs that are left. Only the end of the sweep says anything.
  induction jobs generalizing progress exchanges with
  | nil =>
    obtain ⟨rfl, rfl⟩ := said_of_finish h htaken
    exact .ended (.inl rfl)
  | cons job rest ih =>
    obtain ⟨flag, later, rfl, hlater⟩ := leads_call_iff.mp h
    have hlast : ∀ exchange ∈ later, exchange.IsTaken := fun exchange hmem =>
      htaken exchange (List.mem_cons_of_mem _ hmem)
    cases flag with
    | true =>
      obtain ⟨rfl, rfl⟩ := said_of_finish hlater hlast
      exact .ended (.inr rfl)
    | false =>
      change Leads ((cleanup.retire job).attempt >>= _) later (.done outcome) at hlater
      obtain ⟨retired, first, second, hfirst, hsecond, rfl⟩ := leads_bind_iff.mp hlater
      have hrest : ∀ exchange ∈ second, exchange.IsTaken := fun exchange hmem =>
        hlast exchange (List.mem_append_right _ hmem)
      change cleanup.Tells grace outcome (reported (first ++ second))
      -- retiring a job is silent, however often it is tried
      rw [reported_append, Plan.Reports.reported_eq_nil (reports_retire job) hfirst]
      -- A job that could not be removed ends the sweep.
      cases retired with
      | error failure => exact tells_stopAt (hjobs job List.mem_cons_self) hsecond hrest
      | ok _ =>
        exact ih (fun other hmem => hjobs other (List.mem_cons_of_mem _ hmem)) hsecond hrest

/-- **A run of a cleanup tells the log what it came to**: one event, which is an error if and only
if the cleanup failed. -/
theorem tells_afterGrace {grace : Except Failure Bool}
    (h : Leads (cleanup.afterGrace progress grace) exchanges (.done outcome))
    (htaken : ∀ exchange ∈ exchanges, exchange.IsTaken) :
    cleanup.Tells grace outcome (reported exchanges) := by
  match grace with
  | .error failure =>
    obtain ⟨rfl, rfl⟩ := leads_done_iff.mp h
    exact .crashed (.inl rfl)
  | .ok true =>
    obtain ⟨rfl, rfl⟩ := said_of_finish h htaken
    exact .ended (.inr rfl)
  | .ok false => exact tells_sweep (fun _ hmem => hmem) h htaken

end Cleanup

end Rollout
