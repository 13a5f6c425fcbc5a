import Rollout.Proofs.TwinWorlds

/-!
# Operations that ignore the log

Every operation ignores the log (`Plan.IgnoresLog`): wherever it logs an event, it goes on in the
same way whether the event was logged or the log let its failure pass. A rollout logs before its
cleanup is made, scaling logs between a change and the record of it, and a cleanup logs wherever it
ends; all that these have to say is about a release, and it is enough that the release fits into the
log.

* `ignoresLog_rollOut`, `Scale.ignoresLog_scale`, `Survey.ignoresLog_survey`
* `Cleanup.ignoresLog_afterGrace`
-/

namespace Rollout

variable {blueprint : Blueprint}

/-! ### Placing -/

namespace Placement

theorem ignoresLog_place (job : Job) : Action.IgnoresLog (place job) :=
  .bind (.of_ofExcept _) fun definition =>
    .bind (Call.ignoresLog_ask (.schedule definition) nofun) fun _ =>
      Call.ignoresLog_ask (.add job) nofun

theorem ignoresLog_placeAll (jobs : List Job) : Action.IgnoresLog (placeAll jobs) := by
  induction jobs with
  | nil => exact .of_pure ()
  | cons job rest ih => exact .bind (ignoresLog_place job) fun _ => ih

theorem ignoresLog_withdraw (job : Job) : Action.IgnoresLog (withdraw job) :=
  .bind (.of_ofExcept _) fun name =>
    .bind (Call.ignoresLog_ask (.unschedule (.text name)) nofun) fun _ =>
      Call.ignoresLog_ask (.remove job) nofun

end Placement

/-- **A rollout ignores the log.** Its event is logged before the cleanup is made, and a failure of
the log that is not let pass would lose the cleanup; a release that fits into the log has no such
failure. -/
theorem ignoresLog_rollOut (policy : Policy) (h : blueprint.release.IsLoggable)
    (formation : Formation) : Action.IgnoresLog (rollOut policy blueprint formation) := by
  -- All calls but the last are none of the log, so whatever they are answered is answered in both
  -- runs.
  refine .bind (Call.ignoresLog_ask (.list _) nofun) fun stale =>
    .bind (.of_ofExcept _) fun jobs => .bind (Placement.ignoresLog_placeAll jobs) fun _ =>
      .bind (.of_ofExcept _) fun version => .bind (.of_log ?_) fun _ => .of_ofExcept _
  exact h.event _ _

/-! ### Scaling -/

namespace Scale

variable {release : Release} {type : String} {process : ProcessType} {target : Nat}

theorem ignoresLog_placeFrom (template : Job.Template) (command : Value) (ordinal count : Nat) :
    Action.IgnoresLog (placeFrom template type command ordinal count) := by
  induction count generalizing ordinal with
  | zero => exact .of_pure ()
  | succ count ih => exact .bind (Placement.ignoresLog_place _) fun _ => ih _

theorem ignoresLog_growTo : Action.IgnoresLog (growTo blueprint type process target) :=
  .bind (.of_ofExcept _) fun _ => .bind (.of_ofExcept _) fun _ => ignoresLog_placeFrom _ _ _ _

theorem ignoresLog_withdrawAbove (tracked : List (String × Job)) (count : Nat) :
    Action.IgnoresLog (withdrawAbove release tracked type target count) := by
  induction count with
  | zero => exact .of_pure ()
  | succ count ih =>
    refine .bind (.bind (.of_ofExcept _) fun name => ?_) fun _ => ih
    -- An instance that is not tracked ends the work, and it does so before anything is logged.
    cases find? tracked name with
    | none => exact .of_throw _
    | some job => exact Placement.ignoresLog_withdraw job

theorem ignoresLog_shrinkTo : Action.IgnoresLog (shrinkTo release type process target) :=
  .bind (Call.ignoresLog_ask (.list _) nofun) fun _ => .bind (.of_ofExcept _) fun tracked =>
    .bind (.of_ofExcept _) fun _ => ignoresLog_withdrawAbove tracked _

theorem ignoresLog_adjust : Action.IgnoresLog (adjust blueprint type process target) := by
  rw [adjust]
  split
  · exact ignoresLog_growTo
  · exact ignoresLog_shrinkTo
  · exact .of_pure ()

theorem ignoresLog_logChange (h : release.IsLoggable) :
    Action.IgnoresLog (logChange release type process target) := by
  rw [logChange]
  -- An event tells of a change only if there is one.
  split
  · refine .bind (.of_ofExcept _) fun _ => .bind (.of_ofExcept _) fun _ => .of_log ?_
    exact h.event _ _
  · exact .of_pure ()

theorem ignoresLog_scaleType (h : blueprint.release.IsLoggable) :
    (scaleType blueprint type process target).IgnoresLog := by
  refine .bind (Action.IgnoresLog.bind ignoresLog_adjust fun _ => ignoresLog_logChange h)
    fun changed => ?_
  -- The event stands between the change and the record of it, and the record is made in either
  -- case.
  cases changed with
  | error failure => exact .done
  | ok _ => exact .bind (Call.ignoresLog_ask (.update _) nofun) fun _ => .done

theorem ignoresLog_scaleTypes (h : blueprint.release.IsLoggable) (request : ScaleRequest)
    (formation : Formation) : (scaleTypes blueprint request formation).IgnoresLog := by
  induction request generalizing formation with
  | nil => exact .done
  | cons first rest ih =>
    obtain ⟨type, target⟩ := first
    rw [scaleTypes]
    split
    · exact ih formation
    · refine .bind (ignoresLog_scaleType h) fun scaled => ?_
      -- A failure of one type ends the whole request.
      obtain ⟨process, failure | _⟩ := scaled
      · exact .done
      · exact ih _

/-- **Scaling a release ignores the log.** -/
theorem ignoresLog_scale (h : blueprint.release.IsLoggable) (quantities : List (Value × Value))
    (formation : Formation) : (scale blueprint quantities formation).IgnoresLog := by
  rw [scale_eq]
  split
  · exact .done
  · exact ignoresLog_scaleTypes h _ formation

end Scale

theorem Survey.ignoresLog_survey (app : Value) : Action.IgnoresLog (survey app) :=
  .bind (Call.ignoresLog_ask (.list app) nofun) fun _ =>
    .bind (Call.ignoresLog_ask .report nofun) fun _ => .of_ofExcept _

/-! ### Cleaning up -/

namespace Cleanup

variable {cleanup : Cleanup} {progress : Progress}

theorem ignoresLog_withRetries {delay : Binary64} {step : Action Unit}
    (h : Action.IgnoresLog step) (retries : Nat) :
    Action.IgnoresLog (withRetries delay step retries) := by
  induction retries with
  | zero => exact h
  | succ retries ih =>
    refine Plan.IgnoresLog.bind h fun tried => ?_
    cases tried with
    | ok _ => exact .done
    | error failure =>
      refine .bind (Call.ignoresLog_wait delay) fun waited => ?_
      -- The wait fails, or is cut short, or is over: only then there is another try.
      match waited with
      | .error _ => exact .done
      | .ok true => exact .done
      | .ok false => exact ih

theorem ignoresLog_retire (job : Job) : Action.IgnoresLog (cleanup.retire job) := by
  refine .bind (ignoresLog_withRetries (.bind (.of_ofExcept _) fun name => ?_) _)
    fun _ => ignoresLog_withRetries (Call.ignoresLog_ask (.remove job) nofun) _
  exact Call.ignoresLog_ask (.unschedule (.text name)) nofun

/-- A run ends in the same way whatever becomes of the event that tells. -/
theorem ignoresLog_finish {event : Event} (hevent : event.IsLoggable) (phase : Phase) :
    (finish progress phase event).IgnoresLog := by
  refine .bind (Action.IgnoresLog.of_log hevent) fun logged => ?_
  cases logged <;> exact .done

theorem ignoresLog_stopAt (h : cleanup.release.IsLoggable) (job : Job) (failure : Failure) :
    (cleanup.stopAt progress job failure).IgnoresLog := by
  refine .bind (Call.ignoresLog_ask .cancelled nofun) fun cancelled => ?_
  cases job.name? with
  | error crash => exact .done
  | ok name =>
    dsimp only
    -- Whether it was cancelled or gave up, it finishes with an event.
    split <;> exact ignoresLog_finish (h.event _ _) _

theorem ignoresLog_sweep (h : cleanup.release.IsLoggable) (jobs : List Job) :
    (cleanup.sweep progress jobs).IgnoresLog := by
  -- On the jobs that are left. A sweep logs exactly once, where it ends.
  induction jobs generalizing progress with
  | nil => exact ignoresLog_finish (h.event _ _) _
  | cons job rest ih =>
    refine .bind (Call.ignoresLog_ask .cancelled nofun) fun cancelled => ?_
    split
    · exact ignoresLog_finish (h.event _ _) _
    · refine .bind (ignoresLog_retire job) fun retired => ?_
      cases retired with
      | error failure => exact ignoresLog_stopAt h job failure
      | ok _ => exact ih

/-- **A cleanup ignores the log**, however its grace period ends. If the wait itself fails, there is
no event; in all other cases the event comes last. -/
theorem ignoresLog_afterGrace (h : cleanup.release.IsLoggable) (progress : Progress)
    (grace : Except Failure Bool) : (cleanup.afterGrace progress grace).IgnoresLog := by
  match grace with
  | .error _ => exact .done
  | .ok true => exact ignoresLog_finish (h.event _ _) _
  | .ok false => exact ignoresLog_sweep h _

end Cleanup

end Rollout
