import Rollout.Proofs.Strokes

/-!
# Cleanups in strokes

A cleanup withdraws its stale jobs one after the other, and tries each of the two calls again when
it fails. So a stroke may take many calls, and what ends it halfway is the failure of the last try,
or one of a wait between two tries (`Ledger.Ran.withRetries_cases`). All the same a run of a cleanup
does nothing but strokes, and perhaps half of one more (`Ledger.Worked.of_run`).
-/

namespace Rollout

/-- What a cleanup may do. -/
def Scope.ofStale (stale : List Job) : Scope where
  places := fun _ => False
  withdraws := fun job => job ∈ stale
  writes := fun _ => False
  tries := True

/-- The failure that a run of a cleanup ended with, if it failed or was cancelled. -/
def Outcome.ending? (outcome : Outcome) : Option Failure :=
  match outcome.progress.phase with
  | .failed | .cancelled => outcome.progress.error
  | .pending | .running | .done => none

namespace Ledger

variable {stores : Stores} {scope : Scope} {moment : Moment} {ledger after : Ledger}
  {record : List Attempt} {cleanup : Cleanup} {progress : Progress} {job : Job}
  {outcome : Outcome}

namespace Ran

/-- **What becomes of a step that is tried again**, if it does nothing when it fails: it succeeds in
the end, or nothing was done and one of the tries is known to have failed. What the whole fails with
is not said: a wait before a further try may have failed in its turn. -/
theorem withRetries_cases {delay : Binary64} {step : Action Unit} {retries : Nat}
    {result : Except Failure Unit}
    (hstep : ∀ {record failure after}, Ran stores moment step.attempt ledger record
      (.error failure) after → after = ledger)
    (h : Ran stores moment (Cleanup.withRetries delay step retries).attempt ledger record result
      after) :
    (result = .ok () ∧ ∃ last, Ran stores moment step.attempt ledger last (.ok ()) after) ∨
    ∃ failure cause tried, result = .error failure ∧ after = ledger ∧
      Ran stores moment step.attempt ledger tried (.error cause) ledger ∧ tried ⊆ record := by
  induction retries generalizing record with
  | zero =>
    cases result with
    | ok _ => exact .inl ⟨rfl, record, h⟩
    | error failure =>
      obtain rfl := hstep h
      exact .inr ⟨failure, failure, record, rfl, rfl, h, List.Subset.refl _⟩
  | succ retries ih =>
    obtain ⟨tried, middle, first, second, htried, hrest, rfl⟩ := bind_cases step.attempt h
    cases tried with
    | ok _ =>
      obtain ⟨rfl, rfl, rfl⟩ := hrest.done_cases
      exact .inl ⟨rfl, first, htried⟩
    | error cause =>
      obtain rfl := hstep htried
      obtain ⟨waited, last, third, fourth, hwait, hagain, rfl⟩ :=
        bind_cases (Action.wait delay).attempt hrest
      obtain rfl := wait_cases hwait
      have hfirst : first ⊆ first ++ (third ++ fourth) := List.subset_append_left _ _
      match waited, hagain with
      | .error failure, hagain =>
        obtain ⟨rfl, rfl, rfl⟩ := hagain.done_cases
        exact .inr ⟨failure, cause, first, rfl, rfl, htried, hfirst⟩
      | .ok true, hagain =>
        obtain ⟨rfl, rfl, rfl⟩ := hagain.done_cases
        exact .inr ⟨cause, cause, first, rfl, rfl, htried, hfirst⟩
      | .ok false, hagain =>
        -- what the later tries leave on record comes last
        have hlater : fourth ⊆ first ++ (third ++ fourth) :=
          List.subset_append_of_subset_right _ (List.subset_append_right _ _)
        refine (ih hagain).imp_right ?_
        rintro ⟨failure, cause, tried, hresult, hafter, hran, hsubset⟩
        exact ⟨failure, cause, tried, hresult, hafter, hran, List.Subset.trans hsubset hlater⟩

/-- What becomes of taking a job from the scheduler. -/
theorem unscheduleJob_cases {result : Except Failure Unit}
    (h : Ran stores moment (Cleanup.unscheduleJob job).attempt ledger record result after) :
    (∃ name, job.name? = .ok name ∧ result = .ok () ∧ name ∈ ledger.scheduled ∧
      after = ledger.unschedule name) ∨
    ∃ failure, result = .error failure ∧ after = ledger := by
  rcases h.ofExcept_bind_cases with ⟨name, hname, h⟩ | ⟨failure, -, rfl, -, rfl⟩
  · exact h.unschedule_cases.imp_left fun ⟨hresult, hmem, hafter⟩ =>
      ⟨name, hname, hresult, hmem, hafter⟩
  · exact .inr ⟨failure, rfl, rfl⟩

/-- **Retiring a job** is a stroke, or half of one, or nothing. -/
theorem retire_cases {result : Except Failure Unit} (hjob : scope.withdraws job)
    (htries : scope.tries) (h : Ran stores moment (cleanup.retire job).attempt ledger record result
      after) :
    (result = .ok () ∧ Stroke scope moment.now ledger after) ∨
    ∃ failure, result = .error failure ∧ (after = ledger ∨
      (∃ name, job.name? = .ok name) ∧ Halved scope moment.now record failure ledger after) := by
  have hkept {record : List Attempt} {failure : Failure} {after : Ledger}
      (h : Ran stores moment (Cleanup.unscheduleJob job).attempt ledger record (.error failure)
        after) : after = ledger := by
    obtain ⟨_, -, ⟨⟩, -⟩ | ⟨_, -, hafter⟩ := h.unscheduleJob_cases
    exact hafter
  rcases h.work_bind_cases with ⟨_, middle, first, second, hfirst, hsecond, rfl⟩ |
      ⟨failure, hfirst, rfl⟩
  · obtain ⟨-, last, hlast⟩ | ⟨_, _, _, ⟨⟩, -⟩ := hfirst.withRetries_cases hkept
    obtain ⟨name, hname, -, hmem, rfl⟩ | ⟨_, ⟨⟩, -⟩ := hlast.unscheduleJob_cases
    -- the job is scheduled no longer, and the store is tried as often
    have hkept' {record : List Attempt} {failure : Failure} {after : Ledger}
        (h : Ran stores moment (Action.remove job).attempt (ledger.unschedule name) record
          (.error failure) after) : after = ledger.unschedule name := by
      obtain ⟨⟨⟩, -⟩ | ⟨_, -, hafter, -⟩ := h.remove_cases hname
      exact hafter
    rcases hsecond.withRetries_cases hkept' with ⟨rfl, last, hlast⟩ |
        ⟨failure, cause, tried, rfl, rfl, htried, hsubset⟩
    · obtain ⟨-, rfl⟩ | ⟨_, ⟨⟩, -⟩ := hlast.remove_cases hname
      exact .inl ⟨rfl, .withdrawn hjob hname hmem⟩
    · -- a fault failed at the last try, or at a wait after it
      obtain ⟨⟨⟩, -⟩ | ⟨_, hcause, -, hfault⟩ := htried.remove_cases hname
      obtain rfl := Except.error.inj hcause
      exact .inr ⟨failure, rfl, .inr ⟨⟨name, hname⟩, .unremoved hjob hname hmem
        (List.mem_append_right _ (hsubset hfault)) (.inr htries)⟩⟩
  · obtain ⟨⟨⟩, -⟩ | ⟨_, _, _, -, hafter, -⟩ := hfirst.withRetries_cases hkept
    exact .inr ⟨failure, rfl, .inl hafter⟩

/-- Ending a run does nothing that shows. -/
theorem finish_cases {phase : Phase} {event : Event}
    (h : Ran stores moment (Cleanup.finish progress phase event) ledger record outcome after) :
    after = ledger ∧ outcome.progress = { progress with phase } := by
  obtain ⟨logged, middle, first, second, hlog, hrest, -⟩ :=
    bind_cases (Action.log event).attempt h
  obtain rfl := hlog.log_cases
  cases logged with
  | error failure =>
    obtain ⟨rfl, -, rfl⟩ := hrest.done_cases
    exact ⟨rfl, rfl⟩
  | ok _ =>
    obtain ⟨rfl, -, rfl⟩ := hrest.done_cases
    exact ⟨rfl, rfl⟩

/-- Ending a run at a job does nothing that shows, and tells the failure if the job has a name. -/
theorem stopAt_cases {failure : Failure}
    (h : Ran stores moment (cleanup.stopAt progress job failure) ledger record outcome after) :
    after = ledger ∧ ((∃ name, job.name? = .ok name) → outcome.ending? = some failure) := by
  obtain ⟨cancelled, middle, first, second, hasked, hrest, -⟩ := bind_cases (Call.ask .cancelled) h
  -- asking for a cancellation does not show
  obtain rfl := hasked.cancelled_cases
  cases hname : job.name? with
  | error crash =>
    rw [hname] at hrest
    refine ⟨hrest.done_cases.2.2, ?_⟩
    rintro ⟨name, hnamed⟩
    cases hnamed
  | ok name =>
    rw [hname] at hrest
    dsimp only at hrest
    -- cancelled or failed, the event that ends the run does not show either
    split at hrest
    · obtain ⟨rfl, hprogress⟩ := hrest.finish_cases
      exact ⟨rfl, fun _ => by rw [Outcome.ending?, hprogress]⟩
    · obtain ⟨rfl, hprogress⟩ := hrest.finish_cases
      exact ⟨rfl, fun _ => by rw [Outcome.ending?, hprogress]⟩

end Ran

namespace Worked

/-- **Sweeping** retires one job after the other. -/
theorem of_sweep {stale jobs : List Job} (hjobs : ∀ job ∈ jobs, job ∈ stale)
    (h : Ran stores moment (cleanup.sweep progress jobs) ledger record outcome after) :
    Worked (.ofStale stale) moment.now record outcome.ending? ledger after := by
  induction jobs generalizing ledger record progress with
  | nil => exact of_eq h.finish_cases.1
  | cons job rest ih =>
    obtain ⟨cancelled, middle, first, second, hasked, hrest, rfl⟩ :=
      h.bind_cases (Call.ask .cancelled)
    obtain rfl := hasked.cancelled_cases
    refine trans .refl ?_ first
    split at hrest
    · exact of_eq hrest.finish_cases.1
    · obtain ⟨retired, last, third, fourth, hretired, hrest, rfl⟩ :=
        Ran.bind_cases (cleanup.retire job).attempt hrest
      have hjob : (Scope.ofStale stale).withdraws job := hjobs job List.mem_cons_self
      rcases hretired.retire_cases hjob trivial with ⟨rfl, hstroke⟩ | ⟨failure, rfl, hend⟩
      · exact trans (.single hstroke)
          (ih (fun other hmem => hjobs other (List.mem_cons_of_mem _ hmem)) hrest) third
      · -- the failure of the job is the one that the outcome tells
        obtain ⟨rfl, hending⟩ := hrest.stopAt_cases
        rcases hend with rfl | ⟨hnamed, hhalved⟩
        · exact refl _
        · rw [hending hnamed]
          exact of_halved (hhalved.append_right (fun _ hplaces => hplaces) fourth)

/-- What follows the grace period is a sweep at most. -/
theorem of_afterGrace {answer : Except Failure Bool}
    (h : Ran stores moment (cleanup.afterGrace progress answer) ledger record outcome after) :
    Worked (.ofStale cleanup.stale) moment.now record outcome.ending? ledger after := by
  match answer, h with
  | .error failure, h => exact of_eq h.done_cases.2.2
  | .ok true, h => exact of_eq h.finish_cases.1
  | .ok false, h => exact of_sweep (fun job hmem => hmem) h

/-- **All that a run of a cleanup does** are strokes, and perhaps half of one more. -/
theorem of_run (h : Ran stores moment (cleanup.run progress) ledger record outcome after) :
    Worked (.ofStale cleanup.stale) moment.now record outcome.ending? ledger after := by
  obtain ⟨waited, middle, first, second, hwait, hrest, rfl⟩ :=
    h.bind_cases (Call.ask (.wait cleanup.grace))
  obtain rfl := hwait.wait_cases
  exact trans .refl (of_afterGrace hrest) first

end Worked

end Ledger

end Rollout
