import Rollout.Proofs.Conversations
import Rollout.Proofs.Drift
import Rollout.Proofs.Parts

/-!
# Runs of a cleanup

A cleanup has three loops, one in the other: over the jobs, over the attempts to take a job from the
scheduler, and over those to remove it from the store. It can be cancelled at any call and at any
wait, and every call may fail. This file says what can be said of a first run in spite of all that
(`Cleanup.Account`): how it ended, which jobs it removed, why it stopped where it did, and what
became of scheduler and store.

All of it is read off the conversation of the run.

* One inductive for each loop says what can be said in it: `Cleanup.Tries` for the attempts of one
  step, `Cleanup.Retires` for one job, `Cleanup.Removes` for jobs that were removed, and
  `Cleanup.Ends` for the end of the sweep.
* `Cleanup.leads_withRetries`, `Cleanup.leads_retire` and `Cleanup.leads_sweep` find them in the
  plan. The converse for jobs that were removed, `Cleanup.Removes.leads`, is why a run is done if
  all of them were.
* `Cleanup.Tries.takes`, `Cleanup.Removes.takes` and `Cleanup.Ends.takes` say what they do to a
  ledger.

The account (`Task.account_of_runThrough`) holds for all faults. Among them are waits that fail,
which nothing makes up for; `Task.not_always_ended` is what becomes of a task then.
-/

namespace Rollout

open Plan (Leads leads_done_iff leads_call_iff leads_ask_iff leads_bind_iff leads_work_bind_iff)

namespace Ledger

variable {names : List String} {ledger after : Ledger}

/-- At most the scheduler has let go of the first of the names. It is where a cleanup may stand when
it fails: between the two steps for one job. -/
inductive LosesFirst : List String → Ledger → Ledger → Prop where
  | nothing {names : List String} {ledger : Ledger} : LosesFirst names ledger ledger
  | unscheduled {name : String} {rest : List String} {ledger : Ledger} :
    LosesFirst (name :: rest) ledger (ledger.unschedule name)

namespace LosesFirst

theorem scheduled (h : LosesFirst names ledger after) {name : String}
    (hmem : name ∈ after.scheduled) : name ∈ ledger.scheduled := by
  cases h with
  | nothing => exact hmem
  | unscheduled => exact (ledger.mem_scheduled_unschedule.mp hmem).2

theorem tracked_eq (h : LosesFirst names ledger after) : after.tracked = ledger.tracked := by
  cases h <;> rfl

theorem sameOn (h : LosesFirst names ledger after) {part : Part}
    (hfirst : ∀ name, names[0]? = some name → part.names name = false) :
    ledger.SameOn part after := by
  cases h with
  | nothing => exact .refl part ledger
  | unscheduled => exact .of_unschedule (hfirst _ rfl) ledger

end LosesFirst

end Ledger

/-- The progress once some more jobs are removed. -/
def Progress.beyond (jobs : List Job) (progress : Progress) : Progress :=
  { progress with removed := progress.removed ++ jobs.map Job.label }

theorem Progress.beyond_nil (progress : Progress) : progress.beyond [] = progress := by
  rw [beyond, List.map_nil, List.append_nil]

theorem Progress.beyond_cons (job : Job) (jobs : List Job) (progress : Progress) :
    progress.beyond (job :: jobs) =
      ({ progress with removed := progress.removed ++ [job.label] } : Progress).beyond jobs := by
  rw [beyond, beyond, List.map_cons, List.append_assoc]
  rfl

namespace Cleanup

variable {cleanup : Cleanup} {job : Job} {jobs rest : List Job} {name : String}
  {progress : Progress} {outcome : Outcome} {said first second : List Said}

/-! ### What is said for one job -/

/-- An attempt to take a name from the scheduler, and what came of it. -/
def unscheduling (name : String) (result : Except Failure Unit) : Said :=
  ⟨.unschedule (.text name), result⟩

/-- An attempt to take a job from the store, and what came of it. -/
def removing (job : Job) (result : Except Failure Unit) : Said := ⟨.remove job, result⟩

/-- What is said when a step is tried, with a number of further tries and a delay before each. The
constructors are a success, a last failure, and a failure with a wait after it that is cancelled,
fails or passes. -/
inductive Tries (attempt : Except Failure Unit → Said) (delay : Binary64) :
    Nat → List Said → Except Failure Unit → Prop where
  /-- The step succeeded. -/
  | succeeded {retries : Nat} : Tries attempt delay retries [attempt (.ok ())] (.ok ())
  /-- The step failed, and there is no further try. -/
  | spent {failure : Failure} : Tries attempt delay 0 [attempt (.error failure)] (.error failure)
  /-- The step failed, and the cleanup was cancelled. -/
  | calledOff {retries : Nat} {failure : Failure} :
    Tries attempt delay (retries + 1) [attempt (.error failure), ⟨.wait delay, .ok true⟩]
      (.error failure)
  /-- The step failed, and so did the wait for a further try. -/
  | brokenOff {retries : Nat} {failure cause : Failure} :
    Tries attempt delay (retries + 1) [attempt (.error failure), ⟨.wait delay, .error cause⟩]
      (.error cause)
  /-- The step failed and was tried again. -/
  | again {retries : Nat} {failure : Failure} {later : List Said} {result : Except Failure Unit}
      (hlater : Tries attempt delay retries later result) :
    Tries attempt delay (retries + 1)
      (attempt (.error failure) :: ⟨.wait delay, .ok false⟩ :: later) result

/-- **What is said when a step of one call is tried.** By induction on the tries that are left;
nothing is said here that is not said by the tries themselves. -/
theorem leads_withRetries {step : Action Unit} {attempt : Except Failure Unit → Said}
    {delay : Binary64} (hstep : ∀ {said result}, Leads step.attempt said (.done result) ↔
      said = [attempt result]) {retries : Nat} {result : Except Failure Unit} :
    Leads (withRetries delay step retries).attempt said (.done result) ↔
      Tries attempt delay retries said result := by
  induction retries generalizing said with
  | zero =>
    -- no try is left: the step is said once
    rw [withRetries_zero, hstep]
    constructor
    · rintro rfl
      cases result with
      | ok => exact .succeeded
      | error failure => exact .spent
    · intro h
      cases h <;> rfl
  | succ retries ih =>
    rw [withRetries, Work.attempt_ofPlan, leads_bind_iff]
    constructor
    · rintro ⟨tried, first, second, hfirst, hsecond, rfl⟩
      obtain rfl := hstep.mp hfirst
      -- after a failed try comes a wait, which fails, tells of no cancellation, or of one
      cases tried with
      | ok =>
        obtain ⟨rfl, rfl⟩ := leads_done_iff.mp hsecond
        exact .succeeded
      | error failure =>
        obtain ⟨waited, later, rfl, hlater⟩ := leads_call_iff.mp hsecond
        rcases waited with cause | _ | _
        · obtain ⟨rfl, rfl⟩ := leads_done_iff.mp hlater
          exact .brokenOff
        · exact .again (ih.mp hlater)
        · obtain ⟨rfl, rfl⟩ := leads_done_iff.mp hlater
          exact .calledOff
    · intro h
      -- the other way around, each way to try is a way to run
      cases h with
      | succeeded => exact ⟨_, _, [], hstep.mpr rfl, .here, rfl⟩
      | calledOff => exact ⟨.error _, _, _, hstep.mpr rfl, .step .here, rfl⟩
      | brokenOff => exact ⟨.error _, _, _, hstep.mpr rfl, .step .here, rfl⟩
      | again hlater =>
        exact ⟨.error _, _, _, hstep.mpr rfl,
          leads_call_iff.mpr ⟨.ok false, _, rfl, ih.mpr hlater⟩, rfl⟩

/-- What is said when a job is retired that has a name. -/
inductive Retires (cleanup : Cleanup) (job : Job) (name : String) :
    List Said → Except Failure Unit → Prop where
  /-- The scheduler did not let go of the name. -/
  | kept {said : List Said} {failure : Failure}
      (htries : Tries (unscheduling name) cleanup.delay cleanup.retries said (.error failure)) :
    Retires cleanup job name said (.error failure)
  /-- The scheduler did, and the store was asked to. -/
  | left {first second : List Said} {result : Except Failure Unit}
      (hfirst : Tries (unscheduling name) cleanup.delay cleanup.retries first (.ok ()))
      (hsecond : Tries (removing job) cleanup.delay cleanup.retries second result) :
    Retires cleanup job name (first ++ second) result

theorem leads_retire (hname : job.name? = .ok name) {result : Except Failure Unit} :
    Leads (cleanup.retire job).attempt said (.done result) ↔
      cleanup.Retires job name said result := by
  -- each of the two steps is one call
  have hunschedule {said : List Said} {result : Except Failure Unit} :
      Leads (unscheduleJob job).attempt said (.done result) ↔
        said = [unscheduling name result] := by
    rw [unscheduleJob, hname]
    exact leads_ask_iff
  have hremove {said : List Said} {result : Except Failure Unit} :
      Leads (Action.remove job).attempt said (.done result) ↔ said = [removing job result] :=
    leads_ask_iff
  rw [retire, leads_work_bind_iff]
  simp only [leads_withRetries hunschedule, leads_withRetries hremove]
  constructor
  · rintro (⟨_, first, second, hfirst, hsecond, rfl⟩ | ⟨failure, htries, rfl⟩)
    · exact .left hfirst hsecond
    · exact .kept htries
  · intro h
    cases h with
    | kept htries => exact .inr ⟨_, htries, rfl⟩
    | left hfirst hsecond => exact .inl ⟨(), _, _, hfirst, hsecond, rfl⟩

/-! ### What is said in a sweep -/

/-- The end of a run is logged, whatever comes of that. -/
theorem leads_finish {phase : Phase} {event : Event}
    (h : Leads (finish progress phase event) said (.done outcome)) :
    ∃ answer, said = [⟨.log event, answer⟩] ∧ outcome.progress = { progress with phase } := by
  obtain ⟨logged, first, second, hfirst, hsecond, rfl⟩ := leads_bind_iff.mp h
  obtain ⟨answer, later, rfl, hlater⟩ := leads_call_iff.mp hfirst
  refine ⟨answer, ?_⟩
  have hlater' : later = [] := by
    cases answer <;> exact (leads_done_iff.mp hlater).1
  subst hlater'
  cases logged with
  | ok =>
    obtain ⟨rfl, rfl⟩ := leads_done_iff.mp hsecond
    exact ⟨rfl, rfl⟩
  | error failure =>
    obtain ⟨rfl, rfl⟩ := leads_done_iff.mp hsecond
    exact ⟨rfl, rfl⟩

/-- What is said when jobs are removed, one after the other. It goes by the list of the jobs, each
of which is retired with success. -/
inductive Removes (cleanup : Cleanup) : List Job → List Said → Prop where
  | nil : Removes cleanup [] []
  | cons {job : Job} {name : String} {rest : List Job} {retiring later : List Said}
      (hname : job.name? = .ok name) (hretires : cleanup.Retires job name retiring (.ok ()))
      (hrest : Removes cleanup rest later) :
    Removes cleanup (job :: rest) (⟨.cancelled, false⟩ :: (retiring ++ later))

/-- What is said at the end of a sweep, what is left of the jobs then, and what the progress comes
to. -/
inductive Ends (cleanup : Cleanup) (progress : Progress) :
    List Job → List Said → Progress → Prop where
  /-- All jobs were removed. -/
  | done {event : Event} {answer : Except Failure Unit} :
    Ends cleanup progress [] [⟨.log event, answer⟩] { progress with phase := .done }
  /-- The cleanup was cancelled when the next job was due. -/
  | cancelled {job : Job} {rest : List Job} {event : Event} {answer : Except Failure Unit} :
    Ends cleanup progress (job :: rest) [⟨.cancelled, true⟩, ⟨.log event, answer⟩]
      { progress with phase := .cancelled }
  /-- The next job could not be removed, and the cleanup was cancelled by then, or was not. -/
  | stopped {job : Job} {name : String} {rest : List Job} {giving : List Said} {failure : Failure}
      {flag : Bool} {event : Event} {answer : Except Failure Unit} (hname : job.name? = .ok name)
      (hretires : cleanup.Retires job name giving (.error failure)) :
    Ends cleanup progress (job :: rest)
      (⟨.cancelled, false⟩ :: (giving ++ [⟨.cancelled, flag⟩, ⟨.log event, answer⟩]))
      { progress with
        error := some failure
        phase := if flag then .cancelled else .failed }

/-- What is said when a cleanup stops at a job that has a name: it asks whether it is cancelled, and
logs what it came to. -/
theorem leads_stopAt {failure : Failure} {name : String} (hname : job.name? = .ok name)
    (h : Leads (cleanup.stopAt progress job failure) said (.done outcome)) :
    ∃ flag event answer, said = [⟨.cancelled, flag⟩, ⟨.log event, answer⟩] ∧
      outcome.progress = { progress with
        error := some failure
        phase := if flag then .cancelled else .failed } := by
  rw [stopAt, hname] at h
  obtain ⟨flag, last, rfl, hlast⟩ := leads_call_iff.mp h
  cases flag with
  | true =>
    obtain ⟨answer, rfl, hprogress⟩ := leads_finish hlast
    exact ⟨true, _, answer, rfl, hprogress⟩
  | false =>
    obtain ⟨answer, rfl, hprogress⟩ := leads_finish hlast
    exact ⟨false, _, answer, rfl, hprogress⟩

/-- **What is said in a sweep**: some jobs were removed, and then it ended. Where it ended, by a
failure or a cancellation or at the end of the list, is left to `Ends`. -/
theorem leads_sweep (hnames : ∀ job ∈ jobs, ∃ name, job.name? = .ok name)
    (h : Leads (cleanup.sweep progress jobs) said (.done outcome)) :
    ∃ gone left first second, jobs = gone ++ left ∧ said = first ++ second ∧
      cleanup.Removes gone first ∧
      cleanup.Ends (progress.beyond gone) left second outcome.progress := by
  induction jobs generalizing progress said with
  | nil =>
    obtain ⟨answer, rfl, hprogress⟩ := leads_finish h
    refine ⟨[], [], [], _, rfl, rfl, .nil, ?_⟩
    rw [hprogress, Progress.beyond_nil]
    exact .done
  | cons job rest ih =>
    obtain ⟨name, hname⟩ := hnames job List.mem_cons_self
    obtain ⟨flag, later, rfl, hlater⟩ := leads_call_iff.mp h
    cases flag with
    | true =>
      obtain ⟨answer, rfl, hprogress⟩ := leads_finish hlater
      refine ⟨[], job :: rest, [], _, rfl, rfl, .nil, ?_⟩
      rw [hprogress, Progress.beyond_nil]
      exact .cancelled
    | false =>
      change Leads ((cleanup.retire job).attempt >>= _) later (.done outcome) at hlater
      obtain ⟨retired, first, second, hfirst, hsecond, rfl⟩ := leads_bind_iff.mp hlater
      have hretires := (leads_retire hname).mp hfirst
      cases retired with
      | ok =>
        obtain ⟨gone, left, removal, ending, rfl, rfl, hremoves, hends⟩ :=
          ih (fun other hmem => hnames other (List.mem_cons_of_mem _ hmem)) hsecond
        refine ⟨job :: gone, left, _, ending, rfl, ?_, .cons hname hretires hremoves, ?_⟩
        · rw [List.cons_append, List.append_assoc]
        · rw [Progress.beyond_cons]
          exact hends
      | error failure =>
        -- the job could not be removed, so nothing is done about those after it
        obtain ⟨flag, event, answer, rfl, hprogress⟩ := leads_stopAt hname hsecond
        refine ⟨[], job :: rest, [], _, rfl, rfl, .nil, ?_⟩
        rw [Progress.beyond_nil, hprogress]
        exact .stopped hname hretires

/-- **What removes jobs takes a sweep past them.** -/
theorem Removes.leads (h : cleanup.Removes jobs said) (left : List Job) (progress : Progress) :
    Leads (cleanup.sweep progress (jobs ++ left)) said
      (cleanup.sweep (progress.beyond jobs) left) := by
  induction h generalizing progress with
  | nil =>
    rw [Progress.beyond_nil]
    exact .here
  | cons hname hretires _ ih =>
    rw [Progress.beyond_cons]
    exact .step ((((leads_retire hname).mpr hretires).bind _).trans (ih _))

/-! ### What it does to a ledger -/

open Ledger (Moment Gives Takes)

variable {moment : Moment} {ledger after : Ledger} {names : List String} {cancelled : Bool}
  {result : Except Failure Unit}

theorem eq_of_gives {exchange : Said} (h : Gives moment ledger exchange cancelled after)
    (hquestion : ∀ moment, (ledger.answer moment exchange.request).2 = ledger) :
    after = ledger := by
  rcases h.made with ⟨-, -, hafter⟩ | hanswer
  · exact hafter
  · rw [← hquestion { moment with cancelled }, hanswer]

/-- What is left of a ledger after an attempt, which has an effect only if it succeeds. -/
def struck (effect : Ledger → Ledger) (ledger : Ledger) : Except Failure Unit → Ledger
  | .ok () => effect ledger
  | .error _ => ledger

/-- An attempt has an effect. It has it only if it succeeds; what fails leaves the ledger alone. -/
def Strikes (attempt : Except Failure Unit → Said) (effect : Ledger → Ledger) : Prop :=
  ∀ {moment ledger result cancelled after},
    Gives moment ledger (attempt result) cancelled after → after = struck effect ledger result

theorem strikes_unscheduling (name : String) :
    Strikes (unscheduling name) fun ledger => ledger.unschedule name := by
  rintro moment ledger result cancelled after ⟨-, ⟨-, ⟨failure, hfail⟩, rfl⟩ | hanswer⟩
  · obtain rfl : result = .error failure := hfail
    rfl
  · by_cases hmem : name ∈ ledger.scheduled
    · rw [unscheduling, Ledger.answer_unschedule_of_mem hmem] at hanswer
      obtain ⟨rfl, rfl⟩ := Prod.mk.inj hanswer
      rfl
    · rw [unscheduling, Ledger.answer_unschedule_of_not_mem hmem] at hanswer
      obtain ⟨rfl, rfl⟩ := Prod.mk.inj hanswer
      rfl

theorem strikes_removing (hname : job.name? = .ok name) :
    Strikes (removing job) fun ledger => ledger.remove name := by
  rintro moment ledger result cancelled after ⟨-, ⟨-, ⟨failure, hfail⟩, rfl⟩ | hanswer⟩
  · obtain rfl : result = .error failure := hfail
    rfl
  · rw [removing, Ledger.answer, hname] at hanswer
    obtain ⟨rfl, rfl⟩ := Prod.mk.inj hanswer
    rfl

/-- **Tries of a step have its effect once if they succeed, and none otherwise.** -/
theorem Tries.takes {attempt : Except Failure Unit → Said} {effect : Ledger → Ledger}
    {delay : Binary64} {retries : Nat} (h : Tries attempt delay retries said result)
    (hstrikes : Strikes attempt effect) (htakes : Takes moment ledger said cancelled after) :
    after = struck effect ledger result := by
  -- a failed attempt and the wait after it do nothing
  have hfailed {moment : Moment} {failure : Failure} {waited : Except Failure Bool}
      {later : List Said}
      (htakes : Takes moment ledger (attempt (.error failure) :: ⟨.wait delay, waited⟩ :: later)
        cancelled after) :
      ∃ between, Takes { moment with cancelled := between } ledger later cancelled after := by
    obtain ⟨_, tried, htried, hrest⟩ := htakes.cons_cases
    obtain ⟨between, next, hwaited, hlater⟩ := hrest.cons_cases
    obtain rfl : tried = ledger := hstrikes htried
    obtain rfl := eq_of_gives hwaited fun _ => rfl
    exact ⟨between, hlater⟩
  induction h generalizing moment with
  | succeeded | spent =>
    obtain ⟨_, next, hgives, hrest⟩ := htakes.cons_cases
    obtain ⟨rfl, -⟩ := hrest.nil_cases
    exact hstrikes hgives
  | calledOff | brokenOff =>
    obtain ⟨between, hrest⟩ := hfailed htakes
    exact hrest.nil_cases.1
  | again _ ih =>
    obtain ⟨between, hlater⟩ := hfailed htakes
    exact ih hlater

/-- A job that is retired is given up by both sides. -/
theorem Retires.takes_ok (h : cleanup.Retires job name said (.ok ())) (hname : job.name? = .ok name)
    (htakes : Takes moment ledger said cancelled after) : after = ledger.retire name := by
  cases h with
  | left hfirst hsecond =>
    obtain ⟨_, middle, hunscheduled, hremoved⟩ := htakes.append_cases
    obtain rfl := hfirst.takes (strikes_unscheduling name) hunscheduled
    exact hsecond.takes (strikes_removing hname) hremoved

/-- If that failed, the scheduler may have let go of the job. -/
theorem Retires.takes_error {failure : Failure}
    (h : cleanup.Retires job name said (.error failure)) (hname : job.name? = .ok name)
    (htakes : Takes moment ledger said cancelled after) :
    after = ledger ∨ after = ledger.unschedule name := by
  cases h with
  | kept htries => exact .inl (htries.takes (strikes_unscheduling name) htakes)
  | left hfirst hsecond =>
    obtain ⟨_, middle, hunscheduled, hremoved⟩ := htakes.append_cases
    obtain rfl := hfirst.takes (strikes_unscheduling name) hunscheduled
    exact .inr (hsecond.takes (strikes_removing hname) hremoved)

/-- **Jobs that are removed are given up by both sides.** -/
theorem Removes.takes (h : cleanup.Removes jobs said) (hnames : Job.NamesOf jobs names)
    (htakes : Takes moment ledger said cancelled after) : after = ledger.retireAll names := by
  induction h generalizing moment ledger names with
  | nil =>
    obtain rfl := List.forall₂_nil_left_iff.mp hnames
    exact htakes.nil_cases.1
  | cons hname hretires _ ih =>
    obtain ⟨given, names, hgiven, hrest, rfl⟩ := List.forall₂_cons_left_iff.mp hnames
    obtain rfl := Except.ok.inj (hname.symm.trans hgiven)
    obtain ⟨_, asked, hasked, hlater⟩ := htakes.cons_cases
    obtain rfl := eq_of_gives hasked fun _ => rfl
    obtain ⟨_, middle, hretiring, hremoving⟩ := hlater.append_cases
    obtain rfl := hretires.takes_ok hname hretiring
    have hafter := ih hrest hremoving
    exact hafter

/-- **The end of a sweep** touches the name of the next job at most. -/
theorem Ends.takes {ended : Progress} (h : cleanup.Ends progress jobs said ended)
    (hnames : Job.NamesOf jobs names) (htakes : Takes moment ledger said cancelled after) :
    ledger.LosesFirst names after := by
  -- the questions and the log do nothing
  have hquestion {moment : Moment} {ledger after : Ledger} {exchange : Said} {later : List Said}
      {cancelled : Bool} (htakes : Takes moment ledger (exchange :: later) cancelled after)
      (hquestion : ∀ moment, (ledger.answer moment exchange.request).2 = ledger) :
      ∃ between, Takes { moment with cancelled := between } ledger later cancelled after := by
    obtain ⟨between, next, hgives, hlater⟩ := htakes.cons_cases
    obtain rfl := eq_of_gives hgives hquestion
    exact ⟨between, hlater⟩
  cases h with
  | done =>
    obtain ⟨_, hrest⟩ := hquestion htakes fun _ => rfl
    obtain rfl := hrest.nil_cases.1
    exact .nothing
  | cancelled =>
    obtain ⟨_, hlogged⟩ := hquestion htakes fun _ => rfl
    obtain ⟨_, hrest⟩ := hquestion hlogged fun _ => rfl
    obtain rfl := hrest.nil_cases.1
    exact .nothing
  | stopped hname hretires =>
    obtain ⟨given, rest, hgiven, -, rfl⟩ := List.forall₂_cons_left_iff.mp hnames
    obtain rfl := Except.ok.inj (hname.symm.trans hgiven)
    obtain ⟨_, hasked⟩ := hquestion htakes fun _ => rfl
    obtain ⟨_, middle, hgiving, hclosing⟩ := hasked.append_cases
    obtain ⟨_, hlogged⟩ := hquestion hclosing fun _ => rfl
    obtain ⟨_, hrest⟩ := hquestion hlogged fun _ => rfl
    obtain rfl := hrest.nil_cases.1
    rcases hretires.takes_error hname hgiving with rfl | rfl
    · exact .nothing
    · exact .unscheduled

/-- **A sweep in which all jobs were removed is done.** -/
theorem done_of_removes {removal : List Said}
    (h : Leads (cleanup.sweep progress jobs) said (.done outcome)) (hstarts : removal <+: said)
    (hremoves : cleanup.Removes jobs removal) : outcome.progress.phase = .done := by
  obtain ⟨tail, rfl⟩ := hstarts
  -- the removals take the sweep to its end, whatever is said after them
  obtain ⟨left, hleft, hrest⟩ := h.of_append
  have hend := hremoves.leads [] progress
  rw [List.append_nil] at hend
  obtain rfl := hleft.unique hend
  obtain ⟨_, -, hprogress⟩ := leads_finish hrest
  rw [hprogress]

/-! ### Giving a job up -/

/-- As many further attempts were made as there can be, one after the other, and all failed, the
last one with the failure. -/
def Exhausts (attempt : Except Failure Unit → Said) (delay : Binary64) (retries : Nat)
    (said : List Said) (failure : Failure) : Prop :=
  ∃ failures : List Failure, failures.length = retries ∧
    said = failures.flatMap (fun failure =>
      [attempt (.error failure), ⟨.wait delay, .ok false⟩]) ++ [attempt (.error failure)]

/-- **A step that fails without a cancellation** was tried as often as it can be, unless a wait
failed. -/
theorem Tries.error_cases {attempt : Except Failure Unit → Said} {delay : Binary64} {retries : Nat}
    {failure : Failure} (h : Tries attempt delay retries said (.error failure))
    (hgoes : ∀ exchange ∈ said, ¬exchange.Tells true) :
    Exhausts attempt delay retries said failure ∨
      ∃ earlier, said = earlier ++ [⟨.wait delay, .error failure⟩] := by
  generalize hresult : (.error failure : Except Failure Unit) = result at h
  induction h with
  | succeeded => cases hresult
  | spent =>
    obtain rfl := Except.error.inj hresult
    exact .inl ⟨[], rfl, rfl⟩
  | calledOff =>
    -- a cancellation was told of, which is excluded
    have htells := hgoes _ (List.mem_cons_of_mem _ List.mem_cons_self)
    exact absurd (.inl ⟨delay, rfl⟩) htells
  | @brokenOff _ first cause =>
    obtain rfl := Except.error.inj hresult
    exact .inr ⟨[attempt (.error first)], rfl⟩
  | @again _ first later _ _ ih =>
    have hlater : ∀ exchange ∈ later, ¬exchange.Tells true := fun exchange hmem =>
      hgoes exchange (List.mem_cons_of_mem _ (List.mem_cons_of_mem _ hmem))
    rcases ih hlater hresult with ⟨failures, hlength, rfl⟩ | ⟨earlier, rfl⟩
    · refine .inl ⟨first :: failures, congrArg (· + 1) hlength, ?_⟩
      rw [List.flatMap_cons, List.append_assoc]
      rfl
    · exact .inr ⟨attempt (.error first) :: ⟨.wait delay, .ok false⟩ :: earlier, rfl⟩

/-- What is said when a job with a name is given up for a failure: the attempts to take it from the
scheduler are exhausted, or those to remove it from the store, or the wait for a further one
failed. -/
def GivesUp (cleanup : Cleanup) (job : Job) (name : String) (giving : List Said)
    (failure : Failure) : Prop :=
  Exhausts (unscheduling name) cleanup.delay cleanup.retries giving failure ∨
    Exhausts (removing job) cleanup.delay cleanup.retries giving failure ∨
    giving = [⟨.wait cleanup.delay, .error failure⟩]

/-- A job that could not be retired without a cancellation was given up in the end. -/
theorem Retires.exists_givesUp {failure : Failure}
    (h : cleanup.Retires job name said (.error failure))
    (hgoes : ∀ exchange ∈ said, ¬exchange.Tells true) :
    ∃ earlier giving, said = earlier ++ giving ∧ cleanup.GivesUp job name giving failure := by
  cases h with
  | kept htries =>
    rcases htries.error_cases hgoes with hexhausts | ⟨earlier, rfl⟩
    · exact ⟨[], said, rfl, .inl hexhausts⟩
    · exact ⟨earlier, _, rfl, .inr (.inr rfl)⟩
  | @left first second _ hfirst hsecond =>
    have hlater : ∀ exchange ∈ second, ¬exchange.Tells true := fun exchange hmem =>
      hgoes exchange (List.mem_append_right _ hmem)
    rcases hsecond.error_cases hlater with hexhausts | ⟨earlier, rfl⟩
    · exact ⟨first, second, rfl, .inr (.inl hexhausts)⟩
    · exact ⟨first ++ earlier, _, (List.append_assoc _ _ _).symm, .inr (.inr rfl)⟩

/-! ### Whole runs -/

/-- The part of a ledger that lies under no name that was removed, nor under the one that comes
next. -/
def untouched (names removed : List String) : Part where
  names name := decide (name ∉ removed ∧ names[removed.length]? ≠ some name)
  wanted := true

/-- **An account of a first run** of a cleanup that is to remove jobs with the names: what was said
in it, whether the cleanup is cancelled in the end, what it has done then, and the ledger before and
after it. -/
structure Account (cleanup : Cleanup) (names : List String) (said : List Said) (cancelled : Bool)
    (progress : Progress) (ledger after : Ledger) : Prop where
  /-- It ended in one of three ways, unless the wait for the end of the grace period failed. Then it
  was not begun. -/
  ended : progress.phase = .done ∨ progress.phase = .failed ∨ progress.phase = .cancelled ∨
    progress = .initial ∧ ∃ failure, said = [⟨.wait cleanup.grace, .error failure⟩]
  /-- The names that were removed come first. -/
  removed : progress.removed <+: names
  /-- It is done exactly if the grace period came to its end and all jobs were removed. -/
  done_iff : progress.phase = .done ↔ ∃ removal,
    ⟨.wait cleanup.grace, .ok false⟩ :: removal <+: said ∧ cleanup.Removes cleanup.stale removal
  /-- When it is done all names were removed, and there is no failure to report. -/
  whole : progress.phase = .done → progress.removed = names ∧ progress.error = none
  /-- When it failed, the job after those that were removed was given up for the failure that is
  reported, and nothing was cancelled by then. -/
  failed : progress.phase = .failed → ∃ job name failure earlier giving event answer,
    cleanup.stale[progress.removed.length]? = some job ∧ job.name? = .ok name ∧
      progress.error = some failure ∧ cleanup.GivesUp job name giving failure ∧
      said = earlier ++ giving ++ [⟨.cancelled, false⟩, ⟨.log event, answer⟩] ∧
      ∀ exchange ∈ earlier ++ giving, ¬exchange.Tells true
  /-- It was cancelled only if that was asked for. -/
  cancelled : progress.phase = .cancelled → cancelled = true
  /-- What was removed is gone from both sides. -/
  gone : ∀ name ∈ progress.removed, name ∉ after.scheduled ∧ name ∉ after.tracked
  /-- What was not reached is as it was. -/
  kept : ledger.SameOn (untouched names progress.removed) after

/-- A run that did not get beyond the grace period. -/
theorem Account.of_wait {waited : Except Failure Bool} {later : List Said}
    (hwaited : waited ≠ .ok false) (hremoved : progress.removed = [])
    (hended : progress.phase = .cancelled ∧ cancelled = true ∨ progress = .initial ∧
      ∃ failure, (⟨.wait cleanup.grace, waited⟩ :: later : List Said) =
        [⟨.wait cleanup.grace, .error failure⟩]) :
    cleanup.Account names (⟨.wait cleanup.grace, waited⟩ :: later) cancelled progress ledger
      ledger := by
  have hphase : progress.phase ≠ .done ∧ progress.phase ≠ .failed ∧
      (progress.phase = .cancelled → cancelled = true) := by
    rcases hended with ⟨hphase, hcancelled⟩ | ⟨rfl, -⟩
    · rw [hphase]
      exact ⟨by decide, by decide, fun _ => hcancelled⟩
    · exact ⟨by decide, by decide, fun hphase => nomatch hphase⟩
  constructor
  · exact .inr (.inr (hended.imp_left And.left))
  · rw [hremoved]
    exact List.nil_prefix
  · refine ⟨fun hdone => absurd hdone hphase.1, ?_⟩
    rintro ⟨removal, hstarts, -⟩
    -- the wait was answered in another way
    have hfirst := (List.cons_prefix_cons.mp hstarts).1
    exact absurd (eq_of_heq (Exchange.mk.inj hfirst).2).symm hwaited
  · exact fun hdone => absurd hdone hphase.1
  · exact fun hfailed => absurd hfailed hphase.2.1
  · exact hphase.2.2
  · rw [hremoved]
    exact fun _ hmem => nomatch hmem
  · exact .refl _ ledger

namespace Ends

variable {ended : Progress}

theorem removed_eq (h : cleanup.Ends progress jobs said ended) :
    ended.removed = progress.removed := by
  cases h <;> rfl

theorem phase_cases (h : cleanup.Ends progress jobs said ended) :
    ended.phase = .done ∨ ended.phase = .failed ∨ ended.phase = .cancelled := by
  cases h with
  | done => exact .inl rfl
  | cancelled => exact .inr (.inr rfl)
  | @stopped _ _ _ _ _ flag =>
    cases flag with
    | true => exact .inr (.inr rfl)
    | false => exact .inr (.inl rfl)

theorem of_done (h : cleanup.Ends progress jobs said ended) (hphase : ended.phase = .done) :
    jobs = [] ∧ ended.error = progress.error := by
  cases h with
  | done => exact ⟨rfl, rfl⟩
  | cancelled => cases hphase
  | @stopped _ _ _ _ _ flag => cases flag <;> cases hphase

/-- A sweep fails at a job that could not be retired, and only if nothing was cancelled. -/
theorem of_failed (h : cleanup.Ends progress jobs said ended) (hphase : ended.phase = .failed) :
    ∃ job name rest giving failure event answer, jobs = job :: rest ∧ job.name? = .ok name ∧
      cleanup.Retires job name giving (.error failure) ∧ ended.error = some failure ∧
      said = ⟨.cancelled, false⟩ :: (giving ++ [⟨.cancelled, false⟩, ⟨.log event, answer⟩]) := by
  cases h with
  | done => cases hphase
  | cancelled => cases hphase
  | @stopped job name rest giving failure flag event answer hname hretires =>
    cases flag with
    | true => cases hphase
    | false =>
      exact ⟨job, name, rest, giving, failure, event, answer, rfl, hname, hretires, rfl, rfl⟩

/-- **A sweep fails at a job that was given up, when nothing tells of a cancellation.** -/
theorem exists_givesUp {before : List Said} (h : cleanup.Ends progress jobs said ended)
    (hphase : ended.phase = .failed)
    (htakes : Takes moment ledger (before ++ said) cancelled after) :
    ∃ job name rest failure earlier giving event answer, jobs = job :: rest ∧
      job.name? = .ok name ∧ ended.error = some failure ∧
      cleanup.GivesUp job name giving failure ∧
      before ++ said = earlier ++ giving ++ [⟨.cancelled, false⟩, ⟨.log event, answer⟩] ∧
      ∀ exchange ∈ earlier ++ giving, ¬exchange.Tells true := by
  obtain ⟨job, name, rest, tried, failure, event, answer, rfl, hname, hretires, herror, rfl⟩ :=
    h.of_failed hphase
  have hsaid : before ++ ⟨.cancelled, false⟩ ::
      (tried ++ [⟨.cancelled, false⟩, ⟨.log event, answer⟩]) =
      (before ++ ⟨.cancelled, false⟩ :: tried) ++
        ⟨.cancelled, false⟩ :: [⟨.log event, answer⟩] := by
    rw [List.append_assoc, List.cons_append]
  rw [hsaid] at htakes ⊢
  -- the last question was answered with no
  obtain ⟨-, hgoes⟩ := htakes.not_tells_before (.inr rfl)
  obtain ⟨earlier, giving, rfl, hgives⟩ := hretires.exists_givesUp fun exchange hmem =>
    hgoes exchange (List.mem_append_right _ (List.mem_cons_of_mem _ hmem))
  have hsplit : before ++ ⟨.cancelled, false⟩ :: (earlier ++ giving) =
      (before ++ ⟨.cancelled, false⟩ :: earlier) ++ giving := by
    rw [List.append_assoc, List.cons_append]
  rw [hsplit] at hgoes ⊢
  exact ⟨job, name, rest, failure, _, giving, event, answer, rfl, hname, herror, hgives, rfl, hgoes⟩

/-- A sweep that was cancelled was told so. -/
theorem of_cancelled (h : cleanup.Ends progress jobs said ended)
    (hphase : ended.phase = .cancelled) : ⟨.cancelled, true⟩ ∈ said := by
  cases h with
  | done => cases hphase
  | cancelled => exact List.mem_cons_self
  | @stopped _ _ _ _ _ flag =>
    cases flag with
    | true => exact List.mem_cons_of_mem _ (List.mem_append_right _ List.mem_cons_self)
    | false => cases hphase

end Ends

/-- **A sweep that follows the grace period is accounted for.** -/
theorem account_of_swept {later : List Said} {waited : Moment}
    (hnames : Job.NamesOf cleanup.stale names)
    (hlater : Leads (cleanup.sweep { Progress.initial with phase := .running } cleanup.stale) later
      (.done outcome))
    (htakes : Takes moment ledger (⟨.wait cleanup.grace, .ok false⟩ :: later) cancelled after)
    (hrest : Takes waited ledger later cancelled after) :
    cleanup.Account names (⟨.wait cleanup.grace, .ok false⟩ :: later) cancelled outcome.progress
      ledger after := by
  have hnamed : ∀ job ∈ cleanup.stale, ∃ name, job.name? = .ok name := fun job hmem =>
    (Job.exists_name_of_mem hnames hmem).imp fun _ => And.right
  -- the sweep removes the first jobs, and then ends, in one way or another
  obtain ⟨gone, left, first, second, hsplit, rfl, hremoves, hends⟩ := leads_sweep hnamed hlater
  obtain ⟨hgone, hleft⟩ := Job.namesOf_of_append (hsplit ▸ hnames)
  have hremoved : outcome.progress.removed = names.take gone.length := by
    rw [hends.removed_eq, Progress.beyond, Job.map_label_eq hgone]
    rfl
  have hlength : outcome.progress.removed.length = gone.length := by
    rw [hremoved, ← hgone.length_eq]
  -- what it takes: the names of the removed jobs, and at most one thing of the next
  obtain ⟨_, retired, hretired, hended⟩ := hrest.append_cases
  obtain rfl := hremoves.takes hgone hretired
  have hloses := hends.takes hleft hended
  -- one field of the account after the other
  refine ⟨hends.phase_cases.imp_right (Or.imp_right .inl), ?_, ⟨fun hdone => ?_, ?_⟩,
    fun hdone => ?_, fun hfailed => ?_, fun hcancelled => ?_, fun name hmem => ?_, ?_⟩
  · rw [hremoved]
    exact List.take_prefix _ _
  · obtain ⟨rfl, -⟩ := hends.of_done hdone
    rw [List.append_nil] at hsplit
    rw [hsplit]
    exact ⟨first, List.cons_prefix_cons.mpr ⟨rfl, List.prefix_append _ _⟩, hremoves⟩
  · -- conversely, a conversation that begins with all removals can end in no other way
    rintro ⟨removal, hstarts, hall⟩
    exact done_of_removes hlater (List.cons_prefix_cons.mp hstarts).2 hall
  · obtain ⟨rfl, herror⟩ := hends.of_done hdone
    rw [List.append_nil] at hsplit
    refine ⟨?_, herror⟩
    rw [hremoved, ← hsplit, hnames.length_eq, List.take_length]
  · -- a failure is that of the job after the removed ones
    change Takes moment ledger ((⟨.wait cleanup.grace, .ok false⟩ :: first) ++ second) cancelled
      after at htakes
    obtain ⟨job, name, rest, failure, earlier, giving, event, answer, rfl, hname, herror, hgives,
      hsaid, hgoes⟩ := hends.exists_givesUp hfailed htakes
    refine ⟨job, name, failure, earlier, giving, event, answer, ?_, hname, herror, hgives, hsaid,
      hgoes⟩
    rw [hlength, hsplit, List.getElem?_append_right (Nat.le_refl _), Nat.sub_self]
    rfl
  · -- a cancelled sweep was told so
    have hmem := List.mem_cons_of_mem ⟨.wait cleanup.grace, .ok false⟩
      (List.mem_append_right first (hends.of_cancelled hcancelled))
    exact htakes.cancelled_of_tells hmem (.inr rfl)
  · rw [hremoved] at hmem
    exact ⟨fun h => (Ledger.mem_scheduled_retireAll.mp (hloses.scheduled h)).1 hmem,
      fun h => (Ledger.mem_tracked_retireAll.mp (hloses.tracked_eq ▸ h)).1 hmem⟩
  · -- names that were neither removed nor next are left alone by both parts
    refine (Ledger.SameOn.of_retireAll (fun name hmem => ?_) ledger).trans
      (hloses.sameOn fun name hnext => ?_)
    · rw [← hremoved] at hmem
      exact decide_eq_false fun h => h.1 hmem
    · rw [List.getElem?_drop, Nat.add_zero, ← hlength] at hnext
      exact decide_eq_false fun h => h.2 hnext

/-- **What is said in a first run accounts for it.** -/
theorem account_of_leads (hnames : Job.NamesOf cleanup.stale names)
    (hleads : Leads (cleanup.run .initial) said (.done outcome))
    (htakes : Takes moment ledger said cancelled after) :
    cleanup.Account names said cancelled outcome.progress ledger after := by
  obtain ⟨waited, later, rfl, hlater⟩ := leads_call_iff.mp hleads
  obtain ⟨_, middle, hwaited, hrest⟩ := htakes.cons_cases
  -- waiting does nothing to the ledger
  rw [eq_of_gives hwaited fun _ => rfl] at hrest
  match waited, hlater with
  | .error failure, hlater =>
    -- the wait failed: nothing was done, and nothing will be
    obtain ⟨rfl, rfl⟩ := leads_done_iff.mp hlater
    obtain ⟨rfl, -⟩ := hrest.nil_cases
    exact .of_wait (fun h => nomatch h) rfl (.inr ⟨rfl, failure, rfl⟩)
  | .ok true, hlater =>
    -- the wait was cut short: a cancellation is logged
    have hcancelled := htakes.cancelled_of_tells List.mem_cons_self (.inl ⟨cleanup.grace, rfl⟩)
    obtain ⟨answer, rfl, hprogress⟩ := leads_finish hlater
    obtain ⟨_, logged, hlogged, hlast⟩ := hrest.cons_cases
    obtain rfl := eq_of_gives hlogged fun _ => rfl
    obtain ⟨rfl, -⟩ := hlast.nil_cases
    rw [hprogress]
    exact .of_wait (fun h => nomatch h) rfl (.inl ⟨rfl, hcancelled⟩)
  | .ok false, hlater => exact account_of_swept hnames hlater htakes hrest

end Cleanup

namespace Task

variable {opened : Opened} {task : Task} {world : World} {ledger : Ledger} {names : List String}

/-- What is said when a task is run through. -/
def conversation (task : Task) (world : World) : List Said :=
  World.conversation task.stores (task.cleanup.run task.progress)
    { world with cancelled := some task.cancelled }

/-- **A first run of a task is accounted for**, whatever fails in it and whoever cancels it: it
comes to its end, and the account says what it has done. -/
theorem account_of_runThrough (hserve : task.stores.Serve opened)
    (hshows : world.Shows opened ledger) (hnames : Job.NamesOf task.cleanup.stale names)
    (hfirst : task.progress = .initial) (hstatus : task.status ≠ .waiting) :
    let done := task.runThrough world
    ∃ moved, done.2.Shows opened moved ∧
      task.cleanup.Account names (task.conversation world) done.1.cancelled done.1.progress ledger
        moved := by
  have hshown : ({ world with cancelled := some task.cancelled } : World).Shows opened ledger :=
    shows_cancelled hshows
  obtain ⟨moved, htakes, hmoved⟩ :=
    World.run_takes hserve hshown (task.cleanup.run task.progress)
  have hleads := Plan.leads_conversation (World.answer task.stores)
    (task.cleanup.run task.progress) { world with cancelled := some task.cancelled }
  rw [runThrough_eq hstatus]
  refine ⟨moved, shows_cancelled hmoved, ?_⟩
  rw [conversation]
  rw [hfirst] at hleads htakes ⊢
  exact Cleanup.account_of_leads hnames hleads htakes

/-- An instance of a release. -/
def instanceOfThree (ordinal : Int) : Job :=
  ⟨.text "web", .int 3, .text "web", .int ordinal, .dict [], ⟨.text "repo", .text "v1"⟩,
    .text "./run"⟩

/-- A job is rolled out, and faults lie in wait. -/
def rollingOutOne (faults : List Fault) : List Deed :=
  [.define (.text "formation") (.web 1), .release (.web 3) (.text "formation"), .arm faults]

/-- A world in which the job is scheduled and tracked. -/
def runningOne (faults : List Fault) : World := (Session.fresh.follow (rollingOutOne faults)).world

/-- A task that is to retire that job and another one, with one further try. -/
def retiringTwo : Task :=
  .ofCleanup (some (.text "state.db"))
    ⟨[instanceOfThree 1, instanceOfThree 2], .zero false, 1, .zero false, ⟨.text "web", .int 3⟩,
      .text "state.db"⟩

/-- If the scheduler rejects the first job once, the first job is removed nevertheless, and the task
fails at the second one, which the scheduler does not know. -/
theorem account_of_unknown_job :
    let done := retiringTwo.runThrough (runningOne [.rejecting .unschedule "web.3.web.1"])
    done.1.progress.phase = .failed ∧ done.1.progress.removed = ["web.3.web.1"] ∧
      ∃ ledger moved, done.2.Shows Session.freshlyOpened moved ∧
        retiringTwo.cleanup.Account ["web.3.web.1", "web.3.web.2"]
          (retiringTwo.conversation (runningOne [.rejecting .unschedule "web.3.web.1"]))
          done.1.cancelled done.1.progress ledger moved := by
  have hlegal : ∀ deed ∈ rollingOutOne [.rejecting .unschedule "web.3.web.1"],
      deed.IsLegal "web" := by
    rw [rollingOutOne]
    simp only [List.forall_mem_cons]
    exact ⟨Formation.isTyped_web (by decide +kernel), Blueprint.isTyped_web (by decide +kernel),
      Deed.isLegal_rejecting (by decide) _ _, fun _ hmem => nomatch hmem⟩
  obtain ⟨ledger, horder, -⟩ := (Session.fresh_inOrder "web").follow hlegal
  have hnames : Job.NamesOf retiringTwo.cleanup.stale ["web.3.web.1", "web.3.web.2"] :=
    .cons (eq_ok_of_toOption (by decide +kernel))
      (.cons (eq_ok_of_toOption (by decide +kernel)) .nil)
  exact ⟨by decide +kernel, by decide +kernel, ledger, account_of_runThrough
    ⟨rfl, fun _ hfile => (nomatch hfile), rfl⟩ horder.shows hnames rfl (by decide)⟩

/-- **A wait that fails** is not made up for. If it is the wait for the end of the grace period, the
task does not end in any of the three ways; if it is the one before a further try, the task fails
after a single attempt. -/
theorem not_always_ended :
    let failure : Failure := .reported .runtime "no time"
    let atOnce := retiringTwo.runThrough (runningOne [⟨.wait, none, 1, some failure, false⟩])
    let later := retiringTwo.runThrough (runningOne
      [.rejecting .unschedule "web.3.web.1", ⟨.wait, none, 1, none, false⟩,
        ⟨.wait, none, 1, some failure, false⟩])
    ¬(atOnce.1.progress.phase = .done ∨ atOnce.1.progress.phase = .failed ∨
        atOnce.1.progress.phase = .cancelled) ∧
      later.1.progress.phase = .failed ∧
      (later.2.history.filter fun request => request.point = .unschedule).length <
        retiringTwo.cleanup.retries + 1 := by
  intro failure atOnce later
  exact ⟨by decide +kernel, by decide +kernel, by decide +kernel⟩

end Task

end Rollout
