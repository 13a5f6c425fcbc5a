import Rollout.Proofs.Answers

/-!
# Runs on a ledger

A plan that is run in a world leaves a record: the calls that were made, and those in whose place a
fault failed (`World.attempts`). As far as the scheduler and the stores go, the same run can be told
on the ledger alone. `Ledger.Ran stores moment plan ledger record result after` says that the plan,
started on the ledger, may leave the record, the result and the ledger afterwards: each call is
answered from the ledger or failed by a fault, and whether a cleanup is cancelled is left open.

* `World.run_ran`: what runs in a world ran on the ledger that it shows.
* `Ledger.Ran.bind_cases`, `Ledger.Ran.work_bind_cases`: a run of a sequence is a run of its parts.
  Where work succeeded, all parts of it did (`Ledger.Ran.work_bind_ok`).
* `World.faults_of_mem_attempts`: a call fails by a fault only where one lay in wait.

Since a run on a ledger says nothing about what lay in wait, what is proved of it holds for all
faults and all cancellations.
-/

namespace Rollout

/-- A call that went on record. A failure of its own does not show here, since it follows from the
ledger at the time. -/
structure Attempt where
  call : Call
  /-- The failure of the fault that failed in its place, if one did. -/
  fault : Option Failure

/-- What a call that meets no fault leaves on record. The question for a cancellation leaves
nothing, nor does a call to a store that is missing. -/
def Stores.noted (stores : Stores) (request : Call) : List Attempt :=
  if stores.records request then [⟨request, none⟩] else []

/-- The record of a run: the calls that were put on record, each with the failure that came in its
place if one did. Unlike the conversation, it tells a fault from a failure of the collaborator. -/
def World.attempts {α : Type} (stores : Stores) : Plan Collaborators α → World → List Attempt
  | .done _, _ => []
  | .call request next, world =>
    let answered := answer stores request world
    (if stores.records request then [⟨request, (meet stores request world).1⟩] else []) ++
      attempts stores (next answered.1) answered.2

/-- A plan may run from a ledger to another one, with a record and a result. The relation allows any
faults and any cancellation, so what holds of all runs holds whatever lies in wait. -/
inductive Ledger.Ran (stores : Stores) (moment : Moment) {α : Type} :
    Plan Collaborators α → Ledger → List Attempt → α → Ledger → Prop where
  /-- Nothing was to be done. -/
  | done {result : α} {ledger : Ledger} : Ran stores moment (.done result) ledger [] result ledger
  /-- A fault failed in the place of the first call. -/
  | failed {request : Call} {next : request.Answer → Plan Collaborators α} {ledger after : Ledger}
      {failure : Failure} {record : List Attempt} {result : α}
      (hrecords : stores.records request = true)
      (hrest : Ran stores moment (next (request.fail failure)) ledger record result after) :
      Ran stores moment (.call request next) ledger (⟨request, some failure⟩ :: record) result after
  /-- The first call was made. -/
  | made {request : Call} {next : request.Answer → Plan Collaborators α} {ledger after : Ledger}
      {cancelled : Bool} {record : List Attempt} {result : α}
      (hrest : Ran stores moment (next (ledger.answer { moment with cancelled } request).1)
        (ledger.answer { moment with cancelled } request).2 record result after) :
      Ran stores moment (.call request next) ledger (stores.noted request ++ record) result after

/-! ### Runs in a world -/

namespace World

variable {α : Type} {opened : Opened} {stores : Stores} {world : World} {ledger : Ledger}
  {moment : Ledger.Moment}

/-- The moment is the one at which the world is, but for a cancellation. A cancellation may come in
at any call, while all else stays for a whole run. -/
def IsAt (stores : Stores) (moment : Ledger.Moment) (world : World) : Prop :=
  ∀ cancelled, { world.moment stores with cancelled } = { moment with cancelled }

theorem isAt_moment (stores : Stores) (world : World) :
    world.IsAt stores (world.moment stores) := fun _ => rfl

theorem IsAt.of_attends_beside {met after : World} (h : world.IsAt stores moment)
    (hattends : world.Attends met) (hbeside : met.Beside after) : after.IsAt stores moment := by
  intro cancelled
  rw [← h cancelled, World.moment, World.moment, hbeside.machine, hbeside.site, hattends.site,
    hbeside.waitLimit, hattends.waitLimit]
  rw [machine, hattends.scheduler, ← machine]

/-- **What runs in a world ran on the ledger that it shows.** The attempts say which calls were met
by faults; every other call was answered by the ledger, which is thereby all that the plan can tell
of the world. -/
theorem run_ran (hserve : stores.Serve opened) (hshows : world.Shows opened ledger)
    (hmoment : world.IsAt stores moment) (plan : Plan Collaborators α) :
    ∃ moved, Ledger.Ran stores moment plan ledger (attempts stores plan world)
        (run stores plan world).1 moved ∧
      (run stores plan world).2.Shows opened moved ∧ world.Follows (run stores plan world).2 ∧
      (run stores plan world).2.IsAt stores moment ∧
      (run stores plan world).2.history =
        world.history ++ (attempts stores plan world).map fun attempt => .call attempt.call := by
  -- On the plan: one call, and then what is left of it in the world that the call leaves.
  induction plan generalizing world ledger with
  | done result => exact ⟨ledger, .done, hshows, .refl world, hmoment, (List.append_nil _).symm⟩
  | call request next ih =>
    have hattends := attends_meet stores request world
    have hshown := hattends.shows hshows
    have hhistory : (meet stores request world).2.history =
        world.history ++ if stores.records request then [.call request] else [] := by
      rw [meet]
      split
      · rfl
      · exact (List.append_nil _).symm
    cases hmet : (meet stores request world).1 with
    | some failure =>
      -- the world shows the same ledger after a fault
      have hanswer := answer_of_met hmet
      have hrecords : stores.records request = true := by
        by_contra hnot
        rw [meet, if_neg hnot] at hmet
        cases hmet
      obtain ⟨moved, hran, hshown', hfollows, hmoment', hhistory'⟩ := ih (request.fail failure)
        hshown (hmoment.of_attends_beside hattends (.refl _))
      rw [run, Plan.run, attempts, hanswer, if_pos hrecords, hmet]
      refine ⟨moved, .failed hrecords hran, hshown', hattends.toFollows.trans hfollows, hmoment',
        ?_⟩
      rw [if_pos hrecords] at hhistory
      refine hhistory'.trans ?_
      rw [hhistory, List.append_assoc]
      rfl
    | none =>
      obtain ⟨after, hanswer, hshown', hbeside⟩ := answer_of_unmet hserve hshows hmet
      obtain ⟨moved, hran, hshown'', hfollows, hmoment', hhistory'⟩ := ih _ hshown'
        (hmoment.of_attends_beside hattends hbeside)
      -- whether a cleanup is cancelled may have changed, and nothing else about the moment
      have hnow : (meet stores request world).2.moment stores =
          { moment with cancelled := (meet stores request world).2.isCancelled } :=
        hmoment.of_attends_beside hattends (.refl _) _
      rw [run, Plan.run, attempts, hanswer]
      refine ⟨moved, ?_, hshown'', (hattends.toFollows.trans hbeside.follows).trans hfollows,
        hmoment', ?_⟩
      · rw [hnow] at hran ⊢
        rw [hmet]
        exact Ledger.Ran.made hran
      · refine hhistory'.trans ?_
        rw [hbeside.history, hhistory, List.append_assoc]
        dsimp only
        split <;> rfl

/-- **A call fails by a fault only where one lay in wait.** A world that spares a point therefore
answers every call there from its ledger. -/
theorem faults_of_mem_attempts {plan : Plan Collaborators α} {point : Point}
    (hserve : stores.Serve opened) (hshows : world.Shows opened ledger)
    (hspares : world.Spares point) :
    ∀ attempt ∈ attempts stores plan world, (Request.call attempt.call).point = point →
      attempt.fault = none := by
  -- On the plan. The world changes from call to call, but the point stays spared.
  induction plan generalizing world ledger with
  | done result => exact fun _ hmem => nomatch hmem
  | call request next ih =>
    intro attempt hmem hpoint
    have hattends := attends_meet stores request world
    rw [attempts] at hmem
    rcases List.mem_append.mp hmem with hfirst | hlater
    · -- a fault that fails has fired, so it lay in wait at this point
      split at hfirst
      · next hrecords =>
        obtain rfl := List.mem_singleton.mp hfirst
        rw [meet, if_pos hrecords]
        cases hfired : (Fault.fire (.call request) world.faults).1 with
        | none =>
          rw [attend]
          dsimp only
          rw [hfired]
          rfl
        | some fault =>
          obtain ⟨hin, hfires⟩ := Fault.mem_of_fire hfired
          rw [attend]
          dsimp only
          rw [hfired]
          exact hspares fault hin ((Fault.point_of_firesAt hfires).trans hpoint)
      · cases hfirst
    · -- later calls are made in a world that spares the point as well
      cases hmet : (meet stores request world).1 with
      | some failure =>
        rw [answer_of_met hmet] at hlater
        exact ih _ (hattends.shows hshows) (hattends.toFollows.spares hspares) attempt hlater hpoint
      | none =>
        obtain ⟨after, hanswer, hshown, hbeside⟩ := answer_of_unmet hserve hshows hmet
        rw [hanswer] at hlater
        exact ih _ hshown ((hattends.toFollows.trans hbeside.follows).spares hspares) attempt hlater
          hpoint

/-- **A call that no fault lies in wait for** is answered from the ledger. -/
theorem answer_of_no_faults (hserve : stores.Serve opened) (hshows : world.Shows opened ledger)
    (hnone : world.faults = []) (request : Call) :
    ∃ after, answer stores request world =
        ((ledger.answer (world.moment stores) request).1, after) ∧
      after.Shows opened (ledger.answer (world.moment stores) request).2 ∧
      after.faults = [] ∧ after.cancelled = world.cancelled ∧
      after.moment stores = world.moment stores := by
  -- where no fault is left, a request meets none, and nothing changes by meeting it
  have hmet : (meet stores request world).1 = none ∧ (meet stores request world).2.faults = [] ∧
      (meet stores request world).2.cancelled = world.cancelled ∧
      (meet stores request world).2.moment stores = world.moment stores := by
    rw [meet]
    split
    · rw [attend_of_no_faults _ hnone]
      exact ⟨rfl, hnone, rfl, rfl⟩
    · exact ⟨rfl, hnone, rfl, rfl⟩
  obtain ⟨hunmet, hfaults, hcancelled, hmoment⟩ := hmet
  obtain ⟨after, hanswer, hshown, hbeside⟩ := answer_of_unmet hserve hshows hunmet
  rw [hmoment] at hanswer hshown
  refine ⟨after, hanswer, hshown, hbeside.faults.trans hfaults,
    hbeside.cancelled.trans hcancelled, ?_⟩
  rw [← hmoment, moment, moment, hbeside.machine, hbeside.site, isCancelled, hbeside.cancelled,
    hbeside.waitLimit]
  rfl

/-- **Without faults a plan runs as on the ledger.** -/
theorem run_of_no_faults (hserve : stores.Serve opened) (hshows : world.Shows opened ledger)
    (hnone : world.faults = []) (plan : Plan Collaborators α) :
    (run stores plan world).1 = (plan.run (Ledger.answer (world.moment stores)) ledger).1 ∧
      (run stores plan world).2.Shows opened
        (plan.run (Ledger.answer (world.moment stores)) ledger).2 := by
  -- On the plan: without faults the moment stays the same, so one handler answers all the way.
  induction plan generalizing world ledger with
  | done result => exact ⟨rfl, hshows⟩
  | call request next ih =>
    obtain ⟨after, hanswer, hshown, hfaults, -, hmoment⟩ :=
      answer_of_no_faults hserve hshows hnone request
    rw [run, Plan.run, hanswer, ← hmoment]
    rw [← hmoment] at hshown
    exact ih _ hshown hfaults

end World

/-! ### Parts of a run -/

namespace Ledger.Ran

variable {α β : Type} {stores : Stores} {moment : Moment} {ledger after : Ledger}
  {record : List Attempt}

theorem done_cases {result value : α}
    (h : Ran stores moment (.done value) ledger record result after) :
    result = value ∧ record = [] ∧ after = ledger := by
  cases h
  exact ⟨rfl, rfl, rfl⟩

/-- **A run of two plans is a run of the first one and then of the second one.** The record is cut
at the same place. -/
theorem bind_cases {result : β} (plan : Plan Collaborators α) {next : α → Plan Collaborators β}
    (h : Ran stores moment (plan >>= next) ledger record result after) :
    ∃ value middle first second, Ran stores moment plan ledger first value middle ∧
      Ran stores moment (next value) middle second result after ∧ record = first ++ second := by
  -- On the first plan: its calls are on record first.
  induction plan generalizing ledger record with
  | done value => exact ⟨value, ledger, [], record, .done, h, rfl⟩
  | call request rest ih =>
    cases h with
    | failed hrecords hrest =>
      obtain ⟨value, middle, first, second, hfirst, hsecond, rfl⟩ := ih _ hrest
      exact ⟨value, middle, _, second, .failed hrecords hfirst, hsecond, rfl⟩
    | made hrest =>
      obtain ⟨value, middle, first, second, hfirst, hsecond, rfl⟩ := ih _ hrest
      exact ⟨value, middle, _, second, .made hfirst, hsecond, (List.append_assoc _ _ _).symm⟩

/-- **A run of work in two steps** is a run of both, or of a first one that fails. -/
theorem work_bind_cases {work : Action α} {next : α → Action β} {result : Except Failure β}
    (h : Ran stores moment (work >>= next).attempt ledger record result after) :
    (∃ value middle first second, Ran stores moment work.attempt ledger first (.ok value) middle ∧
      Ran stores moment (next value).attempt middle second result after ∧
      record = first ++ second) ∨
    ∃ failure, Ran stores moment work.attempt ledger record (.error failure) after ∧
      result = .error failure := by
  obtain ⟨value, middle, first, second, hfirst, hsecond, rfl⟩ := bind_cases work.attempt h
  -- After a failure the second step is a plan that is done.
  cases value with
  | ok value => exact .inl ⟨value, middle, first, second, hfirst, hsecond, rfl⟩
  | error failure =>
    obtain ⟨rfl, rfl, rfl⟩ := done_cases hsecond
    rw [List.append_nil]
    exact .inr ⟨failure, hfirst, rfl⟩

/-- What is known beforehand runs without a call. -/
theorem ofExcept_bind_cases {known : Except Failure α} {next : α → Action β}
    {result : Except Failure β}
    (h : Ran stores moment (Work.ofExcept known >>= next).attempt ledger record result after) :
    (∃ value, known = .ok value ∧
      Ran stores moment (next value).attempt ledger record result after) ∨
    ∃ failure, known = .error failure ∧ result = .error failure ∧ record = [] ∧ after = ledger := by
  rcases work_bind_cases h with ⟨value, middle, first, second, hknown, hnext, rfl⟩ |
      ⟨failure, hknown, rfl⟩
  · obtain ⟨heq, rfl, rfl⟩ := done_cases hknown
    exact .inl ⟨value, heq.symm, hnext⟩
  · obtain ⟨heq, rfl, rfl⟩ := done_cases hknown
    exact .inr ⟨failure, heq.symm, rfl, rfl, rfl⟩

/-- Work in two steps that succeeded: both steps did. -/
theorem work_bind_ok {work : Action α} {next : α → Action β} {result : β}
    (h : Ran stores moment (work >>= next).attempt ledger record (.ok result) after) :
    ∃ value middle first second, Ran stores moment work.attempt ledger first (.ok value) middle ∧
      Ran stores moment (next value).attempt middle second (.ok result) after ∧
      record = first ++ second := by
  rcases work_bind_cases h with hboth | ⟨_, -, hfailure⟩
  · exact hboth
  · cases hfailure

/-- Work that succeeded knew what it had to know beforehand. -/
theorem ofExcept_bind_ok {known : Except Failure α} {next : α → Action β} {result : β}
    (h : Ran stores moment (Work.ofExcept known >>= next).attempt ledger record (.ok result)
      after) :
    ∃ value, known = .ok value ∧
      Ran stores moment (next value).attempt ledger record (.ok result) after := by
  rcases ofExcept_bind_cases h with hknown | ⟨_, -, hfailure, -⟩
  · exact hknown
  · cases hfailure

/-- **A run of one call**: a fault fails in its place, or it is answered from the ledger. Whether
the cleanup is cancelled is the world's to say, so the moment may differ in this. -/
theorem ask_cases {request : Call} {answer : request.Answer}
    (h : Ran stores moment request.ask ledger record answer after) :
    (∃ failure, answer = request.fail failure ∧ after = ledger ∧
      record = [⟨request, some failure⟩]) ∨
    ∃ cancelled, (answer, after) = ledger.answer { moment with cancelled } request ∧
      record = stores.noted request := by
  -- After the one call nothing is left to run.
  cases h with
  | failed hrecords hrest =>
    obtain ⟨rfl, rfl, rfl⟩ := done_cases hrest
    exact .inl ⟨_, rfl, rfl, rfl⟩
  | made hrest =>
    obtain ⟨rfl, rfl, rfl⟩ := done_cases hrest
    exact .inr ⟨_, rfl, List.append_nil _⟩

end Ledger.Ran

end Rollout
