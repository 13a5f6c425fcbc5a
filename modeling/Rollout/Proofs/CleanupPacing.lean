import Rollout.Proofs.CleanupRuns

/-!
# The pace of a cleanup

Which calls a cleanup makes, in which order and how often, whatever fails in it and whoever cancels
it.

The attempts of one step make a `Bout`, and what is done about one job makes a `Visit`. The script
of each says which calls these are. A conversation is `Paced` if its calls are the wait for the
grace period, the scripts of visits to the first of the jobs, one after the other, and a last entry
in the log. That every run is so (`Cleanup.exists_paced_of_leads`) follows loop by loop from what
can be said in it: a bout for the attempts of a step, a visit for one job, and visits for a sweep.
-/

namespace Rollout

open Plan (Leads leads_done_iff leads_call_iff)

namespace Cleanup

/-! ### Bouts and visits -/

/-- The attempts of one step: those that failed and were followed by another one, the last one, and
what came of a wait after it, if there was one. -/
structure Bout where
  failed : List Failure
  last : Except Failure Unit
  waited : Option (Except Failure Bool)

namespace Bout

/-- What is said in the attempts: one wait stands between two of them. -/
def script (attempt : Except Failure Unit → Said) (delay : Binary64) (bout : Bout) : List Said :=
  bout.failed.flatMap (fun failure => [attempt (.error failure), ⟨.wait delay, .ok false⟩]) ++
    attempt bout.last :: bout.waited.toList.map fun waited => ⟨.wait delay, waited⟩

/-- The attempts are no more than one and the further ones. A wait comes after the last one only if
it failed with a further one left, and the wait told of a cancellation, or failed itself. -/
structure IsWithin (retries : Nat) (bout : Bout) : Prop where
  budget : bout.failed.length ≤ retries
  broken : ∀ waited, bout.waited = some waited →
    bout.failed.length < retries ∧ (∃ failure, bout.last = .error failure) ∧ waited ≠ .ok false

end Bout

/-- What is done about one job: it is to be taken from the scheduler, and then from the store. The
second bout is missing if the first one failed. -/
structure Visit where
  unscheduling : Bout
  removing : Option Bout

namespace Visit

/-- What is said about the job. -/
def script (cleanup : Cleanup) (job : Job) (visit : Visit) : List Said :=
  visit.unscheduling.script (Cleanup.unscheduling job.label) cleanup.delay ++
    visit.removing.toList.flatMap (·.script (Cleanup.removing job) cleanup.delay)

/-- Both steps are made of such attempts, and the store is turned to exactly if the scheduler let go
of the job. -/
structure IsMade (fine : Bout → Prop) (visit : Visit) : Prop where
  unscheduling : fine visit.unscheduling
  removing : ∀ bout, visit.removing = some bout → fine bout
  inOrder : visit.removing.isSome = true ↔ visit.unscheduling.last = .ok ()

/-- The job was removed. The second bout then was begun, so the first one had succeeded as well. -/
def Succeeds (visit : Visit) : Prop := ∃ bout, visit.removing = some bout ∧ bout.last = .ok ()

end Visit

/-- What is on record of a conversation: whether a cleanup is cancelled is asked without a trace. -/
def calls (said : List Said) : List Said := said.filter fun exchange =>
  match exchange.request with
  | .cancelled => false
  | _ => true

/-- What is said about jobs that were visited, one after the other. -/
def visited (cleanup : Cleanup) (jobs : List Job) (visits : List Visit) : List Said :=
  (List.zipWith (Visit.script cleanup) jobs visits).flatten

/-- A conversation in steps of such attempts: it waits for the end of the grace period, visits the
first of the jobs, one after the other and each but the last one until it is removed, and logs what
it came to. -/
structure Paced (cleanup : Cleanup) (fine : Bout → Prop) (visits : List Visit)
    (said : List Said) : Prop where
  within : visits.length ≤ cleanup.stale.length
  made : ∀ visit ∈ visits, visit.IsMade fine
  succeed : ∀ visit ∈ visits.dropLast, visit.Succeeds
  calls : ∃ waited closing,
    calls said =
        ⟨.wait cleanup.grace, waited⟩ :: (cleanup.visited cleanup.stale visits ++ closing) ∧
      (closing = [] ∨ ∃ event answer, closing = [⟨.log event, answer⟩])

section Scripts

variable {cleanup : Cleanup} {job : Job} {jobs : List Job} {name : String}
  {progress ended : Progress} {outcome : Outcome} {said : List Said} {retries : Nat}
  {delay : Binary64} {attempt : Except Failure Unit → Said} {result : Except Failure Unit}

/-! ### What is on record -/

theorem calls_append (first second : List Said) :
    calls (first ++ second) = calls first ++ calls second := List.filter_append ..

/-- The attempts are on record, and so are waits. -/
theorem calls_bout {attempt : Except Failure Unit → Said}
    (hattempt : ∀ result, calls [attempt result] = [attempt result]) (bout : Bout) :
    calls (bout.script attempt delay) = bout.script attempt delay := by
  -- neither attempts nor waits are questions, so nothing is dropped
  have hfailed : ∀ failures : List Failure,
      calls (failures.flatMap fun failure =>
        [attempt (.error failure), ⟨.wait delay, .ok false⟩]) =
      failures.flatMap fun failure => [attempt (.error failure), ⟨.wait delay, .ok false⟩] := by
    intro failures
    induction failures with
    | nil => rfl
    | cons failure rest ih =>
      rw [List.flatMap_cons, calls_append, ih]
      exact congrArg (· ++ _) ((calls_append [_] [_]).trans (congrArg (· ++ _) (hattempt _)))
  have hwaited : calls (bout.waited.toList.map fun waited => ⟨.wait delay, waited⟩) =
      bout.waited.toList.map fun waited => ⟨.wait delay, waited⟩ := by
    cases bout.waited <;> rfl
  rw [Bout.script, calls_append, hfailed]
  exact congrArg (_ ++ ·) ((calls_append [_] _).trans
    (congrArg₂ (· ++ ·) (hattempt _) hwaited))

theorem calls_visit (job : Job) (visit : Visit) :
    calls (visit.script cleanup job) = visit.script cleanup job := by
  rw [Visit.script, calls_append, calls_bout fun _ => rfl]
  cases visit.removing with
  | none => rfl
  | some bout =>
    rw [Option.toList_some, List.flatMap_singleton, calls_bout fun _ => rfl]

/-- **What is said when a step is tried is a bout.** The bout is read off the tries: the failures
that were waited out, and the try that ended it. -/
theorem Tries.exists_bout (h : Tries attempt delay retries said result) :
    ∃ bout : Bout, said = bout.script attempt delay ∧ bout.IsWithin retries ∧
      (bout.last = .ok () ↔ result = .ok ()) := by
  induction h with
  | succeeded =>
    -- the bout is its last try, with the tries that failed before and the wait that broke it off
    exact ⟨⟨[], .ok (), none⟩, rfl, ⟨Nat.zero_le _, nofun⟩, Iff.rfl⟩
  | @spent failure =>
    exact ⟨⟨[], .error failure, none⟩, rfl, ⟨Nat.zero_le _, nofun⟩, Iff.rfl⟩
  | @calledOff retries failure =>
    refine ⟨⟨[], .error failure, some (.ok true)⟩, rfl, ⟨Nat.zero_le _, ?_⟩, Iff.rfl⟩
    intro waited hwaited
    obtain rfl := Option.some.inj hwaited
    exact ⟨Nat.zero_lt_succ _, ⟨failure, rfl⟩, nofun⟩
  | @brokenOff retries failure cause =>
    refine ⟨⟨[], .error failure, some (.error cause)⟩, rfl, ⟨Nat.zero_le _, ?_⟩, ?_⟩
    · intro waited hwaited
      obtain rfl := Option.some.inj hwaited
      exact ⟨Nat.zero_lt_succ _, ⟨failure, rfl⟩, nofun⟩
    · exact ⟨nofun, nofun⟩
  | @again _ failure _ _ _ ih =>
    -- one more failed try, and one more try in the budget
    obtain ⟨⟨failed, last, waited⟩, rfl, hwithin, hlast⟩ := ih
    refine ⟨⟨failure :: failed, last, waited⟩, rfl, ⟨Nat.succ_le_succ hwithin.budget, ?_⟩, hlast⟩
    intro given hgiven
    obtain ⟨hleft, hbroken⟩ := hwithin.broken given hgiven
    exact ⟨Nat.succ_lt_succ hleft, hbroken⟩

/-- **What is said when a job is retired is a visit.** The two steps have bouts of their own, so the
failures of the first one leave the second one all its tries. -/
theorem Retires.exists_visit (h : cleanup.Retires job name said result)
    (hname : job.name? = .ok name) :
    ∃ visit : Visit, said = visit.script cleanup job ∧
      visit.IsMade (Bout.IsWithin cleanup.retries) ∧ (result = .ok () → visit.Succeeds) := by
  have hlabel := Job.label_of_name? hname
  cases h with
  | kept htries =>
    -- the scheduler kept the job, and the store was not turned to
    obtain ⟨bout, rfl, hwithin, hlast⟩ := htries.exists_bout
    refine ⟨⟨bout, none⟩, ?_, ⟨hwithin, fun _ hnone => (nomatch hnone), ?_⟩, fun hok => nomatch hok⟩
    · rw [Visit.script, hlabel]
      exact (List.append_nil _).symm
    · exact ⟨fun hsome => (nomatch hsome), fun hok => nomatch hlast.mp hok⟩
  | left hfirst hsecond =>
    -- the scheduler let go of the job, and so the store was turned to
    obtain ⟨leaving, rfl, hleaving, hleft⟩ := hfirst.exists_bout
    obtain ⟨giving, rfl, hgiving, hlast⟩ := hsecond.exists_bout
    refine ⟨⟨leaving, some giving⟩, ?_, ⟨hleaving, ?_, ?_⟩, ?_⟩
    · rw [Visit.script, hlabel, Option.toList_some, List.flatMap_singleton]
    · rintro bout hbout
      obtain rfl := Option.some.inj hbout
      exact hgiving
    · exact ⟨fun _ => hleft.mpr rfl, fun _ => rfl⟩
    · exact fun hok => ⟨giving, rfl, hlast.mpr hok⟩

/-! ### Runs -/

/-- Jobs that were removed were visited. -/
theorem Removes.exists_visits (h : cleanup.Removes jobs said) :
    ∃ visits : List Visit, visits.length = jobs.length ∧ calls said = cleanup.visited jobs visits ∧
      ∀ visit ∈ visits, visit.IsMade (Bout.IsWithin cleanup.retries) ∧ visit.Succeeds := by
  induction h with
  | nil => exact ⟨[], rfl, rfl, fun _ hmem => nomatch hmem⟩
  | @cons job name rest retiring later hname hretires _ ih =>
    obtain ⟨visit, rfl, hmade, hsucceeds⟩ := hretires.exists_visit hname
    obtain ⟨visits, hlength, hcalls, hvisits⟩ := ih
    refine ⟨visit :: visits, congrArg (· + 1) hlength, ?_, ?_⟩
    · rw [visited, List.zipWith_cons_cons, List.flatten_cons]
      change calls (visit.script cleanup job ++ later) = _
      rw [calls_append, calls_visit, hcalls]
      rfl
    · exact List.forall_mem_cons.mpr ⟨⟨hmade, hsucceeds rfl⟩, hvisits⟩

/-- At the end one more job is visited at most. -/
theorem Ends.exists_visits (h : cleanup.Ends progress jobs said ended) :
    ∃ (visits : List Visit) (event : Event) (answer : Except Failure Unit), visits.length ≤ 1 ∧
      visits.length ≤ jobs.length ∧
      calls said = cleanup.visited jobs visits ++ [⟨.log event, answer⟩] ∧
      ∀ visit ∈ visits, visit.IsMade (Bout.IsWithin cleanup.retries) := by
  cases h with
  | @done event answer =>
    exact ⟨[], event, answer, Nat.zero_le _, Nat.zero_le _, rfl, fun _ hmem => nomatch hmem⟩
  | @cancelled job rest event answer =>
    exact ⟨[], event, answer, Nat.zero_le _, Nat.zero_le _, rfl, fun _ hmem => nomatch hmem⟩
  | @stopped job name rest giving failure flag event answer hname hretires =>
    obtain ⟨visit, rfl, hmade, -⟩ := hretires.exists_visit hname
    refine ⟨[visit], event, answer, Nat.le_refl _, Nat.succ_le_succ (Nat.zero_le _), ?_, ?_⟩
    · change calls (visit.script cleanup job ++ _) = _
      rw [calls_append, calls_visit, visited, List.zipWith_cons_cons, List.flatten_cons,
        List.zipWith_nil_right, List.flatten_nil, List.append_nil]
      rfl
    · intro other hmem
      obtain rfl := List.mem_singleton.mp hmem
      exact hmade

/-- **Every run is paced.** The jobs are visited in order, each within its tries, with a delay
between jobs that succeed; a visit that fails is the last one. -/
theorem exists_paced_of_leads (hnames : ∀ job ∈ cleanup.stale, ∃ name, job.name? = .ok name)
    (hleads : Leads (cleanup.run progress) said (.done outcome)) :
    ∃ visits, cleanup.Paced (Bout.IsWithin cleanup.retries) visits said := by
  obtain ⟨waited, later, rfl, hlater⟩ := leads_call_iff.mp hleads
  have hnone {closing : List Said} (hcalls : calls later = closing)
      (hclosing : closing = [] ∨ ∃ event answer, closing = [⟨.log event, answer⟩]) :
      cleanup.Paced (Bout.IsWithin cleanup.retries) []
        (⟨.wait cleanup.grace, waited⟩ :: later) := by
    refine ⟨Nat.zero_le _, fun _ hmem => (nomatch hmem), fun _ hmem => (nomatch hmem), waited,
      closing, ?_, hclosing⟩
    rw [visited, List.zipWith_nil_right, ← hcalls]
    rfl
  match waited, hlater with
  | .error failure, hlater =>
    obtain ⟨rfl, -⟩ := leads_done_iff.mp hlater
    exact ⟨[], hnone rfl (.inl rfl)⟩
  | .ok true, hlater =>
    obtain ⟨answer, rfl, -⟩ := leads_finish hlater
    exact ⟨[], hnone rfl (.inr ⟨_, answer, rfl⟩)⟩
  | .ok false, hlater =>
    obtain ⟨gone, left, removal, ending, hstale, rfl, hremoves, hends⟩ := leads_sweep hnames hlater
    obtain ⟨visits, hlength, hremoval, hvisits⟩ := hremoves.exists_visits
    obtain ⟨last, event, answer, hone, hleft, hending, hlast⟩ := hends.exists_visits
    refine ⟨visits ++ last, ?_, ?_, ?_, .ok false, [⟨.log event, answer⟩], ?_,
      .inr ⟨event, answer, rfl⟩⟩
    · rw [hstale, List.length_append, List.length_append]
      omega
    · exact List.forall_mem_append.mpr ⟨fun visit hmem => (hvisits visit hmem).1, hlast⟩
    · intro visit hmem
      -- at most one visit comes after those of the jobs that were removed
      rcases last with - | ⟨only, - | ⟨next, others⟩⟩
      · rw [List.append_nil] at hmem
        exact (hvisits visit (List.mem_of_mem_dropLast hmem)).2
      · rw [List.dropLast_concat] at hmem
        exact (hvisits visit hmem).2
      · rw [List.length_cons, List.length_cons] at hone
        omega
    · change ⟨.wait cleanup.grace, .ok false⟩ :: calls (removal ++ ending) = _
      rw [calls_append, hremoval, hending, hstale, visited, visited, visited,
        List.zipWith_append hlength.symm, List.flatten_append, List.append_assoc]

end Scripts

end Cleanup

end Rollout
