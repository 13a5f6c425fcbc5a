import Rollout.Proofs.CleanupRuns
import Rollout.Proofs.WorkingLog

/-!
# The course of a cleanup

What a cleanup no longer does once it is to be cancelled, wherever the cancellation comes in: at a
call that fails, at one that succeeds, or at a wait. Nothing is assumed of scheduler and stores.

A course (`World.course`) is a conversation in which every exchange comes with whether the cleanup
was cancelled by the end of it. A cancellation is told truthfully and not taken back
(`World.isCourse_course`), and that is all that is needed of a world.

After an exchange at whose end the cleanup is cancelled, the course is `Hushed`: nothing is tried
any more, but for one attempt in the store if the scheduler has just let go of the job. A further
attempt is made only after a wait that told of no cancellation (`Cleanup.Tries.hushes`), and the
next job is turned to only after a question that was answered with *no* (`Cleanup.Ends.rests`).
-/

namespace Rollout

open Plan (Leads leads_done_iff leads_call_iff)

/-- The call is a wait, a question, or one to the log. -/
def Call.isIdle : Call → Bool
  | log _ | wait _ | cancelled => true
  | _ => false

/-! ### Cancellations in a world -/

namespace World

variable {α : Type} {stores : Stores} {world : World}

/-- **A cancellation is not taken back** by any call. A call may bring one about, which is what the
faults at its point are asked for before it is answered. -/
theorem isCancelled_answer (stores : Stores) (request : Call) (h : world.isCancelled = true) :
    (answer stores request world).2.isCancelled = true := by
  have hattend (request : Request) : Leaves (·.isCancelled = true) (attend request) := by
    intro world h
    rw [isCancelled] at h
    rw [attend, isCancelled]
    -- Attending to a request raises the flag or leaves it as it is.
    cases hcancelled : world.cancelled with
    | none => rw [hcancelled] at h; cases h
    | some flag =>
      rw [hcancelled] at h
      obtain rfl : flag = true := h
      rfl
  exact Leaves.answer hattend (fun _ _ h => h) (fun _ _ h => h) (fun _ _ h => h) stores request
    world h

/-- **Whether a cleanup is cancelled is told truthfully.** -/
theorem tells_answer {request : Call} {told : Bool}
    (h : Exchange.Tells told ⟨request, (answer stores request world).1⟩) :
    told = (answer stores request world).2.isCancelled := by
  cases request with
  | wait seconds =>
    rcases h with ⟨given, htold⟩ | hquestion
    · obtain ⟨hsame, htold⟩ := Exchange.mk.inj htold
      obtain rfl := Call.wait.inj hsame
      have htold := eq_of_heq htold
      rcases hperform : perform (.wait seconds)
        (fun world => (world.waitLimit.await world.isCancelled seconds, world)) world
        with ⟨result, after⟩
      have hanswer : answer stores (.wait seconds) world = (result, after) := hperform
      rw [hanswer] at htold ⊢
      -- a wait that could not be recorded, met a fault or was refused tells nothing
      rcases perform_cases hperform with ⟨_, hrecordable, -⟩ | ⟨_, rfl, -⟩ | ⟨attended, -, hreal⟩
      · cases hrecordable
      · cases htold
      · obtain ⟨hawait, rfl⟩ := Prod.mk.inj hreal
        exact (WaitLimit.eq_of_await (hawait.trans htold)).symm
    · cases (Exchange.mk.inj hquestion).1
  | cancelled =>
    rcases h with ⟨_, hwait⟩ | hquestion
    · cases (Exchange.mk.inj hwait).1
    · exact (eq_of_heq (Exchange.mk.inj hquestion).2).symm
  | _ =>
    -- no other call tells of a cancellation
    rcases h with ⟨_, hwait⟩ | hquestion
    · cases (Exchange.mk.inj hwait).1
    · cases (Exchange.mk.inj hquestion).1

/-- The conversation of a plan that is run in a world, and whether the cleanup was cancelled by the
end of each exchange. The flag is what the world knows, and not what the cleanup was told, which may
be less. -/
def course (stores : Stores) : Plan Collaborators α → World → List (Said × Bool)
  | .done _, _ => []
  | .call request next, world =>
    let answered := answer stores request world
    (⟨request, answered.1⟩, answered.2.isCancelled) :: course stores (next answered.1) answered.2

theorem map_course (plan : Plan Collaborators α) (world : World) :
    (course stores plan world).map (·.1) = conversation stores plan world := by
  induction plan generalizing world with
  | done result => rfl
  | call request next ih => exact congrArg (_ :: ·) (ih _ _)

end World

/-- In a course, whether the cleanup is cancelled is told truthfully, and a cancellation lasts. The
first argument is the flag from before the course. -/
inductive Cleanup.IsCourse : Bool → List (Said × Bool) → Prop where
  | nil {before : Bool} : IsCourse before []
  | cons {before flag : Bool} {exchange : Said} {rest : List (Said × Bool)}
      (hlasts : before = true → flag = true) (htells : ∀ told, exchange.Tells told → told = flag)
      (hrest : IsCourse flag rest) : IsCourse before ((exchange, flag) :: rest)

/-- **The course of a run** is one, from whether the cleanup was cancelled before. Nothing takes a
cancellation back, so it divides every course into a part before it and a part after it. -/
theorem World.isCourse_course {α : Type} {stores : Stores} (plan : Plan Collaborators α)
    (world : World) : Cleanup.IsCourse world.isCancelled (course stores plan world) := by
  -- On the plan, call by call.
  induction plan generalizing world with
  | done result => exact .nil
  | call request next ih =>
    exact .cons (isCancelled_answer stores request) (fun _ => tells_answer) (ih _ _)

namespace Cleanup

variable {cleanup : Cleanup} {job : Job} {jobs rest : List Job} {name : String}
  {progress : Progress} {outcome : Outcome} {said : List Said} {before flag : Bool}
  {exchange : Said} {course first second later : List (Said × Bool)}
  {attempt : Except Failure Unit → Said} {delay : Binary64} {retries : Nat}
  {result : Except Failure Unit}

namespace IsCourse

theorem cons_cases (h : IsCourse before ((exchange, flag) :: later)) :
    (before = true → flag = true) ∧ (∀ told, exchange.Tells told → told = flag) ∧
      IsCourse flag later := by
  cases h with
  | cons hlasts htells hrest => exact ⟨hlasts, htells, hrest⟩

/-- A course in two parts: the second starts where the first ends. -/
theorem append_cases (h : IsCourse before (first ++ second)) :
    IsCourse before first ∧ ∃ between, IsCourse between second ∧
      (before = true → between = true) ∧ ∀ entry ∈ first, entry.2 = true → between = true := by
  -- On the first part, at whose end the flag is what the second part starts with.
  induction first generalizing before with
  | nil => exact ⟨.nil, before, h, id, fun _ hmem => nomatch hmem⟩
  | cons entry rest ih =>
    obtain ⟨exchange, flag⟩ := entry
    obtain ⟨hlasts, htells, hrest⟩ := h.cons_cases
    obtain ⟨hfirst, between, hsecond, hthrough, hwithin⟩ := ih hrest
    refine ⟨.cons hlasts htells hfirst, between, hsecond, hthrough ∘ hlasts, fun entry hmem => ?_⟩
    rcases List.mem_cons.mp hmem with rfl | hmem
    · exact hthrough
    · exact hwithin entry hmem

/-- Who is told that there is no cancellation can rely on it, for that moment and for all that came
before. -/
theorem told_false (h : IsCourse before ((exchange, flag) :: later))
    (htells : exchange.Tells false) : before = false ∧ flag = false := by
  obtain ⟨hlasts, htold, -⟩ := h.cons_cases
  have hflag : flag = false := (htold false htells).symm
  refine ⟨Bool.eq_false_iff.mpr fun hbefore => ?_, hflag⟩
  exact Bool.false_ne_true (hflag.symm.trans (hlasts hbefore))

end IsCourse

/-! ### Nothing is tried any more -/

/-- The exchange is an attempt to take a job from the scheduler or from the store. These are the
only exchanges of a cleanup that can change either side. -/
def IsAttempt (exchange : Said) : Prop :=
  (∃ name, exchange.request = .unschedule name) ∨ ∃ job, exchange.request = .remove job

/-- Nothing is tried. -/
def Rests (course : List (Said × Bool)) : Prop := ∀ entry ∈ course, ¬IsAttempt entry.1

/-- What comes after an exchange at whose end the cleanup is cancelled: nothing is tried, but for
one attempt in the store if the scheduler has just let go of the job. -/
def Hushed (exchange : Said) (later : List (Said × Bool)) : Prop :=
  Rests later ∨ ∃ job result rest, exchange = unscheduling job.label (.ok ()) ∧
    later = (removing job result, true) :: rest ∧ Rests rest

/-- Whenever the cleanup is cancelled, the course is hushed. It is a recursion along the course,
since each exchange is judged by what comes after it. -/
def Hushes : List (Said × Bool) → Prop
  | [] => True
  | entry :: later => (entry.2 = true → Hushed entry.1 later) ∧ Hushes later

theorem rests_nil : Rests [] := fun _ hmem => nomatch hmem

theorem rests_cons {entry : Said × Bool} :
    Rests (entry :: later) ↔ ¬IsAttempt entry.1 ∧ Rests later := List.forall_mem_cons

theorem rests_append : Rests (first ++ second) ↔ Rests first ∧ Rests second :=
  List.forall_mem_append

theorem not_isAttempt (h : exchange.request.isIdle = true) : ¬IsAttempt exchange := by
  rintro (⟨name, hrequest⟩ | ⟨job, hrequest⟩)
  all_goals
    rw [hrequest] at h
    cases h

theorem rests_of_map (hmap : course.map (·.1) = said)
    (hidle : said.all (·.request.isIdle) = true) : Rests course := by
  intro entry hmem
  refine not_isAttempt (List.all_eq_true.mp hidle entry.1 ?_)
  rw [← hmap]
  exact List.mem_map_of_mem hmem

theorem Hushed.append (h : Hushed exchange first) (hrests : Rests second) :
    Hushed exchange (first ++ second) := by
  rcases h with hfirst | ⟨job, result, rest, rfl, rfl, hrest⟩
  · exact .inl (rests_append.mpr ⟨hfirst, hrests⟩)
  · exact .inr ⟨job, result, rest ++ second, rfl, rfl, rests_append.mpr ⟨hrest, hrests⟩⟩

namespace Hushes

theorem of_rests (h : Rests course) : Hushes course := by
  induction course with
  | nil => trivial
  | cons entry later ih =>
    obtain ⟨-, hlater⟩ := rests_cons.mp h
    exact ⟨fun _ => .inl hlater, ih hlater⟩

/-- Where nothing is cancelled, nothing has to be hushed. -/
theorem append_of_calm (h : Hushes second) (hcalm : ∀ entry ∈ first, entry.2 = false) :
    Hushes (first ++ second) := by
  induction first with
  | nil => exact h
  | cons entry later ih =>
    obtain ⟨hentry, hlater⟩ := List.forall_mem_cons.mp hcalm
    exact ⟨fun hflag => absurd (hentry.symm.trans hflag) Bool.false_ne_true, ih hlater⟩

/-- A part that rests may follow. -/
theorem append (h : Hushes first) (h' : Hushes second)
    (hrests : (∃ entry ∈ first, entry.2 = true) → Rests second) : Hushes (first ++ second) := by
  induction first with
  | nil => exact h'
  | cons entry later ih =>
    refine ⟨fun hflag => (h.1 hflag).append (hrests ⟨entry, List.mem_cons_self, hflag⟩), ?_⟩
    exact ih h.2 fun ⟨other, hmem, hflag⟩ => hrests ⟨other, List.mem_cons_of_mem _ hmem, hflag⟩

/-- **Whatever comes after a cancellation** is hushed. -/
theorem hushed (h : Hushes (first ++ (exchange, true) :: later)) : Hushed exchange later := by
  induction first with
  | nil => exact h.1 rfl
  | cons entry rest ih => exact ih h.2

end Hushes

/-! ### One step of one job -/

/-- **A further attempt comes after a wait that told of no cancellation**, so nothing was cancelled
until then. -/
theorem IsCourse.again_cases {tried : Said} (hcourse : IsCourse before course)
    (hsaid : course.map (·.1) = tried :: ⟨.wait delay, .ok false⟩ :: said) :
    ∃ later, course = (tried, false) :: (⟨.wait delay, .ok false⟩, false) :: later ∧
      before = false ∧ IsCourse false later ∧ later.map (·.1) = said := by
  obtain ⟨⟨_, told⟩, rest, rfl, rfl, hrest⟩ := List.map_eq_cons_iff.mp hsaid
  obtain ⟨⟨_, flag⟩, later, rfl, rfl, hlater⟩ := List.map_eq_cons_iff.mp hrest
  obtain ⟨hlasts, -, hwait⟩ := hcourse.cons_cases
  obtain ⟨rfl, rfl⟩ := hwait.told_false (.inl ⟨delay, rfl⟩)
  -- a cancellation before the attempt would have lasted until the wait
  have hbefore : before = false :=
    Bool.eq_false_iff.mpr fun hcancelled => Bool.false_ne_true (hlasts hcancelled)
  exact ⟨later, rfl, hbefore, hwait.cons_cases.2.2, hlater⟩

/-- A further attempt is made only after a wait that told of no cancellation. -/
theorem Tries.hushes (h : Tries attempt delay retries said result)
    (hcourse : IsCourse before course) (hsaid : course.map (·.1) = said) : Hushes course := by
  -- On the attempts: only the last one can be at the end of the course, and each other one is
  -- followed by a wait.
  induction h generalizing before course with
  | succeeded | spent =>
    obtain ⟨entry, later, rfl, -, hlater⟩ := List.map_eq_cons_iff.mp hsaid
    obtain rfl := List.map_eq_nil_iff.mp hlater
    exact ⟨fun _ => .inl rests_nil, trivial⟩
  | calledOff | brokenOff =>
    obtain ⟨entry, later, rfl, -, hlater⟩ := List.map_eq_cons_iff.mp hsaid
    have hrests : Rests later := rests_of_map hlater rfl
    exact ⟨fun _ => .inl hrests, .of_rests hrests⟩
  | again _ ih =>
    obtain ⟨later, rfl, -, hlater, hsaid⟩ := hcourse.again_cases hsaid
    exact ⟨nofun, nofun, ih hlater hsaid⟩

/-- A step that succeeded did so in its last attempt, and nothing was cancelled before that. -/
theorem Tries.exists_last (h : Tries attempt delay retries said (.ok ()))
    (hcourse : IsCourse before course) (hsaid : course.map (·.1) = said) :
    ∃ earlier flag, course = earlier ++ [(attempt (.ok ()), flag)] ∧
      ∀ entry ∈ earlier, entry.2 = false := by
  generalize hresult : (.ok () : Except Failure Unit) = result at h
  -- On the attempts, of which the successful one is the last.
  induction h generalizing before course with
  | succeeded =>
    obtain ⟨⟨_, flag⟩, later, rfl, rfl, hlater⟩ := List.map_eq_cons_iff.mp hsaid
    obtain rfl := List.map_eq_nil_iff.mp hlater
    exact ⟨[], flag, rfl, fun _ hmem => nomatch hmem⟩
  | spent | calledOff | brokenOff => cases hresult
  | again _ ih =>
    obtain ⟨later, rfl, -, hlater, hsaid⟩ := hcourse.again_cases hsaid
    obtain ⟨earlier, flag, rfl, hcalm⟩ := ih hlater hsaid hresult
    refine ⟨_ :: _ :: earlier, flag, rfl, ?_⟩
    exact List.forall_mem_cons.mpr ⟨rfl, List.forall_mem_cons.mpr ⟨rfl, hcalm⟩⟩

/-- A step is tried once if the cleanup is cancelled already. -/
theorem Tries.exists_only (h : Tries attempt delay retries said result)
    (hcourse : IsCourse true course) (hsaid : course.map (·.1) = said) :
    ∃ made later, course = (attempt made, true) :: later ∧ Rests later := by
  cases h with
  | succeeded | spent | calledOff | brokenOff =>
    obtain ⟨⟨_, flag⟩, later, rfl, rfl, hlater⟩ := List.map_eq_cons_iff.mp hsaid
    obtain rfl := hcourse.cons_cases.1 rfl
    exact ⟨_, later, rfl, rests_of_map hlater rfl⟩
  | again _ =>
    -- a wait that tells of no cancellation cannot come after one
    obtain ⟨later, -, hbefore, -⟩ := hcourse.again_cases hsaid
    cases hbefore

/-! ### One job after another -/

/-- **The store is tried once more** if the cleanup is cancelled while the scheduler lets go of a
job, and that is all. -/
theorem Retires.hushes (h : cleanup.Retires job name said result) (hname : job.name? = .ok name)
    (hcourse : IsCourse before course) (hsaid : course.map (·.1) = said) : Hushes course := by
  -- The scheduler kept the job, and its attempts are all that is said, or it let go and the store
  -- is tried.
  cases h with
  | kept htries => exact htries.hushes hcourse hsaid
  | left hfirst hsecond =>
    obtain ⟨leaving, staying, rfl, hleaving, hstaying⟩ := List.map_eq_append_iff.mp hsaid
    obtain ⟨hcourse, between, hrest, -, hthrough⟩ := hcourse.append_cases
    -- Only the attempt at which the scheduler let go can have been cancelled.
    obtain ⟨earlier, flag, rfl, hcalm⟩ := hfirst.exists_last hcourse hleaving
    have hstays := hsecond.hushes hrest hstaying
    rw [List.append_assoc]
    refine Hushes.append_of_calm ⟨fun hflag => ?_, hstays⟩ hcalm
    obtain rfl : between = true :=
      hthrough _ (List.mem_append_right _ List.mem_cons_self) hflag
    obtain ⟨made, later, rfl, hlater⟩ := hsecond.exists_only hrest hstaying
    exact .inr ⟨job, made, later, by rw [Job.label_of_name? hname], rfl, hlater⟩

variable {ended : Progress}

/-- **A cleanup that is cancelled turns to no further job.** It asks before each job, and there it
is told so. -/
theorem Ends.rests (h : cleanup.Ends progress jobs said ended) (hcourse : IsCourse true course)
    (hsaid : course.map (·.1) = said) : Rests course := by
  cases h with
  | done | cancelled => exact rests_of_map hsaid rfl
  | stopped =>
    obtain ⟨⟨_, flag⟩, later, rfl, rfl, -⟩ := List.map_eq_cons_iff.mp hsaid
    cases (hcourse.told_false (.inr rfl)).1

theorem Ends.hushes (h : cleanup.Ends progress jobs said ended) (hcourse : IsCourse before course)
    (hsaid : course.map (·.1) = said) : Hushes course := by
  -- A sweep that ends at a job ends with the attempts on that job and one event.
  cases h with
  | done | cancelled => exact .of_rests (rests_of_map hsaid rfl)
  | stopped hname hretires =>
    obtain ⟨⟨_, flag⟩, later, rfl, rfl, hlater⟩ := List.map_eq_cons_iff.mp hsaid
    obtain ⟨rfl, rfl⟩ := hcourse.told_false (.inr rfl)
    obtain ⟨giving, closing, rfl, hgiving, hclosing⟩ := List.map_eq_append_iff.mp hlater
    have hrests : Rests closing := rests_of_map hclosing rfl
    have hgives := hretires.hushes hname hcourse.cons_cases.2.2.append_cases.1 hgiving
    exact ⟨nofun, hgives.append (.of_rests hrests) fun _ => hrests⟩

/-- **A sweep is hushed by a cancellation**, and one that is cancelled before it begins tries
nothing. -/
theorem Removes.hushes {removal ending : List Said} {left : List Job}
    (h : cleanup.Removes jobs removal) (hends : cleanup.Ends progress left ending ended)
    (hcourse : IsCourse before course) (hsaid : course.map (·.1) = removal ++ ending) :
    Hushes course ∧ (before = true → Rests course) := by
  -- On the jobs that are retired, each after a question of its own.
  induction h generalizing before course with
  | nil =>
    refine ⟨hends.hushes hcourse hsaid, ?_⟩
    rintro rfl
    exact hends.rests hcourse hsaid
  | cons hname hretires _ ih =>
    obtain ⟨⟨_, flag⟩, later, rfl, rfl, hlater⟩ := List.map_eq_cons_iff.mp hsaid
    -- before each job the sweep is told that nothing is cancelled
    obtain ⟨rfl, rfl⟩ := hcourse.told_false (.inr rfl)
    obtain ⟨-, -, hcourse⟩ := hcourse.cons_cases
    change later.map (·.1) = (_ ++ _) ++ _ at hlater
    rw [List.append_assoc] at hlater
    obtain ⟨retiring, rest, rfl, hretiring, hrest⟩ := List.map_eq_append_iff.mp hlater
    obtain ⟨hcourse, between, hnext, -, hthrough⟩ := hcourse.append_cases
    obtain ⟨hhushes, hrests⟩ := ih hnext hrest
    have hretired := hretires.hushes hname hcourse hretiring
    refine ⟨⟨nofun, hretired.append hhushes ?_⟩, nofun⟩
    -- a cancellation while the job is retired lasts, and then the rest tries nothing
    exact fun ⟨entry, hmem, hflag⟩ => hrests (hthrough entry hmem hflag)

/-- **A run is hushed by a cancellation.** Of the job at hand it makes the first try of each step
and no further one; if it was cancelled before it began, it tries nothing. -/
theorem hushes_of_leads (hnames : ∀ job ∈ cleanup.stale, ∃ name, job.name? = .ok name)
    (hleads : Leads (cleanup.run progress) said (.done outcome)) (hcourse : IsCourse before course)
    (hsaid : course.map (·.1) = said) : Hushes course ∧ (before = true → Rests course) := by
  -- A run begins with the wait of its grace period, and its answer decides whether there is a
  -- sweep.
  obtain ⟨waited, later, rfl, hlater⟩ := leads_call_iff.mp hleads
  -- without a sweep nothing is tried
  have hresting (hrests : Rests course) : Hushes course ∧ (before = true → Rests course) :=
    ⟨.of_rests hrests, fun _ => hrests⟩
  match waited, hlater with
  | .error failure, hlater =>
    obtain ⟨rfl, -⟩ := leads_done_iff.mp hlater
    exact hresting (rests_of_map hsaid rfl)
  | .ok true, hlater =>
    obtain ⟨answer, rfl, -⟩ := leads_finish hlater
    exact hresting (rests_of_map hsaid rfl)
  | .ok false, hlater =>
    obtain ⟨gone, left, removal, ending, -, rfl, hremoves, hends⟩ := leads_sweep hnames hlater
    obtain ⟨⟨_, flag⟩, rest, rfl, rfl, hrest⟩ := List.map_eq_cons_iff.mp hsaid
    obtain ⟨rfl, rfl⟩ := hcourse.told_false (.inl ⟨_, rfl⟩)
    obtain ⟨hhushes, -⟩ := hremoves.hushes hends hcourse.cons_cases.2.2 hrest
    exact ⟨⟨nofun, hhushes⟩, nofun⟩

end Cleanup

end Rollout
