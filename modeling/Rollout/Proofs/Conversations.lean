import Mathlib.Data.List.Infix
import Rollout.Proofs.Attempts

/-!
# Conversations

When a plan is run, it has a conversation: calls, and what came back. A plan and a conversation
determine what is left of the plan (`Plan.Leads`), so what a run came to can be read off its
conversation, whoever answered.

* `Plan.leads_conversation`: a run leads to its result.
* `Plan.leads_bind_iff` and `Plan.leads_work_bind_iff`: the conversation of a sequence is a
  conversation of the first part and one of the second.
* `Plan.Leads.unique`: two runs that start with the same conversation have the same left to do.

What a conversation does to a ledger is `Ledger.Takes`: each call failed by a fault, or was answered
from the ledger. It tells as well whether a cleanup is cancelled, and since a cancellation lasts, a
question that is answered with *no* says that nothing was cancelled before
(`Ledger.Takes.not_tells_before`). The conversation of a run in a world does to the ledger that
shows what the run does to the world (`World.run_takes`).
-/

namespace Rollout

/-- A call, and what came back. Conversations are lists of these, so they can be spoken of without
any handler. -/
structure Exchange (I : Interface) where
  request : I.Call
  answer : I.Answer request

namespace Plan

variable {I : Interface} {α β σ : Type} {plan middle other : Plan I α}
  {exchanges first second : List (Exchange I)}

/-- The exchanges of a plan that is run, in their order. The state of the handler is threaded
through and then forgotten: what is kept is what was said. -/
def conversation (handle : Handler I σ) : Plan I α → σ → List (Exchange I)
  | done _, _ => []
  | call request next, state =>
    let answered := handle request state
    ⟨request, answered.1⟩ :: (next answered.1).conversation handle answered.2

/-- After some exchanges a plan has come to what is left of it. The relation does not say who
answered, so it holds of any answers whatsoever. -/
inductive Leads : Plan I α → List (Exchange I) → Plan I α → Prop where
  /-- Nothing was said. -/
  | here {plan : Plan I α} : Leads plan [] plan
  /-- A call was answered, and the plan went on with the answer. -/
  | step {request : I.Call} {answer : I.Answer request} {next : I.Answer request → Plan I α}
      {exchanges : List (Exchange I)} {left : Plan I α}
      (hrest : Leads (next answer) exchanges left) :
      Leads (call request next) (⟨request, answer⟩ :: exchanges) left

/-- **A run leads to its result.** By induction on the plan; with it, whatever is shown of all
conversations holds of the one that a run has. -/
theorem leads_conversation (handle : Handler I σ) (plan : Plan I α) (state : σ) :
    Leads plan (plan.conversation handle state) (done (plan.run handle state).1) := by
  induction plan generalizing state with
  | done result => exact .here
  | call request next ih => exact .step (ih _ _)

/-! ### One thing after another -/

theorem leads_done_iff {value result : α} :
    Leads (done value : Plan I α) exchanges (done result) ↔ exchanges = [] ∧ result = value := by
  constructor
  · intro h
    cases h
    exact ⟨rfl, rfl⟩
  · rintro ⟨rfl, rfl⟩
    exact .here

theorem leads_call_iff {request : I.Call} {next : I.Answer request → Plan I α} {result : α} :
    Leads (call request next) exchanges (done result) ↔
      ∃ answer rest, exchanges = ⟨request, answer⟩ :: rest ∧
        Leads (next answer) rest (done result) := by
  constructor
  · intro h
    cases h with
    | step hrest => exact ⟨_, _, rfl, hrest⟩
  · rintro ⟨answer, rest, rfl, hrest⟩
    exact .step hrest

/-- A single call is all that is said. -/
theorem leads_ask_iff {request : I.Call} {answer : I.Answer request} :
    Leads (ask request) exchanges (done answer) ↔ exchanges = [⟨request, answer⟩] := by
  constructor
  · intro h
    obtain ⟨given, later, rfl, hlater⟩ := leads_call_iff.mp h
    obtain ⟨rfl, rfl⟩ := leads_done_iff.mp hlater
    rfl
  · rintro rfl
    exact .step .here

/-- A conversation of the first part leads a sequence to its second part. -/
theorem Leads.bind {plan : Plan I α} {value : α} (h : Leads plan exchanges (done value))
    (next : α → Plan I β) : Leads (plan >>= next) exchanges (next value) := by
  -- On the plan and not on how it leads, since the latter ends in a fixed result.
  induction plan generalizing exchanges with
  | done given =>
    obtain ⟨rfl, rfl⟩ := leads_done_iff.mp h
    exact .here
  | call request rest ih =>
    obtain ⟨answer, later, rfl, hlater⟩ := leads_call_iff.mp h
    exact .step (ih answer hlater)

theorem Leads.trans (h : Leads plan first middle) (h' : Leads middle second other) :
    Leads plan (first ++ second) other := by
  induction h with
  | here => exact h'
  | step _ ih => exact .step (ih h')

/-- **The conversation of a sequence** is one of the first part and then one of the second. It is
the main rule by which conversations are taken apart. -/
theorem leads_bind_iff {plan : Plan I α} {next : α → Plan I β} {result : β} :
    Leads (plan >>= next) exchanges (done result) ↔
      ∃ value first second, Leads plan first (done value) ∧
        Leads (next value) second (done result) ∧ exchanges = first ++ second := by
  constructor
  · intro h
    -- Where the first part is done, all that is said from then on belongs to the second one.
    induction plan generalizing exchanges with
    | done value => exact ⟨value, [], exchanges, .here, h, rfl⟩
    | call request rest ih =>
      obtain ⟨answer, later, rfl, hlater⟩ := leads_call_iff.mp h
      obtain ⟨value, first, second, hfirst, hsecond, rfl⟩ := ih answer hlater
      exact ⟨value, _, second, .step hfirst, hsecond, rfl⟩
  -- The other way round the two conversations are simply said one after the other.
  · rintro ⟨value, first, second, hfirst, hsecond, rfl⟩
    exact (hfirst.bind next).trans hsecond

/-- **The conversation of work in two steps** is one of both steps, or of a first one that
failed. -/
theorem leads_work_bind_iff {work : Work I α} {next : α → Work I β} {result : Except Failure β} :
    Leads (work >>= next).attempt exchanges (done result) ↔
      (∃ value first second, Leads work.attempt first (done (.ok value)) ∧
        Leads (next value).attempt second (done result) ∧ exchanges = first ++ second) ∨
      ∃ failure, Leads work.attempt exchanges (done (.error failure)) ∧
        result = .error failure := by
  change Leads (work.attempt >>= _) exchanges (done result) ↔ _
  refine leads_bind_iff.trans ?_
  constructor
  · rintro ⟨value | value, first, second, hfirst, hsecond, rfl⟩
    -- After a failure the second step says nothing, so the conversation is that of the first.
    · obtain ⟨rfl, rfl⟩ := leads_done_iff.mp hsecond
      rw [List.append_nil]
      exact .inr ⟨value, hfirst, rfl⟩
    · exact .inl ⟨value, first, second, hfirst, hsecond, rfl⟩
  · rintro (⟨value, first, second, hfirst, hsecond, rfl⟩ | ⟨failure, hfirst, rfl⟩)
    · exact ⟨.ok value, first, second, hfirst, hsecond, rfl⟩
    · exact ⟨.error failure, exchanges, [], hfirst, .here, (List.append_nil _).symm⟩

/-! ### What is left -/

/-- **A plan and a conversation determine what is left.** A plan makes no choices of its own; they
all lie in the answers. -/
theorem Leads.unique (h : Leads plan exchanges middle) (h' : Leads plan exchanges other) :
    middle = other := by
  -- A plan makes a definite next call, and the exchange tells its answer.
  induction h with
  | here =>
    cases h'
    rfl
  | step _ ih =>
    cases h' with
    | step hrest => exact ih hrest

/-- A longer conversation leads on from where a shorter one led. -/
theorem Leads.of_append (h : Leads plan (first ++ second) other) :
    ∃ middle, Leads plan first middle ∧ Leads middle second other := by
  induction first generalizing plan with
  | nil => exact ⟨plan, .here, h⟩
  | cons exchange rest ih =>
    cases h with
    | step hrest =>
      obtain ⟨middle, hfirst, hsecond⟩ := ih hrest
      exact ⟨middle, .step hfirst, hsecond⟩

end Plan

/-- An exchange with a collaborator. -/
abbrev Said := Exchange Collaborators

/-- The exchange tells whether the cleanup is cancelled. These are the only two calls by which work
can notice a cancellation: the end of a wait, and the question itself. -/
def Exchange.Tells (cancelled : Bool) (exchange : Said) : Prop :=
  (∃ seconds, exchange = ⟨.wait seconds, .ok cancelled⟩) ∨ exchange = ⟨.cancelled, cancelled⟩

/-! ### Conversations and ledgers -/

namespace Ledger

variable {moment : Moment} {ledger middle after : Ledger} {first second : List Said}
  {exchange : Said} {cancelled : Bool}

/-- What an exchange does to a ledger, and whether the cleanup is cancelled then: the call failed by
a fault, or was answered from the ledger. -/
structure Gives (moment : Moment) (ledger : Ledger) (exchange : Said) (cancelled : Bool)
    (after : Ledger) : Prop where
  /-- A cancellation is not taken back. -/
  lasts : moment.cancelled = true → cancelled = true
  made : (exchange.request ≠ .cancelled ∧
      (∃ failure, exchange.answer = exchange.request.fail failure) ∧ after = ledger) ∨
    ledger.answer { moment with cancelled } exchange.request = (exchange.answer, after)

/-- What a conversation does to a ledger, and whether the cleanup is cancelled then. The flag runs
along with the ledger, since a cancellation lands between any two calls and never goes away. -/
inductive Takes : Moment → Ledger → List Said → Bool → Ledger → Prop where
  | nil {moment : Moment} {ledger : Ledger} : Takes moment ledger [] moment.cancelled ledger
  | cons {moment : Moment} {ledger next after : Ledger} {exchange : Said} {rest : List Said}
      {cancelled last : Bool} (hfirst : Gives moment ledger exchange cancelled next)
      (hrest : Takes { moment with cancelled } next rest last after) :
      Takes moment ledger (exchange :: rest) last after

/-- **Whoever is told is told the truth.** Told is who waits or asks, and the moment is that after
the exchange. -/
theorem Gives.tells {told : Bool} (h : Gives moment ledger exchange cancelled after)
    (htells : exchange.Tells told) : told = cancelled := by
  rcases htells with ⟨seconds, rfl⟩ | rfl
  · rcases h.made with ⟨-, ⟨failure, hfail⟩, -⟩ | hanswer
    -- A wait that failed tells nothing.
    · cases hfail
    · exact (WaitLimit.eq_of_await (Prod.mk.inj hanswer).1).symm
  · rcases h.made with ⟨hother, -⟩ | hanswer
    -- No fault can take the place of the question.
    · exact absurd rfl hother
    · exact (Prod.mk.inj hanswer).1.symm

namespace Takes

theorem nil_cases (h : Takes moment ledger [] cancelled after) :
    after = ledger ∧ cancelled = moment.cancelled := by
  cases h
  exact ⟨rfl, rfl⟩

theorem cons_cases (h : Takes moment ledger (exchange :: first) cancelled after) :
    ∃ between next, Gives moment ledger exchange between next ∧
      Takes { moment with cancelled := between } next first cancelled after := by
  cases h with
  | cons hfirst hrest => exact ⟨_, _, hfirst, hrest⟩

/-- A conversation in two parts does what both parts do. -/
theorem append_cases (h : Takes moment ledger (first ++ second) cancelled after) :
    ∃ between middle, Takes moment ledger first between middle ∧
      Takes { moment with cancelled := between } middle second cancelled after := by
  -- Exchange by exchange, handing on the ledger and the flag.
  induction first generalizing moment ledger with
  | nil => exact ⟨moment.cancelled, ledger, .nil, h⟩
  | cons exchange rest ih =>
    obtain ⟨between, next, hexchange, hrest⟩ := h.cons_cases
    obtain ⟨between', middle, hfirst, hsecond⟩ := ih hrest
    exact ⟨between', middle, .cons hexchange hfirst, hsecond⟩

/-- **A cancellation lasts.** -/
theorem lasts (h : Takes moment ledger first cancelled after)
    (hcancelled : moment.cancelled = true) : cancelled = true := by
  induction h with
  | nil => exact hcancelled
  | cons hfirst _ ih => exact ih (hfirst.lasts hcancelled)

/-- What was told to be cancelled is so in the end. -/
theorem cancelled_of_tells (h : Takes moment ledger first cancelled after) (hmem : exchange ∈ first)
    (htells : exchange.Tells true) : cancelled = true := by
  -- The exchange splits the conversation: it was told the truth there, and what is true of a
  -- cancellation then is true in the end.
  obtain ⟨earlier, later, rfl⟩ := List.append_of_mem hmem
  obtain ⟨_, _, -, hrest⟩ := h.append_cases
  obtain ⟨between, _, hgives, hlater⟩ := hrest.cons_cases
  exact hlater.lasts (hgives.tells htells).symm

/-- **Before it is told not to be cancelled, nothing tells that it is.** Otherwise the cancellation
would have been taken back, and it lasts. -/
theorem not_tells_before (h : Takes moment ledger (first ++ exchange :: second) cancelled after)
    (htells : exchange.Tells false) :
    moment.cancelled = false ∧ ∀ earlier ∈ first, ¬earlier.Tells true := by
  obtain ⟨between, _, hfirst, hrest⟩ := h.append_cases
  obtain ⟨now, _, hgives, -⟩ := hrest.cons_cases
  -- Now there is no cancellation, and one from earlier would have lasted until now.
  have hnow : now = false := (hgives.tells htells).symm
  have hbetween : between = false := Bool.eq_false_iff.mpr fun hcancelled =>
    Bool.false_ne_true (hnow.symm.trans (hgives.lasts hcancelled))
  refine ⟨Bool.eq_false_iff.mpr fun hcancelled => ?_, fun earlier hmem htrue => ?_⟩
  · exact Bool.false_ne_true (hbetween.symm.trans (hfirst.lasts hcancelled))
  · exact Bool.false_ne_true (hbetween.symm.trans (hfirst.cancelled_of_tells hmem htrue))

end Takes

end Ledger

/-! ### Conversations in a world -/

namespace World

variable {α : Type} {opened : Opened} {stores : Stores} {world : World} {ledger : Ledger}

/-- The conversation of a plan that is run in a world. -/
def conversation (stores : Stores) (plan : Plan Collaborators α) (world : World) : List Said :=
  plan.conversation (answer stores) world

/-- What a request meets does not take a cancellation back. -/
theorem isCancelled_meet (stores : Stores) (request : Call) (h : world.isCancelled = true) :
    (meet stores request world).2.isCancelled = true := by
  rw [isCancelled] at h
  cases hcancelled : world.cancelled with
  | none =>
    -- nobody can have been told of a cancellation then
    rw [hcancelled] at h
    cases h
  | some flag =>
    rw [hcancelled] at h
    obtain rfl : flag = true := h
    rw [meet]
    -- Whether the call is attended to or not, the flag is not lowered.
    split
    · rw [attend, isCancelled, hcancelled]
      rfl
    · rw [isCancelled, hcancelled]
      rfl

/-- A world that a call leaves is at the moment of the one that it found, but for a
cancellation. -/
theorem moment_of_beside {met after : World} (hattends : world.Attends met)
    (hbeside : met.Beside after) :
    after.moment stores = { world.moment stores with cancelled := after.isCancelled } :=
  (isAt_moment stores world).of_attends_beside hattends hbeside after.isCancelled

/-- **One exchange in a world** does to the world what it does to the ledger that shows. -/
theorem answer_gives (hserve : stores.Serve opened) (hshows : world.Shows opened ledger)
    (request : Call) :
    let after := (answer stores request world).2
    ∃ next, Ledger.Gives (world.moment stores) ledger ⟨request, (answer stores request world).1⟩
        after.isCancelled next ∧
      after.Shows opened next ∧
      after.moment stores = { world.moment stores with cancelled := after.isCancelled } := by
  dsimp only
  have hattends := attends_meet stores request world
  have hlasts : world.isCancelled = true → (meet stores request world).2.isCancelled = true :=
    isCancelled_meet stores request
  -- Either a fault is met and fails in the place of the request, or the request is answered from
  -- the ledger that shows.
  cases hmet : (meet stores request world).1 with
  | some failure =>
    -- a fault fails in the place of the request, which cannot be the question for a cancellation
    have hanswer := answer_of_met hmet
    have hother : request ≠ .cancelled := by
      rintro rfl
      cases hmet
    rw [hanswer]
    exact ⟨ledger, ⟨hlasts, .inl ⟨hother, ⟨failure, rfl⟩, rfl⟩⟩, hattends.shows hshows,
      moment_of_beside hattends (.refl _)⟩
  | none =>
    -- The answer is that of the ledger, at the moment at which the request is met.
    obtain ⟨left, hanswer, hshown, hbeside⟩ := answer_of_unmet hserve hshows hmet
    have hmoment : (meet stores request world).2.moment stores =
        { world.moment stores with cancelled := (meet stores request world).2.isCancelled } :=
      moment_of_beside hattends (.refl _)
    have hsame : left.isCancelled = (meet stores request world).2.isCancelled := by
      rw [isCancelled, isCancelled, hbeside.cancelled]
    rw [hmoment] at hanswer hshown
    rw [hanswer, hsame]
    exact ⟨_, ⟨hlasts, .inr rfl⟩, hshown, hsame ▸ moment_of_beside hattends hbeside⟩

/-- **The conversation of a run does to the ledger that shows what the run does to the world.** By
induction on the plan, one exchange after the other. -/
theorem run_takes (hserve : stores.Serve opened) (hshows : world.Shows opened ledger)
    (plan : Plan Collaborators α) :
    ∃ moved, Ledger.Takes (world.moment stores) ledger (conversation stores plan world)
        (run stores plan world).2.isCancelled moved ∧
      (run stores plan world).2.Shows opened moved := by
  -- Call by call. After each one the world shows the ledger that the exchange has made, at the same
  -- moment but for a cancellation.
  induction plan generalizing world ledger with
  | done result => exact ⟨ledger, .nil, hshows⟩
  | call request next ih =>
    obtain ⟨given, hgives, hshown, hmoment⟩ := answer_gives hserve hshows request
    obtain ⟨moved, htakes, hshown'⟩ := ih (answer stores request world).1 hshown
    rw [hmoment] at htakes
    exact ⟨moved, .cons hgives htakes, hshown'⟩

end World

end Rollout
