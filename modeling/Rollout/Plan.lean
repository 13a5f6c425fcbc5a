import Rollout.Failure

/-!
# Plans

What an operation does to its collaborators, as data: a tree of calls, where each call goes on with
the answer that it gets. A plan says which calls are made and in which order, for all answers that
may come, and nothing about who answers. A *handler* answers calls and keeps a state of its own;
`Plan.run` lets it answer all of them.

* `Plan.run_bind`: a sequence of plans runs one after the other, with the state handed on.
* `Work`: plans that may fail. A failed call ends the work unless the failure is looked at
  (`Work.attempt`).
-/

namespace Rollout

/-- The calls that collaborators take, and what they answer. The type of the answer depends on the
call, so no answer has to be taken apart that cannot come. -/
structure Interface where
  /-- A call. -/
  Call : Type
  /-- The answers to a call. -/
  Answer : Call → Type

/-- A tree of calls. It is finite on every path, since nothing in this development waits for an
answer without a bound on how often it asks: loops over attempts count them. -/
inductive Plan (I : Interface) (α : Type) where
  /-- There is nothing left to do. -/
  | done (result : α)
  /-- A call, and how it goes on. -/
  | call (request : I.Call) (next : I.Answer request → Plan I α)

namespace Plan

variable {I : Interface} {α β σ : Type}

/-- One plan after another. The second plan is put in the place of every result of the first one. -/
def bind : Plan I α → (α → Plan I β) → Plan I β
  | done result, next => next result
  | call request rest, next => call request fun answer => (rest answer).bind next

instance : Monad (Plan I) where
  pure := done
  bind := bind

/-- A single call. -/
def ask (request : I.Call) : Plan I (I.Answer request) := call request done

/-! ### Running -/

/-- Answers a call and changes a state. Handlers are all that gives calls a meaning: the same plan
is run by worlds, by ledgers and by daemons. -/
abbrev Handler (I : Interface) (σ : Type) := (request : I.Call) → σ → I.Answer request × σ

/-- Lets a handler answer all calls. -/
def run (handle : Handler I σ) : Plan I α → σ → α × σ
  | done result, state => (result, state)
  | call request next, state =>
    let answered := handle request state
    (next answered.1).run handle answered.2

/-! ### Interface lemmas -/

@[simp] theorem run_pure (handle : Handler I σ) (result : α) (state : σ) :
    (pure result : Plan I α).run handle state = (result, state) := rfl

@[simp] theorem run_done (handle : Handler I σ) (result : α) (state : σ) :
    (done result : Plan I α).run handle state = (result, state) := rfl

@[simp] theorem run_call (handle : Handler I σ) (request : I.Call)
    (next : I.Answer request → Plan I α) (state : σ) :
    (call request next).run handle state =
      (next (handle request state).1).run handle (handle request state).2 := rfl

@[simp] theorem run_ask (handle : Handler I σ) (request : I.Call) (state : σ) :
    (ask request).run handle state = handle request state := rfl

/-- The second plan starts where the first one ended. -/
@[simp] theorem run_bind (handle : Handler I σ) (plan : Plan I α) (next : α → Plan I β)
    (state : σ) :
    (plan >>= next).run handle state =
      (next (plan.run handle state).1).run handle (plan.run handle state).2 := by
  -- The monad is `bind`, and the induction is on the tree of the first plan.
  show (plan.bind next).run handle state = _
  induction plan generalizing state with
  | done result => rfl
  | call request rest ih => exact ih _ _

/-- Sequences of plans may be grouped at will. The tree of the first plan decides, as its results
are where all others are put. -/
theorem bind_assoc {γ : Type} (plan : Plan I α) (f : α → Plan I β) (g : β → Plan I γ) :
    (plan.bind f).bind g = plan.bind fun result => (f result).bind g := by
  induction plan with
  | done result => rfl
  | call request rest ih => simp only [bind, ih]

/-- Nothing is done after a plan by returning its result. -/
theorem bind_done (plan : Plan I α) : plan.bind done = plan := by
  induction plan with
  | done result => rfl
  | call request rest ih => simp only [bind, ih]

instance : LawfulMonad (Plan I) :=
  LawfulMonad.mk' _ (fun plan => bind_done plan) (fun _ _ => rfl)
    (fun plan f g => bind_assoc plan f g)

end Plan

/-- A plan that may fail. A failure is a result like any other to the plan, so it is the calls made
before the failure that tell how far the work came. -/
abbrev Work (I : Interface) (α : Type) := ExceptT Failure (Plan I) α

namespace Work

variable {I : Interface} {α β σ : Type}

/-- A plan that answers with a failure or a result. -/
def ofPlan (plan : Plan I (Except Failure α)) : Work I α := plan

/-- Work with its failure looked at: a plan that always has a result, which may be the failure. -/
def attempt (work : Work I α) : Plan I (Except Failure α) := work

/-- Fails with the cause, or goes on with the result. -/
def ofExcept (result : Except Failure α) : Work I α := Plan.done result

/-! ### Interface lemmas -/

@[simp] theorem attempt_ofPlan (plan : Plan I (Except Failure α)) :
    (ofPlan plan).attempt = plan := rfl

@[simp] theorem run_attempt_pure (handle : Plan.Handler I σ) (result : α) (state : σ) :
    (pure result : Work I α).attempt.run handle state = (.ok result, state) := rfl

@[simp] theorem run_attempt_throw (handle : Plan.Handler I σ) (failure : Failure) (state : σ) :
    (throw failure : Work I α).attempt.run handle state = (.error failure, state) := rfl

@[simp] theorem run_attempt_ofExcept (handle : Plan.Handler I σ) (result : Except Failure α)
    (state : σ) : (ofExcept result).attempt.run handle state = (result, state) := rfl

/-- After work that succeeded the next work starts; after work that failed nothing does. -/
theorem run_attempt_bind (handle : Plan.Handler I σ) (work : Work I α) (next : α → Work I β)
    (state : σ) :
    (work >>= next).attempt.run handle state =
      match work.attempt.run handle state with
      | (.ok result, state) => (next result).attempt.run handle state
      | (.error failure, state) => (.error failure, state) := by
  -- Work is a plan of results that may be failures, and its sequence is one of plans.
  show Plan.run handle (Plan.bind work.attempt _) state = _
  refine (Plan.run_bind handle work.attempt _ state).trans ?_
  rcases work.attempt.run handle state with ⟨result | result, state⟩ <;> rfl

end Work

end Rollout
