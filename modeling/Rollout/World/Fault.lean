import Rollout.Cluster.Daemon

/-!
# Requests on record, and faults

Every call to a collaborator is put on record before it is made, and so is every call that the
container adapter makes to the daemon: together they are *requests*. Only the question whether a
cleanup is cancelled leaves no trace: it is no request, and no point is kept for it.

Faults lie in wait at points. When a request is recorded, the first fault that matches it and has
uses left fires: it may cancel the cleanup that made the request, and it may fail in its place. At
most one fault fires for a request.

A cleanup is cancelled from outside, at any moment. What it can notice is only between which two of
its questions the cancellation came, and between two questions there is at most one request. So a
cancellation that comes after the cleanup asked whether it is cancelled, and before its next
request, counts as one that comes during that next request.
-/

namespace Rollout

/-! ### Requests -/

/-- A call that was made. Calls of both kinds are on one record, in the order in which they were
made. -/
inductive Request where
  /-- A call of an operation. -/
  | call (call : Call)
  /-- A call of the container adapter. -/
  | daemon (call : Daemon.Call)

/-- Where a request is made. Faults lie in wait at points, and not for a call with some
arguments. -/
inductive Point where
  | schedule
  | unschedule
  | report
  | list
  | add
  | remove
  | update
  | log
  | wait
  | daemonConnect
  | daemonFindNetwork
  | daemonMakeNetwork
  | daemonRun
  | daemonFind
  | daemonRemove
  | daemonInfo
  | daemonList
deriving DecidableEq, Repr

namespace Request

/-- Where the request is made. The question whether a cleanup is cancelled goes to the signal that
waits listen to, and is filed there; since it is never put on record, no fault meets it. -/
def point : Request → Point
  | call (.schedule _) => .schedule
  | call (.unschedule _) => .unschedule
  | call .report => .report
  | call (.list _) => .list
  | call (.add _) => .add
  | call (.remove _) => .remove
  | call (.update _) => .update
  | call (.log _) => .log
  | call (.wait _) | call .cancelled => .wait
  | daemon .connect => .daemonConnect
  | daemon (.findNetwork _) => .daemonFindNetwork
  | daemon (.makeNetwork _) => .daemonMakeNetwork
  | daemon (.run _) => .daemonRun
  | daemon (.find _) => .daemonFind
  | daemon (.remove _) => .daemonRemove
  | daemon .info => .daemonInfo
  | daemon .list => .daemonList

/-- What the request is about, if it is about one thing. -/
def name : Request → Value
  | call (.schedule definition) => .text definition.name
  | call (.unschedule name) => name
  | call (.list app) => app
  | call (.add job) | call (.remove job) => .text job.label
  | call (.update process) => process.type
  | call (.log event) => event.message
  | call (.wait seconds) => .text seconds.shown
  | daemon (.findNetwork name) | daemon (.makeNetwork name) => name
  | daemon (.run spec) => .text spec.name
  | daemon (.find name) | daemon (.remove name) => name
  | call .report | call .cancelled | daemon .connect | daemon .info | daemon .list => .none

end Request

/-! ### Faults -/

/-- A fault that lies in wait. It may fail in place of a request, cancel the cleanup that makes it,
do both, or do neither and only be spent. -/
structure Fault where
  /-- Where it lies in wait. -/
  point : Point
  /-- The only name that it waits for, or none for all names. -/
  name : Option Value
  /-- How often it fires; without a bound if negative. -/
  times : Int
  /-- The failure in place of the request, if there is one. -/
  failure : Option Failure
  /-- It cancels the cleanup that makes the request. -/
  cancels : Bool

namespace Fault

/-- The kinds of failure that a fault may bring about. -/
def kinds : List Kind :=
  [.rejection, .repository, .consistency, .runtime, .value, .system, .operational, .daemon,
    .daemonRequest, .daemonMissing]

/-- The failure of a kind, named by its label, with a message. -/
def failureOf? (label message : String) : Option Failure :=
  (kinds.find? fun kind => kind.label = label).map fun kind =>
    match kind with
    -- Failures of this kind are always about a name, which the message is then.
    | .consistency => .untracked (.text message)
    | kind => .reported kind message

/-- The fault fires at a request: it has uses left, and it lies at the point of the request and
waits for its name, or for any. -/
def firesAt (fault : Fault) (request : Request) : Bool :=
  fault.point = request.point && fault.times != 0 &&
    match fault.name with
    | none => true
    | some name => name.same request.name

/-- The fault with one use less. -/
def used (fault : Fault) : Fault :=
  if fault.times > 0 then { fault with times := fault.times - 1 } else fault

/-- The fault that fires at a request, and the faults as they are then. -/
def fire (request : Request) : List Fault → Option Fault × List Fault
  | [] => (none, [])
  | fault :: rest =>
    if fault.firesAt request then (some fault, fault.used :: rest)
    else
      -- Faults that do not match stay where they are, so their order never changes.
      let fired := fire request rest
      (fired.1, fault :: fired.2)

/-! ### Interface lemmas -/

@[simp] theorem fire_nil (request : Request) : fire request [] = (none, []) := rfl

/-- A fault fires at its own point. -/
theorem point_of_firesAt {fault : Fault} {request : Request}
    (h : fault.firesAt request = true) : fault.point = request.point := by
  rw [firesAt, Bool.and_eq_true, Bool.and_eq_true, decide_eq_true_eq] at h
  exact h.1.1

/-- A fault that fired was there. -/
theorem mem_of_fire {request : Request} {faults : List Fault} {fault : Fault}
    (h : (fire request faults).1 = some fault) :
    fault ∈ faults ∧ fault.firesAt request = true := by
  -- On the faults, up to the first one that fires.
  induction faults with
  | nil => simp at h
  | cons first rest ih =>
    unfold fire at h
    split at h
    · next hfires =>
      obtain rfl := Option.some.inj h
      exact ⟨List.mem_cons_self, hfires⟩
    · obtain ⟨hmem, hfires⟩ := ih h
      exact ⟨List.mem_cons_of_mem _ hmem, hfires⟩

end Fault

end Rollout
