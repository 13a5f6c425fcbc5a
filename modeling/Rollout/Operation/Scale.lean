import Rollout.Operation.RollOut
import Rollout.ScaleRequest.Lax

/-!
# Scaling a release

Each process type that a request names is brought to its quantity: upward by placing the instances
that are missing, downward by withdrawing instances from the highest on, so that what remains is
always an initial range. Only after that the formation and the process store take the new quantity.
The first failure ends the whole request; process types that were done before stay done.

A formation is changed by scaling even if the request fails later, so the result always holds it.
-/

namespace Rollout.Scale

/-- What scaling left: the formation as it is then, and whether the request came to its end. -/
structure Result where
  formation : Formation
  ending : Except Failure Unit

/-! ### Upward -/

/-- Places `count` instances from an ordinal on. -/
def placeFrom (template : Job.Template) (type : String) (command : Value) (ordinal : Nat) :
    Nat → Action Unit
  | 0 => return ()
  | count + 1 => do
    Placement.place (template.job (.text type) command ordinal)
    placeFrom template type command (ordinal + 1) count

/-- Places the instances after the current quantity up to the target. Instances are counted from
one, so the first to place is the one after the quantity. -/
def growTo (blueprint : Blueprint) (type : String) (process : ProcessType) (target : Nat) :
    Action Unit := do
  let environment ← Work.ofExcept (Environment.ofVars blueprint.vars)
  let current ← Work.ofExcept process.quantity.count?
  let template : Job.Template :=
    ⟨blueprint.release.app, blueprint.release.version, environment, blueprint.image⟩
  placeFrom template type process.command (current + 1) (target - current)

/-! ### Downward -/

/-- The tracked jobs by name. A single tracked job without a name makes it impossible to withdraw
any. -/
def byName (jobs : List Job) : Except Failure (List (String × Job)) :=
  jobs.mapM fun job => do return (← job.name?, job)

/-- The tracked job of a name, the last one if there are several. -/
def find? (tracked : List (String × Job)) (name : String) : Option Job :=
  tracked.reverse.lookup name

/-- Withdraws one instance, which must be tracked. -/
def withdrawOrdinal (release : Release) (tracked : List (String × Job)) (type : String)
    (ordinal : Nat) : Action Unit := do
  let name ← Work.ofExcept <|
    JobName.text? release.app release.version (.text type) (.int ordinal)
  match find? tracked name with
  | some job => Placement.withdraw job
  | none => throw (.untracked (.text name))

/-- Withdraws `count` instances above the target, from the highest on. -/
def withdrawAbove (release : Release) (tracked : List (String × Job)) (type : String)
    (target : Nat) : Nat → Action Unit
  | 0 => return ()
  | count + 1 => do
    -- The highest instance goes first, so that the remaining ones stay an initial range.
    withdrawOrdinal release tracked type (target + count + 1)
    withdrawAbove release tracked type target count

/-- Withdraws the instances after the target up to the current quantity. -/
def shrinkTo (release : Release) (type : String) (process : ProcessType) (target : Nat) :
    Action Unit := do
  let tracked ← Work.ofExcept (byName (← Action.list release.app))
  let current ← Work.ofExcept process.quantity.count?
  withdrawAbove release tracked type target (current - target)

/-! ### One process type -/

/-- Places or withdraws what separates the current quantity from the target. -/
def adjust (blueprint : Blueprint) (type : String) (process : ProcessType) (target : Nat) :
    Action Unit :=
  match process.quantity.compare? target with
  | some .lt => growTo blueprint type process target
  | some .gt => shrinkTo blueprint.release type process target
  -- Equal, or not to be compared at all: nothing to do.
  | _ => return ()

/-- Logs a change of quantity. -/
def logChange (release : Release) (type : String) (process : ProcessType) (target : Nat) :
    Action Unit := do
  if process.quantity.compare? target ≠ some .eq then
    let current ← Work.ofExcept process.quantity.toValue.shown?
    let target ← Work.ofExcept (Value.int target).shown?
    Action.log (.info release s!"Scaled {type} from {current} to {target}")

/-- Scales one process type. The process takes its new quantity as soon as the cluster has it, even
if the process store then fails. -/
def scaleType (blueprint : Blueprint) (type : String) (process : ProcessType) (target : Nat) :
    Plan Collaborators (ProcessType × Except Failure Unit) := do
  let changed : Action Unit := do
    adjust blueprint type process target
    logChange blueprint.release type process target
  match ← changed.attempt with
  | .error failure => return (process, .error failure)
  | .ok () =>
    -- From here on the process has its quantity, whatever the store says.
    let process := process.scaled target blueprint.release.app
    let kept ← (Action.update process).attempt
    return (process, kept.map fun _ => ())

/-! ### A whole request -/

/-- Scales the process types of a request, in order, as far as the formation knows them. -/
def scaleTypes (blueprint : Blueprint) :
    ScaleRequest → Formation → Plan Collaborators Result
  | [], formation => return ⟨formation, .ok ()⟩
  | (type, target) :: rest, formation =>
    match formation.process? type with
    -- A type that the formation does not know is passed over, and is no failure.
    | none => scaleTypes blueprint rest formation
    | some process => do
      match ← scaleType blueprint type process target with
      | (process, .error failure) => return ⟨formation.replace type process, .error failure⟩
      | (process, .ok ()) => scaleTypes blueprint rest (formation.replace type process)

/-- Scales a release by what a validator makes of the quantities. A request that is not valid
changes nothing. -/
def scaleBy {ν : Type} (validator : Validator ν) (blueprint : Blueprint)
    (quantities : List (ν × ν)) (formation : Formation) : Plan Collaborators Result :=
  match validator.validate quantities with
  | .error issues => return ⟨formation, .error (.invalidQuantities issues)⟩
  | .ok kept => scaleTypes blueprint (ScaleRequest.ofIntegers kept) formation

/-- Scales a release, with the validator of the program. -/
def scale (blueprint : Blueprint) (quantities : List (Value × Value)) (formation : Formation) :
    Plan Collaborators Result :=
  scaleBy ScaleRequest.lax blueprint quantities formation

/-- Whether a request is valid decides what is done. -/
theorem scale_eq (blueprint : Blueprint) (quantities : List (Value × Value))
    (formation : Formation) :
    scale blueprint quantities formation =
      match ScaleRequest.ofEntries quantities with
      | .error issues => return ⟨formation, .error (.invalidQuantities issues)⟩
      | .ok request => scaleTypes blueprint request formation := by
  rw [scale, scaleBy]
  show (match (ScaleRequest.ofEntries quantities).map ScaleRequest.toIntegers with
    | .error issues => _
    | .ok kept => _) = _
  cases ScaleRequest.ofEntries quantities with
  | error issues => rfl
  | ok request => exact congrArg (scaleTypes blueprint · formation) request.ofIntegers_toIntegers

end Rollout.Scale
