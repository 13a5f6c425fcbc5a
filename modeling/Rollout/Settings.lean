import Rollout.Conversion
import Rollout.Named

/-!
# Settings

Defaults of the release manager, taken from environment variables when it starts: where the state is
kept, which network containers join, and how an old generation is retired. A number that cannot be
read is ignored.
-/

namespace Rollout

/-- The settings of a release manager. They are read from the environment once, with a default for
each that is unset or cannot be read. -/
structure Settings where
  /-- The file that state is kept in, if no other is named. -/
  databasePath : Value
  network : Value
  graceSeconds : Value
  retries : Value
  retryDelaySeconds : Value

namespace Settings

/-- Environment variables. -/
abbrev Variables := Named String

/-- The text of a variable. -/
def Variables.get? (vars : Variables) (name : String) : Option String := vars.lookup name

/-- Sets a variable, if the system takes it. The null character ends texts there, and the name ends
at the first sign of equality, so neither can be part of a variable. -/
def Variables.set? (name text : String) (vars : Variables) : Except Failure Variables :=
  if name.toList.contains '\x00' || text.toList.contains '\x00' then .error .nullCharacter
  else if name.toList.contains '=' then .error .badVariableName
  else if name.isEmpty then .error .namelessVariable
  else .ok (Named.set name text vars)

/-- The variables that are there after setting some. Each is set once, to its last text. -/
def Variables.ofList? (given : List (String × String)) : Except Failure Variables :=
  (Named.collect given).foldlM (fun vars entry => vars.set? entry.1 entry.2) []

/-- The integer of a variable, or the default if it is unset or no integer numeral. A bad variable
is ignored, and nobody is told. -/
def integerOr (default : Value) : Option String → Value
  | none => default
  | some raw =>
    match integerOfText raw with
    | .ok n => .int n
    | .error _ => default

/-- The number of a variable, or the default if it is unset or no number. -/
def realOr (default : Value) : Option String → Value
  | none => default
  | some raw =>
    match realOfText raw with
    | .ok x => .real x
    | .error _ => default

/-- The text of a variable, or the default if it is unset. -/
def textOr (default : String) (raw : Option String) : Value := .text (raw.getD default)

/-- A whole number of seconds. -/
def seconds (n : Nat) : Value := .real (.ofRatio false n 1)

/-- The settings under the given environment variables. Numbers are not checked beyond being
numbers: a grace period may be negative, infinite or no number at all, and cleanups have to do with
it. -/
def ofVariables (vars : Variables) : Settings where
  databasePath := textOr "relman.db" (vars.get? "RELMAN_DB_PATH")
  network := textOr "relman" (vars.get? "RELMAN_DOCKER_NETWORK")
  graceSeconds := realOr (seconds 60) (vars.get? "RELMAN_CLEANUP_GRACE_S")
  retries := integerOr (.int 2) (vars.get? "RELMAN_CLEANUP_RETRIES")
  retryDelaySeconds := realOr (seconds 1) (vars.get? "RELMAN_CLEANUP_RETRY_DELAY_S")

@[simp] theorem integerOr_none (default : Value) : integerOr default none = default := rfl

@[simp] theorem realOr_none (default : Value) : realOr default none = default := rfl

end Settings

end Rollout
