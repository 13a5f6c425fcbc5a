import Rollout.Collaborators
import Rollout.Storage.File
import Rollout.Text.UpperCase

/-!
# The event log

What happened to applications, in order, in a database file. The tables are made on every use, so
the log needs no opening.
-/

namespace Rollout

namespace EventLog

/-- The level in capital letters. -/
def capitals : Value → Except Failure String
  | .text level => .ok (Text.upperCase level)
  | _ => .error .lacking

/-- Logs an event. The level is turned into capital letters only when the file was found, so a bad
level still leaves the tables behind. -/
def log (site : Surroundings) (file : Value) (event : Event) : Disk Unit := do
  Disk.initialise site file
  let place ← Disk.connect site file
  let now ← Disk.timestamp site
  let level ← Disk.ofExcept (capitals event.level)
  Disk.change place <| Database.addEvent <|
    EventRow.ofEvent now level event.app event.version event.message

/-- The latest events with their numbers, the latest first. -/
def latest (site : Surroundings) (file limit : Value) : Disk (List (Nat × EventRow)) := do
  Disk.initialise site file
  Disk.query (← Disk.connect site file) (Database.latestEvents limit)

end EventLog

end Rollout
