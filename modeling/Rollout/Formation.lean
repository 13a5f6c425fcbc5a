import Rollout.JobName

/-!
# Processes and formations

A process type of an application: what it runs and how many instances of it are wanted. A formation
maps process types to processes, in order of arrival.

A wanted quantity is checked when the process is made: it is never negative. It is usually a whole
number; truth values and floating-point numbers pass the check as well, and are refused only where
instances are counted (`Quantity.count?`).
-/

namespace Rollout

/-- How many instances of a process are wanted. Truth values and floating-point numbers are kept as
what they are, since they are shown as such and a few operations refuse them. -/
inductive Quantity where
  /-- A whole number. -/
  | whole (n : Nat)
  | flag (b : Bool)
  | real (x : Binary64)

namespace Quantity

/-- The quantity as a value. -/
def toValue : Quantity → Value
  | whole n => .int n
  | flag b => .bool b
  | real x => .real x

/-- The number of instances to count up to. -/
def count? : Quantity → Except Failure Nat
  | whole n => .ok n
  | flag b => .ok (if b then 1 else 0)
  | real _ => .error .unsuitable

/-- The order between a quantity and a whole number; none with "not a number". -/
def compare? (quantity : Quantity) (n : Nat) : Option Ordering :=
  match quantity with
  | whole m => some (compare m n)
  | flag b => some (compare (if b then 1 else 0) n)
  | real x => x.compareInt? n

end Quantity

/-- A process type of an application. Of its fields only the quantity and the application are ever
changed, by scaling. -/
structure ProcessType where
  type : Value
  command : Value
  quantity : Quantity
  /-- The application, empty as long as none is known. -/
  app : Value

namespace ProcessType

/-- The quantity that a value stands for. -/
def quantity? (type given : Value) : Except Failure Quantity :=
  -- Wording the refusal may fail itself.
  let negative : Failure :=
    if type.writable && given.writable then .negativeQuantity type given else .unwritable
  match given with
  | .int (.ofNat n) => .ok (.whole n)
  | .int (.negSucc _) => .error negative
  | .bool b => .ok (.flag b)
  | .real x => if x.isNegative then .error negative else .ok (.real x)
  | _ => .error .unsuitable

/-- A process, unless its quantity is no number or negative. -/
def make? (type command quantity app : Value) : Except Failure ProcessType := do
  return { type, command, quantity := ← quantity? type quantity, app }

/-- The process with another quantity, owned by the application if it had no owner. An owner that
counts as false, such as the empty text, is none. -/
def scaled (process : ProcessType) (quantity : Nat) (app : Value) : ProcessType :=
  { process with
    quantity := .whole quantity
    app := if process.app.isTrue then process.app else app }

@[simp] theorem quantity_scaled (process : ProcessType) (quantity : Nat) (app : Value) :
    (process.scaled quantity app).quantity = .whole quantity := rfl

@[simp] theorem command_scaled (process : ProcessType) (quantity : Nat) (app : Value) :
    (process.scaled quantity app).command = process.command := rfl

@[simp] theorem type_scaled (process : ProcessType) (quantity : Nat) (app : Value) :
    (process.scaled quantity app).type = process.type := rfl

end ProcessType

/-- Processes by process type. -/
abbrev Formation := List (Value × ProcessType)

namespace Formation

/-- The process of a type. -/
def process? (formation : Formation) (type : String) : Option ProcessType :=
  Value.find? formation (.text type)

/-- Puts a process in the place of the one of its type. The key stays as it was, and nothing is
added if the type is not known. -/
def replace (type : String) (process : ProcessType) : Formation → Formation
  | [] => []
  | entry :: rest =>
    if entry.1.same (.text type) then (entry.1, process) :: rest
    else entry :: replace type process rest

/-- A formation from entries in order of arrival. A repeated process type keeps its place and takes
the last process. -/
def ofEntries (entries : List (Value × Except Failure ProcessType)) : Except Failure Formation := do
  let made ← entries.mapM fun entry => do
    let process ← entry.2
    if entry.1.isKey then return (entry.1, process) else throw .unsuitable
  return Value.collect made

/-- Replacing a process keeps the process types and their order. -/
@[simp] theorem keys_replace (type : String) (process : ProcessType) (formation : Formation) :
    (formation.replace type process).map (·.1) = formation.map (·.1) := by
  -- On the entries, up to the first one of the type.
  induction formation with
  | nil => rfl
  | cons entry rest ih =>
    unfold replace
    split <;> simp_all

end Formation

end Rollout
