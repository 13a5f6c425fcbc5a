import Rollout.Conversion
import Rollout.Text.Pieces

/-!
# Job names

A job is known to the scheduler by one text, `app.version.type.ordinal`: one instance of a process
type of one release. Dots separate the fields, so the two text fields are non-empty and hold none.
Whoever holds the four fields can rebuild the name, which is how tracked jobs are matched with what
the scheduler reports.

* `JobName.check`: the four fields of a job, if they make a name.
* `JobName.text?`: the name.
* `JobName.parse`: the fields of a name, read leniently (signs, blanks and digits of any script).
-/

namespace Rollout

/-! ### Fields -/

/-- A text that can be a field of a job name: not empty, and without dots. -/
def isFieldName (s : String) : Bool := !s.isEmpty && !s.toList.contains '.'

/-- A failure that words a value, unless an integer in the value has too many digits. Then wording
it fails, and it is that failure which is told. -/
def refuse (failure : Value → Failure) (given : Value) : Failure :=
  if given.writable then failure given else .unwritable

/-- A value that is a name. `what` says what it names. -/
def checkName (what : String) (given : Value) : Except Failure String :=
  match given with
  | .text s => if isFieldName s then .ok s else .error (.invalidName what given)
  | _ => .error (refuse (.invalidName what) given)

/-- A value that is an integer; truth values are none. `what` says what it counts. -/
def checkNumber (what : String) (given : Value) : Except Failure Int :=
  match given with
  | .int n => .ok n
  | _ => .error (refuse (.invalidNumber what) given)

/-- The fields of a job name. They need not be fit for one: that both texts are field names and both
numbers can be written is asked for separately. -/
structure JobName where
  app : String
  version : Int
  type : String
  /-- Which instance of the process type it is, counted from one. -/
  ordinal : Int
deriving DecidableEq, Repr

namespace JobName

/-- The fields as one text. -/
def text (name : JobName) : String :=
  name.app ++ "." ++ toString name.version ++ "." ++ name.type ++ "." ++ toString name.ordinal

/-- The fields of a job, checked in their order. -/
def check (app version type ordinal : Value) : Except Failure JobName := do
  -- The first field that is not in order is the one that is told.
  let app ← checkName "app name" app
  let version ← checkNumber "release version" version
  let type ← checkName "process type" type
  let ordinal ← checkNumber "instance" ordinal
  return ⟨app, version, type, ordinal⟩

/-- The two numbers can be written. -/
def writable (name : JobName) : Bool :=
  Numeral.Writable name.version && Numeral.Writable name.ordinal

/-- The name of a job. -/
def text? (app version type ordinal : Value) : Except Failure String := do
  let name ← check app version type ordinal
  if name.writable then return name.text else throw .unwritable

/-! ### Reading a name -/

/-- The fields of a name: four parts, none of them empty, with numbers in the second and the fourth.
Numbers are read as integers are read anywhere, so several texts may be names of one job. -/
def parse (given : String) : Except Failure JobName :=
  match Text.pieces '.' given.toList with
  | [app, version, type, ordinal] =>
    if app.isEmpty || version.isEmpty || type.isEmpty || ordinal.isEmpty then
      .error (.notJobName given)
    else
      match Numeral.readInteger (String.ofList version),
          Numeral.readInteger (String.ofList ordinal) with
      | .ok version, .ok ordinal =>
        .ok ⟨String.ofList app, version, String.ofList type, ordinal⟩
      | _, _ => .error (.notJobName given)
  | _ => .error (.notJobName given)

/-! ### Interface lemmas -/

@[simp] theorem checkName_text (what s : String) :
    checkName what (.text s) =
      if isFieldName s then .ok s else .error (.invalidName what (.text s)) := rfl

@[simp] theorem checkNumber_int (what : String) (n : Int) : checkNumber what (.int n) = .ok n := rfl

end JobName

end Rollout
