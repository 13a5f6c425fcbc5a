import Rollout.ScaleRequest

/-!
# The validator of the program

The rules by which scale requests are validated where the program runs, for requests that are made
of values. Either every entry of a map is a text with a number of instances, or all issues are
listed in the order of the entries, for each entry the issue of its key first.

A number of instances may be an integer, a truth value, a floating-point number without a fraction,
or a text: a numeral in ASCII digits, which may be untidy (`tidy?`) in that it has underscores
between digits, blanks around it, zeros in front, or nothing but zeros after a point.

All of this is one instance of a `Validator` (`ScaleRequest.lax`), written after what the validator
was seen to do; it is nothing that the program decides. That it keeps the laws of validators is
`ScaleRequest.lax_isLawful`.
-/

namespace Rollout

namespace ScaleRequest

/-- The first integer beyond 64 bits. Floating-point numbers count as integers strictly within these
bounds, and keys stay integers within them. -/
def wordBound : Int := Numeral.twoTo 63

/-! ### Numerals of quantities -/

/-- A numeral in its plain form: digits without a zero in front, after at most a minus. What follows
a numeral that has too many digits is not looked at. -/
def plainInteger (text : List Char) : Except IssueKind Int :=
  let (negative, body) : Bool × List Char := match text with
    | '-' :: rest => (true, rest)
    | rest => (false, rest)
  match Numeral.spanPlain Numeral.asciiDigit? body with
  | ([0], []) => .ok 0
  | ([], _) | (0 :: _, _) => .error .unreadable
  | (digits, rest) =>
    if digits.length > Numeral.digitLimit then .error .tooLarge
    else if rest.isEmpty then .ok (Numeral.signed negative (Numeral.ofDigits digits))
    else .error .unreadable

/-- What follows the zeros and underscores at the front of a numeral, where a minus may follow them.
If nothing follows, or a point, the last of them stays. -/
def afterZeros (last : Char) : List Char → Option (List Char)
  | [] => some [last]
  | c :: rest =>
    if c = '0' ∨ c = '_' then afterZeros c rest
    -- The last zero is kept in front of a point.
    else if c = '.' then some (last :: c :: rest)
    else if c.isDigit ∨ c = '-' then some (c :: rest)
    else none

/-- A numeral without its zeros at the front. It starts with a digit or a minus. -/
def withoutZeros? : List Char → Option (List Char)
  | [] => none
  | c :: rest =>
    if c = '0' then afterZeros c rest
    else if c.isDigit ∨ c = '-' then some (c :: rest)
    else none

/-- A numeral without a fraction of zeros. -/
def withoutZeroFraction (text : List Char) : List Char :=
  match text.span (· ≠ '.') with
  | (whole, _ :: zeros@(_ :: _)) => if zeros.all (· = '0') then whole else text
  | _ => text

/-- Every underscore stands alone between two other characters; the flag says whether the character
before the text is one that an underscore may follow. -/
def underscoresApart (follows : Bool) : List Char → Bool
  | [] => true
  -- None may stand at the end.
  | ['_'] => false
  | '_' :: rest => follows && underscoresApart false rest
  | _ :: rest => underscoresApart true rest

/-- A numeral without its underscores, if each of them stands apart. -/
def withoutUnderscores (text : List Char) : List Char :=
  if underscoresApart false text then text.filter (· ≠ '_') else text

/-- A numeral without sign, tidied up. -/
def tidyUnsigned? (text : List Char) : Option (List Char) :=
  (withoutZeros? text).map fun text => withoutUnderscores (withoutZeroFraction text)

/-- A numeral tidied up: without blanks, a plus, zeros at the front, a fraction of zeros, and
underscores. -/
def tidy? (text : List Char) : Option (List Char) :=
  match Text.trim text with
  | '-' :: rest => (tidyUnsigned? rest).map ('-' :: ·)
  | '+' :: '-' :: _ => none
  | '+' :: rest => tidyUnsigned? rest
  | rest => tidyUnsigned? rest

/-- The integer that a text stands for: it is read as it is, and if that fails once more after it
was tidied up. Only a text that is too long as it arrived is reported as such. -/
def integerOfText (text : String) : Except IssueKind Int :=
  match plainInteger text.toList with
  | .ok n => .ok n
  | .error .tooLarge => .error .tooLarge
  | .error _ =>
    match (tidy? text.toList).map plainInteger with
    | some (.ok n) => .ok n
    | _ => .error .unreadable

/-! ### Quantities -/

/-- The integer that a value stands for. -/
def integer : Value → Except IssueKind Int
  | .int n => .ok n
  | .bool b => .ok (if b then 1 else 0)
  | .real x =>
    match x.truncate? with
    | none => .error .notFinite
    | some n =>
      -- A fraction is told before the size.
      if x.integer?.isNone then .error .fraction
      else if -wordBound < n ∧ n < wordBound then .ok n
      else .error .tooLarge
  | .text s => integerOfText s
  | .none | .list _ | .dict _ => .error .notInteger

/-- The number of instances that a value stands for. -/
def quantity (given : Value) : Except IssueKind Nat :=
  match integer given with
  | .ok (.ofNat n) => .ok n
  | .ok (.negSucc _) => .error .negative
  | .error issue => .error issue

/-- What stands for an integer that has too many digits to be written. -/
def unprintable : String := "<unprintable int object>"

/-- How a key is named in the location of an issue: texts stay, truth values and integers of 64 bits
are integers, and all else is shown. -/
def keyLocation : Value → Value
  | .text s => .text s
  | .bool b => .int (if b then 1 else 0)
  | .int n =>
    if -wordBound ≤ n ∧ n < wordBound then .int n
    else if Numeral.Writable n then .text (toString n)
    else .text unprintable
  | key => .text key.shown

/-- The issues of one entry. -/
def entryIssues (key given : Value) : List Issue :=
  let location := keyLocation key
  let keyIssues := match key with
    | .text _ => []
    | _ => [⟨.notText, [field, location, .text "[key]"]⟩]
  let valueIssues := match quantity given with
    | .ok _ => []
    | .error issue => [⟨issue, [field, location]⟩]
  keyIssues ++ valueIssues

/-- The entry as a quantity of a process type. -/
def pair? (key given : Value) : Option (String × Nat) :=
  match key, quantity given with
  | .text type, .ok n => some (type, n)
  | _, _ => none

/-- Validates the entries of a request, all together. -/
def ofEntries (entries : List (Value × Value)) : Except (List Issue) ScaleRequest :=
  -- All entries are looked at, also behind one that is bad.
  match entries.flatMap fun entry => entryIssues entry.1 entry.2 with
  | [] => .ok (entries.filterMap fun entry => pair? entry.1 entry.2)
  | issues => .error issues

/-- Validates a request as it arrived; there may be none at all. -/
def validate : Option Value → Except (List Issue) ScaleRequest
  | none => .error [⟨.fieldMissing, [field]⟩]
  | some (.dict entries) => ofEntries entries
  | some _ => .error [⟨.notDictionary, [field]⟩]

/-- The numbers of a request as integers. -/
def toIntegers (request : ScaleRequest) : Named Int :=
  request.map fun entry => (entry.1, (entry.2 : Int))

/-- The validator of the program: it takes texts as keys and nothing else, and as integers what
`integer` reads. -/
def lax : Validator Value where
  text := .text
  int := .int
  text? := fun
    | .text s => .ok s
    | _ => .error .notText
  integer? := integer
  location := keyLocation
  validate entries := (ofEntries entries).map toIntegers

/-- Nothing is lost of a request when its numbers are taken for integers. -/
theorem ofIntegers_toIntegers (request : ScaleRequest) :
    ofIntegers request.toIntegers = request := by
  rw [ofIntegers, toIntegers, List.map_map]
  exact List.map_id request

@[simp] theorem quantity_int (n : Nat) : quantity (.int n) = .ok n := rfl

end ScaleRequest

end Rollout
