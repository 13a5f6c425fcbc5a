import Rollout.Failure
import Rollout.Named

/-!
# Scale requests

A wish for quantities by process type. A request arrives as a map from objects to objects of any
kind. What the objects mean is not for the program to say: it hands the map to a validator, which
was made elsewhere and is a parameter here (`Validator`).

`Validator.IsLawful` is what the program relies on. A text is taken for itself and so is an integer;
quantities are not negative; entries are looked at in the order of the map, and if any of them is
bad the issues of all are listed, for each entry those of its key before those of its value; keys
that are taken for the same text are one key, with the last of their numbers. Which other objects
are taken for texts or integers is left open. The validator that the program runs with is
`ScaleRequest.lax`.
-/

namespace Rollout

/-- Quantities by process type, in order of arrival. Each type stands in it once, since it comes of
a map. -/
abbrev ScaleRequest := List (String × Nat)

namespace ScaleRequest

/-- The field that holds the quantities. -/
def field : Value := .text "quantities"

/-- A request from integers that are not negative. -/
def ofIntegers (kept : Named Int) : ScaleRequest := kept.map fun entry => (entry.1, entry.2.toNat)

end ScaleRequest

/-- A validator of maps from process types to numbers of instances, over objects of some kind.
The objects are a parameter of their own: they may be of kinds that no value of this library
stands for. -/
structure Validator (ν : Type) where
  /-- A text, as one of the objects. -/
  text : String → ν
  /-- An integer, as one of the objects. -/
  int : Int → ν
  /-- The text that an object is taken for. -/
  text? : ν → Except IssueKind String
  /-- The integer that an object is taken for, of either sign. -/
  integer? : ν → Except IssueKind Int
  /-- How a key is named in the location of an issue. -/
  location : ν → Value
  /-- What comes of a map, which is given by its entries. -/
  validate : List (ν × ν) → Except (List Issue) (Named Int)

namespace Validator

variable {ν : Type}

/-- Entries make a map if no key stands in it twice. Keys that are taken for one text may still be
different objects. -/
def IsMap (entries : List (ν × ν)) : Prop := (entries.map (·.1)).Nodup

/-- The number of instances that an object is taken for. It is checked for its sign after it was
taken for an integer, so an object that is no integer is told as that. -/
def quantity? (validator : Validator ν) (given : ν) : Except IssueKind Int :=
  match validator.integer? given with
  | .ok n => if n < 0 then .error .negative else .ok n
  | .error issue => .error issue

/-- What is wrong with a key. -/
def keyIssues (validator : Validator ν) (key : ν) : List Issue :=
  match validator.text? key with
  | .ok _ => []
  | .error issue => [⟨issue, [ScaleRequest.field, validator.location key, .text "[key]"]⟩]

/-- What is wrong with an entry: the issue of its key stands before that of its value. -/
def entryIssues (validator : Validator ν) (entry : ν × ν) : List Issue :=
  validator.keyIssues entry.1 ++
    match validator.quantity? entry.2 with
    | .ok _ => []
    | .error issue => [⟨issue, [ScaleRequest.field, validator.location entry.1]⟩]

/-- What is relied on of a validator. What comes of a map is told entry by entry: nothing is wrong
with an empty map, and there is one law for each way in which one more entry may turn out. -/
structure IsLawful (validator : Validator ν) : Prop where
  /-- A text is taken for itself. -/
  text?_text : ∀ s, validator.text? (validator.text s) = .ok s
  /-- An integer is taken for itself. -/
  integer?_int : ∀ n, validator.integer? (validator.int n) = .ok n
  validate_nil : validator.validate [] = .ok []
  /-- A map that is refused stays so, and the issues of its last entry are listed at the end. -/
  refused : ∀ {entries : List (ν × ν)} {entry : ν × ν} {issues : List Issue},
    IsMap (entries ++ [entry]) → validator.validate entries = .error issues →
    validator.validate (entries ++ [entry]) = .error (issues ++ validator.entryIssues entry)
  /-- A map is refused for its last entry. -/
  spoiled : ∀ {entries : List (ν × ν)} {entry : ν × ν} {kept : Named Int},
    IsMap (entries ++ [entry]) → validator.validate entries = .ok kept →
    validator.entryIssues entry ≠ [] →
    validator.validate (entries ++ [entry]) = .error (validator.entryIssues entry)
  /-- A good entry sets the number of what its key is taken for. -/
  accepted : ∀ {entries : List (ν × ν)} {entry : ν × ν} {kept : Named Int} {type : String}
    {n : Int}, IsMap (entries ++ [entry]) → validator.validate entries = .ok kept →
    validator.text? entry.1 = .ok type → validator.quantity? entry.2 = .ok n →
    validator.validate (entries ++ [entry]) = .ok (kept.set type n)

end Validator

end Rollout
