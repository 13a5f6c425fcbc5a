import Rollout.Failure
import Rollout.Inspection.Token

/-!
# Statements about whole tables

Two statements take a text in the place of a table: one lists rows by their numbers
(`Statement.readListing`), the other takes a table away (`Statement.readRemoval`). The text becomes
part of the statement as it is, so it may be more than a name: it may say where the table is, rename
it, join tables, and end the statement. What stands behind that end is looked at only after the
statement was understood, and must be idle.

A statement is read token by token, and the first token that does not fit is the one that is told.
-/

namespace Rollout

/-! ### What statements say -/

/-- A table as a statement names it. -/
structure TableName where
  /-- Where the table is, if it is said. -/
  schema : Option String
  name : String
deriving DecidableEq, Repr

/-- The name as faults tell it. -/
def TableName.shown (table : TableName) : String :=
  match table.schema with
  | some schema => s!"{schema}.{table.name}"
  | none => table.name

/-- A table that rows are taken from. One that is written like a call, with brackets behind its
name, can only be a function. -/
structure Source where
  table : TableName
  isCall : Bool
  /-- The index that is to be used, if one is named. -/
  index : Option String
deriving DecidableEq, Repr

/-- How tables are joined: rows without a partner may be kept on either side. -/
structure JoinKind where
  keepsLeft : Bool
  keepsRight : Bool
deriving DecidableEq, Repr

/-- Where rows are taken from. -/
inductive Sources where
  | table (source : Source)
  | join (left : Sources) (kind : JoinKind) (right : Sources)
deriving Repr

/-- A statement that lists rows. -/
structure Listing where
  sources : Sources
  isOrdered : Bool
  isFollowed : Bool

/-- A statement that takes a table away. -/
structure Removal where
  table : TableName
  mayBeMissing : Bool
  isFollowed : Bool

namespace Statement

/-! ### Reading token by token -/

/-- Reading from the tokens that are left. What was read cannot be given back: every choice is made
by the next token alone. -/
abbrev Reading (α : Type) := StateT (List Token) (Except StorageFault) α

/-- The next token, or the end, does not fit. A token that cannot be read at all is told as such,
and not as one that is in the wrong place. -/
def stray {α : Type} : Reading α := fun tokens =>
  match tokens with
  | [] => .error .incomplete
  | token :: _ =>
    .error (if token.kind = .unreadable then .unreadableToken token.written
      else .misplaced token.written)

/-- Takes the next token, if it passes a test. -/
def take? (test : Token → Bool) : Reading (Option Token) := fun tokens =>
  match tokens with
  | [] => .ok (none, [])
  | token :: rest => .ok (if test token then (some token, rest) else (none, token :: rest))

/-- Takes the next token if it passes a test, and tells whether it did. -/
def passes (test : Token → Bool) : Reading Bool := do return (← take? test).isSome

/-- Takes the next token, which must pass a test. -/
def expect (test : Token → Bool) : Reading Token := do
  match ← take? test with
  | some token => return token
  | none => stray

/-- A name. -/
def name : Reading String := do
  return ((← expect (·.name?.isSome)).name?).getD ""

/-- A table. -/
def tableName : Reading TableName := do
  let first ← name
  if ← passes (·.isSign ".") then return ⟨some first, ← name⟩
  else return ⟨none, first⟩

/-! ### Sources -/

/-- A new name of a table, if it gets one; it has no bearing on what is listed. Without the word in
front of it, only a name that could not begin what follows is taken for a new one. -/
def newName : Reading Unit := do
  if ← passes (·.isWord "AS") then
    let _ ← name
  else
    -- A keyword of joins would be a name as well, but here a join begins with it.
    let _ ← take? fun token =>
      token.name?.isSome && !token.isJoining && !token.isWord "INDEXED"

/-- The index that is to be used, if one is named. -/
def index : Reading (Option String) := do
  if ← passes (·.isWord "INDEXED") then
    let _ ← expect (·.isWord "BY")
    return some (← name)
  if ← passes (·.isWord "NOT") then
    let _ ← expect (·.isWord "INDEXED")
  return none

/-- A table that rows are taken from. -/
def source : Reading Source := do
  let table ← tableName
  if ← passes (·.isSign "(") then
    let _ ← expect (·.isSign ")")
    newName
    return ⟨table, true, none⟩
  else
    newName
    return ⟨table, false, ← index⟩

/-- The kind of a join in words, if there is such a kind. -/
def joinKind? (words : List String) : Option JoinKind :=
  let words := words.map String.toUpper
  let has (sought : List String) : Bool := words.any sought.contains
  let left := has ["LEFT", "FULL"]
  let right := has ["RIGHT", "FULL"]
  let isOuter := left || right || has ["OUTER"]
  -- Sides and crossing exclude each other, and an outer join needs a side.
  if !words.all Token.joining.contains || (isOuter && has ["INNER", "CROSS"]) ||
      (isOuter && !left && !right) then none
  else some ⟨left, right⟩

/-- The words in front of a join, of which there are only so many. -/
def joinWords : Nat → List String → Reading (List String)
  | 0, words => do
    let _ ← expect (·.isWord "JOIN")
    return words
  | count + 1, words => do
    if ← passes (·.isWord "JOIN") then return words
    else joinWords count (words ++ [(← expect (·.name?.isSome)).written])

/-- A kind of join that there is not. This is told only if a table comes next. -/
def refuseJoin {α : Type} (words : List String) : Reading α := do
  match ← take? fun token => token.name?.isSome || token.isSign "(" with
  | some _ => throw (.unknownJoin (" ".intercalate words))
  | none => stray

/-- The kind of the join that comes next, if one does. -/
def join? : Reading (Option JoinKind) := do
  if ← passes fun token => token.isSign "," || token.isWord "JOIN" then return some ⟨false, false⟩
  match ← take? fun token => token.isJoining && !token.isWord "NATURAL" with
  | none => return none
  | some first =>
    let words ← joinWords 2 [first.written]
    match joinKind? words with
    | some kind => return some kind
    | none => refuseJoin words

/-- Tables, joined to what stands on their left. The number bounds the joins and the brackets. -/
def sources : Nat → Option (Sources × JoinKind) → Reading Sources
  | 0, _ => stray
  | bound + 1, before => do
    let next ←
      if ← passes (·.isSign "(") then
        let inner ← sources bound none
        let _ ← expect (·.isSign ")")
        newName
        pure inner
      else
        pure (.table (← source))
    -- What was joined so far stands on the left of what comes next.
    let all := match before with
      | some (left, kind) => .join left kind next
      | none => next
    match ← join? with
    | some kind => sources bound (some (all, kind))
    | none => return all

/-! ### Whole statements -/

/-- The end of a statement. It tells whether something follows. -/
def ending : Reading Bool := do
  -- Without the sign that ends it, a statement must be at its end.
  if (← get).isEmpty then return false
  return !Token.isIdle (← expect (·.isSign ";")).behind

/-- The order by numbers, if it is asked for. -/
def order : Reading Bool := do
  if ← passes (·.isWord "ORDER") then
    let _ ← expect (·.isWord "BY")
    let _ ← expect fun token => token.name?.map String.toLower = some "id"
    return true
  else return false

/-- Reads the rest of a statement, in front of which stands a blank. -/
def read {α : Type} (reading : List Token → Reading α) (text : String) : Except StorageFault α :=
  if text.toList.contains '\x00' then .error .nullInStatement
  else
    -- Behind the words that are given there is a blank, which is a token of no kind.
    let tokens := Token.scan (' ' :: text.toList)
    (reading tokens tokens).map (·.1)

/-- Reads the statement that lists the rows of what a text says, by their numbers. -/
def readListing (text : String) : Except StorageFault Listing :=
  read (fun tokens => do
    let sources ← sources (tokens.length + 1) none
    let isOrdered ← order
    return ⟨sources, isOrdered, ← ending⟩) (text ++ " ORDER BY id")

/-- Reads the statement that takes away the table that a text says. -/
def readRemoval (text : String) : Except StorageFault Removal :=
  read (fun _ => do
    let mayBeMissing ← passes (·.isWord "IF")
    if mayBeMissing then
      let _ ← expect (·.isWord "EXISTS")
    let table ← tableName
    return ⟨table, mayBeMissing, ← ending⟩) text

/-! ### Interface lemmas -/

@[simp] theorem take?_nil (test : Token → Bool) : take? test [] = .ok (none, []) := rfl

end Statement

end Rollout
