/-!
# Tokens of statements

A statement is a text. It is cut into tokens from the front: words, names in quotation marks, quoted
texts, and signs, among them numbers and places for parameters. Blanks and remarks stand between
tokens and mean nothing. What fits none of these is a token that cannot be read, as are quotation
marks that are never closed.

* `Token.cut` says how far the token at the front of a text goes.
* `Token.scan` cuts a whole text; every token knows the text behind it.
-/

namespace Rollout

/-- The kinds of tokens. -/
inductive TokenKind where
  | word
  | quoted
  | text
  | sign
  | unreadable
deriving DecidableEq, Repr

/-- A token of a statement, as it was written, with the text behind it. The text behind is needed at
the end of a statement, where it is looked at without being cut. -/
structure Token where
  kind : TokenKind
  written : String
  behind : List Char
deriving DecidableEq, Repr

namespace Token

/-! ### Characters -/

/-- Blanks that a token of blanks may start with. -/
def startsBlank (c : Char) : Bool :=
  c = ' ' || c = '\t' || c = '\n' || c = '\x0c' || c = '\r'

/-- Blanks within a token of blanks. -/
def isBlank (c : Char) : Bool := startsBlank c || c = '\x0b'

/-- Characters of words. -/
def isWordChar (c : Char) : Bool := c.isAlphanum || c = '_' || c = '$' || c.toNat ≥ 0x80

/-- Characters that words start with. -/
def startsWord (c : Char) : Bool := isWordChar c && !c.isDigit && c ≠ '$'

/-- Hexadecimal digits. -/
def isHexDigit (c : Char) : Bool :=
  c.isDigit || ('a' ≤ c && c ≤ 'f') || ('A' ≤ c && c ≤ 'F')

/-- How many characters at the front of a text pass a test. -/
def count (test : Char → Bool) (text : List Char) : Nat := (text.takeWhile test).length

/-! ### The length of a token -/

/-- The characters of a remark up to its end, or up to the end of the text. -/
def remark : List Char → Nat
  | [] => 0
  | '*' :: '/' :: _ => 2
  | _ :: rest => 1 + remark rest

/-- The characters up to the mark that closes a quotation, if there is one. A doubled mark closes
none. -/
def quotation (mark : Char) : List Char → Option Nat
  | [] => none
  | [c] => if c = mark then some 1 else none
  | c :: d :: rest =>
    if c = mark then
      if d = mark then (quotation mark rest).map (2 + ·) else some 1
    else (quotation mark (d :: rest)).map (1 + ·)

/-- The characters of an exponent. -/
def exponent : List Char → Nat
  | e :: rest =>
    if e = 'e' || e = 'E' then
      match rest with
      | d :: more =>
        if d.isDigit then 1 + count Char.isDigit rest
        else if (d = '+' || d = '-') && more.head?.any Char.isDigit then
          2 + count Char.isDigit more
        else 0
      | [] => 0
    else 0
  | [] => 0

/-- The characters of a number in digits, with a fraction and an exponent if they are there. -/
def decimal (text : List Char) : Nat :=
  let whole := count Char.isDigit text
  -- Without digits in front of the point this is called for a point that has digits behind it.
  let fraction := match text.drop whole with
    | '.' :: rest => 1 + count Char.isDigit rest
    | _ => 0
  whole + fraction + exponent (text.drop (whole + fraction))

/-- A number: nothing that could be part of a word may follow its digits. -/
def number (text : List Char) : TokenKind × Nat :=
  let plain : TokenKind × Nat :=
    let digits := decimal text
    match count isWordChar (text.drop digits) with
    | 0 => (.sign, digits)
    | more => (.unreadable, digits + more)
  match text with
  -- A hexadecimal number has no fraction, and what is behind it is a token of its own.
  | '0' :: x :: rest =>
    if (x = 'x' || x = 'X') && rest.head?.any isHexDigit then (.sign, 2 + count isHexDigit rest)
    else plain
  | _ => plain

/-- What follows the mark of a named place for a parameter; the flag says whether a part of the name
was there. -/
def parameter (named : Bool) : List Char → Bool × Nat
  | ':' :: ':' :: rest => (parameter named rest).map id (2 + ·)
  | c :: rest =>
    if isWordChar c then (parameter true rest).map id (1 + ·)
    else if c = '(' && named then
      let inner := count (fun d => !isBlank d && d ≠ ')') rest
      match rest.drop inner with
      | ')' :: _ => (true, inner + 2)
      | _ => (false, inner + 1)
    else (named, 0)
  | [] => (named, 0)

/-- What follows the mark and the apostrophe of a row of bytes. -/
def bytes (text : List Char) : TokenKind × Nat :=
  let digits := count isHexDigit text
  match text.drop digits with
  | '\'' :: _ =>
    (if digits % 2 = 0 then .sign else .unreadable, digits + 1)
  | rest =>
    let more := count (· ≠ '\'') rest
    (.unreadable, digits + more + if (rest.drop more).isEmpty then 0 else 1)

/-- A word from its first character on. -/
def word (rest : List Char) : TokenKind × Nat := (.word, count isWordChar rest)

/-- A sign of one character, or of two if the second one is among the given. -/
def sign (seconds : List Char) (rest : List Char) : TokenKind × Nat :=
  (.sign, if rest.head?.any seconds.contains then 1 else 0)

/-- How far the token at the front of a text goes: its kind, none for blanks and remarks, and how
many characters behind the first one belong to it. Only one or two characters have to be looked at
to know which case it is. -/
def cut (first : Char) (rest : List Char) : Option TokenKind × Nat :=
  let closed (mark : Char) (kind : TokenKind) : Option TokenKind × Nat :=
    match quotation mark rest with
    | some length => (some kind, length)
    | none => (some .unreadable, rest.length)
  let token (part : TokenKind × Nat) : Option TokenKind × Nat := (some part.1, part.2)
  match first with
  -- Two of them begin a remark, which goes to the end of the line.
  | '-' =>
    match rest with
    | '-' :: more => (none, 1 + count (· ≠ '\n') more)
    | '>' :: more => (some .sign, if more.head? = some '>' then 2 else 1)
    | _ => (some .sign, 0)
  | '/' =>
    match rest with
    | '*' :: c :: more => (none, 1 + remark (c :: more))
    | _ => (some .sign, 0)
  | '=' => token (sign ['='] rest)
  | '<' => token (sign ['=', '<', '>'] rest)
  | '>' => token (sign ['=', '>'] rest)
  | '|' => token (sign ['|'] rest)
  | '!' => if rest.head? = some '=' then (some .sign, 1) else (some .unreadable, 0)
  | '(' | ')' | ';' | '+' | '*' | '%' | ',' | '&' | '~' => (some .sign, 0)
  | '\'' => closed '\'' .text
  | '"' => closed '"' .quoted
  | '\x60' => closed '\x60' .quoted
  | '[' =>
    let inner := count (· ≠ ']') rest
    if inner = rest.length then (some .unreadable, inner) else (some .quoted, inner + 1)
  | '.' =>
    if rest.head?.any Char.isDigit then
      let length := number ('.' :: rest)
      (some length.1, length.2 - 1)
    else (some .sign, 0)
  | '?' => (some .sign, count Char.isDigit rest)
  | '$' | '@' | '#' | ':' =>
    let place := parameter false rest
    (some (if place.1 then .sign else .unreadable), place.2)
  -- A mark of byte order is taken for a blank.
  | '\ufeff' => (none, 0)
  | c =>
    if startsBlank c then (none, count isBlank rest)
    else if c.isDigit then
      let length := number (c :: rest)
      (some length.1, length.2 - 1)
    else
      match c, rest with
      -- A word with an apostrophe behind it is a row of bytes, if the word is this letter.
      | 'x', '\'' :: more | 'X', '\'' :: more =>
        let part := bytes more
        (some part.1, part.2 + 1)
      | c, rest => if startsWord c then token (word rest) else (some .unreadable, 0)

/-- The tokens of a text. -/
def scan : List Char → List Token
  | [] => []
  | first :: rest =>
    let part := cut first rest
    let behind := rest.drop part.2
    match part.1 with
    | none => scan behind
    | some kind => ⟨kind, String.ofList (first :: rest.take part.2), behind⟩ :: scan behind
termination_by text => text.length
decreasing_by
  all_goals
    simp only [List.length_drop, List.length_cons]
    omega

/-- Nothing but blanks and remarks. It is what may stand behind the end of a statement. -/
def isIdle : List Char → Bool
  | [] => true
  | '-' :: '-' :: rest => isIdle (rest.dropWhile (· ≠ '\n'))
  | '/' :: '*' :: rest => isIdle (rest.drop (remark rest))
  | c :: rest => startsBlank c && isIdle rest
termination_by text => text.length
decreasing_by
  · have := (List.dropWhile_sublist (fun c => decide (c ≠ '\n')) (l := rest)).length_le
    simp only [List.length_cons]
    omega
  · simp only [List.length_drop, List.length_cons]
    omega
  · simp only [List.length_cons]
    omega

/-! ### Names -/

/-- Keywords that are no names. -/
def reserved : List String :=
  ["ADD", "ALL", "ALTER", "AND", "AS", "AUTOINCREMENT", "BETWEEN", "CASE", "CHECK", "COLLATE",
    "COMMIT", "CONSTRAINT", "CREATE", "DEFAULT", "DEFERRABLE", "DELETE", "DISTINCT", "DROP", "ELSE",
    "ESCAPE", "EXCEPT", "EXISTS", "FOREIGN", "FROM", "GROUP", "HAVING", "IN", "INDEX", "INSERT",
    "INTERSECT", "INTO", "IS", "ISNULL", "JOIN", "LIMIT", "NOT", "NOTHING", "NOTNULL", "NULL", "ON",
    "OR", "ORDER", "PRIMARY", "REFERENCES", "RETURNING", "SELECT", "SET", "TABLE", "THEN", "TO",
    "TRANSACTION", "UNION", "UNIQUE", "UPDATE", "USING", "VALUES", "WHEN", "WHERE"]

/-- Keywords in front of a join. -/
def joining : List String := ["CROSS", "FULL", "INNER", "LEFT", "NATURAL", "OUTER", "RIGHT"]

/-- A name without its quotation marks; a doubled mark stands for itself. -/
def unquote (mark : Char) : List Char → List Char
  | [] => []
  | [c] => if c = mark then [] else [c]
  | c :: d :: rest =>
    if c = mark then if d = mark then mark :: unquote mark rest else []
    else c :: unquote mark (d :: rest)

/-- The token is a keyword, in small or in capital letters. -/
def isWord (keyword : String) (token : Token) : Bool :=
  token.kind = .word && token.written.toUpper = keyword

/-- The token is a keyword in front of a join. -/
def isJoining (token : Token) : Bool :=
  token.kind = .word && joining.contains token.written.toUpper

/-- The name that a token stands for, if it can be one. Texts in apostrophes pass as names as well,
and keywords pass unless they are reserved. -/
def name? (token : Token) : Option String :=
  match token.kind, token.written.toList with
  | .word, _ => if reserved.contains token.written.toUpper then none else some token.written
  | .quoted, '[' :: rest => some (String.ofList (rest.takeWhile (· ≠ ']')))
  | .quoted, mark :: rest | .text, mark :: rest => some (String.ofList (unquote mark rest))
  | _, _ => none

/-- The token is written so. -/
def isSign (written : String) (token : Token) : Bool :=
  token.kind = .sign && token.written = written

/-! ### Interface lemmas -/

@[simp] theorem scan_nil : scan [] = [] := by simp [scan]

@[simp] theorem isIdle_nil : isIdle [] = true := by simp [isIdle]

/-- A blank in front of a text means nothing to what is idle. -/
@[simp] theorem isIdle_cons_blank (text : List Char) : isIdle (' ' :: text) = isIdle text := by
  simp [isIdle, startsBlank]

end Token

end Rollout
