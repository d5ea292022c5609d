/-
Scanning a text from its start: a scan takes characters off the front, or fails. Quoted text stands between apostrophes,
and an apostrophe of the text is written twice; the same form is read in pipelines and written in statements.
-/

namespace WorkItemQuery.Text

/-- A scan reads a value off the front of the characters left, or fails. -/
abbrev Scan (α : Type) := StateT (List Char) Option α

namespace Scan

/-- Whether a character is one of the ten digits. -/
def isDigit (c : Char) : Bool := '0' ≤ c && c ≤ '9'

/-- The next character, if it satisfies `p`. -/
def satisfy (p : Char → Bool) : Scan Char
  | c :: rest => if p c then some (c, rest) else none
  | [] => none

/-- The given character. -/
def char (c : Char) : Scan Unit := do
  let _ ← satisfy (· == c)

/-- The longest run of characters that satisfy `p`, maybe none. -/
def takeWhile (p : Char → Bool) : Scan (List Char) := fun cs =>
  some (cs.takeWhile p, cs.dropWhile p)

/-- At least one digit, and all that follow. -/
def digits : Scan (List Char) := fun cs =>
  match cs.takeWhile isDigit with
  | [] => none
  | ds => some (ds, cs.dropWhile isDigit)

/-- At least `low` and at most `high` digits, as many as there are. -/
def digitsWithin (low high : Nat) : Scan (List Char) := fun cs =>
  let ds := (cs.take high).takeWhile isDigit
  if low ≤ ds.length then some (ds, cs.drop ds.length) else none

/-- The next character without taking it. -/
def peek : Scan (Option Char) := fun cs => some (cs.head?, cs)

/-- The end of the text. -/
def finish : Scan Unit
  | [] => some ((), [])
  | _ :: _ => none

/-- Reads a whole text. -/
def whole {α : Type} (p : Scan α) (s : String) : Option α := do
  let (a, rest) ← p.run s.toList
  if rest.isEmpty then some a else none

end Scan

/-! ## Quoted text -/

/-- The inside of a quoted text: every apostrophe is written twice. -/
def double : List Char → List Char
  | [] => []
  | c :: rest => if c = '\'' then '\'' :: '\'' :: double rest else c :: double rest

/-- The quoted form of a text, apostrophes around it included. -/
def quoteChars (cs : List Char) : List Char :=
  '\'' :: double cs ++ ['\'']

/-- The quoted form of a text. -/
def quote (s : String) : String := String.ofList (quoteChars s.toList)

/-- Reads on inside a quoted text: the text up to the closing apostrophe, and what follows it. -/
def readQuotedInside : List Char → Option (List Char × List Char)
  | [] => none
  | '\'' :: '\'' :: rest => (readQuotedInside rest).map fun r => ('\'' :: r.1, r.2)
  | '\'' :: rest => some ([], rest)
  | c :: rest => (readQuotedInside rest).map fun r => (c :: r.1, r.2)

/-- Reads a quoted text: the text meant, and what follows it. -/
def readQuoted : List Char → Option (String × List Char)
  | '\'' :: rest => (readQuotedInside rest).map fun r => (String.ofList r.1, r.2)
  | _ => none

end WorkItemQuery.Text
