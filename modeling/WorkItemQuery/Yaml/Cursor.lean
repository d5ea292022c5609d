/-
Places in a YAML text, and the classes of its characters.
-/

namespace WorkItemQuery.Yaml

/-! ## Characters -/

/-- The characters that a text may hold. -/
def isPrintable (c : Char) : Bool :=
  c == '\t' || c == '\n' || c == '\r' || 0x20 ≤ c.toNat && c.toNat ≤ 0x7e || c.toNat == 0x85
    || 0xa0 ≤ c.toNat && c.toNat ≤ 0xfffd || 0x10000 ≤ c.toNat

/-- Every line break as a line feed, but for the separators of lines and of paragraphs, which stay what
they are. -/
def unifyBreaks : List Char → List Char
  | [] => []
  | '\r' :: '\n' :: rest => '\n' :: unifyBreaks rest
  | '\r' :: rest => '\n' :: unifyBreaks rest
  | c :: rest => (if c.toNat = 0x85 then '\n' else c) :: unifyBreaks rest

/-- A line break, when breaks are unified. -/
def isBreak (c : Char) : Bool := c == '\n' || c.toNat == 0x2028 || c.toNat == 0x2029

/-- A space or a tab. -/
def isSpace (c : Char) : Bool := c == ' ' || c == '\t'

/-- A space, a tab or a line break. -/
def isGapChar (c : Char) : Bool := isSpace c || isBreak c

/-- Whether a gap follows; the end of the text counts as one. -/
def gapFollows : List Char → Bool
  | [] => true
  | c :: _ => isGapChar c

/-- Whether the line ends here. -/
def lineEnds : List Char → Bool
  | [] => true
  | c :: _ => isBreak c

/-- Whether a line that starts here marks the start or the end of a document. -/
def isMarker : List Char → Bool
  | '-' :: '-' :: '-' :: rest => gapFollows rest
  | '.' :: '.' :: '.' :: rest => gapFollows rest
  | _ => false

/-! ## Places -/

/-- A place in a text. -/
structure Cursor where
  rest : List Char
  /-- The column, from zero. -/
  column : Nat := 0
  /-- The number of lines before. -/
  line : Nat := 0
  /-- The number of bytes before. -/
  offset : Nat := 0

namespace Cursor

/-- The place after the next character. -/
def next (c : Cursor) : Cursor :=
  match c.rest with
  | [] => c
  | x :: rest =>
    if isBreak x then ⟨rest, 0, c.line + 1, c.offset + x.utf8Size⟩
    else ⟨rest, c.column + 1, c.line, c.offset + x.utf8Size⟩

/-- The place after so many characters. -/
def skip (c : Cursor) : Nat → Cursor
  | 0 => c
  | n + 1 => c.next.skip n

/-- The place after the characters that follow and satisfy `p`. -/
def skipWhile (p : Char → Bool) (c : Cursor) : Cursor := c.skip (c.rest.takeWhile p).length

/-- The place at the end of the line, or at a comment's end, if nothing but a comment follows. -/
def lineEnd? (c : Cursor) : Option Cursor :=
  let c := c.skipWhile isSpace
  let c := if c.rest.head? = some '#' then c.skipWhile (!isBreak ·) else c
  if lineEnds c.rest then some c else none

end Cursor

end WorkItemQuery.Yaml
