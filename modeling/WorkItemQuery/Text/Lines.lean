/-
The lines of a text, and places in it by line and column. A line ends at a line feed, and a carriage
return right before the line feed belongs to the line break; any other carriage return is a
character of its line.
-/

namespace WorkItemQuery.Text

/-- The lines of a text without their line breaks. A break at the very end starts no further line. -/
def lines : List Char → List (List Char)
  | [] => []
  | '\n' :: rest => [] :: lines rest
  | '\r' :: '\n' :: rest => [] :: lines rest
  | c :: rest =>
    match lines rest with
    | [] => [[c]]
    | line :: more => (c :: line) :: more

/-- A place in a text; lines and columns count from one, columns in characters. -/
structure Place where
  line : Nat
  column : Nat
deriving DecidableEq, Repr

namespace Place

/-- The first place of every text. -/
def start : Place := ⟨1, 1⟩

/-- The place reached from `p` by passing over the given characters. -/
def advance : Place → List Char → Place
  | p, [] => p
  | p, '\n' :: rest => advance ⟨p.line + 1, 1⟩ rest
  | p, '\r' :: '\n' :: rest => advance ⟨p.line + 1, 1⟩ rest
  | p, _ :: rest => advance ⟨p.line, p.column + 1⟩ rest

end Place

end WorkItemQuery.Text
