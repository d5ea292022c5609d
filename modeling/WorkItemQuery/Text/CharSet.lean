/-
Sets of characters given by ranges of code points, and the set of blank characters.
-/

namespace WorkItemQuery.Text

/-- A set of characters: the code points of some closed ranges. -/
structure CharSet where
  ranges : List (Nat × Nat)

namespace CharSet

/-- Whether `c` lies in one of the ranges. -/
def contains (s : CharSet) (c : Char) : Bool :=
  s.ranges.any fun r => r.1 ≤ c.toNat && c.toNat ≤ r.2

end CharSet

/-- The characters with the Unicode property White_Space. -/
def blanks : CharSet where
  ranges :=
    [(0x9, 0xd), (0x20, 0x20), (0x85, 0x85), (0xa0, 0xa0), (0x1680, 0x1680), (0x2000, 0x200a),
     (0x2028, 0x2029), (0x202f, 0x202f), (0x205f, 0x205f), (0x3000, 0x3000)]

/-- A blank character is white space in the sense of Unicode, the line breaks among it. -/
def isBlank (c : Char) : Bool := blanks.contains c

/-- A blank line holds blank characters only. -/
def isBlankLine (line : List Char) : Bool := line.all isBlank

end WorkItemQuery.Text
