/-
YAML scalars: plain, between single or double quotes, and in blocks. Over line breaks the first two
are folded: one line break is read as a space, each further one as a line break, and blanks around
them are dropped. A break that is a separator of its own stays.
-/
import WorkItemQuery.Yaml.Property

namespace WorkItemQuery.Yaml

/-! ## Folding -/

/-- The text of a gap inside a scalar. -/
def foldGap (gap : List Char) : List Char :=
  match gap.filter isBreak with
  | [] => gap
  | ['\n'] => [' ']
  | '\n' :: more => more
  | breaks => breaks

/-- The text of a gap after a line break that was written not to count. -/
def foldContinued (gap : List Char) : List Char := gap.filter isBreak

/-! ## Plain scalars -/

/-- Characters that have a meaning inside brackets. -/
def isBracketChar (c : Char) : Bool := c == ',' || c == '[' || c == ']' || c == '\x7b' || c == '\x7d'

/-- Characters that cannot begin a plain scalar, whatever follows. -/
def isIndicator (c : Char) : Bool :=
  isBracketChar c || c == '#' || c == '&' || c == '*' || c == '!' || c == '|' || c == '>' || c == '\''
    || c == '"' || c == '%' || c == '@' || c.toNat == 0x60

/-- Whether a plain scalar begins here. -/
def beginsPlain (inBrackets : Bool) : List Char → Bool
  | [] => false
  | '-' :: rest => !gapFollows rest
  | '?' :: rest => !inBrackets && !gapFollows rest
  | ':' :: rest => !inBrackets && !gapFollows rest
  | c :: _ => !isGapChar c && !isIndicator c

/-- Whether a colon is followed by a character that has a meaning inside brackets. -/
def bracketFollows : List Char → Bool
  | [] => false
  | c :: _ => isBracketChar c || c == '?'

/-- Reads on in a plain scalar: its text, the number of characters up to what follows the gap behind
it, and whether there is a line break in that gap. `gap` is the gap just passed, and `column` the place
of the next character. Lines of the scalar start at column `floor` or later. -/
def plainChars (inBrackets : Bool) (floor : Nat) (gap : List Char) (column : Nat) :
    List Char → Option (List Char × Nat × Bool)
  | [] => some ([], 0, gap.any isBreak)
  | c :: rest =>
    if isBreak c then do
      let (text, n, broken) ← plainChars inBrackets floor (gap ++ [c]) 0 rest
      return (text, n + 1, broken)
    else if isSpace c then do
      if c = '\t' && gap.any isBreak && column < floor then none
      else
        let (text, n, broken) ← plainChars inBrackets floor (gap ++ [c]) (column + 1) rest
        return (text, n + 1, broken)
    else if !gap.isEmpty && (c = '#' || !inBrackets && column < floor || column = 0 && isMarker (c :: rest)) then
      some ([], 0, gap.any isBreak)
    else if c = ':' && gapFollows rest then some ([], 0, gap.any isBreak)
    else if c = ':' && inBrackets && bracketFollows rest then none
    else if inBrackets && isBracketChar c then some ([], 0, gap.any isBreak)
    else do
      let (text, n, broken) ← plainChars inBrackets floor [] (column + 1) rest
      return (foldGap gap ++ c :: text, n + 1, broken)

/-! ## Quoted scalars -/

/-- The character that a backslash and this character stand for. -/
def escape? : Char → Option Char
  | '0' => some (Char.ofNat 0)
  | 'a' => some (Char.ofNat 7)
  | 'b' => some (Char.ofNat 8)
  | 't' => some '\t'
  | '\t' => some '\t'
  | 'n' => some '\n'
  | 'v' => some (Char.ofNat 11)
  | 'f' => some (Char.ofNat 12)
  | 'r' => some '\r'
  | 'e' => some (Char.ofNat 27)
  | ' ' => some ' '
  | '"' => some '"'
  | '/' => some '/'
  | '\\' => some '\\'
  | 'N' => some (Char.ofNat 0x85)
  | '_' => some (Char.ofNat 0xa0)
  | 'L' => some (Char.ofNat 0x2028)
  | 'P' => some (Char.ofNat 0x2029)
  | _ => none

/-- The number of hexadecimal digits after a backslash and this character. -/
def codeWidth? : Char → Option Nat
  | 'x' => some 2
  | 'u' => some 4
  | 'U' => some 8
  | _ => none

/-- The character with the given code in hexadecimal digits. -/
def codeChar? (digits : List Char) : Option Char := do
  let code := (← digits.mapM hexDigit?).foldl (fun n d => 16 * n + d) 0
  if code.isValidChar then some (Char.ofNat code) else none

/-- Reads on between single quotes, after the given gap: the text, and the number of characters up to
the place after the quote. -/
def singleChars (gap : List Char) : List Char → Option (List Char × Nat)
  | [] => none
  | '\'' :: '\'' :: rest => do
    let (text, n) ← singleChars [] rest
    return (foldGap gap ++ '\'' :: text, n + 2)
  | '\'' :: _ => some (foldGap gap, 1)
  | c :: rest => do
    if isGapChar c then
      let (text, n) ← singleChars (gap ++ [c]) rest
      return (text, n + 1)
    else
      let (text, n) ← singleChars [] rest
      return (foldGap gap ++ c :: text, n + 1)

/-- What comes right before a place between double quotes. -/
inductive Before where
  /-- A gap, maybe an empty one. -/
  | gap (chars : List Char)
  /-- A line break that does not count, and a gap after it. -/
  | continued (chars : List Char)
  /-- A backslash. -/
  | backslash
  /-- Hexadecimal digits of a code, of which some are still to come. -/
  | code (digits : List Char) (left : Nat)

namespace Before

/-- The text of the gap before a character that stands for itself. -/
def folded : Before → List Char
  | gap chars => foldGap chars
  | continued chars => foldContinued chars
  | _ => []

/-- The same place after one more character of the gap. -/
def widen (c : Char) : Before → Before
  | continued chars => continued (chars ++ [c])
  | gap chars => gap (chars ++ [c])
  | b => b

/-- What the next character gives: the text that is complete with it, and what comes before the
character after it. The outer `none` is for a character that cannot stand here, the inner one for the
closing quote. -/
def meet (c : Char) : Before → Option (List Char × Option Before)
  | backslash =>
    if isBreak c then some ([], some (continued []))
    else
      match codeWidth? c with
      | some width => some ([], some (code [] width))
      | none => (escape? c).map fun meant => ([meant], some (gap []))
  | code digits left =>
    if left ≤ 1 then (codeChar? (digits ++ [c])).map fun meant => ([meant], some (gap []))
    else some ([], some (code (digits ++ [c]) (left - 1)))
  | b =>
    if isGapChar c then some ([], some (b.widen c))
    else if c = '"' then some (b.folded, none)
    else if c = '\\' then some (b.folded, some backslash)
    else some (b.folded ++ [c], some (gap []))

end Before

/-- Reads on between double quotes: the text, and the number of characters up to the place after the
quote. -/
def doubleChars (before : Before) : List Char → Option (List Char × Nat)
  | [] => none
  | c :: rest => do
    match ← before.meet c with
    | (text, none) => return (text, 1)
    | (text, some before) =>
      let (more, n) ← doubleChars before rest
      return (text ++ more, n + 1)

/-- Whether a marker stands at the start of a line. -/
def holdsMarker : List Char → Bool
  | [] => false
  | c :: rest => isBreak c && isMarker rest || holdsMarker rest

/-- The quoted scalar that begins at a place. No marker of documents may stand in it. -/
def quoted? (c : Cursor) : Option (String × Cursor) := do
  let inside := c.next
  let (text, n) ←
    if c.rest.head? = some '"' then doubleChars (.gap []) inside.rest else singleChars [] inside.rest
  if holdsMarker (inside.rest.take n) then none else some (String.ofList text, inside.skip n)

/-! ## Block scalars -/

/-- What becomes of the line breaks at the end of a block. -/
inductive Chomping where
  | strip
  | clip
  | keep

/-- The line of a block after its indicator: a sign for the breaks at the end, and the number of columns
by which the block is indented, in either order. -/
def blockHeader? (cs : List Char) : Option (Chomping × Option Nat × Nat) :=
  let chomping? (c : Char) : Option Chomping :=
    if c = '+' then some .keep else if c = '-' then some .strip else none
  let depth? (c : Char) : Option Nat := if c.isDigit then some (c.toNat - '0'.toNat) else none
  let read : Chomping × Option Nat × Nat :=
    match cs with
    | [] => (.clip, none, 0)
    | a :: rest =>
      let b := rest.head?
      match chomping? a, depth? a with
      | some chomping, _ =>
        match b.bind depth? with
        | some depth => (chomping, some depth, 2)
        | none => (chomping, none, 1)
      | none, some depth =>
        match b.bind chomping? with
        | some chomping => (chomping, some depth, 2)
        | none => (.clip, some depth, 1)
      | none, none => (.clip, none, 0)
  if read.2.1 = some 0 then none else some read

/-- Empty lines of a block and the indentation after them, up to `indent` columns if they are known.
Gives the line breaks, the number of characters, the column reached and the greatest column on the way.
A tab cannot stand in the indentation. -/
def emptyLines (indent : Option Nat) (column greatest : Nat) : List Char → Option (List Char × Nat × Nat × Nat)
  | [] => some ([], 0, column, greatest)
  | c :: rest =>
    let inIndent := indent.all (column < ·)
    if c = ' ' && inIndent then do
      let (breaks, n, last) ← emptyLines indent (column + 1) (max greatest (column + 1)) rest
      return (breaks, n + 1, last)
    else if c = '\t' && inIndent then none
    else if isBreak c then do
      let (breaks, n, last) ← emptyLines indent 0 greatest rest
      return (c :: breaks, n + 1, last)
    else some ([], 0, column, greatest)

/-- The break between two lines of a block, with the breaks of empty lines after it. In a folded block
it is a space, or nothing before empty lines, unless one of the lines begins with a blank. -/
def joinLines (folded : Bool) (lineBreak empties : List Char) (blankLine : Bool) : List Char :=
  if folded && lineBreak == ['\n'] && !blankLine then
    if empties.isEmpty then [' '] else empties
  else lineBreak ++ empties

/-- The lines of a block that are indented by `indent`, from the column `column`, after the given break
and empty lines. Gives the text, the break and the empty lines after it, and the number of characters. -/
def blockLines (folded : Bool) (indent : Nat) (lineBreak empties : List Char) (wasBlank : Bool) (column : Nat) :
    (fuel : Nat) → List Char → Option (List Char × List Char × List Char × Nat)
  | 0, _ => none
  | _, [] => some ([], lineBreak, empties, 0)
  | fuel + 1, c :: rest =>
    if column = indent then do
      let isBlank := isSpace c
      let line := (c :: rest).takeWhile (!isBreak ·)
      let after := (c :: rest).drop line.length
      let (breaks, n, last, _) ← emptyLines (some indent) 0 0 (after.drop 1)
      let (text, lastBreak, lastEmpties, more) ←
        blockLines folded indent (after.take 1) breaks isBlank last fuel (after.drop (1 + n))
      return (joinLines folded lineBreak empties (wasBlank || isBlank) ++ line ++ text, lastBreak, lastEmpties,
        line.length + (after.take 1).length + n + more)
    else some ([], lineBreak, empties, 0)

/-- The block scalar that begins at a place. `floor` is the least column at which it may stand, that is,
one more than the indentation of the block around it, if there is one. -/
def blockScalar? (floor : Nat) (c : Cursor) : Option (String × Cursor) := do
  let (chomping, depth, n) ← blockHeader? c.next.rest
  let start := (← (c.next.skip n).lineEnd?).next
  let known := depth.map fun d => if floor = 0 then d else floor - 1 + d
  let (empties, n, column, greatest) ← emptyLines known 0 0 start.rest
  let indent := known.getD (max greatest (max floor 1))
  let lines := start.rest.drop n
  let (text, lastBreak, lastEmpties, more) ←
    blockLines (c.rest.head? = some '>') indent [] empties false column (lines.length + 1) lines
  let tail := match chomping with
    | .strip => []
    | .clip => lastBreak
    | .keep => lastBreak ++ lastEmpties
  return (String.ofList (text ++ tail), start.skip (n + more))

end WorkItemQuery.Yaml
