/-
The smallest pieces of pipeline text: blanks and comments between the pieces, words, names, numbers
and keys. Words are recognised in any letter case; a word is also a legal name.
-/
import WorkItemQuery.Text.Scan

namespace WorkItemQuery.Pipeline

open WorkItemQuery.Text

/-- The blanks between pieces. -/
def isSpace (c : Char) : Bool := c == ' ' || c == '\t' || c == '\r' || c == '\n'

/-- The letters of the alphabet, small and capital. -/
def isLetter (c : Char) : Bool := ('a' ≤ c && c ≤ 'z') || ('A' ≤ c && c ≤ 'Z')

/-- The characters that a word must not be followed by. -/
def isNameChar (c : Char) : Bool := isLetter c || Scan.isDigit c || c == '_'

/-- Passes over blanks and over comments, which run from two hyphens to the end of the line. The flag
says that the text starts inside a comment. -/
def skipGap : Bool → List Char → List Char
  | _, [] => []
  | true, c :: rest => if c = '\n' then skipGap false rest else skipGap true rest
  | false, '-' :: '-' :: rest => skipGap true rest
  | false, c :: rest => if isSpace c then skipGap false rest else c :: rest

/-- The letters of a word at the front of the text, in any case; gives what follows them. -/
def readLetters : List Char → List Char → Option (List Char)
  | [], cs => some cs
  | _ :: _, [] => none
  | w :: ws, c :: cs => if c.toLower = w then readLetters ws cs else none

/-- Whether a word may end before this text. -/
def endsWord : List Char → Bool
  | [] => true
  | c :: _ => !isNameChar c

/-- A word at the front of the text, given in small letters. -/
def readWord (w : List Char) (cs : List Char) : Option (Unit × List Char) :=
  match readLetters w cs with
  | some rest => if endsWord rest then some ((), rest) else none
  | none => none

/-- Several words with blanks between them. -/
def readWords : List (List Char) → List Char → Option (Unit × List Char)
  | [], cs => some ((), cs)
  | [w], cs => readWord w cs
  | w :: ws, cs =>
    match readLetters w cs with
    | some rest =>
      match rest with
      | c :: _ => if isSpace c then readWords ws (rest.dropWhile isSpace) else none
      | [] => none
    | none => none

/-- Whether a character may stand inside a name. -/
def isInName (c : Char) : Bool := isNameChar c || c == '.'

/-- A name: a letter or underscore, then letters, digits, underscores and points. -/
def readName : List Char → Option (String × List Char)
  | c :: cs =>
    if isLetter c || c == '_' then
      some (String.ofList (c :: cs.takeWhile isInName), cs.dropWhile isInName)
    else none
  | [] => none

/-- A key between brackets: at least one character other than the closing bracket. -/
def readKey (cs : List Char) : Option (String × List Char) :=
  match cs.takeWhile (· != ']') with
  | [] => none
  | key => some (String.ofList key, cs.dropWhile (· != ']'))

/-- The text of a number: an optional minus, digits, and digits after a point if there are any. -/
structure NumberText where
  negative : Bool
  whole : List Char
  fraction : List Char
deriving DecidableEq, Repr

/-- The digits after a point, none if the text does not go on with a point and a digit. -/
def readFraction : List Char → List Char × List Char
  | '.' :: rest =>
    match rest.takeWhile Scan.isDigit with
    | [] => ([], '.' :: rest)
    | ds => (ds, rest.dropWhile Scan.isDigit)
  | cs => ([], cs)

/-- A number without its sign. -/
def readUnsigned (negative : Bool) (cs : List Char) : Option (NumberText × List Char) :=
  match cs.takeWhile Scan.isDigit with
  | [] => none
  | whole =>
    let (fraction, rest) := readFraction (cs.dropWhile Scan.isDigit)
    some (⟨negative, whole, fraction⟩, rest)

/-- A number. -/
def readNumber : List Char → Option (NumberText × List Char)
  | '-' :: rest => readUnsigned true rest
  | cs => readUnsigned false cs

namespace NumberText

/-- The number as it was written. -/
def chars (n : NumberText) : List Char :=
  (if n.negative then ['-'] else []) ++ n.whole ++
    (if n.fraction.isEmpty then [] else '.' :: n.fraction)

def text (n : NumberText) : String := String.ofList n.chars

end NumberText

end WorkItemQuery.Pipeline
