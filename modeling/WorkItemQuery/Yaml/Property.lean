/-
What stands before a YAML node or a document, and says something about it: names, tags and directives.
-/
import WorkItemQuery.Yaml.Cursor
import WorkItemQuery.Yaml.Token

namespace WorkItemQuery.Yaml

/-! ## Names -/

/-- A letter, a digit, a dash or a low line. -/
def isWordChar (c : Char) : Bool := c.isAlphanum || c == '_' || c == '-'

/-- Whether a name may end here. -/
def nameEnds : List Char → Bool
  | [] => true
  | c :: _ =>
    isGapChar c || c == '?' || c == ':' || c == ',' || c == ']' || c == '\x7d' || c == '%' || c == '@'
      || c.toNat == 0x60

/-- The name that begins at a place. -/
def name? (c : Cursor) : Option (String × Cursor) :=
  let name := c.rest.takeWhile isWordChar
  let after := c.skip name.length
  if !name.isEmpty && nameEnds after.rest then some (String.ofList name, after) else none

/-! ## Tags -/

def hexDigit? (c : Char) : Option Nat :=
  if '0' ≤ c && c ≤ '9' then some (c.toNat - '0'.toNat)
  else if 'a' ≤ c && c ≤ 'f' then some (c.toNat - 'a'.toNat + 10)
  else if 'A' ≤ c && c ≤ 'F' then some (c.toNat - 'A'.toNat + 10)
  else none

/-- Whether a character may stand in a tag; a verbatim tag may also hold brackets and commas. -/
def isTagChar (verbatim : Bool) (c : Char) : Bool :=
  isWordChar c || ";/?:@&=+$.!~*'()".toList.contains c || verbatim && ",[]".toList.contains c

/-- The bytes of the part of a tag that begins here, and the number of characters in it. A percent sign
and two hexadecimal digits stand for one byte. -/
def tagBytes (verbatim : Bool) : List Char → Option (List UInt8 × Nat)
  | '%' :: a :: b :: rest => do
    let byte := 16 * (← hexDigit? a) + (← hexDigit? b)
    let (bytes, n) ← tagBytes verbatim rest
    return (byte.toUInt8 :: bytes, n + 3)
  | '%' :: _ => none
  | c :: rest =>
    if isTagChar verbatim c then do
      let (bytes, n) ← tagBytes verbatim rest
      return (c.toNat.toUInt8 :: bytes, n + 1)
    else some ([], 0)
  | [] => some ([], 0)

/-- The part of a tag that begins at a place, maybe nothing. -/
def tagText? (verbatim : Bool) (c : Cursor) : Option (String × Cursor) := do
  let (bytes, n) ← tagBytes verbatim c.rest
  return (← String.fromUTF8? ⟨bytes.toArray⟩, c.skip n)

/-- The same, but not nothing. -/
def someTagText? (verbatim : Bool) (c : Cursor) : Option (String × Cursor) := do
  let (text, after) ← tagText? verbatim c
  if text.isEmpty then none else some (text, after)

/-- The word after the exclamation mark at a place, and the place after it. -/
def tagWord (c : Cursor) : List Char × Cursor :=
  let word := c.next.rest.takeWhile isWordChar
  (word, c.next.skip word.length)

/-- A tag without what must follow it: verbatim between angles, with a handle between exclamation
marks, or after a single exclamation mark, which may also stand alone. -/
def openTag? (c : Cursor) : Option (Token × Cursor) := do
  if c.next.rest.head? = some '<' then
    let (suffix, after) ← someTagText? true (c.skip 2)
    if after.rest.head? = some '>' then return (.tag "" suffix, after.next) else none
  else
    let (word, after) := tagWord c
    if after.rest.head? = some '!' then
      let (suffix, after) ← someTagText? false after.next
      return (.tag ("!" ++ String.ofList word ++ "!") suffix, after)
    else
      let (more, after) ← tagText? false after
      match String.ofList word ++ more with
      | "" => return (.tag "" "!", after)
      | suffix => return (.tag "!" suffix, after)

/-- The tag that begins at a place. A gap must follow it, or a comma inside brackets. -/
def tag? (inBrackets : Bool) (c : Cursor) : Option (Token × Cursor) := do
  let (tag, after) ← openTag? c
  if gapFollows after.rest || inBrackets && after.rest.head? = some ',' then return (tag, after) else none

/-! ## Directives -/

/-- A number of at most nine digits. -/
def versionPart? (c : Cursor) : Option (Nat × Cursor) :=
  let digits := c.rest.takeWhile Char.isDigit
  if digits.isEmpty || 9 < digits.length then none
  else some (digits.foldl (fun n d => 10 * n + (d.toNat - '0'.toNat)) 0, c.skip digits.length)

/-- The version after its directive's name. -/
def version? (c : Cursor) : Option (Token × Cursor) := do
  let (major, after) ← versionPart? (c.skipWhile isSpace)
  if after.rest.head? = some '.' then
    let (minor, after) ← versionPart? after.next
    return (.version major minor, after)
  else none

/-- The handle of a shorthand: exclamation marks, with a word between them if they are two. -/
def handle? (c : Cursor) : Option (String × Cursor) :=
  if c.rest.head? = some '!' then
    let (word, after) := tagWord c
    if after.rest.head? = some '!' then some ("!" ++ String.ofList word ++ "!", after.next)
    else if word.isEmpty then some ("!", after)
    else none
  else none

/-- The shorthand after its directive's name. -/
def shorthand? (c : Cursor) : Option (Token × Cursor) := do
  let (handle, after) ← handle? (c.skipWhile isSpace)
  if (after.rest.head?.map isSpace).getD false then
    let (start, after) ← someTagText? true (after.skipWhile isSpace)
    if gapFollows after.rest then return (.shorthand handle start, after) else none
  else none

/-- The directive that begins at a place, with the rest of its line. -/
def directive? (c : Cursor) : Option (Token × Cursor) := do
  let word := c.next.rest.takeWhile isWordChar
  let after := c.next.skip word.length
  if !gapFollows after.rest then none
  let (token, after) ← match String.ofList word with
    | "YAML" => version? after
    | "TAG" => shorthand? after
    | _ => none
  return (token, (← after.lineEnd?).next)

end WorkItemQuery.Yaml
