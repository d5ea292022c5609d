/-
From a YAML text to its tokens. Whether a part of the text is a key shows only at the colon behind it,
so the place of a possible key is kept until then, and the token that stands before a key is put in
where the key began. Blocks open where an entry stands further right than the block around it, and
close where the text goes back to the left; inside brackets indentation has no meaning.
-/
import WorkItemQuery.Yaml.Scalar

namespace WorkItemQuery.Yaml

/-- The place of what may turn out to be a key. -/
structure PendingKey where
  column : Nat
  line : Nat
  offset : Nat
  /-- The number of tokens before it. -/
  before : Nat
  /-- Whether it must be a key: it stands where the block around it has its entries. -/
  required : Bool

/-- The greatest number of bytes from the start of a key to the colon behind it. -/
def keyLimit : Nat := 1024

/-- A key ends on its line, and not too far away. -/
def PendingKey.isStale (k : PendingKey) (c : Cursor) : Bool := k.line < c.line || k.offset + keyLimit < c.offset

/-- What is known at a place of the text about what came before it. -/
structure Layout where
  cursor : Cursor
  /-- The tokens so far, the last one first. -/
  tokens : List Token := []
  /-- The columns of the open blocks, the innermost first. -/
  indents : List Nat := []
  /-- The possible key at this level of brackets. -/
  pending : Option PendingKey := none
  /-- Those at the levels around it; there are as many as open brackets. -/
  outer : List (Option PendingKey) := []
  /-- Whether a key, or an entry of a block, may begin here. -/
  keyAllowed : Bool := true

namespace Layout

def inBrackets (s : Layout) : Bool := !s.outer.isEmpty

/-- The least column of what belongs to the innermost block, its entries aside. -/
def floor (s : Layout) : Nat :=
  match s.indents with
  | [] => 0
  | column :: _ => column + 1

/-- Adds a token that reaches to the given place. -/
def push (s : Layout) (t : Token) (after : Cursor) : Layout := { s with tokens := t :: s.tokens, cursor := after }

/-- Puts in a token so that `before` tokens come before it. -/
def insert (s : Layout) (before : Nat) (t : Token) : Layout :=
  { s with tokens := s.tokens.insertIdx (s.tokens.length - before) t }

/-- Allows keys from here on, or not. -/
def allowKey (s : Layout) (allowed : Bool) : Layout := { s with keyAllowed := allowed }

/-! ## Blocks -/

/-- Opens a block at a column, unless one is open there or brackets are. -/
def openBlock (s : Layout) (column before : Nat) (t : Token) : Layout :=
  if s.inBrackets || column < s.floor then s
  else { s.insert before t with indents := column :: s.indents }

/-- Closes blocks from the innermost, as long as `p` holds of their columns. -/
def closeBlocks (s : Layout) (p : Nat → Bool) : Layout :=
  if s.inBrackets then s
  else { s with
    tokens := List.replicate (s.indents.takeWhile p).length .blockEnd ++ s.tokens
    indents := s.indents.dropWhile p }

/-- Closes all blocks. -/
def closeAll (s : Layout) : Layout := s.closeBlocks fun _ => true

/-! ## Keys -/

/-- Gives up the possible key at this level, unless it must be one. -/
def dropKey (s : Layout) : Option Layout :=
  if s.pending.any (·.required) then none else some { s with pending := none }

/-- Keeps this place as that of a possible key, if one may begin here. -/
def saveKey (s : Layout) : Option Layout := do
  if s.keyAllowed then
    let c := s.cursor
    let required := !s.inBrackets && s.indents.head? == some c.column
    return { ← s.dropKey with pending := some ⟨c.column, c.line, c.offset, s.tokens.length, required⟩ }
  else return s

/-- Gives up the keys that did not end in time. -/
def dropStaleKeys (s : Layout) : Option Layout :=
  let isStale (k : PendingKey) : Bool := k.isStale s.cursor
  if (s.pending :: s.outer).any (·.any fun k => isStale k && k.required) then none
  else some { s with
    pending := s.pending.filter (!isStale ·)
    outer := s.outer.map (·.filter (!isStale ·)) }

/-! ## Gaps -/

/-- The number of characters in a gap that begins at the given column, and whether a key may begin after
it. A comment goes from a number sign to the end of the line. Outside of brackets tabs do not belong to
a gap where a key may begin, and a key may begin after a line break. A mark of the byte order at the
start of a line is skipped, but has a column. -/
def gapLength (inBrackets inComment keyAllowed : Bool) (column : Nat) : List Char → Nat × Bool
  | [] => (0, keyAllowed)
  | c :: rest =>
    if isBreak c then
      let (n, allowed) := gapLength inBrackets false (keyAllowed || !inBrackets) 0 rest
      (n + 1, allowed)
    else if inComment || c = ' ' || c = '\t' && (inBrackets || !keyAllowed) || column = 0 && c.toNat = 0xfeff then
      let (n, allowed) := gapLength inBrackets inComment keyAllowed (column + 1) rest
      (n + 1, allowed)
    else if c = '#' then
      let (n, allowed) := gapLength inBrackets true keyAllowed (column + 1) rest
      (n + 1, allowed)
    else (0, keyAllowed)

/-- Skips a gap. -/
def skipGap (s : Layout) : Layout :=
  let (n, allowed) := gapLength s.inBrackets false s.keyAllowed s.cursor.column s.cursor.rest
  { s with cursor := s.cursor.skip n, keyAllowed := allowed }

/-! ## Tokens -/

/-- A marker of documents, or a directive: all blocks end before it. -/
def betweenDocuments (s : Layout) (t : Token) (after : Cursor) : Option Layout := do
  return ((← s.closeAll.dropKey).push t after).allowKey false

/-- An opening bracket, with which a key may begin. -/
def openBracket (s : Layout) (t : Token) : Option Layout := do
  let s ← s.saveKey
  return ({ s with pending := none, outer := s.pending :: s.outer }.push t s.cursor.next).allowKey true

/-- A closing bracket. -/
def closeBracket (s : Layout) (t : Token) : Option Layout := do
  let s ← s.dropKey
  let s := match s.outer with
    | [] => s
    | pending :: outer => { s with pending, outer }
  return (s.push t s.cursor.next).allowKey false

def comma (s : Layout) : Option Layout := do
  return ((← s.dropKey).push .comma s.cursor.next).allowKey true

/-- A dash before an item, or a question mark before a key. Outside of brackets it must stand where an
entry may begin, and opens a block of the given kind. -/
def entry (s : Layout) (block t : Token) : Option Layout := do
  if s.inBrackets || s.keyAllowed then
    let s ← (s.openBlock s.cursor.column s.tokens.length block).dropKey
    return s.push t s.cursor.next
  else none

/-- A colon before a value. If a possible key came before, it was one; otherwise the colon must stand
where an entry may begin, or inside brackets. -/
def colon (s : Layout) : Option Layout := do
  match s.pending with
  | some k =>
    let s := (s.insert k.before .key).openBlock k.column k.before .blockMapping
    return ({ s with pending := none }.push .value s.cursor.next).allowKey false
  | none =>
    if s.inBrackets || s.keyAllowed then
      let s := s.openBlock s.cursor.column s.tokens.length .blockMapping
      return (s.push .value s.cursor.next).allowKey (!s.inBrackets)
    else none

/-- Something with which a key may begin, but behind which none may. -/
def part (s : Layout) (read : Cursor → Option (Token × Cursor)) : Option Layout := do
  let (t, after) ← read s.cursor
  return ((← s.saveKey).push t after).allowKey false

/-- A block scalar, which cannot be a key. -/
def blockScalar (s : Layout) (style : Style) : Option Layout := do
  let (text, after) ← blockScalar? s.floor s.cursor
  return ((← s.dropKey).push (.scalar text style) after).allowKey true

/-- A plain scalar, with the gap behind it. -/
def plainScalar (s : Layout) : Option Layout := do
  let (text, n, broken) ← plainChars s.inBrackets s.floor [] s.cursor.column s.cursor.rest
  return ((← s.saveKey).push (.scalar (String.ofList text) .plain) (s.cursor.skip n)).allowKey broken

/-- The token at a place at which the characters `c` and `rest` follow. -/
def token (s : Layout) (c : Char) (rest : List Char) : Option Layout :=
  if s.cursor.column = 0 && c = '%' then do
    let (t, after) ← directive? s.cursor
    s.betweenDocuments t after
  else if s.cursor.column = 0 && isMarker (c :: rest) then
    s.betweenDocuments (if c = '-' then .documentStart else .documentEnd) (s.cursor.skip 3)
  else
    match c with
    | '[' => s.openBracket .openSequence
    | '\x7b' => s.openBracket .openMapping
    | ']' => s.closeBracket .closeSequence
    | '\x7d' => s.closeBracket .closeMapping
    | ',' => s.comma
    | '*' => s.part fun c => (name? c.next).map fun r => (.reference r.1, r.2)
    | '&' => s.part fun c => (name? c.next).map fun r => (.anchor r.1, r.2)
    | '!' => s.part (tag? s.inBrackets)
    | '\'' | '"' => s.part fun c => (quoted? c).map fun r => (.scalar r.1 .quoted, r.2)
    | _ =>
      if c = '-' && gapFollows rest then (s.entry .blockSequence .dash).map (·.allowKey true)
      else if c = '?' && (s.inBrackets || gapFollows rest) then
        (s.entry .blockMapping .key).map (·.allowKey (!s.inBrackets))
      else if c = ':' && (s.inBrackets || gapFollows rest) then s.colon
      else if c = '|' && !s.inBrackets then s.blockScalar .literal
      else if c = '>' && !s.inBrackets then s.blockScalar .folded
      else if beginsPlain s.inBrackets (c :: rest) then s.plainScalar
      else none

/-- Reads tokens up to the end of the text, at most so many. -/
def finish : Nat → Layout → Option Layout
  | 0, _ => none
  | n + 1, s => do
    let s ← s.skipGap.dropStaleKeys
    let s := s.closeBlocks (s.cursor.column < ·)
    match s.cursor.rest with
    | [] => s.closeAll.dropKey
    | c :: rest => finish n (← s.token c rest)

end Layout

/-- The tokens of a text. -/
def Token.ofText? (text : String) : Option (List Token) := do
  let cs := text.toList
  if cs.all isPrintable then
    -- Every token has a character.
    let s ← Layout.finish (cs.length + 1) { cursor := { rest := unifyBreaks cs } }
    return s.tokens.reverse
  else none

end WorkItemQuery.Yaml
