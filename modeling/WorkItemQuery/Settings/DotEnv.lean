/-
Files of environment variables: lines `NAME=value`, with comments, quotes, escapes and references to
other variables. Reading stops at the first line that cannot be read, and what came before stays.
-/
import WorkItemQuery.Text.Alphanumeric

namespace WorkItemQuery.DotEnv

open Text

/-! ## Values -/

/-- A piece of a value: text, or a reference to a variable. -/
inductive Piece where
  | text (text : String)
  | reference (name : String)
deriving DecidableEq, Repr

/-- An assignment, in the order of the file. -/
structure Assignment where
  name : String
  value : List Piece
deriving DecidableEq, Repr

/-- Where in a value a character stands. -/
inductive Place where
  | bare
  /-- Between apostrophes: every character stands for itself. -/
  | strong
  /-- Between double quotes. -/
  | weak
  /-- After a backslash, at the given place otherwise. -/
  | escaped (inQuotes : Bool)
  /-- In the name of a reference after a dollar sign: letters and digits of any script. -/
  | named (inQuotes : Bool) (name : List Char)
  /-- In the name of a reference between braces. -/
  | braced (inQuotes : Bool) (name : List Char)
  /-- After the value. -/
  | done
deriving DecidableEq, Repr

/-- The place between the quotes, or outside of them. -/
def Place.quoted (inQuotes : Bool) : Place := if inQuotes then .weak else .bare

/-- The character that a backslash and this character stand for. -/
def escape? : Char → Option Char
  | '\\' => some '\\'
  | '\'' => some '\''
  | '"' => some '"'
  | '$' => some '$'
  | ' ' => some ' '
  | 'n' => some '\n'
  | _ => none

/-- Text in front of pieces. -/
def cons (c : Char) : List Piece → List Piece
  | .text t :: rest => .text (String.singleton c ++ t) :: rest
  | pieces => .text (String.singleton c) :: pieces

/-- A reference in front of pieces. -/
def refer (name : List Char) (pieces : List Piece) : List Piece :=
  .reference (String.ofList name) :: pieces

/-- The pieces of a value; none if it cannot be read. -/
def pieces? : Place → List Char → Option (List Piece)
  | .strong, [] | .weak, [] | .braced _ _, [] => none
  | .escaped inQuotes, [] | .named inQuotes [], [] => if inQuotes then none else some []
  | .named inQuotes name, [] => if inQuotes then none else some (refer name [])
  | .bare, [] | .done, [] => some []
  | .done, c :: rest =>
    if c = '#' then some []
    else if c = ' ' || c = '\t' then pieces? .done rest
    else none
  | .escaped inQuotes, c :: rest => do
    let meant ← escape? c
    return cons meant (← pieces? (.quoted inQuotes) rest)
  | .strong, c :: rest => do
    if c = '\'' then pieces? .bare rest
    else return cons c (← pieces? .strong rest)
  | .named inQuotes name, c :: rest => do
    if isAlphanumeric c then pieces? (.named inQuotes (name ++ [c])) rest
    else if c = '\x7b' && name.isEmpty then pieces? (.braced inQuotes []) rest
    else if c = '$' then return refer name (← pieces? (.named inQuotes []) rest)
    else return refer name (cons c (← pieces? (.quoted inQuotes) rest))
  | .braced inQuotes name, c :: rest => do
    if c = '\x7d' then return refer name (← pieces? (.quoted inQuotes) rest)
    else pieces? (.braced inQuotes (name ++ [c])) rest
  | .weak, c :: rest => do
    if c = '$' then pieces? (.named true []) rest
    else if c = '"' then pieces? .bare rest
    else if c = '\\' then pieces? (.escaped true) rest
    else return cons c (← pieces? .weak rest)
  | .bare, c :: rest => do
    if c = '$' then pieces? (.named false []) rest
    else if c = '\'' then pieces? .strong rest
    else if c = '"' then pieces? .weak rest
    else if c = '\\' then pieces? (.escaped false) rest
    else if c = ' ' || c = '\t' then pieces? .done rest
    else return cons c (← pieces? .bare rest)

/-! ## Lines -/

def isNameStart (c : Char) : Bool := c.isAlpha || c == '_'

def isNamePart (c : Char) : Bool := c.isAlphanum || c == '_' || c == '.'

/-- The name of a variable, and the rest after it and after blanks. -/
def name? : List Char → Option (String × List Char)
  | c :: rest =>
    if isNameStart c then
      some (String.ofList (c :: rest.takeWhile isNamePart), (rest.dropWhile isNamePart).dropWhile isBlank)
    else none
  | [] => none

/-- The rest after an equals sign. -/
def afterEquals? : List Char → Option (List Char)
  | '=' :: rest => some rest
  | _ => none

/-- The name that a line assigns to, and the rest after the equals sign. The word `export` may stand
before the name. -/
def target? (line : List Char) : Option (String × List Char) := do
  let (name, rest) ← name? line
  match afterEquals? rest with
  | some rest => return (name, rest)
  | none =>
    if name = "export" then
      let (name, rest) ← name? rest
      return (name, ← afterEquals? rest)
    else none

/-- Whether nothing, or a comment, begins here. -/
def isIdle : List Char → Bool
  | [] => true
  | c :: _ => c == '#'

/-- The text without blanks at its end. -/
def trimEnd (cs : List Char) : List Char := (cs.reverse.dropWhile isBlank).reverse

/-- The assignment of a line, if it has one; the outer `none` is for a line that cannot be read. -/
def assignment? (line : List Char) : Option (Option Assignment) := do
  let line := (trimEnd line).dropWhile isBlank
  if isIdle line then return none
  let (name, rest) ← target? line
  let value := rest.dropWhile isBlank
  if isIdle value then return some ⟨name, []⟩
  return some ⟨name, ← pieces? .bare value⟩

/-! ## Files -/

/-- How far a line that may go on over line breaks has got. -/
inductive Progress where
  | complete
  | blank
  | escaped
  | weak
  | weakEscaped
  | strong
  | strongEscaped
deriving DecidableEq, Repr

/-- What a character outside of quotes leads to. -/
def Progress.outside (c : Char) : Progress :=
  if c = '\\' then .escaped
  else if c = '"' then .weak
  else if c = '\'' then .strong
  else .complete

def Progress.next : Progress → Char → Progress
  | .complete, c => if isBlank c && c != '\n' && c != '\r' then .blank else .outside c
  | .blank, c => .outside c
  | .escaped, _ => .complete
  | .weak, c => if c = '\\' then .weakEscaped else if c = '"' then .complete else .weak
  | .weakEscaped, _ => .weak
  | .strong, c => if c = '\\' then .strongEscaped else if c = '\'' then .complete else .strong
  | .strongEscaped, _ => .strong

/-- Whether a line is a comment. -/
def isComment (line : List Char) : Bool := (line.dropWhile isBlank).head? == some '#'

/-- As many characters as fit into the given number of bytes. -/
def takeBytes : Nat → List Char → List Char
  | _, [] => []
  | n, c :: rest => if c.utf8Size ≤ n then c :: takeBytes (n - c.utf8Size) rest else []

/-- The lines of a file, where quotes may go over line breaks. A comment that follows a blank is cut
off; of a line that went over breaks, only as much is kept as stands before the comment since the last
break, which is `passed` bytes. `none` stands for a line that does not end, and is the last. -/
def logicalLines (inComment : Bool) (line : List Char) (passed : Nat) (progress : Progress) :
    List Char → List (Option (List Char))
  | [] =>
    if inComment || progress = .complete || isComment line then
      if line.isEmpty then [] else [some line]
    else [none]
  | c :: rest =>
    if c = '\n' then
      if inComment || progress.next c = .complete || isComment line then
        some line :: logicalLines false [] 0 .complete rest
      else logicalLines false (line ++ [c]) 0 (progress.next c) rest
    else if inComment then logicalLines true line passed progress rest
    else if c = '#' && progress = .blank then logicalLines true (takeBytes passed line) passed progress rest
    else logicalLines false (line ++ [c]) (passed + c.utf8Size) (progress.next c) rest

/-- The assignments of a text up to the first line that cannot be read. -/
def assignments : List (Option (List Char)) → List Assignment
  | [] => []
  | none :: _ => []
  | some line :: rest =>
    match assignment? line with
    | none => []
    | some none => assignments rest
    | some (some a) => a :: assignments rest

def parse (text : String) : List Assignment := assignments (logicalLines false [] 0 .complete text.toList)

/-! ## Bytes -/

/-- The lines of a file in UTF-8, up to the first that is not. -/
def readableText (lines : List (List UInt8)) : String :=
  match lines with
  | [] => ""
  | line :: rest =>
    match String.fromUTF8? ⟨line.toArray⟩ with
    | some text => text ++ readableText rest
    | none => ""

/-- The lines of bytes, line feeds included. -/
def byteLines : List UInt8 → List (List UInt8)
  | [] => []
  | b :: rest =>
    if b = 10 then [b] :: byteLines rest
    else
      match byteLines rest with
      | [] => [[b]]
      | line :: more => (b :: line) :: more

/-- The assignments of a file; a mark of the byte order at its start is skipped. -/
def ofBytes (bytes : ByteArray) : List Assignment :=
  let text := readableText (byteLines bytes.toList)
  match text.toList with
  | c :: rest => if c.toNat = 0xfeff then parse (String.ofList rest) else parse text
  | [] => []

/-! ## Variables -/

/-- The variables that assignments set or refer to. -/
def mentioned (assignments : List Assignment) : List String :=
  assignments.flatMap fun a => a.name :: a.value.filterMap fun
    | .reference name => some name
    | .text _ => none

/-- The text of a value; a variable that is not set stands for nothing. -/
def valueText (env : List (String × String)) (value : List Piece) : String :=
  String.join (value.map fun
    | .text text => text
    | .reference name => (env.lookup name).getD "")

/-- Sets variables one after the other; a variable that is set already keeps its value. -/
def apply (env : List (String × String)) : List Assignment → List (String × String)
  | [] => env
  | a :: rest =>
    match env.lookup a.name with
    | some _ => apply env rest
    | none => apply (env ++ [(a.name, valueText env a.value)]) rest

end WorkItemQuery.DotEnv
