/-
Filters choose which notices are written. A filter is a list of directives: a level for everything,
or a level for the targets that start with a given text; the longest such text counts.
-/
import WorkItemQuery.Log.Notice
import WorkItemQuery.Number.Decimal
import WorkItemQuery.Text.Alphanumeric
import WorkItemQuery.Text.Scan

namespace WorkItemQuery.Log

open Number Text

/-- The least severe level that passes; none when nothing passes. -/
abbrev Threshold := Option Level

/-- A level for the targets that start with `target`; the empty text is the start of all. -/
structure Directive where
  target : String
  /-- A field that notices must have, if only those are meant. -/
  field : Option String := none
  /-- Whether only notices from within a span of work are meant. No work is divided into spans, so
  that there are none. -/
  withinSpan : Bool := false
  threshold : Threshold
deriving DecidableEq, Repr

/-- A filter: its directives in the order in which they were given. -/
structure Filter where
  directives : List Directive
deriving DecidableEq, Repr

/-! ## Reading directives -/

/-- The threshold with the given number. -/
def numbered? : Nat → Option Threshold
  | 0 => some none
  | 1 => some (some .error)
  | 2 => some (some .warn)
  | 3 => some (some .info)
  | 4 => some (some .debug)
  | 5 => some (some .trace)
  | _ => none

/-- The threshold with the given name, in any letter case. -/
def named? (s : String) : Option Threshold :=
  match String.ofList (s.toList.map Char.toLower) with
  | "off" => some none
  | "error" => some (some .error)
  | "warn" => some (some .warn)
  | "info" => some (some .info)
  | "debug" => some (some .debug)
  | "trace" => some (some .trace)
  | _ => none

/-- The digits of a number that may have a plus sign. -/
def digits? (cs : List Char) : Option (List Char) :=
  let ds := if cs.head? = some '+' then cs.tail else cs
  if !ds.isEmpty && ds.all Scan.isDigit then some ds else none

/-- A threshold by its name or by its number. -/
def threshold? (s : String) : Option Threshold :=
  match digits? s.toList with
  | some ds => numbered? (ofDigits ds)
  | none => named? s

/-- Whether the name of a target may begin with a character. -/
def beginsTarget (c : Char) : Bool := isAlphanumeric c || c == '-' || c == ':' || c == '_'

/-- What stands between brackets after a target. -/
structure Scope where
  withinSpan : Bool
  field : Option String

/-- The name of a span, or in braces a field, maybe with a value, which only spans have. The rest is
what follows the closing bracket. -/
def Scope.ofChars? (cs : List Char) : Option (Scope × List Char) :=
  let isEdge (c : Char) : Bool := c == ']' || c == '\x7b'
  let span := cs.takeWhile (!isEdge ·)
  match cs.dropWhile (!isEdge ·) with
  | ']' :: rest => some (⟨true, none⟩, rest)
  | _ :: inner =>
    let field := inner.takeWhile (· != '\x7d')
    match inner.dropWhile (· != '\x7d') with
    | _ :: ']' :: rest =>
      if field.isEmpty then none
      else
        let name := String.ofList (field.takeWhile (· != '='))
        some (⟨!span.isEmpty || field.contains '=', some name⟩, rest)
    | _ => none
  | [] => none

namespace Directive

/-- The parts of a directive as they are written. -/
structure Parts where
  target : List Char
  scope : Option Scope
  /-- What follows the equals sign, if there is one. -/
  level : Option (List Char)

/-- A target, then maybe brackets, then maybe an equals sign and a level. -/
def Parts.ofChars? (cs : List Char) : Option Parts :=
  let isEdge (c : Char) : Bool := c == '=' || c == '['
  let target := cs.takeWhile (!isEdge ·)
  match cs.dropWhile (!isEdge ·) with
  | [] => some ⟨target, none, none⟩
  | '[' :: inner => do
    let (scope, rest) ← Scope.ofChars? inner
    match rest with
    | '=' :: level => some ⟨target, some scope, some level⟩
    | rest => if rest.all isBlank then some ⟨target, some scope, none⟩ else none
  | _ :: level => some ⟨target, none, some level⟩

/-- The threshold that is written after an equals sign; without it everything passes. -/
def level? : List Char → Option Threshold
  | [] => some (some .trace)
  | cs => threshold? (String.ofList cs)

/-- The directive with the given parts. A single word that is a threshold holds for all targets. -/
def ofParts? (p : Parts) : Option Directive := do
  let target := String.ofList p.target
  match p.scope, p.level, threshold? target with
  | none, none, some threshold => return { target := "", threshold }
  | scope, level, _ =>
    return {
      target
      field := scope.bind (·.field)
      withinSpan := (scope.map (·.withinSpan)).getD false
      threshold := ← level? (level.getD []) }

/-- Reads a directive. Blanks around it are not skipped: with blanks before it, it can have no level,
and no target begins like that. -/
def ofText? (s : String) : Option Directive := do
  let written := s.toList.dropWhile isBlank
  let first ← written.head?
  if beginsTarget first || first == '[' then
    let parts ← Parts.ofChars? written
    if written.length = s.length then ofParts? parts
    else if parts.level.isNone then return { target := s, threshold := some .trace }
    else none
  else none

end Directive

namespace Filter

/-- Only errors pass. -/
def errors : Filter := ⟨[{ target := "", threshold := some .error }]⟩

/-- Warnings and errors pass. -/
def warnings : Filter := ⟨[{ target := "", threshold := some .warn }]⟩

/-- The pieces of a text between commas. -/
def pieces : List Char → List (List Char)
  | [] => [[]]
  | ',' :: rest => [] :: pieces rest
  | c :: rest =>
    match pieces rest with
    | [] => [[c]]
    | p :: more => (c :: p) :: more

/-- Reads directives with commas between them. Without any directive only errors pass; if one of them
cannot be read, warnings and errors do. -/
def ofText (s : String) : Filter :=
  let parts := (pieces s.toList).filter (!·.isEmpty)
  match parts.mapM fun p => Directive.ofText? (String.ofList p) with
  | some [] => errors
  | some ds => ⟨ds⟩
  | none => warnings

/-- Whether a directive is about a notice. -/
def concerns (d : Directive) (n : Notice) : Bool :=
  !d.withinSpan && d.target.toList.isPrefixOf n.target.toList
    && d.field.all fun name => n.fields.any (·.1 == name)

/-- Whether a directive is at least as special as another: it has a longer target, or the same one
and a field, where a later name goes first. -/
def atLeastAsSpecial (d e : Directive) : Bool :=
  e.target.utf8ByteSize < d.target.utf8ByteSize
    || e.target.utf8ByteSize == d.target.utf8ByteSize
      && (e.field.isNone || d.field.any fun name => e.field.all (· ≤ name))

/-- The directive that decides about a notice: the most special one, the last of equals. -/
def deciding? (f : Filter) (n : Notice) : Option Directive :=
  (f.directives.filter (concerns · n)).foldl
    (fun best d =>
      match best with
      | none => some d
      | some b => if atLeastAsSpecial d b then some d else some b)
    none

/-- Whether a notice is written. -/
def passes (f : Filter) (n : Notice) : Bool :=
  match (f.deciding? n).bind (·.threshold) with
  | some level => level.rank ≤ n.level.rank
  | none => false

end Filter

end WorkItemQuery.Log
