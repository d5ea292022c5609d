/-
Reading JSON text. A reader may bound how deep arrays and objects are nested, and then refuses a text at the first one
that is too deep. The number of steps is bounded too, by what the length of the text supplies, which is always enough.
-/
import WorkItemQuery.Json.Value
import WorkItemQuery.Number.Scaling
import WorkItemQuery.Text.Scan

namespace WorkItemQuery.Json

open Number Text

def isSpace (c : Char) : Bool := c == ' ' || c == '\t' || c == '\n' || c == '\r'

/-- White space between tokens, passed over. -/
def skipSpace : Scan Unit := do
  let _ ← Scan.takeWhile isSpace

/-- The given word. -/
def word (w : String) : Scan Unit := fun cs =>
  if w.toList.isPrefixOf cs then some ((), cs.drop w.length) else none

/-- The value of a digit of base sixteen. -/
def hexValue (c : Char) : Option Nat :=
  if '0' ≤ c ∧ c ≤ '9' then some (c.toNat - '0'.toNat)
  else if 'a' ≤ c ∧ c ≤ 'f' then some (c.toNat - 'a'.toNat + 10)
  else if 'A' ≤ c ∧ c ≤ 'F' then some (c.toNat - 'A'.toNat + 10)
  else none

/-- Four digits of base sixteen. -/
def scanUnit : List Char → Option (Nat × List Char)
  | a :: b :: c :: d :: rest => do
    some ((((← hexValue a) * 16 + (← hexValue b)) * 16 + (← hexValue c)) * 16 + (← hexValue d), rest)
  | _ => none

/-- The character of an escape by code units: one unit, or a pair of surrogates. -/
def scanCode (cs : List Char) : Option (Char × List Char) := do
  let (u, rest) ← scanUnit cs
  if 0xD800 ≤ u ∧ u < 0xDC00 then
    match rest with
    | '\\' :: 'u' :: rest =>
      let (v, rest) ← scanUnit rest
      if 0xDC00 ≤ v ∧ v < 0xE000 then
        some (Char.ofNat (0x10000 + (u - 0xD800) * 0x400 + (v - 0xDC00)), rest)
      else none
    | _ => none
  else if 0xDC00 ≤ u ∧ u < 0xE000 then none
  else some (Char.ofNat u, rest)

/-- The character that a one-letter escape stands for. -/
def escaped : Char → Option Char
  | '"' => some '"'
  | '\\' => some '\\'
  | '/' => some '/'
  | 'b' => some '\x08'
  | 'f' => some '\x0c'
  | 'n' => some '\n'
  | 'r' => some '\r'
  | 't' => some '\t'
  | _ => none

/-- The inside of a string up to its closing mark, in at most `fuel` characters. -/
def scanInside : Nat → List Char → List Char → Option (String × List Char)
  | 0, _, _ => none
  | fuel + 1, done, cs =>
    match cs with
    | '"' :: rest => some (String.ofList done.reverse, rest)
    | '\\' :: 'u' :: rest => do
      let (c, rest) ← scanCode rest
      scanInside fuel (c :: done) rest
    | '\\' :: e :: rest => do
      scanInside fuel ((← escaped e) :: done) rest
    | c :: rest => if c.toNat < 0x20 then none else scanInside fuel (c :: done) rest
    | [] => none

def scanString : Scan String
  | '"' :: rest => scanInside (rest.length + 1) [] rest
  | _ => none

/-- A number that is not beyond every double. -/
def limited (j : Json) (d : Decimal) : Scan Json := do
  if (Double.ofSteps? d).isSome then pure j else failure

/-- The digits of a whole number: a zero stands alone. -/
def scanWhole : Scan (List Char) := do
  match ← Scan.digits with
  | '0' :: _ :: _ => failure
  | ds => pure ds

/-- A number: whole unless it has a point or a power of ten. Negative zero is a decimal. -/
def scanNumber : Scan Json := do
  let negative ←
    match ← Scan.peek with
    | some '-' => do Scan.char '-'; pure true
    | _ => pure false
  let whole ← scanWhole
  let fraction ←
    match ← Scan.peek with
    | some '.' => do Scan.char '.'; some <$> Scan.digits
    | _ => pure none
  let power ←
    match ← Scan.peek with
    | some c =>
      if c = 'e' ∨ c = 'E' then do
        let _ ← Scan.satisfy fun _ => true
        let sign ← Scan.peek
        if sign = some '+' ∨ sign = some '-' then
          let _ ← Scan.satisfy fun _ => true
        let n : Int := ofDigits (← Scan.digits)
        pure (some (if sign = some '-' then -n else n))
      else pure none
    | none => pure none
  let n := ofDigits whole
  let d := Decimal.ofParts negative whole (fraction.getD []) (power.getD 0)
  match fraction, power with
  | none, none =>
    if negative && n == 0 then pure (decimal d)
    else limited (int (if negative then -n else n)) d
  | _, _ => limited (decimal d) d

/-- Goes into an array or an object: the room for those inside, if there is room for one. Without a bound there always
is. -/
def enter : Option Nat → Scan (Option Nat)
  | none => pure none
  | some 0 => failure
  | some (room + 1) => pure (some room)

mutual

/-- A value, in at most `fuel` steps, with room for so many arrays and objects in one another. -/
def scanValue : Nat → Option Nat → Scan Json
  | 0, _ => failure
  | fuel + 1, room => do
    skipSpace
    match ← Scan.peek with
    | some '"' => string <$> scanString
    | some '[' =>
      let room ← enter room
      Scan.char '['
      skipSpace
      match ← Scan.peek with
      | some ']' => Scan.char ']'; pure (array [])
      | _ => array <$> scanItems fuel room
    | some '\x7b' =>
      let room ← enter room
      Scan.char '\x7b'
      skipSpace
      match ← Scan.peek with
      | some '\x7d' => Scan.char '\x7d'; pure (object [])
      | _ => object <$> scanMembers fuel room
    | some 't' => word "true"; pure (bool true)
    | some 'f' => word "false"; pure (bool false)
    | some 'n' => word "null"; pure null
    | _ => scanNumber

/-- The items of an array up to its end. -/
def scanItems : Nat → Option Nat → Scan (List Json)
  | 0, _ => failure
  | fuel + 1, room => do
    let j ← scanValue fuel room
    skipSpace
    match ← Scan.peek with
    | some ',' => Scan.char ','; return j :: (← scanItems fuel room)
    | _ => Scan.char ']'; return [j]

/-- The members of an object up to its end. -/
def scanMembers : Nat → Option Nat → Scan (List (String × Json))
  | 0, _ => failure
  | fuel + 1, room => do
    skipSpace
    let name ← scanString
    skipSpace
    Scan.char ':'
    let j ← scanValue fuel room
    skipSpace
    match ← Scan.peek with
    | some ',' => Scan.char ','; return (name, j) :: (← scanMembers fuel room)
    | _ => Scan.char '\x7d'; return [(name, j)]

end

/-- How many arrays and objects in one another a reader takes, unless it is asked for another bound or for none. -/
def nestingLimit : Nat := 127

/-- The value that a text stands for, if no more arrays and objects than the bound says are in one another. -/
def parseWithin? (limit : Option Nat) (s : String) : Option Json := do
  let cs := s.toList
  let (j, rest) ← (scanValue (2 * cs.length + 2) limit).run cs
  if rest.all isSpace then some j else none

/-- The value that a text stands for, however deep it is nested. -/
def parse? (s : String) : Option Json := parseWithin? none s

end WorkItemQuery.Json
