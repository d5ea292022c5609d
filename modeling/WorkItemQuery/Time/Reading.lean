/-
Reading timestamps. The full form is that of RFC 3339: date, clock time and offset; a bare date
stands for its first instant. In JSON the full form is read loosely: blanks may stand between its
parts, numbers may lack leading zeros, and the offset may be spelled out as universal time.
-/
import WorkItemQuery.Text.CharSet
import WorkItemQuery.Text.Scan
import WorkItemQuery.Time.Timestamp

namespace WorkItemQuery.Time

open WorkItemQuery.Number WorkItemQuery.Text

/-- A number of exactly two digits. -/
def scanTwo : Scan Nat := do
  return ofDigits (← Scan.digitsWithin 2 2)

/-- A year of exactly four digits. -/
def scanYear : Scan Int := do
  return ofDigits (← Scan.digitsWithin 4 4)

/-- A number of nanoseconds within a second. -/
def nanos (n : Nat) : Fin 1000000000 := ⟨n % 1000000000, Nat.mod_lt _ (by decide)⟩

/-- The fraction of a second: a point and digits, of which nine count. -/
def scanFraction : Scan (Fin 1000000000) := do
  match ← Scan.peek with
  | some '.' =>
    Scan.char '.'
    let ds := (← Scan.digits).take 9
    return nanos (ofDigits ds * Nat.pow 10 (9 - ds.length))
  | _ => return nanos 0

/-- The offset from universal time in minutes: `Z`, or a sign, hours and minutes. -/
def scanOffset : Scan Int := do
  let c ← Scan.satisfy fun _ => true
  if c = 'Z' ∨ c = 'z' then return 0
  if c ≠ '+' ∧ c ≠ '-' ∧ c ≠ '−' then failure
  let hours ← scanTwo
  Scan.char ':'
  let minutes ← scanTwo
  if 23 < hours ∨ 59 < minutes then failure
  let n : Int := hours * 60 + minutes
  return if c = '+' then n else -n

/-- A number below a bound, as an element of that range. -/
def within (bound n : Nat) : Option (Fin bound) :=
  if h : n < bound then some ⟨n, h⟩ else none

/-- The instant with the given numbers on a clock `offset` minutes ahead of universal time. -/
def instant? (year : Int) (month day hour minute second : Nat) (nanos : Fin 1000000000) (offset : Int) :
    Option Timestamp := do
  Timestamp.ofLocal? ⟨← Date.of? year month day, ← within 24 hour, ← within 60 minute, ← within 61 second, nanos⟩
    offset

/-- Whether a character may stand between a date and a clock time. -/
def isDivider (c : Char) : Bool := c == 'T' || c == 't' || c == ' '

/-! ## The exact forms -/

/-- A timestamp in full. -/
def scanTimestamp : Scan Timestamp := do
  let year ← scanYear
  Scan.char '-'
  let month ← scanTwo
  Scan.char '-'
  let day ← scanTwo
  let _ ← Scan.satisfy isDivider
  let hour ← scanTwo
  Scan.char ':'
  let minute ← scanTwo
  Scan.char ':'
  let second ← scanTwo
  let nanos ← scanFraction
  let offset ← scanOffset
  (instant? year month day hour minute second nanos offset : Option _)

/-- Blank characters, passed over. -/
def skipBlanks : Scan Unit := do
  let _ ← Scan.takeWhile isBlank

/-- One or two digits after any blanks. -/
def scanShort : Scan Nat := do
  skipBlanks
  return ofDigits (← Scan.digitsWithin 1 2)

/-- A year after any blanks: up to four digits, or a sign and any number of digits. -/
def scanAnyYear : Scan Int := do
  skipBlanks
  match ← Scan.peek with
  | some '+' => Scan.char '+'; return ofDigits (← Scan.digits)
  | some '-' => Scan.char '-'; return -(ofDigits (← Scan.digits) : Int)
  | _ => return ofDigits (← Scan.digitsWithin 1 4)

/-- A bare date: year, month and day, each after any blanks, with hyphens between. -/
def scanDate : Scan Date := do
  let y ← scanAnyYear
  Scan.char '-'
  let m ← scanShort
  Scan.char '-'
  let d ← scanShort
  (Date.of? y m d : Option Date)

/-! ## The loose form -/

/-- The given character after any blanks. -/
def scanSpaced (c : Char) : Scan Unit := do
  skipBlanks
  Scan.char c

/-- The name of universal time in any letter case, if it is next. -/
def scanUniversal : Scan Bool := fun cs =>
  if (cs.take 3).map Char.toLower = ['u', 't', 'c'] then some (true, cs.drop 3) else some (false, cs)

/-- The offset from universal time in minutes: its name, `Z`, or a sign, hours and minutes, with colons
and blanks between them. -/
def scanLooseOffset : Scan Int := do
  if ← scanUniversal then return 0
  let c ← Scan.satisfy fun _ => true
  if c = 'Z' ∨ c = 'z' then return 0
  if c ≠ '+' ∧ c ≠ '-' ∧ c ≠ '−' then failure
  let hours ← scanTwo
  let _ ← Scan.takeWhile fun c => c == ':' || isBlank c
  let minutes ← scanTwo
  if 23 < hours ∨ 59 < minutes then failure
  let n : Int := hours * 60 + minutes
  return if c = '+' then n else -n

/-- A timestamp in full, read loosely. -/
def scanLoose : Scan Timestamp := do
  let year ← scanAnyYear
  scanSpaced '-'
  let month ← scanShort
  scanSpaced '-'
  let day ← scanShort
  let _ ← Scan.satisfy isDivider
  let hour ← scanShort
  scanSpaced ':'
  let minute ← scanShort
  scanSpaced ':'
  let second ← scanShort
  let nanos ← scanFraction
  skipBlanks
  let offset ← scanLooseOffset
  skipBlanks
  (instant? year month day hour minute second nanos offset : Option _)

namespace Timestamp

/-- Reads a timestamp in full, its exact text among others. -/
def ofText? (s : String) : Option Timestamp := scanLoose.whole s

/-- Reads the timestamps of pipelines: in full, or as a bare date. -/
def ofQueryText? (s : String) : Option Timestamp :=
  scanTimestamp.whole s <|> (scanDate.whole s).map ofDate

end Timestamp

end WorkItemQuery.Time
