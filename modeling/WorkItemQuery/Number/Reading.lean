/-
Reading a double from free text: an optional sign, then digits with an optional point and an optional
power of ten, or the words for infinity and for what is not a number in any letter case.
-/
import WorkItemQuery.Number.Double
import WorkItemQuery.Text.Scan

namespace WorkItemQuery.Number

open WorkItemQuery.Text

/-- An optional sign; a minus gives `true`. -/
def scanSign : Scan Bool := do
  match ← Scan.peek with
  | some '-' => Scan.char '-'; pure true
  | some '+' => Scan.char '+'; pure false
  | _ => pure false

/-- An optional power of ten. -/
def scanPower : Scan Int := do
  match ← Scan.peek with
  | some c =>
    if c = 'e' ∨ c = 'E' then
      let _ ← Scan.satisfy fun _ => true
      let negative ← scanSign
      let n : Int := ofDigits (← Scan.digits)
      pure (if negative then -n else n)
    else pure 0
  | none => pure 0

/-- Digits with an optional point among, before or after them, and an optional power of ten. -/
def scanDecimal (negative : Bool) : Scan Decimal := do
  let whole ← Scan.takeWhile Scan.isDigit
  let fraction ←
    match ← Scan.peek with
    | some '.' => do Scan.char '.'; Scan.takeWhile Scan.isDigit
    | _ => pure []
  if whole.isEmpty && fraction.isEmpty then failure
  pure (Decimal.ofParts negative whole fraction (← scanPower))

namespace Double

/-- The double that a text stands for. -/
def ofText? (s : String) : Option Double := do
  let (negative, rest) ← scanSign.run s.toList
  let word := rest.map Char.toLower
  if word = "inf".toList ∨ word = "infinity".toList then some (infinity negative)
  else if word = "nan".toList then some nan
  else
    let (d, rest) ← (scanDecimal negative).run rest
    if rest.isEmpty then some (ofDecimal d) else none

end Double

end WorkItemQuery.Number
