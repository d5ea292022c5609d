/-
Decimal numbers as they are written: a sign, digits, and a power of ten. Integers of a fixed width, from integers that
are in their range.
-/

namespace WorkItemQuery.Number

/-- The number `± digits · 10 ^ exponent`. -/
structure Decimal where
  negative : Bool
  digits : Nat
  exponent : Int
deriving DecidableEq, Repr

/-- The value of a digit. -/
def digitValue (c : Char) : Nat := c.toNat - '0'.toNat

/-- The number that a run of digits stands for. -/
def ofDigits (cs : List Char) : Nat :=
  cs.foldl (fun n c => 10 * n + digitValue c) 0

/-- The digits of a number, the highest first and without leading zeros. -/
def digitsOf (n : Nat) : List Char := Nat.toDigits 10 n

/-- The text of an integer. -/
def intText (i : Int) : String :=
  if i < 0 then "-" ++ String.ofList (digitsOf i.natAbs) else String.ofList (digitsOf i.natAbs)

/-- The digits of a number, filled up with zeros in front to at least `width` places. -/
def padded (width n : Nat) : List Char :=
  List.replicate (width - (digitsOf n).length) '0' ++ digitsOf n

namespace Decimal

/-- The decimal `whole.fraction · 10 ^ exponent` from its runs of digits. -/
def ofParts (negative : Bool) (whole fraction : List Char) (exponent : Int) : Decimal :=
  ⟨negative, ofDigits (whole ++ fraction), exponent - fraction.length⟩

/-- Divides powers of ten out of the digits, at most `fuel` of them. -/
def dropZeros : Nat → Nat → Int → Nat × Int
  | 0, digits, exponent => (digits, exponent)
  | fuel + 1, digits, exponent =>
    if digits ≠ 0 ∧ digits % 10 = 0 then dropZeros fuel (digits / 10) (exponent + 1)
    else (digits, exponent)

/-- The same number with as few digits as possible. -/
def normalize (d : Decimal) : Decimal :=
  let r := dropZeros (digitsOf d.digits).length d.digits d.exponent
  ⟨d.negative, r.1, r.2⟩

/-- The text without a power of ten: a point stands inside the digits if need be. -/
def positional (d : Decimal) : String :=
  let ds := digitsOf d.digits
  let body :=
    if 0 ≤ d.exponent then ds ++ List.replicate d.exponent.toNat '0'
    else
      let places := (-d.exponent).toNat
      let full := List.replicate (places + 1 - ds.length) '0' ++ ds
      full.take (full.length - places) ++ '.' :: full.drop (full.length - places)
  String.ofList (if d.negative then '-' :: body else body)

end Decimal

/-! ## Integers of a fixed width -/

/-- A 16-bit integer, if it is in range. -/
def int16? (i : Int) : Option Int16 :=
  if -32768 ≤ i ∧ i ≤ 32767 then some (Int16.ofInt i) else none

/-- A 32-bit integer, if it is in range. -/
def int32? (i : Int) : Option Int32 :=
  if -2147483648 ≤ i ∧ i ≤ 2147483647 then some (Int32.ofInt i) else none

/-- A 64-bit integer, if it is in range. -/
def int64? (i : Int) : Option Int64 :=
  if -9223372036854775808 ≤ i ∧ i ≤ 9223372036854775807 then some (Int64.ofInt i) else none

end WorkItemQuery.Number
