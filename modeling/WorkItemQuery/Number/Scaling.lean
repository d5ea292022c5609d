/-
Reading a decimal in steps: its highest digits as a double, then times or divided by a power of ten
that is a double itself. Every step rounds, so the result may be off in its last place; up to fifteen
digits and powers of ten up to the twenty-second it is the nearest double.
-/
import WorkItemQuery.Number.Double

namespace WorkItemQuery.Number

/-- The first number that does not fit into 64 bits. -/
def wordLimit : Nat := 18446744073709551616

/-- The highest digits that fit into 64 bits. Those left out, at most so many, count in the exponent. -/
def highestDigits : Nat → Nat → Int → Nat × Int
  | 0, digits, exponent => (digits, exponent)
  | n + 1, digits, exponent =>
    if wordLimit ≤ digits then highestDigits n (digits / 10) (exponent + 1) else (digits, exponent)

namespace Double

/-- The greatest power of ten that is a double. -/
def topPower : Nat := 308

/-- The double nearest to `num / den`, which may be zero; `den` is positive. -/
def ofQuotient (num den : Nat) : Double := if num = 0 then ofMagnitude false 0 else ofRatio false num den

/-- A finite double without its sign is `numerator / denominator`. -/
def numerator (d : Double) : Nat := d.significand * Nat.pow 2 d.scale.toNat

def denominator (d : Double) : Nat := Nat.pow 2 (-d.scale).toNat

/-- A power of ten, up to the greatest. -/
def powerOfTen (n : Nat) : Double := ofRatio false (Nat.pow 10 n) 1

/-- The product of two finite doubles that are not negative. -/
def mul (a b : Double) : Double := ofQuotient (a.numerator * b.numerator) (a.denominator * b.denominator)

/-- The quotient of two finite doubles that are not negative, the second not zero. -/
def div (a b : Double) : Double := ofQuotient (a.numerator * b.denominator) (a.denominator * b.numerator)

/-- The double `d · 10 ^ e`, step by step; none if it is too great. A power of ten below the least needs
more than one division, at most so many, after which nothing is left. -/
def scaled? : Nat → Double → Int → Option Double
  | 0, d, _ => some d
  | n + 1, d, e =>
    if e.natAbs ≤ topPower then
      if 0 ≤ e then
        let product := d.mul (powerOfTen e.natAbs)
        if product.isFinite then some product else none
      else some (d.div (powerOfTen e.natAbs))
    else if d.significand = 0 then some d
    else if 0 ≤ e then none
    else scaled? n (d.div (powerOfTen topPower)) (e + topPower)

/-- The double that a decimal is read as step by step; none if it is too great. -/
def ofSteps? (d : Decimal) : Option Double := do
  let (digits, exponent) := highestDigits (digitsOf d.digits).length d.digits d.exponent
  let size ← scaled? 3 (ofQuotient digits 1) exponent
  return ofMagnitude d.negative size.bits.toNat

end Double

end WorkItemQuery.Number
