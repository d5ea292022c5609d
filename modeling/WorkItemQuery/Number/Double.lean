/-
Double-precision numbers as bit patterns. Reading a decimal rounds to the nearest double, halves to
the even one. Writing finds the fewest decimal digits that read back as the same double, and of
those the nearest to it.
-/
import WorkItemQuery.Number.Decimal

namespace WorkItemQuery.Number

/-- A double-precision number, given by its 64 bits. -/
structure Double where
  bits : UInt64
deriving DecidableEq, Repr

namespace Double

/-- The exponent field of the infinities and of what is not a number. -/
def topExponent : Nat := 2047

/-- The bit that stands for the sign. -/
def signBit : Nat := 9223372036854775808

/-- The leading bit of a significand, which is not stored: one above the fraction field. -/
def hiddenBit : Nat := 4503599627370496

/-- The bit of the fraction field that tells what is not a number from the infinities. -/
def quietBit : Nat := 2251799813685248

/-- The double with the given sign and the given lower 63 bits. -/
def ofMagnitude (negative : Bool) (magnitude : Nat) : Double :=
  ⟨UInt64.ofNat (if negative then signBit + magnitude else magnitude)⟩

/-- Positive or negative infinity. -/
def infinity (negative : Bool) : Double := ofMagnitude negative (topExponent * hiddenBit)

/-- What is not a number. -/
def nan : Double := ofMagnitude false (topExponent * hiddenBit + quietBit)

def isNegative (d : Double) : Bool := signBit ≤ d.bits.toNat

def exponentField (d : Double) : Nat := d.bits.toNat / hiddenBit % 2048

def fractionField (d : Double) : Nat := d.bits.toNat % hiddenBit

def isFinite (d : Double) : Bool := d.exponentField < topExponent

/-- A finite double is `± significand · 2 ^ scale`. -/
def significand (d : Double) : Nat :=
  if d.exponentField = 0 then d.fractionField else hiddenBit + d.fractionField

def scale (d : Double) : Int :=
  if d.exponentField = 0 then -1074 else (d.exponentField : Int) - 1075

/-! ## Reading -/

/-- `num / den` rounded to a whole number, halves to the even one. -/
def roundEven (num den : Nat) : Nat :=
  let q := num / den
  let r := num % den
  if 2 * r < den then q
  else if 2 * r = den then q + q % 2
  else q + 1

/-- The exponent `k` with `2 ^ k ≤ num / den < 2 ^ (k + 1)`, for positive `num` and `den`. -/
def binaryExponent (num den : Nat) : Int :=
  let k : Int := (num.log2 : Int) - den.log2
  let below := if 0 ≤ k then num < den * Nat.pow 2 k.toNat else num * Nat.pow 2 (-k).toNat < den
  if below then k - 1 else k

/-- The double nearest to `num / den`, for positive `num` and `den`. -/
def ofRatio (negative : Bool) (num den : Nat) : Double :=
  let q := max (binaryExponent num den - 52) (-1074)
  let m := if 0 ≤ q then roundEven num (den * Nat.pow 2 q.toNat) else roundEven (num * Nat.pow 2 (-q).toNat) den
  -- a significand that rounds up to `2 ^ 53` carries into the exponent field by itself
  let magnitude := (q + 1074).toNat * hiddenBit + m
  if topExponent * hiddenBit ≤ magnitude then infinity negative else ofMagnitude negative magnitude

/-- The double nearest to a decimal. Powers of ten beyond every double are settled without computing them. -/
def ofDecimal (d : Decimal) : Double :=
  let places : Int := (digitsOf d.digits).length + d.exponent
  if d.digits = 0 ∨ places < -330 then ofMagnitude d.negative 0
  else if 310 < places then infinity d.negative
  else if 0 ≤ d.exponent then ofRatio d.negative (d.digits * Nat.pow 10 d.exponent.toNat) 1
  else ofRatio d.negative d.digits (Nat.pow 10 (-d.exponent).toNat)

/-! ## Writing -/

/-- The reals that round to a double, over a common denominator: the double, and the ends of its
interval, which belong to it when `closed` holds. -/
structure Interval where
  low : Nat
  value : Nat
  high : Nat
  den : Nat
  closed : Bool

/-- The interval of a finite double without its sign. The lower half is shorter right above a power of two. -/
def interval (d : Double) : Interval :=
  let m := d.significand
  let gap := if m = hiddenBit ∧ 1 < d.exponentField then 1 else 2
  let q := d.scale - 2
  let up := Nat.pow 2 q.toNat
  ⟨(4 * m - gap) * up, 4 * m * up, (4 * m + 2) * up, Nat.pow 2 (-q).toNat, m % 2 = 0⟩

/-- The interval holds `n · 10 ^ e`. -/
def Interval.holds (i : Interval) (n : Nat) (e : Int) : Bool :=
  let num := n * Nat.pow 10 e.toNat * i.den
  let unit := Nat.pow 10 (-e).toNat
  if i.closed then i.low * unit ≤ num && num ≤ i.high * unit
  else i.low * unit < num && num < i.high * unit

/-- The best multiple of `10 ^ e` in the interval, if there is one: the nearer of the value's two
neighbours, and the upper one when both are equally near. -/
def Interval.pick (i : Interval) (e : Int) : Option Nat :=
  let num := i.value * Nat.pow 10 (-e).toNat
  let unit := i.den * Nat.pow 10 e.toNat
  let below := num / unit
  let twice := 2 * (num % unit)
  let nearest := if unit ≤ twice then below + 1 else below
  let other := if unit ≤ twice then below else below + 1
  if i.holds nearest e then some nearest
  else if i.holds other e then some other
  else none

/-- The exponent `k` with `10 ^ k ≤ value < 10 ^ (k + 1)`, searched downwards from `k` over `fuel` steps. -/
def Interval.leading (i : Interval) : Nat → Int → Int
  | 0, k => k
  | fuel + 1, k =>
    if i.den * Nat.pow 10 k.toNat ≤ i.value * Nat.pow 10 (-k).toNat then k else i.leading fuel (k - 1)

/-- The first of the grids `10 ^ k, 10 ^ (k - 1), …` that has a number in the interval. -/
def Interval.shortestFrom (i : Interval) : Nat → Int → Nat × Int
  | 0, k => ((i.pick k).getD 0, k)
  | fuel + 1, k =>
    match i.pick k with
    | some n => (n, k)
    | none => i.shortestFrom fuel (k - 1)

/-- The fewest digits that read back as a finite double. -/
def shortest (d : Double) : Decimal :=
  if d.significand = 0 then ⟨d.isNegative, 0, 0⟩
  else
    let i := d.interval
    let r := i.shortestFrom 17 (i.leading 640 310)
    Decimal.normalize ⟨d.isNegative, r.1, r.2⟩

/-- The text of a double: its shortest digits, never with a power of ten. -/
def text (d : Double) : String :=
  if d.isFinite then d.shortest.positional
  else if d.fractionField ≠ 0 then "NaN"
  else if d.isNegative then "-inf"
  else "inf"

end Double

end WorkItemQuery.Number
