import Multibinding.Number.Binary64

/-!
# Shortest decimal texts

The digits of a floating-point number are the fewest that read back as the number and, of the
candidates with as few digits, those nearest to it. The number's neighbourhood, the real numbers
that round to it, reaches half way to the numbers next to it and includes its two ends exactly if
the significand is even.

A decimal grid that has a point in the neighbourhood has one next to the number itself, so that
for each count of digits only the two grid points around the number are tried.
-/

namespace Multibinding

/-- A positive decimal number `0.d₁d₂… * 10 ^ point` whose last digit is not zero. -/
structure Decimal where
  /-- The digits. -/
  digits : List Char
  /-- How many digits stand before the decimal point. -/
  point : Int
deriving DecidableEq

namespace Decimal

/-- The neighbourhood of a positive number, in units of `2 ^ -1076`. -/
structure Neighbourhood where
  /-- The number itself. -/
  value : Nat
  /-- The lower end. -/
  low : Nat
  /-- The upper end. -/
  high : Nat
  /-- Whether the ends belong to the neighbourhood. -/
  closed : Bool

/-- The neighbourhood of a positive number. Below a power of two the next number is only half as
far away. -/
def neighbourhood (x : Binary64) : Neighbourhood :=
  let below := if x.significand = Nat.pow 2 52 ∧ 0 < x.power then 1 else 2
  { value := 4 * x.units
    low := (4 * x.significand - below) * Nat.pow 2 x.power
    high := (4 * x.significand + 2) * Nat.pow 2 x.power
    closed := x.significand % 2 == 0 }

/-- How many digits the number has before the decimal point, or minus the number of zeros that
follow the point before the first other digit. The scale is beyond the smallest number. -/
def magnitude (n : Neighbourhood) : Int :=
  (Nat.toDigits 10 (n.value * Nat.pow 10 400 / Nat.pow 2 1076)).length - 400

/-- The multiple of `10 ^ exponent` in the neighbourhood that is nearest to the number, half way
the even one. -/
def nearest? (n : Neighbourhood) (exponent : Int) : Option Nat :=
  let up := Nat.pow 10 (-exponent).toNat
  let down := Nat.pow 2 1076 * Nat.pow 10 exponent.toNat
  let inside (multiple : Nat) : Bool :=
    if n.closed then n.low * up ≤ multiple * down && multiple * down ≤ n.high * up
    else n.low * up < multiple * down && multiple * down < n.high * up
  let floor := n.value * up / down
  match inside floor, inside (floor + 1) with
  | true, true =>
    let middle := (2 * floor + 1) * down
    if 2 * n.value * up < middle ∨ (2 * n.value * up = middle ∧ floor % 2 = 0) then some floor
    else some (floor + 1)
  | true, false => some floor
  | false, true => some (floor + 1)
  | false, false => none

/-- The shortest decimal number that reads back as a positive number. -/
def shortest (x : Binary64) : Decimal :=
  let n := neighbourhood x
  let point := magnitude n
  let found := (List.range 17).findSome? fun (count : Nat) =>
    let exponent := point - (count + 1 : Nat)
    (nearest? n exponent).map fun multiple => (multiple, exponent)
  let (multiple, exponent) := found.getD (0, 0)
  let digits := Nat.toDigits 10 multiple
  { digits := (digits.reverse.dropWhile (· == '0')).reverse
    point := digits.length + exponent }

/-- The number without an exponent. A whole number ends in `whole`. -/
def positional (whole : List Char) (d : Decimal) : List Char :=
  let zeros (n : Int) : List Char := List.replicate n.toNat '0'
  if d.point ≤ 0 then '0' :: '.' :: zeros (-d.point) ++ d.digits
  else if d.digits.length ≤ d.point then d.digits ++ zeros (d.point - d.digits.length) ++ whole
  else d.digits.take d.point.toNat ++ '.' :: d.digits.drop d.point.toNat

/-- The number with one digit before the point and an exponent with its sign. -/
def scientific (d : Decimal) : List Char :=
  let exponent := d.point - 1
  let sign := if exponent < 0 then '-' else '+'
  let fraction := if d.digits.length ≤ 1 then [] else '.' :: d.digits.drop 1
  d.digits.take 1 ++ fraction ++ 'e' :: sign :: Nat.toDigits 10 exponent.natAbs

end Decimal

namespace Binary64

/-- The text of a number, given the texts of zero and of positive numbers. -/
def textWith (zeroText : List Char) (positive : Decimal → List Char) (x : Binary64) : String :=
  let body := if x.significand = 0 then zeroText else positive (Decimal.shortest x)
  String.ofList (if x.negative then '-' :: body else body)

/-- The text without an exponent; a whole number has no point. -/
def plainText (x : Binary64) : String :=
  x.textWith ['0'] (Decimal.positional [])

end Binary64

end Multibinding
