/-!
# Binary floating-point numbers of 64 bits

The finite numbers of the format, as a sign and a natural multiple of `2 ^ power`, counted in units
of the smallest positive number `2 ^ -1074`. All arithmetic is exact on natural numbers and then
rounded once, to the nearest number of the format and, half way, to the even significand.
-/

namespace Multibinding

/-- A finite number, `± significand * 2 ^ power` units of `2 ^ -1074`. The significand has at most
53 bits, and exactly 53 unless the power is zero. -/
structure Binary64 where
  /-- Whether the number carries a minus sign; zero comes with either sign. -/
  negative : Bool
  /-- The significand. -/
  significand : Nat
  /-- The binary exponent, counted from that of the smallest positive number. -/
  power : Nat
deriving DecidableEq

namespace Binary64

/-- The quotient rounded to the nearest whole number, half way to the even one. -/
def roundDiv (num den : Nat) : Nat :=
  let quotient := num / den
  let rest := 2 * (num % den)
  if rest < den ∨ (rest = den ∧ quotient % 2 = 0) then quotient else quotient + 1

/-- The number nearest to `units / den` units of `2 ^ -1074`; none beyond the largest number. -/
def ofUnits? (negative : Bool) (units den : Nat) : Option Binary64 :=
  let power := Nat.log2 (units / den) - 52
  let significand := roundDiv units (den * Nat.pow 2 power)
  let carried := significand == Nat.pow 2 53
  let power := if carried then power + 1 else power
  let significand := if carried then Nat.pow 2 52 else significand
  if power ≤ 2045 then some { negative, significand, power } else none

/-- The number nearest to `num / den`; none beyond the largest number. -/
def ofRatio? (negative : Bool) (num den : Nat) : Option Binary64 :=
  ofUnits? negative (num * Nat.pow 2 1074) den

/-- Zero, of either sign. -/
def zero (negative : Bool) : Binary64 :=
  { negative, significand := 0, power := 0 }

/-- The magnitude in units of `2 ^ -1074`. -/
def units (x : Binary64) : Nat :=
  x.significand * Nat.pow 2 x.power

/-- The rounded product; none on overflow. -/
def mul? (x y : Binary64) : Option Binary64 :=
  ofUnits? (x.negative ^^ y.negative) (x.units * y.units) (Nat.pow 2 1074)

/-- The rounded quotient by a number other than zero; none on overflow. -/
def div? (x y : Binary64) : Option Binary64 :=
  ofRatio? (x.negative ^^ y.negative) x.units y.units

/-- Whether two numbers are equal as numbers; the two zeros are. -/
def eqv (x y : Binary64) : Bool :=
  x == y || (x.significand == 0 && y.significand == 0)

/-- The number nearest to `digits * 10 ^ exponent`; none beyond the largest number. Exponents that
decide the answer alone are not computed with. -/
def ofDecimal? (negative : Bool) (digits : Nat) (exponent : Int) : Option Binary64 :=
  let size : Int := (Nat.toDigits 10 digits).length
  if digits = 0 ∨ size + exponent < -330 then some (zero negative)
  else if 330 < size + exponent then none
  else ofRatio? negative (digits * Nat.pow 10 exponent.toNat) (Nat.pow 10 (-exponent).toNat)

end Binary64

end Multibinding
