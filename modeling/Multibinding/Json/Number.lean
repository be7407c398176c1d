import Multibinding.Number.Decimal
import Multibinding.Number.Word

/-!
# JSON numbers

A number literal is kept as its digits until it is read. A literal without fraction and exponent
is an integer if it fits 64 bits, signed or unsigned; every other literal is a floating-point
number, and so is minus zero. Of a long literal only the leading digits count that fit an unsigned
64-bit number; the power of ten that is left is applied with one rounding, or with two where it is
below `10 ^ -308`.
-/

namespace Multibinding.Json

/-- The parts of a number literal; all digit lists are in reading order. -/
structure NumberText where
  /-- Whether a minus sign stands in front. -/
  negative : Bool
  /-- The digits before the point. -/
  whole : List Nat
  /-- The digits after the point, if there is one. -/
  fraction : Option (List Nat)
  /-- Whether the exponent is negative, and its digits, if there is one. -/
  exponent : Option (Bool × List Nat)
deriving DecidableEq

/-- The value of a number literal. -/
inductive Number where
  /-- An integer from `-2 ^ 63` to `2 ^ 64 - 1`. -/
  | int (value : Int)
  /-- Any other number. -/
  | float (value : Binary64)
deriving DecidableEq

namespace NumberText

/-- Appends digits to a number for as long as the result fits an unsigned 64-bit number, and
returns it with the digits that are left. -/
def absorb (n : Nat) : List Nat → Nat × List Nat
  | [] => (n, [])
  | d :: rest => if n * 10 + d < Word.count then absorb (n * 10 + d) rest else (n, d :: rest)

/-- The number that a list of digits writes. -/
def ofDigits (digits : List Nat) : Nat :=
  digits.foldl (fun n d => n * 10 + d) 0

/-- The floating-point number nearest to a power of ten. -/
def powerOfTen? (exponent : Nat) : Option Binary64 :=
  Binary64.ofRatio? false (Nat.pow 10 exponent) 1

/-- A magnitude times a power of ten; none beyond the largest number. A division by `10 ^ 308`
comes first where the power is smaller than that, and two of them leave nothing of a 64-bit
number. -/
def scale? (significand : Nat) (exponent : Int) : Option Binary64 := do
  let x ← Binary64.ofRatio? false significand 1
  let size := exponent.natAbs
  if significand = 0 then return x
  else if 0 ≤ exponent then
    if size ≤ 308 then x.mul? (← powerOfTen? size) else none
  else if size ≤ 308 then x.div? (← powerOfTen? size)
  else if size ≤ 616 then
    (← x.div? (← powerOfTen? 308)).div? (← powerOfTen? (size - 308))
  else return .zero false

/-- The value of a literal; none if it is beyond the largest floating-point number. -/
def value? (t : NumberText) : Option Number :=
  let (significand, cut) := absorb 0 t.whole
  match t.fraction, t.exponent, cut with
  | none, none, [] =>
    if !t.negative then some (.int significand)
    else if 0 < significand ∧ significand ≤ Word.half then some (.int (-significand))
    else (Binary64.ofRatio? true significand 1).map .float
  | fraction, exponent, cut =>
    let digits := fraction.getD []
    let (significand, rest) := absorb significand digits
    let shift : Int := cut.length - (digits.length - rest.length : Nat)
    let power : Int := match exponent with
      | none => 0
      | some (true, e) => -(ofDigits e : Int)
      | some (false, e) => ofDigits e
    (scale? significand (shift + power)).map fun x => .float { x with negative := t.negative }

end NumberText

namespace Number

/-- The text of a number. A floating-point number shows its shortest digits, without exponent
from `10 ^ -5` up to `10 ^ 16`, and always with a point or an exponent. -/
def text : Number → String
  | .int value => toString value
  | .float value => value.textWith ['0', '.', '0'] fun d =>
    if -5 < d.point ∧ d.point ≤ 16 then d.positional ['.', '0'] else d.scientific

end Number

end Multibinding.Json
