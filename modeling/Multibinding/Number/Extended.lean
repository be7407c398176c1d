import Multibinding.Number.Decimal
import Multibinding.Number.Word

/-!
# Floating-point numbers with infinities

The finite numbers together with the two infinities and what is not a number, and the decimal
notation they are read from.
-/

namespace Multibinding

/-- A floating-point number. -/
inductive ExtendedFloat where
  | finite (value : Binary64)
  | infinite (negative : Bool)
  | notANumber
deriving DecidableEq

namespace ExtendedFloat

/-- The text of a number, without an exponent; a whole number has no point. -/
def text : ExtendedFloat → String
  | .finite x => x.plainText
  | .infinite false => "inf"
  | .infinite true => "-inf"
  | .notANumber => "NaN"

/-- The text of a number that shows that it is none of the integers. -/
def pointedText : ExtendedFloat → String
  | .finite x => x.textWith ['0', '.', '0'] (Decimal.positional ['.', '0'])
  | x => x.text

/-- The number that decimal digits write. -/
def ofDigits (digits : List Char) : Nat :=
  digits.foldl (fun n c => n * 10 + (c.toNat - '0'.toNat)) 0

/-- Splits off a sign. -/
def signed : List Char → Bool × List Char
  | '-' :: rest => (true, rest)
  | '+' :: rest => (false, rest)
  | s => (false, s)

/-- The exponent of a decimal number, with its mark; no text is the exponent zero. -/
def exponent? : List Char → Option Int
  | [] => some 0
  | c :: rest =>
    let (negative, digits) := signed rest
    if (c = 'e' ∨ c = 'E') ∧ !digits.isEmpty ∧ digits.all Char.isDigit then
      some (if negative then -(ofDigits digits : Int) else ofDigits digits)
    else none

/-- Reads a decimal number: digits with or without a point among them, a sign and an exponent. A
number beyond the largest one is infinite. -/
def ofDecimal? (s : String) : Option ExtendedFloat := do
  let (negative, s) := signed s.toList
  let whole := s.takeWhile Char.isDigit
  let rest := s.dropWhile Char.isDigit
  let (fraction, rest) := match rest with
    | '.' :: rest => (rest.takeWhile Char.isDigit, rest.dropWhile Char.isDigit)
    | rest => ([], rest)
  let exponent ← exponent? rest
  let digits := whole ++ fraction
  if digits.isEmpty then none
  else match Binary64.ofDecimal? negative (ofDigits digits) (exponent - fraction.length) with
    | some x => return .finite x
    | none => return .infinite negative

end ExtendedFloat

end Multibinding
