/-!
# Words of 64 bits

The integers that fit a word of 64 bits, signed or unsigned.
-/

namespace Multibinding.Word

/-- How many integers a word holds. -/
def count : Nat :=
  Nat.pow 2 64

/-- How many of the integers that a signed word holds are negative. -/
def half : Nat :=
  Nat.pow 2 63

/-- Whether an integer fits a signed word. -/
def isSigned (value : Int) : Bool :=
  -(half : Int) ≤ value && value < half

end Multibinding.Word
