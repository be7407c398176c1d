/-!
# Spans of code points

A Unicode property is kept as a list of spans in ascending order, each given by its first and its
last code point. A look-up walks the list and stops at the first span that starts beyond the code
point.
-/

namespace Multibinding.Unicode

/-- Whether a code point lies in one of the spans. -/
def inSpans (n : Nat) : List (Nat × Nat) → Bool
  | [] => false
  | (first, last) :: rest => if n < first then false else n ≤ last || inSpans n rest

/-- Whether a code point lies in one of the spans at an even distance from its first. -/
def inAlternations (n : Nat) : List (Nat × Nat) → Bool
  | [] => false
  | (first, last) :: rest =>
    if n < first then false
    else if n ≤ last then (n - first) % 2 == 0
    else inAlternations n rest

end Multibinding.Unicode
