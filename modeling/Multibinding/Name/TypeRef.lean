import Multibinding.Name.ClassName

/-!
# Type references

A type as it stands in a declaration: a class, a class with type arguments, or a wildcard.
-/

namespace Multibinding

/-- A reference to a type. -/
inductive TypeRef where
  /-- A class without type arguments. -/
  | declared (name : ClassName)
  /-- A class with a list of type arguments. -/
  | parameterized (raw : ClassName) (arguments : List TypeRef)
  /-- The wildcard without a bound. -/
  | wildcard
  /-- The wildcard of the types below a bound. -/
  | subtypeOf (bound : TypeRef)

namespace TypeRef

mutual

/-- Decides whether two type references are equal. -/
def decEq : (s t : TypeRef) → Decidable (s = t)
  | .declared a, .declared b => decidable_of_iff (a = b) (by simp)
  | .parameterized a s, .parameterized b t =>
    have := decEqList s t
    decidable_of_iff (a = b ∧ s = t) (by simp)
  | .wildcard, .wildcard => .isTrue rfl
  | .subtypeOf s, .subtypeOf t =>
    have := decEq s t
    decidable_of_iff (s = t) (by simp)
  | .declared _, .parameterized .. | .declared _, .wildcard | .declared _, .subtypeOf _
  | .parameterized .., .declared _ | .parameterized .., .wildcard | .parameterized .., .subtypeOf _
  | .wildcard, .declared _ | .wildcard, .parameterized .. | .wildcard, .subtypeOf _
  | .subtypeOf _, .declared _ | .subtypeOf _, .parameterized .. | .subtypeOf _, .wildcard =>
    .isFalse (by simp)

/-- Decides whether two lists of type references are equal. -/
def decEqList : (s t : List TypeRef) → Decidable (s = t)
  | [], [] => .isTrue rfl
  | a :: s, b :: t =>
    have := decEq a b
    have := decEqList s t
    decidable_of_iff (a = b ∧ s = t) (by simp)
  | [], _ :: _ | _ :: _, [] => .isFalse (by simp)

end

instance : DecidableEq TypeRef := decEq

mutual

/-- The text of a type reference as it stands in source code. -/
def text : TypeRef → String
  | .declared name => name.canonical
  | .parameterized raw arguments =>
    raw.canonical ++ "<" ++ String.intercalate ", " (texts arguments) ++ ">"
  | .wildcard => "?"
  | .subtypeOf bound => "? extends " ++ bound.text

/-- The texts of several type references. -/
def texts : List TypeRef → List String
  | [] => []
  | t :: rest => t.text :: texts rest

end

instance : ToString TypeRef := ⟨text⟩

/-- The reference to the root of all classes. -/
def object : TypeRef := .declared .object

/-- Reads a dotted name as the reference to a class. -/
def parse (s : String) : Except NameError TypeRef :=
  (ClassName.parse s).map .declared

/-- The class without its type arguments; a wildcard has none. -/
def rawClass? : TypeRef → Option ClassName
  | .declared name => some name
  | .parameterized raw _ => some raw
  | .wildcard | .subtypeOf _ => none

/-- The type arguments. -/
def arguments : TypeRef → List TypeRef
  | .parameterized _ arguments => arguments
  | .declared _ | .wildcard | .subtypeOf _ => []

/-- The bound of a wildcard, one level deep, which is the root of all classes if it states none.
Every other type is its own bound. -/
def upperBound : TypeRef → TypeRef
  | .wildcard => .object
  | .subtypeOf bound => bound
  | t => t

end TypeRef

end Multibinding
