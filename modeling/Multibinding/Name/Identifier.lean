import Multibinding.Unicode.Alphabetic
import Multibinding.Unicode.Numeric

/-!
# Identifiers

An identifier starts with a letter, an underscore or a dollar sign and goes on with these and with
numbers. Letters and numbers are those of Unicode.
-/

namespace Multibinding

/-- Whether a character is a letter or a number. -/
def isAlphanumeric (c : Char) : Bool :=
  Unicode.isAlphabetic c || Unicode.isNumeric c

/-- Whether an identifier may start with the character. -/
def isIdentifierStart (c : Char) : Bool :=
  Unicode.isAlphabetic c || c == '_' || c == '$'

/-- Whether an identifier may go on with the character. -/
def isIdentifierPart (c : Char) : Bool :=
  isAlphanumeric c || c == '_' || c == '$'

/-- Whether a text is an identifier. -/
def isIdentifier (s : String) : Bool :=
  match s.toList with
  | [] => false
  | c :: rest => isIdentifierStart c && rest.all isIdentifierPart

end Multibinding
