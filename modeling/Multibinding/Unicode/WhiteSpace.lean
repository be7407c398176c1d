/-!
# The Unicode property `White_Space`
-/

namespace Multibinding.Unicode

/-- The characters with the property `White_Space`. -/
def whiteSpace : List Char :=
  ['\t', '\n', '\x0b', '\x0c', '\r', ' ', '\x85', '\xa0', '\u1680', '\u2000', '\u2001', '\u2002',
   '\u2003', '\u2004', '\u2005', '\u2006', '\u2007', '\u2008', '\u2009', '\u200a', '\u2028',
   '\u2029', '\u202f', '\u205f', '\u3000']

/-- Whether a character has the property `White_Space`. -/
def isWhiteSpace (c : Char) : Bool :=
  whiteSpace.contains c

end Multibinding.Unicode
