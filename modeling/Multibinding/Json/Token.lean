import Multibinding.Json.Number

/-!
# JSON tokens

A text is cut into tokens one character at a time. The scanner goes on up to the first place where
no token can be read; what is wrong there becomes the last token. How such a place is reported
depends on what is expected at it, which only the reader of the document knows, so that the token
keeps the answers to all three questions a reader may ask.
-/

namespace Multibinding.Json

/-- In which way a text fails to be JSON. -/
inductive Defect where
  /-- The text ends too early. -/
  | ended
  /-- Something stands where it must not. -/
  | malformed
deriving DecidableEq

/-- How a place in a text fails, by what is done with it. -/
structure Fault where
  /-- When a value is read there. -/
  whenRead : Defect
  /-- When a value is skipped there. -/
  whenSkipped : Defect
  /-- When the name of a variant is due there. -/
  whenNamed : Defect
  /-- Whether the place is inside the word null. -/
  inNull : Bool
deriving DecidableEq

namespace Fault

/-- Something stands where it must not. -/
def malformed : Fault := ⟨.malformed, .malformed, .malformed, false⟩

/-- The text ends where something is due. -/
def ended : Fault := ⟨.ended, .ended, .ended, false⟩

/-- The text ends inside a number. -/
def endedInNumber : Fault := ⟨.ended, .malformed, .malformed, false⟩

/-- The text ends inside a word. -/
def endedInWord (inNull : Bool) : Fault := ⟨.ended, .ended, .malformed, inNull⟩

/-- The text ends inside a string, which may have had an unpaired surrogate before. -/
def endedInString (unpaired : Bool) : Fault :=
  let read : Defect := if unpaired then .malformed else .ended
  ⟨read, .ended, read, false⟩

end Fault

/-- A token. -/
inductive Token where
  | openArray
  | closeArray
  | openObject
  | closeObject
  | comma
  | colon
  | null
  | bool (value : Bool)
  | number (text : NumberText)
  | string (value : String)
  /-- A string with an unpaired surrogate, which can be skipped but not read. -/
  | unpaired
  /-- The place where no token can be read, and whether it is inside a string. -/
  | broken (inString : Bool) (fault : Fault)
deriving DecidableEq

namespace Scanner

/-- How far a number literal has come. Digit lists are in reverse. -/
inductive NumberStage where
  /-- After the minus sign. -/
  | sign
  /-- After a leading zero. -/
  | zero
  /-- In the digits before the point. -/
  | whole
  /-- After the point. -/
  | point
  /-- In the digits after the point. -/
  | fraction
  /-- After the exponent mark. -/
  | mark
  /-- After the sign of the exponent. -/
  | markSign
  /-- In the digits of the exponent. -/
  | exponent

/-- How far a string has come. -/
inductive StringStage where
  /-- Between characters. -/
  | plain
  /-- After a backslash. -/
  | escape
  /-- Inside a numeric escape: the bytes seen of its four, its value so far if they are digits,
  and the leading surrogate right before it. -/
  | hex (bytes : Nat) (value : Option Nat) (lead : Option Nat)
  /-- After a leading surrogate. -/
  | lead (high : Nat)
  /-- After a leading surrogate and a backslash. -/
  | leadEscape (high : Nat)

/-- What the scanner is in the middle of. -/
inductive Mode where
  /-- Between tokens. -/
  | between
  /-- In a word, of which these characters are still due. -/
  | word (due : List Char) (token : Token)
  /-- In a number. -/
  | number (stage : NumberStage) (text : NumberText)
  /-- In a string: the characters so far in reverse, and whether a surrogate had no partner. -/
  | string (stage : StringStage) (done : List Char) (unpaired : Bool)
  /-- Behind the first fault. -/
  | stopped

/-- Whether a character may stand between tokens. -/
def isBlank (c : Char) : Bool :=
  c == ' ' || c == '\n' || c == '\t' || c == '\r'

/-- The value of a decimal digit. -/
def digit? (c : Char) : Option Nat :=
  if c.isDigit then some (c.toNat - '0'.toNat) else none

/-- The value of a hexadecimal digit. -/
def hexDigit? (c : Char) : Option Nat :=
  if c.isDigit then some (c.toNat - '0'.toNat)
  else if 'a' ≤ c ∧ c ≤ 'f' then some (c.toNat - 'a'.toNat + 10)
  else if 'A' ≤ c ∧ c ≤ 'F' then some (c.toNat - 'A'.toNat + 10)
  else none

/-- The end of scanning at a place where something stands that must not. -/
def stray : Mode × List Token :=
  (.stopped, [.broken false .malformed])

/-- The end of scanning inside a string. -/
def strayInString : Mode × List Token :=
  (.stopped, [.broken true .malformed])

/-- The step at a character between tokens. -/
def start (c : Char) : Mode × List Token :=
  if isBlank c then (.between, [])
  else match c with
    | '[' => (.between, [.openArray])
    | ']' => (.between, [.closeArray])
    | '{' => (.between, [.openObject])
    | '}' => (.between, [.closeObject])
    | ',' => (.between, [.comma])
    | ':' => (.between, [.colon])
    | 'n' => (.word ['u', 'l', 'l'] .null, [])
    | 't' => (.word ['r', 'u', 'e'] (.bool true), [])
    | 'f' => (.word ['a', 'l', 's', 'e'] (.bool false), [])
    | '"' => (.string .plain [] false, [])
    | '-' => (.number .sign ⟨true, [], none, none⟩, [])
    | c => match digit? c with
      | some 0 => (.number .zero ⟨false, [0], none, none⟩, [])
      | some d => (.number .whole ⟨false, [d], none, none⟩, [])
      | none => stray

/-- The step at a character inside a word. -/
def inWord (due : List Char) (token : Token) (c : Char) : Mode × List Token :=
  match due with
  | [] => let (mode, tokens) := start c; (mode, token :: tokens)
  | d :: due =>
    if c ≠ d then stray
    else if due.isEmpty then (.between, [token])
    else (.word due token, [])

/-- The literal with its digits in reading order. -/
def finished (text : NumberText) : NumberText :=
  { text with
    whole := text.whole.reverse
    fraction := text.fraction.map List.reverse
    exponent := text.exponent.map fun (negative, digits) => (negative, digits.reverse) }

/-- Whether a number literal may end at a stage. -/
def NumberStage.final : NumberStage → Bool
  | .zero | .whole | .fraction | .exponent => true
  | .sign | .point | .mark | .markSign => false

/-- The literal with one more digit, in the part that the stage is in. -/
def pushDigit (stage : NumberStage) (text : NumberText) (d : Nat) : NumberText :=
  match stage with
  | .sign | .zero | .whole => { text with whole := d :: text.whole }
  | .point | .fraction => { text with fraction := some (d :: text.fraction.getD []) }
  | .mark | .markSign | .exponent =>
    let (negative, digits) := text.exponent.getD (false, [])
    { text with exponent := some (negative, d :: digits) }

/-- The stage after one more digit; none where no digit may stand. -/
def NumberStage.afterDigit? (d : Nat) : NumberStage → Option NumberStage
  | .sign => some (if d = 0 then .zero else .whole)
  | .zero => none
  | .whole => some .whole
  | .point | .fraction => some .fraction
  | .mark | .markSign | .exponent => some .exponent

/-- The step at a character inside a number. -/
def inNumber (stage : NumberStage) (text : NumberText) (c : Char) : Mode × List Token :=
  match digit? c with
  | some d =>
    match stage.afterDigit? d with
    | some stage' => (.number stage' (pushDigit stage text d), [])
    | none => stray
  | none =>
    match stage with
    | .mark =>
      if c = '+' ∨ c = '-' then
        (.number .markSign { text with exponent := some (c == '-', []) }, [])
      else stray
    | .sign | .point | .markSign => stray
    | stage =>
      let hasFraction := text.fraction.isSome || text.exponent.isSome
      if c = '.' ∧ !hasFraction then (.number .point text, [])
      else if (c = 'e' ∨ c = 'E') ∧ text.exponent.isNone ∧ stage.final then (.number .mark text, [])
      -- The number is complete, and the character starts what follows it.
      else let (mode, tokens) := start c; (mode, .number (finished text) :: tokens)

/-- The step at a character between the characters of a string. -/
def inPlain (done : List Char) (unpaired : Bool) (c : Char) : Mode × List Token :=
  if c = '"' then
    (.between, [if unpaired then .unpaired else .string (String.ofList done.reverse)])
  else if c = '\\' then (.string .escape done unpaired, [])
  else if c < ' ' then strayInString
  else (.string .plain (c :: done) unpaired, [])

/-- The step at the character after a backslash. -/
def inEscape (done : List Char) (unpaired : Bool) (c : Char) : Mode × List Token :=
  let push (d : Char) : Mode × List Token := (.string .plain (d :: done) unpaired, [])
  match c with
  | '"' => push '"'
  | '\\' => push '\\'
  | '/' => push '/'
  | 'b' => push '\x08'
  | 'f' => push '\x0c'
  | 'n' => push '\n'
  | 'r' => push '\r'
  | 't' => push '\t'
  | 'u' => (.string (.hex 0 (some 0) none) done unpaired, [])
  | _ => strayInString

/-- The string after a complete numeric escape. -/
def afterHex (n : Nat) (lead : Option Nat) (done : List Char) (unpaired : Bool) : Mode :=
  match lead with
  | some high =>
    -- The two halves of a pair make one character.
    if 0xDC00 ≤ n ∧ n ≤ 0xDFFF then
      let c := Char.ofNat (0x10000 + (high - 0xD800) * 0x400 + (n - 0xDC00))
      .string .plain (c :: done) unpaired
    else .string .plain done true
  | none =>
    if 0xDC00 ≤ n ∧ n ≤ 0xDFFF then .string .plain done true
    else if 0xD800 ≤ n ∧ n ≤ 0xDBFF then .string (.lead n) done unpaired
    else .string .plain (Char.ofNat n :: done) unpaired

/-- The step at a character inside a string. -/
def inString (stage : StringStage) (done : List Char) (unpaired : Bool) (c : Char) :
    Mode × List Token :=
  match stage with
  | .plain => inPlain done unpaired c
  | .escape => inEscape done unpaired c
  | .hex bytes value lead =>
    -- An escape has four bytes, whatever characters they belong to.
    let bytes := bytes + c.utf8Size
    let value := do return (← value) * 16 + (← hexDigit? c)
    if bytes < 4 then (.string (.hex bytes value lead) done unpaired, [])
    else match value with
      | some n => (afterHex n lead done unpaired, [])
      | none => strayInString
  | .lead high =>
    if c = '\\' then (.string (.leadEscape high) done unpaired, []) else inPlain done true c
  | .leadEscape high =>
    if c = 'u' then (.string (.hex 0 (some 0) (some high)) done unpaired, [])
    else inEscape done true c

/-- The step at a character. -/
def step : Mode → Char → Mode × List Token
  | .between, c => start c
  | .word due token, c => inWord due token c
  | .number stage text, c => inNumber stage text c
  | .string stage done unpaired, c => inString stage done unpaired c
  | .stopped, _ => (.stopped, [])

/-- The tokens that the end of the text completes. -/
def finish : Mode → List Token
  | .between | .stopped => []
  | .word _ token => [.broken false (.endedInWord (token = .null))]
  | .number stage text =>
    [if stage.final then .number (finished text) else .broken false .endedInNumber]
  | .string _ _ unpaired => [.broken true (.endedInString unpaired)]

/-- The tokens of the rest of a text. -/
def scan : Mode → List Char → List Token
  | mode, [] => finish mode
  | mode, c :: rest =>
    let (mode, tokens) := step mode c
    tokens ++ scan mode rest

end Scanner

/-- The tokens of a text. -/
def tokens (s : String) : List Token :=
  Scanner.scan .between s.toList

end Multibinding.Json
