import Multibinding.Json.Token

/-!
# JSON documents

The tokens of a text are assembled into a tree that also says where the text goes wrong, if it
does. A reader walks the tree in the order of the text and reports the first thing it cannot use,
so that what it needs and what the text offers meet in one order, and a fault behind that place is
never looked at.
-/

namespace Multibinding.Json

/-- The key of a member. -/
inductive Key where
  | text (s : String)
  /-- A string with an unpaired surrogate. -/
  | unpaired
deriving DecidableEq

/-- How the members of an object end. -/
inductive Closing (α : Type) where
  /-- With the brace. -/
  | closed
  /-- Neither a comma nor a brace follows the last member. -/
  | separatorDue (defect : Defect)
  /-- No key follows the opening brace, but something else does. -/
  | firstKeyDue (fault : Fault) (found : α)
  /-- No key follows a comma. -/
  | nextKeyDue (fault : Fault)

/-- A value in a text, as far as the text goes. -/
inductive Node where
  | null
  | bool (value : Bool)
  | number (text : NumberText)
  | string (value : String)
  /-- A string with an unpaired surrogate. -/
  | unpaired
  /-- An array, and what is wrong if neither a comma nor a bracket follows its last item. -/
  | array (items : List Node) (unclosed : Option Defect)
  | object (members : List (Key × Node)) (closing : Closing Node)
  /-- An array or object inside as many others as a value that is read may stand in. -/
  | deep (content : Node)
  /-- The place where the text goes wrong. -/
  | broken (fault : Fault)

/-- A text: its value, and whether anything but blanks follows it. -/
structure Document where
  /-- The value. -/
  root : Node
  /-- Whether more tokens follow. -/
  trailing : Bool

namespace Document

/-- An array or object whose next value is being assembled. Items and members are in reverse. -/
inductive Frame where
  | items (done : List Node)
  | members (done : List (Key × Node)) (key : Key)

/-- What is due at a place in the text. Items and members are in reverse. -/
inductive Due where
  /-- A value. -/
  | value
  /-- The first item of an array, or its end. -/
  | firstItem
  /-- A comma or the end of an array. -/
  | itemEnd (done : List Node)
  /-- The first key of an object, or its end. -/
  | firstKey
  /-- A key. -/
  | nextKey (done : List (Key × Node))
  /-- The colon behind a key. -/
  | colon (done : List (Key × Node)) (key : Key)
  /-- A comma or the end of an object. -/
  | memberEnd (done : List (Key × Node))
  /-- The end of the text. -/
  | nothing (root : Node)

/-- The state of the assembly: what is due inside which arrays and objects, or the result. -/
inductive State where
  | running (due : Due) (stack : List Frame)
  | finished (document : Document)

/-- In how many arrays and objects a value may stand that is read. -/
def maxDepth : Nat := 127

/-- Marks an array or object that is too deep to be read. -/
def container (content : Node) (stack : List Frame) : Node :=
  if maxDepth ≤ stack.length then .deep content else content

/-- Goes on behind a complete value. -/
def place (n : Node) : List Frame → State
  | [] => .running (.nothing n) []
  | .items done :: stack => .running (.itemEnd (n :: done)) stack
  | .members done key :: stack => .running (.memberEnd ((key, n) :: done)) stack

/-- Ends the document with a value that goes wrong. -/
def abandon (n : Node) : List Frame → Document
  | [] => ⟨n, false⟩
  | .items done :: stack => abandon (container (.array (n :: done).reverse none) stack) stack
  | .members done key :: stack =>
    abandon (container (.object ((key, n) :: done).reverse .closed) stack) stack

/-- The value at a token that is not the opening of an array or object. -/
def leaf : Token → Node
  | .null => .null
  | .bool value => .bool value
  | .number text => .number text
  | .string value => .string value
  | .unpaired => .unpaired
  | .broken _ fault => .broken fault
  | .openArray => .array [] none
  | .openObject => .object [] .closed
  | .closeArray | .closeObject | .comma | .colon => .broken .malformed

/-- The step at a token where a value is due. -/
def takeValue (token : Token) (stack : List Frame) : State :=
  match token with
  | .openArray => .running .firstItem stack
  | .openObject => .running .firstKey stack
  | .broken .. | .closeArray | .closeObject | .comma | .colon =>
    .finished (abandon (leaf token) stack)
  | .null | .bool _ | .number _ | .string _ | .unpaired => place (leaf token) stack

/-- The step at a token. -/
def step : State → Token → State
  | .finished document, _ => .finished document
  | .running due stack, token =>
    let fail (n : Node) : State := .finished (abandon n stack)
    match due with
    | .value => takeValue token stack
    | .firstItem =>
      if token = .closeArray then place (container (.array [] none) stack) stack
      else takeValue token (.items [] :: stack)
    | .itemEnd done =>
      if token = .comma then .running .value (.items done :: stack)
      else if token = .closeArray then place (container (.array done.reverse none) stack) stack
      else fail (container (.array done.reverse (some .malformed)) stack)
    | .firstKey =>
      match token with
      | .string s => .running (.colon [] (.text s)) stack
      | .unpaired => .running (.colon [] .unpaired) stack
      | .closeObject => place (container (.object [] .closed) stack) stack
      -- The text goes wrong inside of the key itself.
      | .broken true fault =>
        fail (container (.object [] (.firstKeyDue fault (.broken fault))) stack)
      | token => fail (container (.object [] (.firstKeyDue .malformed (leaf token))) stack)
    | .nextKey done =>
      match token with
      | .string s => .running (.colon done (.text s)) stack
      | .unpaired => .running (.colon done .unpaired) stack
      | .broken true fault => fail (container (.object done.reverse (.nextKeyDue fault)) stack)
      | _ => fail (container (.object done.reverse (.nextKeyDue .malformed)) stack)
    | .colon done key =>
      if token = .colon then .running .value (.members done key :: stack)
      -- Without its colon the value of a member goes wrong.
      else .finished (abandon (.broken .malformed) (.members done key :: stack))
    | .memberEnd done =>
      if token = .comma then .running (.nextKey done) stack
      else if token = .closeObject then place (container (.object done.reverse .closed) stack) stack
      else fail (container (.object done.reverse (.separatorDue .malformed)) stack)
    -- Nothing may follow the value of the document.
    | .nothing root => .finished ⟨root, true⟩

/-- The document when the tokens end. -/
def finish : State → Document
  | .finished document => document
  | .running due stack =>
    match due with
    | .value => abandon (.broken .ended) stack
    | .firstItem => abandon (container (.array [] (some .ended)) stack) stack
    | .itemEnd done => abandon (container (.array done.reverse (some .ended)) stack) stack
    | .firstKey =>
      abandon (container (.object [] (.firstKeyDue .ended (.broken .ended))) stack) stack
    | .nextKey done => abandon (container (.object done.reverse (.nextKeyDue .ended)) stack) stack
    | .colon done key => abandon (.broken .ended) (.members done key :: stack)
    | .memberEnd done =>
      abandon (container (.object done.reverse (.separatorDue .ended)) stack) stack
    | .nothing root => ⟨root, false⟩

/-- The document of a list of tokens. -/
def ofTokens (tokens : List Token) : Document :=
  finish (tokens.foldl step (.running .value []))

/-- The document of a text. -/
def parse (s : String) : Document :=
  ofTokens (tokens s)

end Document

end Multibinding.Json
