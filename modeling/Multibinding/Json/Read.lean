import Multibinding.Json.Value
import Multibinding.Name.ClassName
import Multibinding.Text.Quoted

/-!
# Reading JSON documents

A reader takes a value from a document or says why it cannot. Errors are met in the order of the
text: what is wrong with an earlier place hides every later one. A record is read from an object,
whose unknown members are skipped, or from an array of its fields in their order.
-/

namespace Multibinding.Json

/-- What a reader found in place of what it expected. -/
inductive Found where
  | null
  | bool (value : Bool)
  | number (value : Number)
  | string (value : String)
  | sequence
  | map
  /-- A bare name where a variant has contents. -/
  | unitVariant

/-- The description of what was found. -/
def Found.text : Found → String
  | .null => "null"
  | .bool value => s!"boolean `{value}`"
  | .number (.int value) => s!"integer `{value}`"
  | .number (.float value) => s!"floating point `{(Number.float value).text}`"
  | .string value => "string " ++ Text.quoted value
  | .sequence => "sequence"
  | .map => "map"
  | .unitVariant => "unit variant"

/-- Why well-formed JSON does not fit a reader. -/
inductive DataError where
  | invalidType (found : Found) (expected : String)
  | invalidLength (length : Nat) (expected : String)
  | missingField (name : String)
  | duplicateField (name : String)
  | unknownVariant (name : String) (known : List String)
  | invalidName (error : NameError)

/-- A list of alternatives in quotes. -/
def alternatives : List String → String
  | [] => "there are no variants"
  | [a] => s!"expected `{a}`"
  | [a, b] => s!"expected `{a}` or `{b}`"
  | known => "expected one of " ++ String.intercalate ", " (known.map fun a => s!"`{a}`")

/-- The wording of a data error. -/
def DataError.message : DataError → String
  | .invalidType found expected => s!"invalid type: {found.text}, expected {expected}"
  | .invalidLength length expected => s!"invalid length {length}, expected {expected}"
  | .missingField name => s!"missing field `{name}`"
  | .duplicateField name => s!"duplicate field `{name}`"
  | .unknownVariant name known => s!"unknown variant `{name}`, {alternatives known}"
  | .invalidName error => error.message

/-- Why nothing can be read from a text. -/
inductive ReadError where
  /-- The text is no JSON. -/
  | text (defect : Defect)
  /-- The text is JSON of another shape. -/
  | data (error : DataError)

/-- Reads a value from a place in a document. -/
abbrev Reader (α : Type) : Type :=
  Node → Except ReadError α

namespace Node

mutual

/-- Skips a value. A skipped value may hold numbers of any size, unpaired surrogates and any
depth. -/
def skip : Node → Except Defect Unit
  | .null | .bool _ | .number _ | .string _ | .unpaired => .ok ()
  | .array items unclosed => do
    skipItems items
    match unclosed with
    | none => .ok ()
    | some defect => .error defect
  | .object members closing => do
    skipMembers members
    match closing with
    | .closed => .ok ()
    | .separatorDue defect => .error defect
    | .firstKeyDue fault _ | .nextKeyDue fault => .error fault.whenSkipped
  | .deep content => content.skip
  | .broken fault => .error fault.whenSkipped

/-- Skips items. -/
def skipItems : List Node → Except Defect Unit
  | [] => .ok ()
  | n :: rest => do
    n.skip
    skipItems rest

/-- Skips members. -/
def skipMembers : List (Key × Node) → Except Defect Unit
  | [] => .ok ()
  | (_, n) :: rest => do
    n.skip
    skipMembers rest

end

/-- What stands at a place, if a value can be read there at all. -/
def found : Node → Except ReadError Found
  | .null => .ok .null
  | .bool value => .ok (.bool value)
  | .number text => match text.value? with
    | some value => .ok (.number value)
    | none => .error (.text .malformed)
  | .string value => .ok (.string value)
  | .unpaired => .error (.text .malformed)
  | .array .. => .ok .sequence
  | .object .. => .ok .map
  | .deep content => content.found
  | .broken fault => .error (.text fault.whenRead)

/-- The error of a place where something else is expected. -/
def mismatch (expected : String) (n : Node) : ReadError :=
  match n.found with
  | .ok found => .data (.invalidType found expected)
  | .error e => e

/-- Fails unless an array is closed behind its last item. -/
def closeArray : Option Defect → Except ReadError Unit
  | none => .ok ()
  | some defect => .error (.text defect)

/-- Fails unless an object is closed behind its last member. -/
def closeObject : Closing Node → Except ReadError Unit
  | .closed => .ok ()
  | .separatorDue defect => .error (.text defect)
  | .firstKeyDue fault _ | .nextKeyDue fault => .error (.text fault.whenRead)

/-- The key of a member that is read. -/
def key : Key → Except ReadError String
  | .text s => .ok s
  | .unpaired => .error (.text .malformed)

mutual

/-- Reads any value. -/
def value : Reader Value
  | .null => .ok .null
  | .bool value => .ok (.bool value)
  | .number text => match text.value? with
    | some value => .ok (.number value)
    | none => .error (.text .malformed)
  | .string value => .ok (.string value)
  | .unpaired | .deep _ => .error (.text .malformed)
  | .array items unclosed => do
    let items ← values items
    closeArray unclosed
    return .array items
  | .object members closing => do
    let members ← memberValues members
    closeObject closing
    return .object members
  | .broken fault => .error (.text fault.whenRead)

/-- Reads any items. -/
def values : List Node → Except ReadError (List Value)
  | [] => .ok []
  | n :: rest => do
    let v ← n.value
    return v :: (← values rest)

/-- Reads any members. -/
def memberValues : List (Key × Node) → Except ReadError (List (String × Value))
  | [] => .ok []
  | (k, n) :: rest => do
    let k ← key k
    let v ← n.value
    return (k, v) :: (← memberValues rest)

end

end Node

namespace Reader

variable {α σ : Type}

/-- Reads a string. -/
def stringOf (expected : String) : Reader String
  | .string value => .ok value
  | n => .error (n.mismatch expected)

/-- Reads a string. -/
def string : Reader String :=
  stringOf "a string"

/-- Reads a dotted class name. -/
def className : Reader ClassName := fun n => do
  match ClassName.parse (← string n) with
  | .ok name => return name
  | .error e => throw (.data (.invalidName e))

/-- Reads a value that may be absent, which is written as null. -/
def optional (read : Reader α) : Reader (Option α)
  | .null => .ok none
  | .broken fault =>
    if fault.inNull then .error (.text fault.whenRead) else (read (.broken fault)).map some
  | n => (read n).map some

/-- Reads nothing, which is written as null. -/
def unit : Reader Unit
  | .null => .ok ()
  | n => .error (n.mismatch "unit")

/-- Reads the items of an array. -/
def array (read : Reader α) : Reader (List α)
  | .array items unclosed => do
    let items ← items.mapM read
    Node.closeArray unclosed
    return items
  | .deep (.array ..) => .error (.text .malformed)
  | n => .error (n.mismatch "a sequence")

/-- Reads the members of an object, of which the last one of a key counts. -/
def entries (read : Reader α) : Reader (List (String × α))
  | .object members closing => do
    let members ← members.mapM fun (k, n) => do
      let k ← Node.key k
      return (k, ← read n)
    Node.closeObject closing
    return Entries.ofList members
  | .deep (.object ..) => .error (.text .malformed)
  | n => .error (n.mismatch "a map")

/-- A field of a record, whose fields read so far are a state of type `σ`. -/
structure Field (σ : Type) where
  /-- The name of the field. -/
  name : String
  /-- Whether the field has been read. -/
  isSet : σ → Bool
  /-- Reads the field. -/
  read : σ → Reader σ

/-- A field that is kept as an option until it is read. -/
def Field.of (name : String) (get : σ → Option α) (set : σ → α → σ) (read : Reader α) : Field σ :=
  { name, isSet := fun s => (get s).isSome, read := fun s n => (read n).map (set s) }

/-- How a record is written. -/
structure Shape (σ : Type) where
  /-- What is expected where the record is due. -/
  expected : String
  /-- The fields in their order. -/
  fields : List (Field σ)
  /-- How many of the fields, from the first on, may not be missing. -/
  required : Nat

namespace Shape

/-- The expectation of a record given as a list. -/
def expectedLength (shape : Shape σ) : String :=
  let count := shape.fields.length
  shape.expected ++ s!" with {count} element" ++ (if count = 1 then "" else "s")

/-- Reads the members of a record. -/
def readMembers (shape : Shape σ) (s : σ) : List (Key × Node) → Except ReadError σ
  | [] => .ok s
  | (k, n) :: rest => do
    let name ← Node.key k
    match shape.fields.find? (·.name == name) with
    | none =>
      match n.skip with
      | .ok () => shape.readMembers s rest
      | .error defect => throw (.text defect)
    | some field =>
      if field.isSet s then throw (.data (.duplicateField name))
      else shape.readMembers (← field.read s n) rest

/-- Reads the fields of a record given as a list: those that are left of it, of which `done` have
been read. -/
def readItems (shape : Shape σ) (done : Nat) (s : σ) :
    List (Field σ) → List Node → Option Defect → Except ReadError σ
  | [], [], unclosed => do
    Node.closeArray unclosed
    return s
  | [], _ :: _, _ => throw (.text .malformed)
  | _ :: _, [], unclosed => do
    Node.closeArray unclosed
    if done < shape.required then throw (.data (.invalidLength done shape.expectedLength))
    return s
  | field :: fields, n :: rest, unclosed => do
    shape.readItems (done + 1) (← field.read s n) fields rest unclosed

/-- Reads the fields of a record, starting from those that `init` has. -/
def read (shape : Shape σ) (init : σ) : Reader σ
  | .object members closing => do
    let s ← shape.readMembers init members
    Node.closeObject closing
    return s
  | .array items unclosed => shape.readItems 0 init shape.fields items unclosed
  | .deep _ => .error (.text .malformed)
  | n => .error (n.mismatch shape.expected)

end Shape

/-- The value of a field that may not be missing. -/
def require (name : String) : Option α → Except ReadError α
  | some value => .ok value
  | none => .error (.data (.missingField name))

/-- A variant of a choice: how it is read as a bare name, and how from its contents. -/
structure Variant (α : Type) where
  /-- The name of the variant. -/
  name : String
  /-- Reads the bare name. -/
  bare : Except ReadError α
  /-- Reads the contents. -/
  contents : Reader α

/-- A variant without contents. -/
def Variant.plain (name : String) (value : α) : Variant α :=
  { name, bare := .ok value, contents := fun n => (unit n).map fun _ => value }

/-- A variant whose contents may not be missing; `kind` says of which kind they are. -/
def Variant.full (name kind : String) (contents : Reader α) : Variant α :=
  { name, bare := .error (.data (.invalidType .unitVariant kind)), contents }

/-- Finds a variant by name. -/
def variant (variants : List (Variant α)) (name : String) : Except ReadError (Variant α) :=
  match variants.find? (·.name == name) with
  | some v => .ok v
  | none => .error (.data (.unknownVariant name (variants.map (·.name))))

/-- Reads a choice: a bare name, or an object whose only member is named after the variant. -/
def choice (variants : List (Variant α)) : Reader α
  | .string name => do (← variant variants name).bare
  | .object members closing =>
    match members with
    | [] => match closing with
      | .firstKeyDue _ found => .error (found.mismatch "variant identifier")
      | _ => .error (.text .malformed)
    | (k, n) :: rest => do
      let v ← variant variants (← Node.key k)
      let value ← v.contents n
      match rest, closing with
      | [], .closed => return value
      | [], .separatorDue defect => throw (.text defect)
      | _, _ => throw (.text .malformed)
  | .broken fault => .error (.text fault.whenNamed)
  | _ => .error (.text .malformed)

/-- Reads a whole document. -/
def document (read : Reader α) (d : Document) : Except ReadError α := do
  let value ← read d.root
  if d.trailing then throw (.text .malformed)
  return value

/-- Reads a text. -/
def run (read : Reader α) (s : String) : Except ReadError α :=
  document read (Document.parse s)

end Reader

end Multibinding.Json
