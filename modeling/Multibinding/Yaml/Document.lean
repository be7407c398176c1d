import Multibinding.Yaml.Scalar

/-!
# YAML documents

A document is read as settings. Its blocks are told apart by the columns they stand at: the parts of
a mapping or a sequence start at one column, and what belongs to a part at greater ones, except that
a sequence may stand at the column of the mapping it belongs to.

All nodes are read by functions that call each other with one turn less; a text has fewer nodes than
the turns it is given.
-/

namespace Multibinding.Yaml

/-- The entries of a mapping that have been read, each with whether its key is an integer. -/
abbrev Pairs : Type :=
  List ((Bool × String) × Setting)

/-- The key that a value makes. -/
def key? : Setting → Option (Bool × String)
  | .string s => some (false, s)
  | .int n => some (true, toString n)
  | _ => none

/-- Adds an entry, unless its key is there already. -/
def Pairs.add (pairs : Pairs) (key value : Setting) : Option Pairs := do
  let k ← key? key
  if (pairs.lookup k).isSome then none else some (pairs ++ [(k, value)])

/-- The table that the entries of a mapping make. -/
def Pairs.table (pairs : Pairs) : Setting :=
  .table none (Entries.ofList (pairs.map fun ((_, key), value) => (key, value)))

/-- What stands in front of a node: a name for it, and a tag. -/
structure Properties where
  /-- The name. -/
  anchor : Option String := none
  /-- The tag. -/
  tag : Option String := none

namespace Scan

/-- Lifts a partial result. -/
def ofOption {α : Type} : Option α → Scan α
  | some a => pure a
  | none => failure

/-- Takes a name of a node, or a tag. -/
def name : Scan String := do
  return String.ofList (← whileTrue fun c => !endsToken [c] && !isFlow c)

/-- Takes properties on one line. -/
def propertiesWithin : Nat → Properties → Scan Properties
  | 0, properties => pure properties
  | count + 1, properties => do
    match ← rest with
    | '&' :: _ =>
      skip 1
      let anchor ← name
      if anchor.isEmpty ∨ properties.anchor.isSome then failure
      blanks
      propertiesWithin count { properties with anchor := some anchor }
    | '!' :: _ =>
      if properties.tag.isSome then failure
      let tag ← name
      blanks
      propertiesWithin count { properties with tag := some tag }
    | _ => return properties

/-- Takes the properties of a node. -/
def properties : Scan Properties :=
  propertiesWithin 3 {}

/-- Gives a node the name that stands in front of it. -/
def named (p : Properties) (value : Setting) : Scan Setting := do
  match p.anchor with
  | none => return value
  | some anchor =>
    modify fun cursor => { cursor with anchors := (anchor, value) :: cursor.anchors }
    return value

/-- Takes the name of a node that stands for the node. -/
def aliased : Scan Setting := do
  skip 1
  let anchor ← name
  ofOption ((← get).anchors.lookup anchor)

/-- The value of a plain scalar with its properties. -/
def plainNode (p : Properties) (s : String) : Scan Setting := do
  let value ← ofOption (match p.tag with
    | some tag => taggedValue tag s
    | none => plainValue s)
  named p value

/-- Whether a plain scalar may start at the front of a text. -/
def startsPlain (flow : Bool) : List Char → Bool
  | [] => false
  | c :: s =>
    if c = '-' then !endsToken s && !(flow && s.head?.any isFlow)
    else if c = '?' ∨ c = ':' then !endsToken s && !flow
    else !isFlow c && !("&*!|>'\"%@#".toList.contains c) && c.toNat != 96

/-- Whether a sign with a token end behind it stands at the front of a text. -/
def atSign (sign : Char) : List Char → Bool
  | c :: s => c == sign && endsToken s
  | [] => false

/-- Whether the colon behind a key stands at the front of a text inside a flow collection. Behind a
quoted text or a collection it needs nothing after it. -/
def atFlowColon (adjacent : Bool) : List Char → Bool
  | ':' :: s => adjacent || endsToken s || s.head?.any isFlow
  | _ => false

mutual

/-- Takes a node inside a flow collection. -/
def flowNode (least : Nat) : Nat → Scan Setting
  | 0 => failure
  | turns + 1 => do
    let p ← properties
    let _ ← gap least
    if atMark (← column) (← rest) ∨ (← column) + 1 < least then failure
    match ← rest with
    | [] => failure
    | '[' :: _ =>
      skip 1
      named p (.list none (← flowItems least turns))
    | '\x7b' :: _ =>
      skip 1
      named p (← flowPairs least [] turns)
    | '*' :: _ => aliased
    | '"' :: _ | '\'' :: _ => named p (.string (← quoted least))
    | s =>
      -- Where the collection goes on at once, the node is empty.
      if s.head?.any (fun c => c == ',' || c == ']' || c == '\x7d') then plainNode p ""
      else if startsPlain true s ∧ least ≤ (← column) then plainNode p (← plain true least)
      else failure

/-- Takes the items of a flow sequence and the bracket behind them. -/
def flowItems (least : Nat) : Nat → Scan (List Setting)
  | 0 => failure
  | turns + 1 => do
    let _ ← gap least
    match ← rest with
    | ']' :: _ =>
      skip 1
      return []
    | ',' :: _ => failure
    | s =>
      let item ← flowNode least turns
      let _ ← gap least
      let adjacent := s.head?.any fun c => c == '"' || c == '\'' || c == '[' || c == '\x7b'
      let item ← (if atFlowColon adjacent (← rest) then do
          skip 1
          let _ ← gap least
          let value ← flowNode least turns
          return (← ofOption (Pairs.add [] item value)).table
        else pure item)
      let _ ← gap least
      match ← next with
      | ']' => return [item]
      | ',' => return item :: (← flowItems least turns)
      | _ => failure

/-- Takes the entries of a flow mapping and the brace behind them. -/
def flowPairs (least : Nat) (pairs : Pairs) : Nat → Scan Setting
  | 0 => failure
  | turns + 1 => do
    let _ ← gap least
    match ← rest with
    | '\x7d' :: _ =>
      skip 1
      return pairs.table
    | ',' :: _ => failure
    | s =>
      if atSign '?' s then
        skip 1
        let _ ← gap least
      let key ← flowNode least turns
      let _ ← gap least
      let adjacent := s.head?.any fun c => c == '"' || c == '\'' || c == '[' || c == '\x7b'
      let value ← (if atFlowColon adjacent (← rest) then do
          skip 1
          let _ ← gap least
          flowNode least turns
        else pure (.nothing none))
      let pairs ← ofOption (pairs.add key value)
      let _ ← gap least
      match ← next with
      | '\x7d' => return pairs.table
      | ',' => flowPairs least pairs turns
      | _ => failure

end

/-- Takes a node that may be the key of a mapping: one on a single line. -/
def keyNode (least turns : Nat) : Scan Setting := do
  let p ← properties
  match ← rest with
  | [] => failure
  | '*' :: _ => aliased
  | '"' :: _ | '\'' :: _ => named p (.string (← quoted least))
  | s =>
    if s.head?.any (fun c => c == '[' || c == '\x7b') then flowNode least turns
    else if startsPlain false s then plainNode p (String.ofList (← words false))
    else failure

/-- Takes the key of a mapping with the colon behind it, if there is one on the line. -/
def keyColon? (least turns : Nat) : Scan (Option Setting) := do
  let before ← get
  let attempt : Scan Setting := do
    let key ← keyNode least turns
    blanks
    -- A key and its colon stand on one line.
    let line := before.rest.take (before.rest.length - (← rest).length)
    if atSign ':' (← rest) ∧ !line.contains '\n' then
      skip 1
      return key
    else failure
  (do return some (← attempt)) <|> (do
    set before
    return none)

mutual

/-- Takes a node in a block, behind the sign or colon that it belongs to. `compact` tells whether a
block may start on the same line, and `level` whether a sequence may start one column before
`least`. -/
def node (least : Nat) (compact level : Bool) : Nat → Scan Setting
  | 0 => failure
  | turns + 1 => do
    let crossed ← gap least
    let compact := compact || crossed
    if ← atDocumentEnd then return .nothing none
    let here ← column
    -- The next line belongs to something further out, unless it goes on with a sequence.
    if crossed ∧ here < least then
      if level ∧ here + 1 = least ∧ atSign '-' (← rest) then
        return .list none (← sequence here turns)
      else return .nothing none
    if compact then
      if atSign '-' (← rest) then return .list none (← sequence here turns)
      if atSign '?' (← rest) then return ← mapping here [] turns
      let before ← get
      -- A key is only looked for here; the mapping reads it again with its value.
      match ← keyColon? (here + 1) turns with
      | some _ =>
        set before
        return ← mapping here [] turns
      | none => pure ()
    -- What is left is a node of its own, or properties with a block on the lines below.
    let p ← properties
    let s ← rest
    if endsToken s ∨ s.head? = some '#' then
      named p (← node least true level turns)
    else
      match s with
      | '|' :: _ | '>' :: _ => named p (.string (← block least))
      | '*' :: _ => aliased
      | '"' :: _ | '\'' :: _ => named p (.string (← quoted least))
      | s =>
        if s.head?.any (fun c => c == '[' || c == '\x7b') then named p (← flowNode least turns)
        else if startsPlain false s then plainNode p (← plain false least)
        else failure

/-- Takes the items of a block sequence at a column. -/
def sequence (here : Nat) : Nat → Scan (List Setting)
  | 0 => failure
  | turns + 1 => do
    skip 1
    let item ← node (here + 1) true false turns
    let _ ← gap 0
    if (← atDocumentEnd) ∨ (← column) < here then return [item]
    else if (← column) = here then
      if atSign '-' (← rest) then return item :: (← sequence here turns) else return [item]
    else failure

/-- Takes the entries of a block mapping at a column, in addition to those that have been read. -/
def mapping (here : Nat) (pairs : Pairs) : Nat → Scan Setting
  | 0 => failure
  | turns + 1 => do
    let (key, value) ← (if atSign '?' (← rest) then do
        -- An explicit key is a node like any other, and its value may be left out.
        skip 1
        let key ← node (here + 1) true false turns
        let _ ← gap 0
        if (← column) = here ∧ atSign ':' (← rest) then
          skip 1
          return (key, ← node (here + 1) true false turns)
        else return (key, .nothing none)
      else do
        match ← keyColon? (here + 1) turns with
        | some key => return (key, ← node (here + 1) false true turns)
        | none => failure)
    let pairs ← ofOption (pairs.add key value)
    let _ ← gap 0
    if (← atDocumentEnd) ∨ (← column) < here then return pairs.table
    else if (← column) = here then mapping here pairs turns
    else failure

end

/-- Takes the lines of directives in front of a document. -/
def directives : Nat → Scan Bool
  | 0 => failure
  | count + 1 => do
    let _ ← gap 0
    match ← rest with
    | '%' :: s =>
      if (← column) = 0 then
        skip (1 + (s.takeWhile (· != '\n')).length)
        let _ ← directives count
        return true
      else failure
    | _ => return false

/-- Takes marks that end a document. -/
def ends : Nat → Scan Unit
  | 0 => failure
  | count + 1 => do
    let _ ← gap 0
    match ← rest with
    | '.' :: '.' :: '.' :: _ =>
      if atMark (← column) (← rest) then
        skip 3
        let crossed ← gap 0
        if crossed ∨ (← rest).isEmpty then ends count else failure
    | _ => return ()

/-- Takes the only document of a text; none if the text has none. -/
def document : Scan (Option Setting) := do
  let turns := 4 * (← rest).length + 8
  if (← rest).head? = some '\ufeff' then
    skip 1
    modify fun cursor => { cursor with column := 0 }
  -- Directives need a start mark behind them; without them the mark may be left out.
  ends turns
  let directed ← directives turns
  let s ← rest
  if s.isEmpty then
    if directed then failure else return none
  else
    let marked := atMark (← column) s
    if marked then skip 3 else if directed then failure
    let value ← node 0 (!marked) false turns
    ends turns
    if (← rest).isEmpty then return some value else failure

end Scan

/-- Reads a YAML text as settings. An empty text makes none. -/
def parse (s : String) : Option (List (String × Setting)) := do
  let (value, _) ← Scan.document.run { rest := lineFeeds s.toList, column := 0, anchors := [] }
  match value with
  | none => return []
  | some (.table _ entries) => return entries
  | some _ => none
where
  /-- Writes every line end as a line feed. -/
  lineFeeds : List Char → List Char
    | '\r' :: '\n' :: rest => '\n' :: lineFeeds rest
    | '\r' :: rest => '\n' :: lineFeeds rest
    | c :: rest => c :: lineFeeds rest
    | [] => []

end Multibinding.Yaml
