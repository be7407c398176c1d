import Multibinding.Proofs.Json.Pretty
import Multibinding.Proofs.Json.Reading
import Multibinding.Proofs.Keyed

/-!
# Reading written JSON

A reader takes from the node of a written value what the value was written from. For the readers of
arrays, maps, records and choices this follows from the readers of what they hold.

* `Value.value_toNode`: a plain value is read back;
* `Reader.Restoring`: whatever a reader takes from a plain document, it takes from its written form;
* `Reader.Restoring.array`, `Reader.Restoring.entries`: arrays and maps;
* `Reader.choice_toNode`, `Reader.Shape.readMembers_cons`: choices, and the next field of a record.
-/

namespace Multibinding.Json

namespace Value

theorem itemNodes_eq_map (items : List Value) : itemNodes items = items.map toNode := by
  induction items with
  | nil => rfl
  | cons v rest ih => rw [itemNodes, ih, List.map_cons]

theorem memberNodes_eq_map (members : List (String × Value)) :
    memberNodes members = members.map fun m => (.text m.1, m.2.toNode) := by
  induction members with
  | nil => rfl
  | cons m rest ih => rw [memberNodes, ih, List.map_cons]

mutual

/-- A plain value is read back. -/
theorem value_toNode : (v : Value) → v.isPlain → v.toNode.value = .ok v
  | .null, _ => rfl
  | .bool _, _ => rfl
  | .string _, _ => rfl
  | .number n, h => by
    rw [toNode, Node.value, Number.value?_literal h]
  | .array items, h => by
    rw [toNode, Node.value, values_itemNodes items h]
    rfl
  | .object members, h => by
    rw [toNode, Node.value, memberValues_memberNodes members ((Bool.and_eq_true _ _).mp h).2]
    rfl

/-- Plain items are read back. -/
theorem values_itemNodes : (items : List Value) → isPlainItems items →
    Node.values (itemNodes items) = .ok items
  | [], _ => rfl
  | v :: rest, h => by
    obtain ⟨hv, hrest⟩ := (Bool.and_eq_true _ _).mp h
    rw [itemNodes, Node.values, value_toNode v hv, values_itemNodes rest hrest]
    rfl

/-- Plain members are read back. -/
theorem memberValues_memberNodes : (members : List (String × Value)) → isPlainMembers members →
    Node.memberValues (memberNodes members) = .ok members
  | [], _ => rfl
  | (key, v) :: rest, h => by
    obtain ⟨hv, hrest⟩ := (Bool.and_eq_true _ _).mp h
    rw [memberNodes, Node.memberValues, value_toNode v hv, memberValues_memberNodes rest hrest]
    rfl

end

end Value

namespace Reader

variable {α σ : Type} {read : Reader α} {write : α → Value}

/-- A class name that can be told from its dotted form is read back. -/
theorem className_toNode {c : ClassName} (h : c.IsDotted) :
    className (Value.string c.canonical).toNode = .ok c := by
  refine bind_eq_ok_iff.mpr ⟨c.canonical, rfl, ?_⟩
  rw [h.parse_canonical]
  rfl

/-- A value is read back from its written form, which is plain and within a number of levels. -/
structure Restores (read : Reader α) (write : α → Value) (level : Nat) (a : α) : Prop where
  /-- No number and no repeated key is lost. -/
  plain : (write a).isPlain
  /-- The written form is within the levels. -/
  height : (write a).height ≤ level
  /-- The value is read back. -/
  reread : read (write a).toNode = .ok a

/-- More levels do no harm. -/
theorem Restores.mono {level : Nat} {a : α} (h : Restores read write level a) {more : Nat}
    (hle : level ≤ more) : Restores read write more a :=
  ⟨h.plain, Nat.le_trans h.height hle, h.reread⟩

/-- A value that may have been left out is restored if the usual value is. -/
theorem restores_getD {level : Nat} {usual : α} (husual : Restores read write level usual)
    {value? : Option α} (h : ∀ a ∈ value?, Restores read write level a) :
    Restores read write level (value?.getD usual) := by
  cases value? with
  | none => exact husual
  | some a => exact h a rfl

/-- The form of an array. -/
def writeArray (write : α → Value) (as : List α) : Value :=
  .array (as.map write)

/-- An array is read back if its items are. -/
theorem array_toNode {as : List α} (h : ∀ a ∈ as, read (write a).toNode = .ok a) :
    array read (writeArray write as).toNode = .ok as := by
  have hitems : (Value.itemNodes (as.map write)).mapM read = .ok as := by
    rw [Value.itemNodes_eq_map, List.map_map]
    exact mapM_map_eq_ok h
  rw [writeArray, Value.toNode, array, hitems]
  rfl

/-- An array is restored if its items are. -/
theorem restores_array {level : Nat} {as : List α} (h : ∀ a ∈ as, Restores read write level a) :
    Restores (array read) (writeArray write) (level + 1) as where
  plain := Value.isPlainItems_iff.mpr (List.forall_mem_map.mpr fun a ha => (h a ha).plain)
  height := Nat.succ_le_succ
    (Value.heightItems_le_iff.mpr (List.forall_mem_map.mpr fun a ha => (h a ha).height))
  reread := array_toNode fun a ha => (h a ha).reread

/-- The array without items takes one level. -/
theorem restores_array_nil : Restores (array read) (writeArray write) 1 [] :=
  restores_array fun _ ha => nomatch ha

/-- The form of a map. -/
def writeEntries (write : α → Value) (es : List (String × α)) : Value :=
  .object (es.map fun e => (e.1, write e.2))

/-- Sorted entries are read back if their values are. -/
theorem entries_toNode {es : List (String × α)} (hsorted : Entries.Sorted es)
    (h : ∀ e ∈ es, read (write e.2).toNode = .ok e.2) :
    entries read (writeEntries write es).toNode = .ok es := by
  -- Inserted one by one, sorted entries stay as they are.
  refine bind_eq_ok_iff.mpr ⟨es, ?_, congrArg Except.ok (Entries.ofList_eq_self hsorted)⟩
  rw [Value.memberNodes_eq_map, List.map_map]
  refine mapM_map_eq_ok fun e he => ?_
  show ((do return (e.1, ← read (write e.2).toNode)) : Except ReadError (String × α)) = _
  rw [h e he]
  rfl

/-- Sorted entries are restored if their values are. -/
theorem restores_entries {level : Nat} {es : List (String × α)} (hsorted : Entries.Sorted es)
    (h : ∀ e ∈ es, Restores read write level e.2) :
    Restores (entries read) (writeEntries write) (level + 1) es where
  plain := by
    refine (Bool.and_eq_true _ _).mpr ⟨decide_eq_true ?_, Value.isPlainMembers_iff.mpr
      (List.forall_mem_map.mpr fun e he => (h e he).plain)⟩
    rw [List.map_map]
    exact hsorted.nodup
  height := Nat.succ_le_succ
    (Value.heightMembers_le_iff.mpr (List.forall_mem_map.mpr fun e he => (h e he).height))
  reread := entries_toNode hsorted fun e he => (h e he).reread

/-- The map without entries takes one level. -/
theorem restores_entries_nil : Restores (entries read) (writeEntries write) 1 [] :=
  restores_entries List.Pairwise.nil fun _ he => nomatch he

section Restoring

variable {spare : Nat}

/-- Whatever a reader takes from a plain document is restored. The written form needs no more levels
than the document has there, apart from some to spare for what the document may leave out. -/
def Restoring (read : Reader α) (write : α → Value) (spare : Nat) : Prop :=
  Yields Node.PlainWithin read fun level a => Restores read write (max level spare) a

/-- Strings are restored. -/
theorem restoring_string : Restoring string .string 0 := by
  intro level n _ s _
  exact ⟨rfl, Nat.zero_le _, rfl⟩

/-- Arrays are restored if their items are. -/
theorem Restoring.array (h : Restoring read write spare) :
    Restoring (array read) (writeArray write) (spare + 1) := by
  intro level n hn as has
  obtain ⟨below, rfl, hitems⟩ := yields_array Node.inherited_plainWithin h level n hn as has
  exact (restores_array hitems).mono (by omega)

/-- Maps are restored if their values are. -/
theorem Restoring.entries (h : Restoring read write spare) :
    Restoring (entries read) (writeEntries write) (spare + 1) := by
  intro level n hn es hes
  obtain ⟨below, rfl, hsorted, hvalues⟩ :=
    yields_entries Node.inherited_plainWithin h level n hn es hes
  exact (restores_entries hsorted hvalues).mono (by omega)

end Restoring

/-- From an object with one member a choice reads the contents of its variant. -/
theorem choice_toNode {variants : List (Variant α)} (hnames : (variants.map (·.name)).Nodup)
    {name kind : String} {contents : Reader α} (hv : .full name kind contents ∈ variants)
    (v : Value) : choice variants (Value.object [(name, v)]).toNode = contents v.toNode := by
  have hfind : variants.find? (·.name == name) = some (.full name kind contents) :=
    (find?_key_eq_some_iff hnames).mpr ⟨hv, rfl⟩
  have hvariant : variant variants name = .ok (.full name kind contents) := by
    rw [variant, hfind]
  show (variant variants name >>= fun w => w.contents v.toNode >>= fun value =>
    (pure value : Except ReadError α)) = _
  rw [hvariant]
  show (contents v.toNode >>= fun value => (pure value : Except ReadError α)) = _
  rw [bind_pure]

namespace Shape

variable {shape : Shape σ}

/-- A record is read from its members. -/
theorem read_toNode {init s : σ} {members : List (String × Value)}
    (h : shape.readMembers init (Value.memberNodes members) = .ok s) :
    shape.read init (Value.object members).toNode = .ok s := by
  rw [Value.toNode, read, h]
  rfl

/-- The next field of a record is read if it has not been read before. -/
theorem readMembers_cons (hnames : (shape.fields.map (·.name)).Nodup) {name : String}
    {get : σ → Option α} {set : σ → α → σ} (hfield : .of name get set read ∈ shape.fields) {s : σ}
    (hset : get s = none) {v : Value} {a : α} (hread : read v.toNode = .ok a)
    (rest : List (String × Value)) :
    shape.readMembers s (Value.memberNodes ((name, v) :: rest)) =
      shape.readMembers (set s a) (Value.memberNodes rest) := by
  have hfind : shape.fields.find? (·.name == name) = some (.of name get set read) :=
    (find?_key_eq_some_iff hnames).mpr ⟨hfield, rfl⟩
  have hkey : Node.key (.text name) = .ok name := rfl
  rw [Value.memberNodes, readMembers, hkey]
  simp only [bind, Except.bind, hfind, Field.of, hset, Option.isSome_none, Bool.false_eq_true,
    if_false, hread]
  rfl

end Shape

end Reader

end Multibinding.Json
