import Multibinding.Json.Read
import Multibinding.Proofs.Entries
import Multibinding.Proofs.Except
import Multibinding.Proofs.Json.Plain
import Multibinding.Proofs.Name.Dotted

/-!
# What readers yield

What is known about a document is passed on by the readers to what they take from it. A property of
the places in a document that an array or object passes on to what it holds, one level further down,
becomes a property of the results, reader by reader: `Reader.Yields`.

* `Node.isPlain_of_value`: a value from a plain document is plain;
* `Node.inherited_plainWithin`: to be plain and not too high is passed on;
* `Reader.yields_array`, `Reader.yields_shape`, …: what the results have from the document.
-/

namespace Multibinding

namespace Json

namespace Node

mutual

/-- What is read from a plain place is plain and no higher. -/
theorem isPlain_of_value : (n : Node) → n.isPlain → (v : Value) → n.value = .ok v →
    v.isPlain ∧ v.height ≤ n.height
  | .null, _, v, h => by
    cases h
    exact ⟨rfl, Nat.le_refl _⟩
  | .bool _, _, v, h => by
    cases h
    exact ⟨rfl, Nat.le_refl _⟩
  | .string _, _, v, h => by
    cases h
    exact ⟨rfl, Nat.le_refl _⟩
  -- A plain number is an integer, which is read as it is written.
  | .number text, hplain, v, h => by
    obtain ⟨hvalue, hinteger⟩ := NumberText.value?_of_isInteger hplain
    rw [value, hvalue] at h
    cases h
    exact ⟨hinteger, Nat.le_refl _⟩
  | .array items unclosed, hplain, v, h => by
    obtain ⟨vs, hvs, h⟩ := bind_eq_ok_iff.mp h
    obtain ⟨_, _, h⟩ := bind_eq_ok_iff.mp h
    cases h
    obtain ⟨hplain, hheight⟩ := isPlainItems_of_values items hplain vs hvs
    exact ⟨hplain, Nat.succ_le_succ hheight⟩
  | .object members closing, hplain, v, h => by
    obtain ⟨vs, hvs, h⟩ := bind_eq_ok_iff.mp h
    obtain ⟨_, _, h⟩ := bind_eq_ok_iff.mp h
    cases h
    obtain ⟨hkeys, hplain⟩ := (Bool.and_eq_true _ _).mp hplain
    obtain ⟨heq, hplain, hheight⟩ := isPlainMembers_of_memberValues members hplain vs hvs
    rw [← heq] at hkeys
    exact ⟨(Bool.and_eq_true _ _).mpr ⟨hkeys, hplain⟩, Nat.succ_le_succ hheight⟩

/-- What is read from plain items is plain and no higher. -/
theorem isPlainItems_of_values : (items : List Node) → isPlainItems items → (vs : List Value) →
    values items = .ok vs → Value.isPlainItems vs ∧ Value.heightItems vs ≤ heightItems items
  | [], _, vs, h => by
    cases h
    exact ⟨rfl, Nat.le_refl _⟩
  | n :: rest, hplain, vs, h => by
    obtain ⟨hn, hrest⟩ := (Bool.and_eq_true _ _).mp hplain
    obtain ⟨v, hv, h⟩ := bind_eq_ok_iff.mp h
    obtain ⟨vs', hvs, h⟩ := bind_eq_ok_iff.mp h
    cases h
    obtain ⟨hplain, hheight⟩ := isPlain_of_value n hn v hv
    obtain ⟨hplains, hheights⟩ := isPlainItems_of_values rest hrest vs' hvs
    refine ⟨(Bool.and_eq_true _ _).mpr ⟨hplain, hplains⟩, ?_⟩
    rw [heightItems, Value.heightItems]
    omega

/-- What is read from plain members is plain and no higher, and its keys are those of the
members. -/
theorem isPlainMembers_of_memberValues : (members : List (Key × Node)) →
    isPlainMembers members → (vs : List (String × Value)) → memberValues members = .ok vs →
      vs.map (·.1) = members.filterMap (·.1.text?) ∧ Value.isPlainMembers vs ∧
        Value.heightMembers vs ≤ heightMembers members
  | [], _, vs, h => by
    cases h
    exact ⟨rfl, rfl, Nat.le_refl _⟩
  | (.unpaired, n) :: rest, _, vs, h => by
    cases h
  | (.text key, n) :: rest, hplain, vs, h => by
    obtain ⟨hn, hrest⟩ := (Bool.and_eq_true _ _).mp hplain
    obtain ⟨_, hkey, h⟩ := bind_eq_ok_iff.mp h
    cases hkey
    obtain ⟨v, hv, h⟩ := bind_eq_ok_iff.mp h
    obtain ⟨vs', hvs, h⟩ := bind_eq_ok_iff.mp h
    cases h
    obtain ⟨hplain, hheight⟩ := isPlain_of_value n hn v hv
    obtain ⟨hkeys, hplains, hheights⟩ := isPlainMembers_of_memberValues rest hrest vs' hvs
    refine ⟨?_, (Bool.and_eq_true _ _).mpr ⟨hplain, hplains⟩, ?_⟩
    · rw [List.map_cons, hkeys]
      rfl
    · rw [heightMembers, Value.heightMembers]
      omega

end

end Node

/-- A property of places in a document passes on to what an array or object holds, one level further
down. -/
structure Node.Inherited (Q : Nat → Node → Prop) : Prop where
  /-- From an array to its items. -/
  items : ∀ level items unclosed, Q level (.array items unclosed) →
    ∃ below, level = below + 1 ∧ ∀ n ∈ items, Q below n
  /-- From an object to the values of its members. -/
  members : ∀ level members closing, Q level (.object members closing) →
    ∃ below, level = below + 1 ∧ ∀ m ∈ members, Q below m.2

/-- A place is plain and no higher than a number of levels, which is no more than can be read. -/
def Node.PlainWithin (level : Nat) (n : Node) : Prop :=
  n.isPlain ∧ n.height ≤ level ∧ level ≤ Document.maxDepth

/-- To be plain and not too high is passed on. -/
theorem Node.inherited_plainWithin : Inherited PlainWithin where
  items level items unclosed h := by
    obtain ⟨hplain, hheight, hlevel⟩ := h
    rw [height] at hheight
    refine ⟨level - 1, by omega, fun n hn => ⟨isPlainItems_iff.mp hplain n hn, ?_, by omega⟩⟩
    exact heightItems_le_iff.mp (by omega) n hn
  members level members closing h := by
    obtain ⟨hplain, hheight, hlevel⟩ := h
    rw [height] at hheight
    have hmembers := ((Bool.and_eq_true _ _).mp hplain).2
    refine ⟨level - 1, by omega, fun m hm => ⟨isPlainMembers_iff.mp hmembers m hm, ?_, by omega⟩⟩
    exact heightMembers_le_iff.mp (by omega) m hm

namespace Reader

variable {α σ : Type} {Q : Nat → Node → Prop} {P : Nat → α → Prop}

/-- What a reader takes from a place with a property has another property. -/
def Yields (Q : Nat → Node → Prop) (read : Reader α) (P : Nat → α → Prop) : Prop :=
  ∀ level n, Q level n → ∀ a, read n = .ok a → P level a

/-- A property that holds one level further down. -/
def Below (P : Nat → α → Prop) (level : Nat) (a : α) : Prop :=
  ∃ below, level = below + 1 ∧ P below a

/-- What is read from a text is read from the root of its document. -/
theorem read_root_of_run {read : Reader α} {text : String} {a : α} (h : read.run text = .ok a) :
    read (Document.parse text).root = .ok a := by
  obtain ⟨b, hread, hend⟩ := bind_eq_ok_iff.mp h
  -- Nothing but the end of the text may follow.
  generalize (Document.parse text).trailing = trailing at hend
  cases trailing with
  | true => cases hend
  | false =>
    cases hend
    exact hread

/-- A field that may not be missing has been read. -/
theorem require_eq_ok {name : String} {value : Option α} {a : α}
    (h : require name value = .ok a) : value = some a := by
  cases value with
  | none => cases h
  | some b =>
    cases h
    rfl

/-- Every class name that is read can be told from its dotted form. -/
theorem yields_className : Yields Q className fun _ c => c.IsDotted := by
  intro level n _ c h
  obtain ⟨s, _, h⟩ := bind_eq_ok_iff.mp h
  split at h
  · rename_i name hname
    cases h
    exact ClassName.isDotted_of_parse hname
  · cases h

/-- What is read where a value may be absent is read like a value. -/
theorem yields_optional {read : Reader α} (h : Yields Q read P) :
    Yields Q (optional read) fun level a => ∀ x ∈ a, P level x := by
  intro level n hn a ha x hx
  have hread : (read n).map some = .ok a := by
    cases n with
    | null =>
      cases ha
      cases hx
    | broken fault =>
      simp only [optional] at ha
      split at ha
      · cases ha
      · exact ha
    | _ => exact ha
  obtain ⟨y, hy, rfl⟩ := map_eq_ok_iff.mp hread
  cases hx
  exact h level n hn x hy

/-- The items of an array are read one level further down. -/
theorem yields_array (hQ : Node.Inherited Q) {read : Reader α} (h : Yields Q read P) :
    Yields Q (array read) (Below fun level as => ∀ a ∈ as, P level a) := by
  intro level n hn as has
  cases n with
  | array items unclosed =>
    obtain ⟨below, rfl, hitems⟩ := hQ.items level items unclosed hn
    obtain ⟨as', has', hclose⟩ := bind_eq_ok_iff.mp has
    obtain ⟨_, _, hclose⟩ := bind_eq_ok_iff.mp hclose
    cases hclose
    refine ⟨below, rfl, fun a ha => ?_⟩
    obtain ⟨item, hitem, hread⟩ := exists_of_mem_mapM has' ha
    exact h below item (hitems item hitem) a hread
  | deep content => cases content <;> cases has
  | _ => cases has

/-- The values of the members of an object are read one level further down, and the entries are
sorted. -/
theorem yields_entries (hQ : Node.Inherited Q) {read : Reader α} (h : Yields Q read P) :
    Yields Q (entries read) (Below fun level es => Entries.Sorted es ∧ ∀ e ∈ es, P level e.2) := by
  intro level n hn es hes
  cases n with
  | object members closing =>
    obtain ⟨below, rfl, hmembers⟩ := hQ.members level members closing hn
    obtain ⟨as, has, hclose⟩ := bind_eq_ok_iff.mp hes
    obtain ⟨_, _, hclose⟩ := bind_eq_ok_iff.mp hclose
    cases hclose
    refine ⟨below, rfl, Entries.sorted_ofList as, fun e he => ?_⟩
    obtain ⟨m, hm, hread⟩ := exists_of_mem_mapM has (Entries.mem_of_mem_ofList he)
    obtain ⟨_, _, hread⟩ := bind_eq_ok_iff.mp hread
    obtain ⟨a, ha, hread⟩ := bind_eq_ok_iff.mp hread
    cases hread
    exact h below m.2 (hmembers m hm) a ha
  | deep content => cases content <;> cases hes
  | _ => cases hes

section Shape

variable {shape : Shape σ} {Inv : Nat → σ → Prop}

/-- Whichever field is read next, what is known about the fields stays true. -/
def Shape.Keeps (shape : Shape σ) (Q : Nat → Node → Prop) (Inv : Nat → σ → Prop) : Prop :=
  ∀ field ∈ shape.fields, ∀ s, Yields (fun level n => Inv level s ∧ Q level n) (field.read s) Inv

/-- A field keeps what is known if its value can be set without harm. -/
theorem yields_field {read : Reader α} (h : Yields Q read P) {name : String}
    {get : σ → Option α} {set : σ → α → σ}
    (hset : ∀ level s a, Inv level s → P level a → Inv level (set s a)) (s : σ) :
    Yields (fun level n => Inv level s ∧ Q level n) ((Field.of name get set read).read s) Inv := by
  intro level n hn t ht
  obtain ⟨a, ha, rfl⟩ := map_eq_ok_iff.mp ht
  exact hset level s a hn.1 (h level n hn.2 a ha)

/-- The fields that are read from the members of an object. -/
theorem inv_of_readMembers (hkeeps : shape.Keeps Q Inv) {level : Nat}
    {members : List (Key × Node)} (hmembers : ∀ m ∈ members, Q level m.2) {s : σ}
    (hs : Inv level s) {t : σ} (h : shape.readMembers s members = .ok t) : Inv level t := by
  -- A member of an unknown field is skipped, and one of a known field keeps the invariant.
  induction members generalizing s with
  | nil =>
    cases h
    exact hs
  | cons m rest ih =>
    obtain ⟨hfirst, hrest⟩ := List.forall_mem_cons.mp hmembers
    obtain ⟨name, _, h⟩ := bind_eq_ok_iff.mp h
    split at h
    · split at h
      · exact ih hrest hs h
      · cases h
    · rename_i field hfield
      split at h
      · cases h
      · obtain ⟨s', hs', h⟩ := bind_eq_ok_iff.mp h
        have hkeep := hkeeps field (List.mem_of_find?_eq_some hfield) s
        exact ih hrest (hkeep level m.2 ⟨hs, hfirst⟩ s' hs') h

/-- The fields that are read from the items of an array. -/
theorem inv_of_readItems (hkeeps : shape.Keeps Q Inv) {level : Nat} {unclosed : Option Defect}
    {fields : List (Field σ)} (hfields : fields ⊆ shape.fields) {items : List Node}
    (hitems : ∀ n ∈ items, Q level n) {done : Nat} {s : σ} (hs : Inv level s) {t : σ}
    (h : shape.readItems done s fields items unclosed = .ok t) : Inv level t := by
  -- The induction is on the fields that are left, each of which takes one item.
  induction fields generalizing items done s with
  | nil =>
    cases items with
    | nil =>
      obtain ⟨_, _, h⟩ := bind_eq_ok_iff.mp h
      cases h
      exact hs
    | cons n rest => cases h
  | cons field fields ih =>
    cases items with
    | nil =>
      obtain ⟨_, _, h⟩ := bind_eq_ok_iff.mp h
      split at h
      · cases h
      · cases h
        exact hs
    | cons n rest =>
      obtain ⟨hfirst, hrest⟩ := List.forall_mem_cons.mp hitems
      obtain ⟨hfield, hfields⟩ := List.cons_subset.mp hfields
      obtain ⟨s', hs', h⟩ := bind_eq_ok_iff.mp h
      exact ih hfields hrest (hkeeps field hfield s level n ⟨hs, hfirst⟩ s' hs') h

/-- The fields of a record are read one level further down. -/
theorem yields_shape (hQ : Node.Inherited Q) (hkeeps : shape.Keeps Q Inv) {init : σ}
    (hinit : ∀ level, Inv level init) : Yields Q (shape.read init) (Below Inv) := by
  intro level n hn s hs
  cases n with
  | object members closing =>
    obtain ⟨below, rfl, hmembers⟩ := hQ.members level members closing hn
    obtain ⟨t, ht, hclose⟩ := bind_eq_ok_iff.mp hs
    obtain ⟨_, _, hclose⟩ := bind_eq_ok_iff.mp hclose
    cases hclose
    exact ⟨below, rfl, inv_of_readMembers hkeeps hmembers (hinit below) ht⟩
  | array items unclosed =>
    obtain ⟨below, rfl, hitems⟩ := hQ.items level items unclosed hn
    exact ⟨below, rfl,
      inv_of_readItems hkeeps (List.Subset.refl _) hitems (hinit below) hs⟩
  | _ => cases hs

end Shape

/-- The contents of a choice are read one level further down. -/
theorem yields_choice (hQ : Node.Inherited Q) {variants : List (Variant α)}
    (hbare : ∀ v ∈ variants, ∀ level a, v.bare = .ok a → P level a)
    (hcontents : ∀ v ∈ variants, Yields Q v.contents fun level a => P (level + 1) a) :
    Yields Q (choice variants) P := by
  have hfind {name : String} {v : Variant α} (h : variant variants name = .ok v) :
      v ∈ variants := by
    rw [variant] at h
    split at h
    · rename_i w hw
      cases h
      exact List.mem_of_find?_eq_some hw
    · cases h
  intro level n hn a ha
  cases n with
  | string name =>
    -- A string names a variant without contents.
    obtain ⟨v, hv, ha⟩ := bind_eq_ok_iff.mp ha
    exact hbare v (hfind hv) level a ha
  | object members closing =>
    obtain ⟨below, rfl, hmembers⟩ := hQ.members level members closing hn
    cases members with
    | nil => cases closing <;> cases ha
    | cons m rest =>
      obtain ⟨name, _, ha⟩ := bind_eq_ok_iff.mp ha
      obtain ⟨v, hv, ha⟩ := bind_eq_ok_iff.mp ha
      obtain ⟨b, hb, ha⟩ := bind_eq_ok_iff.mp ha
      have heq : b = a := by
        split at ha <;> cases ha
        rfl
      subst heq
      exact hcontents v (hfind hv) below m.2 (hmembers m List.mem_cons_self) b hb
  | _ => cases ha

end Reader

end Json

end Multibinding
