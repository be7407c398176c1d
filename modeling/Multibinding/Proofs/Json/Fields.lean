import Multibinding.Proofs.Json.Updates

/-!
# Where a field of a record stands

A record is given by its members or by a list of its fields. In an object a field stands at the
first member of its name, and in a list at its own position. Once a record has been read, each of
its fields is what is read there, and a field that has no place is missing.

* `Node.field?`: the place of a field;
* `Reader.Shape.rel_of_read`: what a field is once the record has been read.
-/

namespace Multibinding.Json

/-- The place of a field in a record: the first member of its name, or the item at its position. -/
def Node.field? (name : String) (position : Nat) : Node → Option Node
  | .object members _ => (members.find? (·.1 == .text name)).map (·.2)
  | .array items _ => items[position]?
  | _ => none

namespace Reader.Shape

variable {α σ : Type} {shape : Shape σ} {name : String} {get : σ → Option α} {set : σ → α → σ}
  {read : Reader α}

/-- A field of a record is changed only where it is read itself. -/
structure Owns (shape : Shape σ) (name : String) (get : σ → Option α) (set : σ → α → σ)
    (read : Reader α) : Prop where
  /-- No two fields have one name. -/
  names : (shape.fields.map (·.name)).Nodup
  /-- It is one of the fields. -/
  mem : .of name get set read ∈ shape.fields
  /-- What has been read of it is kept. -/
  get_set : ∀ s a, get (set s a) = some a
  /-- Another field leaves it as it is. -/
  get_read : ∀ field ∈ shape.fields, field.name ≠ name → ∀ s n t, field.read s n = .ok t →
    get t = get s

section Owns

variable (howns : shape.Owns name get set read)
include howns

/-- A field is found under its name. -/
theorem Owns.find?_name :
    shape.fields.find? (·.name == name) = some (.of name get set read) :=
  (find?_key_eq_some_iff howns.names).mpr ⟨howns.mem, rfl⟩

/-- A member of another name leaves the field as it is. -/
theorem Takes.get_of_ne {s t : σ} {m : Key × Node} (h : shape.Takes s m t)
    (hne : m.1 ≠ .text name) : get t = get s := by
  cases h with
  | skip => rfl
  | read hfind _ hread =>
    refine howns.get_read _ (List.mem_of_find?_eq_some hfind) ?_ s _ t hread
    rintro rfl
    have hname := List.find?_some hfind
    exact hne (congrArg Key.text (eq_of_beq hname).symm)

/-- From the member of its name the field is read, unless it has been read before. -/
theorem Takes.get_of_eq {s t : σ} {n : Node} (h : shape.Takes s (.text name, n) t) :
    get s = none ∧ ∃ a, read n = .ok a ∧ get t = some a := by
  -- The look-up of the name finds the field, so that the member is not skipped.
  cases h with
  | skip hfind => cases hfind.symm.trans howns.find?_name
  | read hfind hset hread =>
    cases hfind.symm.trans howns.find?_name
    obtain ⟨a, ha, rfl⟩ := map_eq_ok_iff.mp hread
    exact ⟨Option.not_isSome_iff_eq_none.mp (ne_true_of_eq_false hset), a, ha,
      howns.get_set s a⟩

/-- Once the field has been read, no member changes it. -/
theorem get_of_readMembers {members : List (Key × Node)} {s t : σ} (hsome : (get s).isSome)
    (h : shape.readMembers s members = .ok t) : get t = get s := by
  induction members generalizing s with
  | nil =>
    cases h
    rfl
  | cons m rest ih =>
    obtain ⟨key, n⟩ := m
    obtain ⟨s', htakes, hrest⟩ := readMembers_cons_eq_ok_iff.mp h
    -- A member of the name would be a repeated one.
    have hne : key ≠ .text name := by
      rintro rfl
      rw [(htakes.get_of_eq howns).1] at hsome
      cases hsome
    have hget := htakes.get_of_ne howns hne
    rw [ih (hget ▸ hsome) hrest, hget]

/-- Where the field has not been read, it is read from the first member of its name. -/
theorem rel_of_readMembers {members : List (Key × Node)} {s t : σ} (hnone : get s = none)
    (h : shape.readMembers s members = .ok t) :
    Option.Rel (fun n a => read n = .ok a)
      ((members.find? (·.1 == .text name)).map (·.2)) (get t) := by
  induction members generalizing s with
  | nil =>
    cases h
    rw [hnone]
    exact .none
  | cons m rest ih =>
    obtain ⟨key, n⟩ := m
    obtain ⟨s', htakes, hrest⟩ := readMembers_cons_eq_ok_iff.mp h
    by_cases hkey : key = .text name
    -- The members behind the first one of the name do not change the field.
    · subst hkey
      obtain ⟨-, a, ha, hget⟩ := htakes.get_of_eq howns
      have hsome : (get s').isSome := by
        rw [hget]
        rfl
      rw [List.find?_cons_of_pos (by simp), get_of_readMembers howns hsome hrest, hget]
      exact .some ha
    · rw [List.find?_cons_of_neg (by simpa using hkey)]
      exact ih ((htakes.get_of_ne howns hkey).trans hnone) hrest

/-- In a list of fields without it, the field is not changed. -/
theorem get_of_readItems {fields : List (Field σ)} (hfields : fields ⊆ shape.fields)
    (hne : ∀ field ∈ fields, field.name ≠ name) {count : Nat} {s t : σ} {items : List Node}
    {unclosed : Option Defect} (h : shape.readItems count s fields items unclosed = .ok t) :
    get t = get s := by
  induction fields generalizing count s items with
  | nil =>
    cases items with
    | nil =>
      obtain ⟨_, -, h⟩ := bind_eq_ok_iff.mp h
      cases h
      rfl
    | cons n rest => cases h
  | cons field fields ih =>
    cases items with
    | nil =>
      obtain ⟨_, -, h⟩ := bind_eq_ok_iff.mp h
      split at h
      · cases h
      · cases h
        rfl
    | cons n rest =>
      obtain ⟨hfield, hfields⟩ := List.cons_subset.mp hfields
      obtain ⟨hfirst, hne⟩ := List.forall_mem_cons.mp hne
      obtain ⟨s', hs', hrest⟩ := bind_eq_ok_iff.mp h
      rw [ih hfields hne hrest, howns.get_read field hfield hfirst s n s' hs']

/-- Where the field has not been read, it is read from the item at its position. -/
theorem rel_of_readItems {fields : List (Field σ)} (hfields : fields ⊆ shape.fields)
    (hnames : (fields.map (·.name)).Nodup) {position : Nat}
    (htarget : fields[position]? = some (.of name get set read)) {count : Nat} {s t : σ}
    {items : List Node} {unclosed : Option Defect} (hnone : get s = none)
    (h : shape.readItems count s fields items unclosed = .ok t) :
    Option.Rel (fun n a => read n = .ok a) items[position]? (get t) := by
  -- The induction follows the fields up to the one that is looked for.
  induction fields generalizing count s items position with
  | nil => cases htarget
  | cons field fields ih =>
    obtain ⟨hfield, hrestFields⟩ := List.cons_subset.mp hfields
    obtain ⟨hfirst, hrestNames⟩ := List.nodup_cons.mp hnames
    cases items with
    | nil =>
      obtain ⟨_, -, h⟩ := bind_eq_ok_iff.mp h
      split at h
      · cases h
      · cases h
        rw [List.getElem?_nil, hnone]
        exact .none
    | cons n rest =>
      obtain ⟨s', hs', hrest⟩ := bind_eq_ok_iff.mp h
      cases position with
      | zero =>
        cases htarget
        obtain ⟨a, ha, rfl⟩ := map_eq_ok_iff.mp hs'
        have hne : ∀ other ∈ fields, other.name ≠ name := fun other hother heq =>
          hfirst (List.mem_map.mpr ⟨other, hother, heq⟩)
        rw [get_of_readItems howns hrestFields hne hrest, howns.get_set, List.getElem?_cons_zero]
        exact .some ha
      | succ position =>
        rw [List.getElem?_cons_succ] at htarget ⊢
        have hne : field.name ≠ name := fun heq =>
          hfirst (List.mem_map.mpr ⟨_, List.mem_of_getElem? htarget, heq.symm⟩)
        exact ih hrestFields hrestNames htarget
          ((howns.get_read field hfield hne s n s' hs').trans hnone) hrest

/-- Once a record has been read, a field that was not known before is what is read at its place, and
it is missing if it has no place. -/
theorem rel_of_read {position : Nat}
    (hposition : shape.fields[position]? = some (.of name get set read)) {init t : σ} {n : Node}
    (hnone : get init = none) (h : shape.read init n = .ok t) :
    Option.Rel (fun n a => read n = .ok a) (n.field? name position) (get t) := by
  cases n with
  | object members closing =>
    obtain ⟨s, hs, h⟩ := bind_eq_ok_iff.mp h
    obtain ⟨_, -, h⟩ := bind_eq_ok_iff.mp h
    cases h
    exact rel_of_readMembers howns hnone hs
  | array items unclosed =>
    exact rel_of_readItems howns (List.Subset.refl _) howns.names hposition hnone h
  | _ => cases h

end Owns

end Reader.Shape

end Multibinding.Json
