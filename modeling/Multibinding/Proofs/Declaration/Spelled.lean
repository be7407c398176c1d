import Multibinding.Declaration.Json
import Multibinding.Proofs.Json.Fields
import Multibinding.Proofs.Json.Reading

/-!
# The names that are spelled in a document

The types of an index are read from the items of one array, in their order, and the name of each is
a class name that is spelled as a string. Different spellings may stand for one name: white space
around a name is dropped. So the names of the types are told from a document without the types
themselves being read.

* `TypeElement.exists_spelledName?`: the name that is read for a type is the one that is spelled;
* `DeclarationIndex.mapM_typeNodes`: the types are read in the order of the document;
* `DeclarationIndex.exists_spelledNames?`: so are their names.
-/

namespace Multibinding

open Json

/-- The string at a place. -/
def Json.Node.string? : Node → Option String
  | .string s => some s
  | _ => none

/-- The items at a place. -/
def Json.Node.items? : Node → Option (List Node)
  | .array items _ => some items
  | _ => none

namespace TypeElement

/-- The name that is spelled in the place of a type. -/
def spelledName? (n : Node) : Option String :=
  (n.field? "name" 0).bind Node.string?

theorem owns_name : shape.Owns "name" (·.name) (fun s name => { s with name := some name })
    Reader.className where
  names := by simp [shape, Reader.Field.of]
  mem := .head _
  get_set _ _ := rfl
  get_read field hfield hne s n t ht := by
    simp only [shape, List.mem_cons, List.not_mem_nil, or_false] at hfield
    rcases hfield with rfl | rfl | rfl | rfl | rfl
    · exact absurd rfl hne
    all_goals
      obtain ⟨a, -, rfl⟩ := map_eq_ok_iff.mp ht
      rfl

/-- The name of a type that is read is the one that is spelled in its place. -/
theorem exists_spelledName? {n : Node} {t : TypeElement} (h : read n = .ok t) :
    ∃ s, spelledName? n = some s ∧ ClassName.parse s = .ok t.name := by
  obtain ⟨fields, hfields, h⟩ := bind_eq_ok_iff.mp h
  obtain ⟨name, hname, h⟩ := bind_eq_ok_iff.mp h
  cases h
  have hplace : Option.Rel _ (n.field? "name" 0) _ :=
    Reader.Shape.rel_of_read owns_name rfl rfl hfields
  -- A type cannot be read without its name, so that there is a place for it.
  rw [Reader.require_eq_ok hname] at hplace
  generalize hfield : n.field? "name" 0 = place at hplace
  cases hplace with
  | @some m _ hread =>
    obtain ⟨s, hs, hread⟩ := bind_eq_ok_iff.mp hread
    refine ⟨s, ?_, ?_⟩
    · rw [spelledName?, hfield]
      cases m with
      | string value =>
        cases hs
        rfl
      | _ => cases hs
    · split at hread
      next hparse =>
        cases hread
        exact hparse
      next => cases hread

end TypeElement

namespace DeclarationIndex

/-- The places of the types in a document, in their order. -/
def typeNodes (n : Node) : List Node :=
  ((n.field? "types" 0).bind Node.items?).getD []

/-- The names that are spelled in the places of the types, in their order. -/
def spelledNames? (n : Node) : Option (List String) :=
  (typeNodes n).mapM TypeElement.spelledName?

theorem owns_types : shape.Owns "types" id (fun _ types => some types)
    (Reader.array TypeElement.read) where
  names := by simp [shape, Reader.Field.of]
  mem := .head _
  get_set _ _ := rfl
  get_read field hfield hne s n t ht := by
    simp only [shape, List.mem_singleton] at hfield
    subst hfield
    exact absurd rfl hne

/-- The types are read one by one, in the order of the document. -/
theorem mapM_typeNodes {n : Node} {types : List TypeElement} (h : readTypes n = .ok types) :
    (typeNodes n).mapM TypeElement.read = .ok types := by
  obtain ⟨fields, hfields, h⟩ := bind_eq_ok_iff.mp h
  cases h
  have hplace : Option.Rel _ (n.field? "types" 0) _ :=
    Reader.Shape.rel_of_read owns_types rfl rfl hfields
  rw [typeNodes]
  generalize n.field? "types" 0 = place at hplace
  cases hplace with
  -- Types that are left out are none.
  | none => rfl
  | @some m types hread =>
    cases m with
    | array items unclosed =>
      obtain ⟨_, hitems, hread⟩ := bind_eq_ok_iff.mp hread
      obtain ⟨_, -, hread⟩ := bind_eq_ok_iff.mp hread
      cases hread
      exact hitems
    | deep content => cases content <;> cases hread
    | _ => cases hread

/-- In the document the names of the types are spelled in their order. -/
theorem exists_spelledNames? {n : Node} {types : List TypeElement} (h : readTypes n = .ok types) :
    ∃ spelled, spelledNames? n = some spelled ∧
      spelled.mapM ClassName.parse = .ok (types.map (·.name)) := by
  replace h := mapM_typeNodes h
  rw [spelledNames?]
  generalize typeNodes n = nodes at h ⊢
  induction nodes generalizing types with
  | nil =>
    cases h
    exact ⟨[], rfl, rfl⟩
  | cons m rest ih =>
    rw [List.mapM_cons] at h
    obtain ⟨t, ht, h⟩ := bind_eq_ok_iff.mp h
    obtain ⟨ts, hts, h⟩ := bind_eq_ok_iff.mp h
    cases h
    obtain ⟨s, hs, hname⟩ := TypeElement.exists_spelledName? ht
    obtain ⟨spelled, hspelled, hnames⟩ := ih hts
    refine ⟨s :: spelled, ?_, ?_⟩
    · rw [List.mapM_cons, hs, hspelled]
      rfl
    · rw [List.mapM_cons, hname, hnames]
      rfl

end DeclarationIndex

end Multibinding
