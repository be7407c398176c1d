import Multibinding.Proofs.Declaration.Replacement

/-!
# The names in an index that was loaded

The class names in the text of an index are checked while they are read, so every declared type has
a name that can be told from its dotted form. Nothing is said about the names of methods, which are
taken as they are.

* `TypeElement.yields_name`: the name of a type that is read;
* `DeclarationIndex.isDotted_of_ofJsonText`: the names of the types of an index.
-/

namespace Multibinding

open Json

/-- To be no higher than a number of levels is passed on. -/
theorem Json.Node.inherited_height : Node.Inherited fun level n => n.height ≤ level where
  items level items unclosed h := by
    rw [Node.height] at h
    exact ⟨level - 1, by omega, Node.heightItems_le_iff.mp (by omega)⟩
  members level members closing h := by
    rw [Node.height] at h
    exact ⟨level - 1, by omega, Node.heightMembers_le_iff.mp (by omega)⟩

variable {Q : Nat → Node → Prop}

namespace TypeElement

/-- The name that is read for a type can be told from its dotted form. -/
theorem yields_shape_name (hQ : Node.Inherited Q) : Reader.Yields Q (shape.read {})
    (Reader.Below fun _ s => ∀ name ∈ s.name, name.IsDotted) := by
  refine Reader.yields_shape hQ ?_ fun level => by simp
  -- Only the first field is the name.
  have hother {α : Type} {read : Reader α} : Reader.Yields Q read fun _ _ => True :=
    fun _ _ _ _ _ => trivial
  intro field hfield
  simp only [shape, List.mem_cons, List.not_mem_nil, or_false] at hfield
  rcases hfield with rfl | rfl | rfl | rfl | rfl
  · refine Reader.yields_field Reader.yields_className ?_
    exact fun level s name _ hname => by simpa using hname
  all_goals exact Reader.yields_field hother fun _ _ _ hs _ => hs

/-- Every type that is read has a name that can be told from its dotted form. -/
theorem yields_name (hQ : Node.Inherited Q) : Reader.Yields Q read fun _ t => t.name.IsDotted := by
  intro level n hn t ht
  obtain ⟨s, hs, ht⟩ := bind_eq_ok_iff.mp ht
  obtain ⟨-, -, hnames⟩ := yields_shape_name hQ level n hn s hs
  obtain ⟨name, hname, ht⟩ := bind_eq_ok_iff.mp ht
  cases ht
  exact hnames name (Reader.require_eq_ok hname)

end TypeElement

namespace DeclarationIndex

/-- So have all types that are read. -/
theorem yields_names (hQ : Node.Inherited Q) : Reader.Yields Q readTypes
    fun _ types => ∀ t ∈ types, t.name.IsDotted := by
  have hshape : Reader.Yields Q (shape.read none)
      (Reader.Below fun _ s => ∀ types ∈ s, ∀ t ∈ types, t.name.IsDotted) := by
    refine Reader.yields_shape hQ ?_ fun level => by simp
    intro field hfield
    obtain rfl := List.mem_singleton.mp hfield
    refine Reader.yields_field (Reader.yields_array hQ (TypeElement.yields_name hQ)) ?_
    rintro level s types - ⟨-, -, htypes⟩ _ ⟨rfl⟩
    exact htypes
  intro level n hn types htypes
  obtain ⟨s, hs, htypes⟩ := bind_eq_ok_iff.mp htypes
  obtain ⟨-, -, hnames⟩ := hshape level n hn s hs
  cases htypes
  cases s with
  | none => exact nofun
  | some types => exact hnames types rfl

/-- The types of an index that was loaded have names that can be told from their dotted forms. -/
theorem isDotted_of_ofJsonText {text : String} {index : DeclarationIndex}
    (h : ofJsonText text = .ok index) : ∀ t ∈ index.types, t.name.IsDotted := by
  have hread := Reader.read_root_of_run (ofJsonText_eq_ok_iff.mp h)
  exact yields_names Node.inherited_height Document.maxDepth _ (Document.height_root_parse text)
    index.types hread

end DeclarationIndex

end Multibinding
