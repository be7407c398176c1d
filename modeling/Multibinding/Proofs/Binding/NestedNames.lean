import Multibinding.Binding.Module

/-!
# Names of nested types

No type may stand inside another type of the same simple name, at whatever depth. The module of a
contribution is named after the container and the method, the subcomponent in it after the target,
and the builder in the subcomponent after nothing. There is an underscore in the name of every
module and none in the suffix of a subcomponent, so that the two names are equal where the method
brings in the suffix and the target is named like the module without it.

* `TypeDecl.IsNestedIn`, `TypeDecl.NamesApart`: no type in a tree is named like one around it;
* `append_underscore_eq_append_iff`: when a name with an underscore ends in a suffix without one;
* `Contribution.eq_subcomponentDecl_of_name_eq`: which types of a contribution can agree in name;
* `Contribution.nested_names_apart_iff`: when none of them do.
-/

namespace Multibinding

open Java (TypeDecl)

namespace Java.TypeDecl

/-- A type is nested in another one, directly or in a type that is nested in it. -/
inductive IsNestedIn (inner : TypeDecl) : TypeDecl → Prop
  | direct {outer : TypeDecl} (h : inner ∈ outer.types) : IsNestedIn inner outer
  | deeper {outer between : TypeDecl} (hbetween : between ∈ outer.types)
      (hinner : IsNestedIn inner between) : IsNestedIn inner outer

/-- No type in a tree has the simple name of a type that it is nested in. -/
def NamesApart (root : TypeDecl) : Prop :=
  ∀ outer inner : TypeDecl, outer = root ∨ outer.IsNestedIn root → inner.IsNestedIn outer →
    inner.name ≠ outer.name

variable {inner outer root : TypeDecl}

/-- What is nested in a type is one of its types or is nested in one of them. -/
theorem isNestedIn_iff :
    inner.IsNestedIn outer ↔
      ∃ t ∈ outer.types, inner = t ∨ inner.IsNestedIn t := by
  constructor
  · intro h
    cases h with
    | direct h => exact ⟨inner, h, Or.inl rfl⟩
    | deeper hbetween hinner => exact ⟨_, hbetween, Or.inr hinner⟩
  · rintro ⟨t, ht, rfl | hinner⟩
    · exact .direct ht
    · exact .deeper ht hinner

end Java.TypeDecl

/-- A list ends in a suffix that an item of the list is not in exactly if what is behind the item
ends in the suffix. -/
theorem append_cons_eq_append_iff {α : Type} {a : α} {before behind front suffix : List α}
    (h : a ∉ suffix) :
    before ++ a :: behind = front ++ suffix ↔
      ∃ stem, behind = stem ++ suffix ∧ front = before ++ a :: stem := by
  constructor
  · intro heq
    rcases List.append_eq_append_iff.mp heq with ⟨rest, hfront, hrest⟩ | ⟨rest, -, hsuffix⟩
    · cases rest with
      | nil =>
        rw [List.nil_append] at hrest
        exact absurd (hrest ▸ List.mem_cons_self) h
      | cons b stem =>
        obtain ⟨rfl, hbehind⟩ := List.cons.inj hrest
        exact ⟨stem, hbehind, hfront⟩
    · -- The suffix would begin before the item.
      rw [hsuffix] at h
      exact absurd (List.mem_append_right rest List.mem_cons_self) h
  · rintro ⟨stem, rfl, rfl⟩
    rw [List.append_assoc, List.cons_append]

/-- A text with an underscore in it ends in a suffix without one exactly if what is behind the
underscore ends in the suffix. -/
theorem append_underscore_eq_append_iff {before behind front suffix : String}
    (h : '_' ∉ suffix.toList) :
    before ++ ("_" ++ behind) = front ++ suffix ↔
      ∃ stem, behind = stem ++ suffix ∧ front = before ++ ("_" ++ stem) := by
  have hlist : ∀ s t : String, (s ++ ("_" ++ t)).toList = s.toList ++ '_' :: t.toList := by
    intro s t
    rw [String.toList_append, String.toList_append]
    rfl
  -- The same is said of the lists of characters.
  rw [← String.toList_inj, hlist, String.toList_append, append_cons_eq_append_iff h]
  constructor
  · rintro ⟨stem, hbehind, hfront⟩
    refine ⟨String.ofList stem, ?_, ?_⟩ <;> apply String.toList_injective
    · rw [String.toList_append, String.toList_ofList, hbehind]
    · rw [hlist, String.toList_ofList, hfront]
  · rintro ⟨stem, rfl, rfl⟩
    exact ⟨stem.toList, String.toList_append, hlist before stem⟩

namespace Contribution

variable (config : Config) (c : Contribution)

/-- The simple name of the module. -/
theorem simpleName_moduleName :
    c.moduleName.simpleName =
      String.intercalate "_" c.container.simpleNames ++ ("_" ++ upperCamel c.method) := rfl

/-- The simple name of the subcomponent. -/
theorem simpleName_subcomponent :
    c.subcomponent.simpleName = c.target.simpleName ++ "Subcomponent" :=
  ClassName.simpleName_inner _ _

/-- The simple name of the builder. -/
theorem simpleName_subcomponentBuilder : c.subcomponentBuilder.simpleName = "Builder" :=
  ClassName.simpleName_inner _ _

section Nested

variable {config c} {t : TypeDecl}

/-- Nothing is nested in the builder. -/
theorem not_isNestedIn_builderDecl : ¬t.IsNestedIn (c.builderDecl config.framework) := by
  intro h
  obtain ⟨u, hu, -⟩ := TypeDecl.isNestedIn_iff.mp h
  cases hu

/-- The builder is nested in the subcomponent. -/
theorem isNestedIn_subcomponentDecl_iff :
    t.IsNestedIn (c.subcomponentDecl config.framework) ↔ t = c.builderDecl config.framework := by
  rw [TypeDecl.isNestedIn_iff]
  show (∃ u ∈ [c.builderDecl config.framework], _) ↔ _
  simp [not_isNestedIn_builderDecl]

/-- Both are nested in the module. -/
theorem isNestedIn_file_iff :
    t.IsNestedIn (c.file config).type ↔
      t = c.subcomponentDecl config.framework ∨ t = c.builderDecl config.framework := by
  rw [TypeDecl.isNestedIn_iff]
  show (∃ u ∈ [c.subcomponentDecl config.framework], _) ↔ _
  simp [isNestedIn_subcomponentDecl_iff]

end Nested

/-- The builder is named like no other of them: a module has an underscore in its name, and a
subcomponent a longer suffix. -/
theorem simpleName_subcomponentBuilder_ne :
    c.subcomponentBuilder.simpleName ≠ c.moduleName.simpleName ∧
      c.subcomponentBuilder.simpleName ≠ c.subcomponent.simpleName := by
  rw [simpleName_subcomponentBuilder, simpleName_moduleName, simpleName_subcomponent]
  constructor
  · intro h
    have hmem : '_' ∈ "Builder".toList := by
      rw [h]
      simp
    exact absurd hmem (by decide)
  · intro h
    have hlength := congrArg String.length h
    rw [String.length_append] at hlength
    have hsuffix : "Subcomponent".length = 12 := by decide
    have hname : "Builder".length = 7 := by decide
    omega

/-- So there are three pairs of types of which one is nested in the other, and only one of them can
agree in its names. -/
theorem eq_subcomponentDecl_of_name_eq {outer inner : TypeDecl}
    (houter : outer = (c.file config).type ∨ outer.IsNestedIn (c.file config).type)
    (hinner : inner.IsNestedIn outer) (hname : inner.name = outer.name) :
    outer = (c.file config).type ∧ inner = c.subcomponentDecl config.framework := by
  obtain ⟨hmodule, hsubcomponent⟩ := c.simpleName_subcomponentBuilder_ne
  -- The outer type is the module or the subcomponent, as nothing is nested in the builder.
  rcases houter with rfl | houter
  · rcases isNestedIn_file_iff.mp hinner with rfl | rfl
    · exact ⟨rfl, rfl⟩
    · exact absurd hname hmodule
  · rcases isNestedIn_file_iff.mp houter with rfl | rfl
    · obtain rfl := isNestedIn_subcomponentDecl_iff.mp hinner
      exact absurd hname hsubcomponent
    · exact absurd hinner not_isNestedIn_builderDecl

/-- No names agree exactly if those of the subcomponent and the module do not. -/
theorem namesApart_file_iff :
    (c.file config).type.NamesApart ↔ c.subcomponent.simpleName ≠ c.moduleName.simpleName := by
  constructor
  · intro h
    exact h _ _ (Or.inl rfl) (isNestedIn_file_iff.mpr (Or.inl rfl))
  · intro hne outer inner houter hinner hname
    obtain ⟨rfl, rfl⟩ := eq_subcomponentDecl_of_name_eq config c houter hinner hname
    exact hne hname

/-- No type that is generated for a contribution is nested in one of the same simple name, unless it
is the subcomponent in the module. This one has the name of the module exactly if the name of the
method, with a capital, ends in `Subcomponent`, and the target is named like the module without this
ending. So it is for no target whose name has no underscore. -/
theorem nested_names_apart_iff :
    (∀ outer inner : TypeDecl,
      outer = (c.file config).type ∨ outer.IsNestedIn (c.file config).type →
      inner.IsNestedIn outer → inner.name = outer.name →
        outer = (c.file config).type ∧ inner = c.subcomponentDecl config.framework) ∧
      ((c.file config).type.NamesApart ↔
        ¬∃ stem, upperCamel c.method = stem ++ "Subcomponent" ∧
          c.target.simpleName =
            String.intercalate "_" c.container.simpleNames ++ ("_" ++ stem)) ∧
      ('_' ∉ c.target.simpleName.toList → (c.file config).type.NamesApart) := by
  have hsuffix : '_' ∉ "Subcomponent".toList := by decide
  -- The two names agree exactly if they do behind the underscore that the name of the method
  -- follows.
  have hiff : (c.file config).type.NamesApart ↔
      ¬∃ stem, upperCamel c.method = stem ++ "Subcomponent" ∧
        c.target.simpleName =
          String.intercalate "_" c.container.simpleNames ++ ("_" ++ stem) := by
    rw [namesApart_file_iff, ne_comm, simpleName_moduleName, simpleName_subcomponent, Ne,
      append_underscore_eq_append_iff hsuffix]
  refine ⟨fun outer inner => eq_subcomponentDecl_of_name_eq config c, hiff, ?_⟩
  intro htarget
  refine hiff.mpr ?_
  rintro ⟨stem, -, hname⟩
  apply htarget
  rw [hname]
  simp

/-- A method and a target whose names are read and are identifiers: the name of the method ends in
`Subcomponent`, and the target is named like the module without this ending. The interface in the
module has the name of the module. -/
theorem nested_names_not_apart_sample :
    let c : Contribution :=
      { container := ⟨"com.app", "FeatureModule", []⟩
        method := "bindSubcomponent"
        target := ⟨"com.app", "FeatureModule_Bind", []⟩
        base := none
        valueType := none }
    (ClassName.parse "com.app.FeatureModule").toOption = some c.container ∧
      (ClassName.parse "com.app.FeatureModule_Bind").toOption = some c.target ∧
      isIdentifier c.method = true ∧
      ¬(c.file {}).type.NamesApart := by
  intro c
  refine ⟨by decide +kernel, by decide +kernel, by decide +kernel, ?_⟩
  intro h
  have hnested : (c.subcomponentDecl {}).IsNestedIn (c.file {}).type :=
    isNestedIn_file_iff.mpr (Or.inl rfl)
  exact h _ _ (Or.inl rfl) hnested (by decide)

end Contribution

end Multibinding
