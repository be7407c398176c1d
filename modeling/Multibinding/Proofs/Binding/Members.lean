import Mathlib.Data.List.Basic
import Multibinding.Binding.Module
import Multibinding.Proofs.Name.Order

/-!
# Annotation members of generated modules

The members that are filled one value at a time: the further modules of a subcomponent, and the
modules that another one includes.

* `annotations_subcomponentDecl`: what a subcomponent is annotated with;
* `mem_moduleNames`: which modules are included, whatever order they are put in;
* `moduleNames_eq_of_perm`: the order of the contributions does not matter;
* `annotations_file`, `includes_file`, `mem_includes_file`: what the including module is annotated
  with.
-/

namespace Multibinding

open Java

namespace Java.AnnotationUse

variable {α : Type} (type : ClassName) (name : String) (value : α → MemberValue)

/-- Values that are added to the only member join its values. -/
theorem foldl_addMember_single (items : List α) (values : List MemberValue) :
    items.foldl (fun a x => addMember a name (value x)) ⟨type, [(name, values)]⟩ =
      ⟨type, [(name, values ++ items.map value)]⟩ := by
  induction items generalizing values with
  | nil => simp
  | cons x rest ih =>
    have hstep : addMember ⟨type, [(name, values)]⟩ name (value x) =
        ⟨type, [(name, values ++ [value x])]⟩ := by
      simp [addMember, addTo]
    rw [List.foldl_cons, hstep, ih, List.map_cons, List.append_assoc, List.singleton_append]

/-- Values that are added to a marker make one member, unless there are none. -/
theorem foldl_addMember_marker (items : List α) :
    items.foldl (fun a x => addMember a name (value x)) (marker type) =
      ⟨type, if items = [] then [] else [(name, items.map value)]⟩ := by
  cases items with
  | nil => rfl
  | cons x rest => exact foldl_addMember_single type name value rest [value x]

end Java.AnnotationUse

/-- A subcomponent is annotated with its further modules and with its scopes. -/
theorem Contribution.annotations_subcomponentDecl (framework : FrameworkNames) (c : Contribution) :
    (c.subcomponentDecl framework).annotations =
      { type := framework.subcomponent
        members := if c.modules = [] then [] else [("modules", c.modules.map classMember)] } ::
      c.scopes.map AnnotationUse.ofAnnotation := by
  rw [subcomponentDecl, AnnotationUse.foldl_addMember_marker]

/-- What the annotations on the type of a file include. -/
def Java.SourceFile.includes (f : SourceFile) : List MemberValue :=
  f.type.annotations.flatMap fun a => (a.member? "includes").getD []

namespace AggregateModule

/-- No name is lost where each run of equal names is made one. -/
theorem mem_once {name : ClassName} {names : List ClassName} :
    name ∈ once names ↔ name ∈ names := by
  induction names using once.induct with
  | case1 => rfl
  | case2 a => rfl
  | case3 a rest ih => simp [once, ih]
  | case4 a b rest hne ih => simp [once, hne, ih]

/-- The modules of all contributions are included. -/
theorem mem_moduleNames {a : AggregateModule} {name : ClassName} :
    name ∈ a.moduleNames ↔ ∃ c ∈ a.contributions, c.moduleName = name := by
  rw [moduleNames, mem_once, List.mem_mergeSort, List.mem_map]

/-- The same contributions in whatever order have the same modules included in the same order. -/
theorem moduleNames_eq_of_perm {a b : AggregateModule}
    (h : a.contributions.Perm b.contributions) : a.moduleNames = b.moduleNames := by
  rw [moduleNames, moduleNames,
    ClassName.mergeSort_eq_of_perm (h.map Contribution.moduleName)]

/-- The including module is annotated with the modules that it includes. -/
theorem annotations_file (config : Config) (a : AggregateModule) :
    (a.file config).type.annotations =
      [{ type := config.framework.module
         members :=
          if a.moduleNames = [] then [] else [("includes", a.moduleNames.map classMember)] }] := by
  rw [file, AnnotationUse.foldl_addMember_marker]

/-- What it includes are class literals of the modules in their order. -/
theorem includes_file (config : Config) (a : AggregateModule) :
    (a.file config).includes = a.moduleNames.map classMember := by
  rw [SourceFile.includes, annotations_file, List.flatMap_singleton]
  by_cases hnone : a.moduleNames = []
  · simp [hnone, AnnotationUse.member?]
  · rw [if_neg hnone, AnnotationUse.member?, List.lookup_cons_self, Option.getD_some]

/-- A class is included exactly if it is one of the modules. -/
theorem mem_includes_file {config : Config} {a : AggregateModule} {name : ClassName} :
    classMember name ∈ (a.file config).includes ↔ name ∈ a.moduleNames := by
  have hinj : Function.Injective classMember := fun _ _ h =>
    TypeRef.declared.inj (MemberValue.classLiteral.inj h)
  rw [includes_file, List.mem_map_of_injective hinj]

/-- If there is a module that includes those of some contributions, it includes the same ones in the
same order whatever order the contributions have. -/
theorem map_includes_of_perm {config : Config} {contributions others : List Contribution}
    (h : contributions.Perm others) :
    (ofContributions? contributions).map (fun a => (a.file config).includes) =
      (ofContributions? others).map fun a => (a.file config).includes := by
  cases contributions with
  | nil => rw [h.nil_eq]
  | cons c rest =>
    cases others with
    | nil => cases h.eq_nil
    -- The modules may be named after different contributions, but they include the same sorted
    -- names.
    | cons d more =>
      have hnames :
          moduleNames ⟨c.container.contributionsModule, c :: rest⟩ =
            moduleNames ⟨d.container.contributionsModule, d :: more⟩ :=
        moduleNames_eq_of_perm h
      rw [ofContributions?, ofContributions?, Option.map_some, Option.map_some, includes_file,
        includes_file, hnames]

end AggregateModule

end Multibinding
