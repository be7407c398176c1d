import Multibinding.Proofs.Round.InjectionModule

/-!
# What generated files refer to

Generated files refer to generated classes by names that are derived from declarations, apart from
the trees of types in which these classes are declared. The module of a contribution refers to its
subcomponent and the builder of it, which stand in the same file. A module that includes others
refers to modules that were handed over in the same round, so that the filer has taken them or has
a file of that name already.

* `SourceFile.declared?`: the type that a file declares under a qualified name;
* `Contribution.bindsSubcomponent_file`: what the module of a contribution refers to;
* `Session.contains_run`: what a memory filer holds after a run;
* `references_closed`: the references of a round.
-/

namespace Multibinding

open Java (SourceFile TypeDecl MemberValue)
open Processor (handOver)

/-- The type that a chain of simple names leads to, from a type through the types nested in it. -/
def Java.TypeDecl.descendant? (t : TypeDecl) : List String → Option TypeDecl
  | [] => some t
  | name :: rest => (t.nested? name).bind (·.descendant? rest)

namespace Java.SourceFile

/-- The type that a file declares under a qualified name: the one that the simple names lead to from
the top-level type of the file. -/
def declared? (f : SourceFile) (name : ClassName) : Option TypeDecl :=
  if name.package = f.name.package ∧ name.topLevel = f.type.name then f.type.descendant? name.nested
  else none

/-- The values of a member of the annotations on the type of a file. -/
def memberValues (f : SourceFile) (member : String) : List MemberValue :=
  f.type.annotations.flatMap fun a => (a.member? member).getD []

/-- The module in a file refers to a subcomponent of a target and to the builder of the
subcomponent, and the file declares both. -/
structure BindsSubcomponent (framework : FrameworkNames) (target : ClassName) (f : SourceFile)
    (subcomponent builder : ClassName) : Prop where
  /-- The module lists the subcomponent and no other one. -/
  listed : f.memberValues "subcomponents" = [classMember subcomponent]
  /-- The file declares the subcomponent as an interface that extends the injector of the target. -/
  interface : ∃ t, f.declared? subcomponent = some t ∧ t.kind = .interfaceKind ∧
    t.superinterfaces = [.parameterized framework.injector [.declared target]]
  /-- The binding method has the builder as its only parameter. -/
  bound : ∃ m, f.type.method? "bindInjectorFactory" = some m ∧
    m.parameters.map (·.type) = [.declared builder]
  /-- The file declares the builder as a class. -/
  builderClass : ∃ b, f.declared? builder = some b ∧ b.kind = .classKind
  /-- The builder is nested in the subcomponent. -/
  nested : builder.enclosing? = some subcomponent

end Java.SourceFile

namespace Contribution

variable (config : Config) (c : Contribution)

/-- The subcomponent is the type nested in the module. -/
theorem declared?_subcomponent :
    (c.file config).declared? c.subcomponent = some (c.subcomponentDecl config.framework) := by
  have hname : c.subcomponent.nested = [c.subcomponent.simpleName] := by
    rw [subcomponent, ClassName.subcomponent, ClassName.simpleName_inner]
    rfl
  rw [SourceFile.declared?, if_pos ⟨rfl, rfl⟩, hname]
  simp [TypeDecl.descendant?, TypeDecl.nested?, file, moduleDecl, subcomponentDecl]

/-- The builder is the type nested in the subcomponent. -/
theorem declared?_subcomponentBuilder :
    (c.file config).declared? c.subcomponentBuilder = some (c.builderDecl config.framework) := by
  have hname : c.subcomponentBuilder.nested =
      [c.subcomponent.simpleName, c.subcomponentBuilder.simpleName] := by
    rw [subcomponentBuilder, ClassName.subcomponentBuilder, ClassName.simpleName_inner,
      subcomponent, ClassName.subcomponent, ClassName.simpleName_inner]
    rfl
  rw [SourceFile.declared?, if_pos ⟨rfl, rfl⟩, hname]
  simp [TypeDecl.descendant?, TypeDecl.nested?, file, moduleDecl, subcomponentDecl, builderDecl]

/-- The module of a contribution refers to its subcomponent and the builder of it. -/
theorem bindsSubcomponent_file :
    (c.file config).BindsSubcomponent config.framework c.target c.subcomponent
      c.subcomponentBuilder where
  listed := rfl
  interface := ⟨_, c.declared?_subcomponent config, rfl, rfl⟩
  bound := ⟨c.bindMethod config.framework, rfl, rfl⟩
  builderClass := ⟨_, c.declared?_subcomponentBuilder config, rfl⟩
  nested := ClassName.enclosing?_inner c.subcomponent "Builder"

end Contribution

/-- A memory filer holds a class after several files exactly if it held it before, or one of the
files is of that class. -/
theorem MemoryFiler.contains_handOver (files : List SourceFile) (filer : MemoryFiler)
    (name : ClassName) :
    ((handOver (m := StateM MemoryFiler) write files).run filer).2.contains name ↔
      filer.contains name ∨ ∃ file ∈ files, file.name = name := by
  rw [contains, get?_handOver, Option.isSome_or, Bool.or_eq_true, Option.isSome_map,
    List.find?_isSome]
  simp only [beq_iff_eq, contains]

/-- So it does after a run. -/
theorem Session.contains_run (s : Session MemoryFiler) (indexes : List DeclarationIndex)
    (name : ClassName) :
    (s.run MemoryFiler.write indexes).2.filing.contains name ↔
      s.filing.contains name ∨
        ∃ file ∈ (s.processor.plans indexes).flatMap (·.files), file.name = name := by
  rw [filing_run, MemoryFiler.contains_handOver]

/-- A round of a run with a memory filer, whatever the processor and the filer were when the run
started. The round hands over the files of its plan, and among these are the modules of the
contributions that it resolves and the module that includes them. Each module of a contribution
lists one subcomponent and takes one builder, which are declared in the same file: the subcomponent
as an interface that extends the injector of the target, the builder as a class nested in it. All
that an including module includes are classes that the filer holds after the round, and after all
further rounds. -/
theorem references_closed (start : Session MemoryFiler) (earlier : List DeclarationIndex)
    (index : DeclarationIndex) :
    let s := (start.run MemoryFiler.write earlier).2
    let config := s.processor.config
    let plan := s.processor.plan index
    let files := (s.handed MemoryFiler.write [index]).map (·.1)
    config = start.processor.config ∧
    (∀ c ∈ plan.contributions, c.file config ∈ files ∧
      (c.file config).BindsSubcomponent config.framework c.target c.subcomponent
        c.subcomponentBuilder) ∧
    ∀ a ∈ plan.aggregate?, a.file config ∈ files ∧
      ∀ value ∈ (a.file config).includes, ∃ name, value = classMember name ∧
        ∀ later, (start.run MemoryFiler.write (earlier ++ index :: later)).2.filing.contains
          name := by
  intro s config plan files
  have hprocessor : s.processor = start.processor.afterRounds earlier :=
    start.processor_run MemoryFiler.write earlier
  have hfiles : files = plan.files := s.map_fst_handed_singleton MemoryFiler.write index
  have hmodule : ∀ c ∈ plan.contributions, c.file config ∈ plan.files := fun c hc =>
    Processor.mem_files_plan_iff.mpr (Or.inl ⟨c, hc, rfl⟩)
  refine ⟨?_, fun c hc => ?_, fun a ha => ?_⟩
  · show s.processor.config = _
    rw [hprocessor, Processor.config_afterRounds]
  · exact ⟨hfiles ▸ hmodule c hc, c.bindsSubcomponent_file config⟩
  · refine ⟨hfiles ▸ Processor.mem_files_plan_iff.mpr (Or.inr (Or.inl ⟨a, ha, rfl⟩)), ?_⟩
    intro value hvalue
    rw [AggregateModule.includes_file] at hvalue
    obtain ⟨name, hname, rfl⟩ := List.mem_map.mp hvalue
    refine ⟨name, rfl, fun later => ?_⟩
    -- What is included is the module of a contribution of the round, which the round hands over.
    obtain ⟨c, hc, hmoduleName⟩ := AggregateModule.mem_moduleNames.mp hname
    rw [(AggregateModule.contributions_of_mem ha).1] at hc
    rw [Session.contains_run, Processor.plans_append, ← hprocessor]
    refine Or.inr ⟨c.file config, ?_, hmoduleName⟩
    rw [List.flatMap_append, Processor.plans, List.flatMap_cons]
    exact List.mem_append_right _ (List.mem_append_left _ (hmodule c hc))

end Multibinding
