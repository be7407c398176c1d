import Multibinding.Proofs.Declaration.Enumeration
import Multibinding.Proofs.Java.FileName
import Multibinding.Proofs.Round.Runs

/-!
# The names of the files of a run

The modules of contributions and the modules that include them are named after the containers of
contributions, at top level, and the module that declares the maps has the name that the
configuration gives it. If the names of declarations and of that module have been read, the package
of every file has parts that are identifiers, and what else is known of a file is the name of a
method.

* `Processor.forall_declaresItsClass_iff`: when all files of a run declare their classes;
* `Processor.isCapitalized_of_mem_files`: the names of the files;
* `Processor.wellNamed_iff_of_mem_files`: which of them are made of identifiers.
-/

namespace Multibinding

open Java (SourceFile)

namespace ClassName.IsDotted

variable {c : ClassName} (h : c.IsDotted)
include h

/-- Where the package of a name ends that has been read. -/
theorem isCapitalized : c.IsCapitalized :=
  ⟨h.package, h.capital⟩

/-- So it is with the names that are generated for such a class. -/
theorem isCapitalized_flattened (suffix : String) : (c.flattened suffix).IsCapitalized :=
  ⟨h.package, startsUppercase_flattened h.capital suffix⟩

end ClassName.IsDotted

/-- The module of a contribution is well named exactly if the name of the method has nothing but
characters that may stand in an identifier. -/
theorem Contribution.wellNamed_file_iff {config : Config} {c : Contribution}
    (hc : c.container.IsDotted) :
    (c.file config).WellNamed ↔ c.method.toList.all isIdentifierPart = true := by
  have hcapitalized : (c.file config).name.IsCapitalized := hc.isCapitalized_flattened _
  rw [SourceFile.wellNamed_iff hcapitalized rfl,
    ← ClassName.isIdentifier_generatedModule hc.identifiers]
  exact List.forall_mem_singleton

/-- A module that includes others is named after the container of a contribution. -/
theorem AggregateModule.exists_container {contributions : List Contribution} {a : AggregateModule}
    (h : a ∈ ofContributions? contributions) :
    ∃ c ∈ contributions, a.name = c.container.contributionsModule := by
  cases contributions with
  | nil => cases h
  | cons c rest =>
    obtain rfl := Option.some.inj h
    exact ⟨c, List.mem_cons_self, rfl⟩

namespace Processor

variable {p : Processor} {indexes : List DeclarationIndex}

/-- The type in a file is named like the class of the file. -/
theorem simpleName_eq_of_mem_files {file : SourceFile}
    (h : file ∈ (p.plans indexes).flatMap (·.files)) : file.name.simpleName = file.type.name := by
  rcases mem_files_plans_iff.mp h with
    ⟨plan, hplan, c, hc, rfl⟩ | ⟨plan, hplan, a, ha, rfl⟩ | ⟨hne, name, hname, rfl⟩ <;> rfl

/-- All files of a run declare their classes exactly if there is no round, or no module that
declares the maps is handed over, or this one is to be a top-level class. -/
theorem forall_declaresItsClass_iff :
    (∀ file ∈ (p.plans indexes).flatMap (·.files), file.DeclaresItsClass) ↔
      indexes = [] ∨ ∀ name ∈ p.injectionModule?, name.isTopLevel = true := by
  constructor
  · intro h
    cases indexes with
    | nil => exact Or.inl rfl
    | cons index rest =>
      refine Or.inr fun name hname => ?_
      have hfile :
          InjectionModule.file p.config name ∈ (p.plans (index :: rest)).flatMap (·.files) :=
        mem_files_plans_iff.mpr (Or.inr (Or.inr ⟨List.cons_ne_nil _ _, name, hname, rfl⟩))
      exact (h _ hfile).topLevel
  · intro h file hfile
    refine ⟨?_, simpleName_eq_of_mem_files hfile⟩
    -- The other modules are top-level classes by the way they are named.
    rcases mem_files_plans_iff.mp hfile with
      ⟨plan, -, c, -, rfl⟩ | ⟨plan, -, a, ha, rfl⟩ | ⟨hne, name, hname, rfl⟩
    · rfl
    · obtain ⟨c, -, hname⟩ := AggregateModule.exists_container ha
      show a.name.isTopLevel = true
      rw [hname]
      rfl
    · rcases h with rfl | h
      · exact absurd rfl hne
      · exact h name hname

section Read

variable (hindexes : ∀ index ∈ indexes, ∀ t ∈ index.types, t.name.IsDotted)

include hindexes in
/-- Contributions are declared in types that have been read. -/
theorem isDotted_container {plan : RoundPlan} (hplan : plan ∈ p.plans indexes) {c : Contribution}
    (hc : c ∈ plan.contributions) : c.container.IsDotted := by
  induction indexes generalizing p with
  | nil => cases hplan
  | cons index rest ih =>
    obtain ⟨hindex, hrest⟩ := List.forall_mem_cons.mp hindexes
    rcases List.mem_cons.mp hplan with rfl | hplan
    · have helement : c.element ∈ index.elementsAnnotatedWith p.config.markers.contributeInjector :=
        (p.map_element_contributions_sublist index).subset (List.mem_map_of_mem hc)
      obtain ⟨t, ht, -, -, -, hname, -⟩ :=
        DeclarationIndex.method_mem_elementsAnnotatedWith.mp helement
      exact hname ▸ hindex t ht
    · exact ih hrest hplan

variable (hmodule : ∀ name ∈ p.config.injectionModule, name.IsDotted)
include hindexes hmodule

/-- The name of a file tells where its package ends. -/
theorem isCapitalized_of_mem_files {file : SourceFile}
    (h : file ∈ (p.plans indexes).flatMap (·.files)) : file.name.IsCapitalized := by
  rcases mem_files_plans_iff.mp h with
    ⟨plan, hplan, c, hc, rfl⟩ | ⟨plan, hplan, a, ha, rfl⟩ | ⟨hne, name, hname, rfl⟩
  · exact (isDotted_container hindexes hplan hc).isCapitalized_flattened _
  · obtain ⟨c, hc, hname⟩ := AggregateModule.exists_container ha
    show a.name.IsCapitalized
    rw [hname]
    exact (isDotted_container hindexes hplan hc).isCapitalized_flattened _
  · rw [injectionModule?] at hname
    split at hname
    · cases hname
    · exact (hmodule name hname).isCapitalized

/-- A file is well named exactly if it is not made for methods whose names have other characters
than those that may stand in identifiers. -/
theorem wellNamed_iff_of_mem_files {file : SourceFile}
    (h : file ∈ (p.plans indexes).flatMap (·.files)) :
    file.WellNamed ↔ ∀ plan ∈ p.plans indexes, ∀ c ∈ plan.contributions, c.file p.config = file →
      c.method.toList.all isIdentifierPart = true := by
  constructor
  · rintro hfile plan hplan c hc rfl
    exact (Contribution.wellNamed_file_iff (isDotted_container hindexes hplan hc)).mp hfile
  · intro hmethods
    have hcapitalized := isCapitalized_of_mem_files hindexes hmodule h
    have hsimple := simpleName_eq_of_mem_files h
    -- Only the names of methods need not be identifiers, and only contributions have them in
    -- theirs.
    rcases mem_files_plans_iff.mp h with
      ⟨plan, hplan, c, hc, rfl⟩ | ⟨plan, hplan, a, ha, rfl⟩ | ⟨hne, name, hname, rfl⟩
    · exact (Contribution.wellNamed_file_iff (isDotted_container hindexes hplan hc)).mpr
        (hmethods plan hplan c hc rfl)
    · obtain ⟨c, hc, hname⟩ := AggregateModule.exists_container ha
      refine (SourceFile.wellNamed_iff hcapitalized hsimple).mpr ?_
      show ∀ name ∈ a.name.simpleNames, isIdentifier name = true
      rw [hname]
      exact List.forall_mem_singleton.mpr (ClassName.isIdentifier_contributionsModule
        (isDotted_container hindexes hplan hc).identifiers)
    · rw [injectionModule?] at hname
      split at hname
      · cases hname
      · exact (SourceFile.wellNamed_iff hcapitalized hsimple).mpr (hmodule name hname).identifiers

end Read

end Processor

section Sample

/-- The types of a small application with short names: a key, and a module that lists the key and
whose methods have some names and contribute the module itself. -/
def compactTypes (methods : List String) : List TypeElement :=
  let key : ClassName := ⟨"a", "K", []⟩
  let module : ClassName := ⟨"a", "M", []⟩
  let markers : MarkerNames := {}
  [ { name := key
      kind := .annotationType
      annotations := [⟨markers.mapKey, []⟩]
      supertypes := []
      methods := [⟨"value", .declared .string, []⟩] },
    { name := module
      kind := .plain
      annotations :=
        [⟨markers.module, []⟩,
          ⟨markers.injectorKeyRegistry, [(keysArgument, .typeList [.declared key])]⟩]
      supertypes := [.declared key]
      methods := methods.map fun name =>
        ⟨name, .declared module, [⟨markers.contributeInjector, []⟩]⟩ } ]

/-- The index of these types. -/
def compactIndex (methods : List String) : DeclarationIndex where
  types := compactTypes methods
  nodup := by simp [compactTypes]

/-- The names of the types can be told from their dotted forms. -/
theorem isDotted_compactIndex (methods : List String) :
    ∀ t ∈ (compactIndex methods).types, t.name.IsDotted := by
  have hnames :
      (compactIndex methods).types.map (·.name) = [⟨"a", "K", []⟩, ⟨"a", "M", []⟩] := rfl
  have hparsed : ∀ name ∈ [(⟨"a", "K", []⟩ : ClassName), ⟨"a", "M", []⟩],
      (ClassName.parse name.canonical).toOption = some name := by
    decide +kernel
  intro t ht
  have hname : t.name ∈ (compactIndex methods).types.map (·.name) := List.mem_map_of_mem ht
  rw [hnames] at hname
  exact ClassName.isDotted_of_parse (toOption_eq_some_iff.mp (hparsed t.name hname))

end Sample

end Multibinding
