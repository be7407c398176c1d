import Multibinding.Proofs.Name.Flattened

/-!
# Names derived from names that were read

Class names are read, and others are derived from them: the classes around a class, classes beside
and inside it, and the classes that are generated for it. Each of these steps keeps what makes a
class name recognizable in its dotted form, so that the dotted form tells the class.

* `ClassName.IsDotted.enclosing` to `ClassName.IsDotted.subcomponentBuilder`: what a step keeps;
* `ClassName.Derived.isDotted`: what any number of steps keeps;
* `ClassName.derived_canonical`: a derived class is read back, and no other one has its dotted form.
-/

namespace Multibinding.ClassName

namespace IsDotted

variable {c : ClassName} (hc : c.IsDotted)
include hc

/-- A class is named by an identifier. -/
theorem isIdentifier_simpleName : isIdentifier c.simpleName = true :=
  hc.identifiers _ c.simpleName_mem

/-- The class around a class has some of its simple names. -/
theorem enclosing {d : ClassName} (h : c.enclosing? = some d) : d.IsDotted := by
  rw [enclosing?] at h
  split at h
  · cases h
  · obtain rfl := Option.some.inj h
    refine ⟨hc.package, hc.capital, fun name hname => hc.identifiers name ?_⟩
    exact List.cons_subset_cons _ (List.dropLast_subset _) hname

/-- The top-level class around a class has the first of its simple names. -/
theorem topLevelClass : c.topLevelClass.IsDotted :=
  ⟨hc.package, hc.capital,
    List.forall_mem_singleton.mpr (hc.identifiers c.topLevel List.mem_cons_self)⟩

/-- A class inside a class has one more simple name. -/
theorem inner {name : String} (hname : isIdentifier name = true) : (c.inner name).IsDotted :=
  ⟨hc.package, hc.capital,
    List.forall_mem_append.mpr ⟨hc.identifiers, List.forall_mem_singleton.mpr hname⟩⟩

/-- A class beside a class has another last simple name. At top level that is the first one, which
tells where the package ends. -/
theorem peer {name : String} (hname : isIdentifier name = true)
    (hcapital : c.isTopLevel = true → startsUppercase name = true) : (c.peer name).IsDotted := by
  rw [ClassName.peer]
  split
  next htop =>
    have hnested : c.nested = [] := List.isEmpty_iff.mp htop
    refine ⟨hc.package, hcapital htop, ?_⟩
    rw [simpleNames, hnested]
    exact List.forall_mem_singleton.mpr hname
  next =>
    obtain ⟨htop, hnested⟩ := List.forall_mem_cons.mp hc.identifiers
    refine ⟨hc.package, hc.capital, List.forall_mem_cons.mpr ⟨htop, ?_⟩⟩
    refine List.forall_mem_append.mpr ⟨fun other hother => ?_, List.forall_mem_singleton.mpr hname⟩
    exact hnested other (List.dropLast_subset _ hother)

/-- A class that is generated for a class starts like its top-level class. -/
theorem flattened {suffix : String} (hsuffix : suffix.toList.all isIdentifierPart = true) :
    (c.flattened suffix).IsDotted := by
  have hname := isIdentifier_flattened hc.identifiers suffix
  refine ⟨hc.package, startsUppercase_flattened hc.capital suffix, ?_⟩
  exact List.forall_mem_singleton.mpr (hname.trans hsuffix)

/-- So does the module of a method. -/
theorem generatedModule {method : String} (hmethod : isIdentifier method = true) :
    (c.generatedModule method).IsDotted := by
  apply hc.flattened
  rw [all_underscore_append, all_upperCamel, List.all_eq_true]
  exact isIdentifierPart_of_mem hmethod

/-- So does the module that includes others. -/
theorem contributionsModule : c.contributionsModule.IsDotted := by
  apply hc.flattened
  decide +kernel

/-- The subcomponent of a target that is named by an identifier is so itself. -/
theorem subcomponent {target : ClassName} (htarget : isIdentifier target.simpleName = true) :
    (c.subcomponent target).IsDotted := by
  apply hc.inner
  rw [isIdentifier_append htarget]
  decide +kernel

theorem subcomponentBuilder : c.subcomponentBuilder.IsDotted :=
  hc.inner (by decide +kernel)

end IsDotted

/-- The classes that are derived from classes that were read. Where a name is given, it is an
identifier, and beside a top-level class it starts with a capital. The target of a subcomponent may
be any class that is named by an identifier, as all derived classes are. -/
inductive Derived : ClassName → Prop
  | read {s : String} {c : ClassName} (h : parse s = .ok c) : Derived c
  | enclosing {c d : ClassName} (hc : Derived c) (h : c.enclosing? = some d) : Derived d
  | topLevelClass {c : ClassName} (hc : Derived c) : Derived c.topLevelClass
  | inner {c : ClassName} {name : String} (hc : Derived c) (hname : isIdentifier name = true) :
    Derived (c.inner name)
  | peer {c : ClassName} {name : String} (hc : Derived c) (hname : isIdentifier name = true)
    (hcapital : c.isTopLevel = true → startsUppercase name = true) : Derived (c.peer name)
  | generatedModule {c : ClassName} {method : String} (hc : Derived c)
    (hmethod : isIdentifier method = true) : Derived (c.generatedModule method)
  | contributionsModule {c : ClassName} (hc : Derived c) : Derived c.contributionsModule
  | subcomponent {c target : ClassName} (hc : Derived c)
    (htarget : isIdentifier target.simpleName = true) : Derived (c.subcomponent target)
  | subcomponentBuilder {c : ClassName} (hc : Derived c) : Derived c.subcomponentBuilder

/-- Every derived class can be told from its dotted form. -/
theorem Derived.isDotted {c : ClassName} (h : Derived c) : c.IsDotted := by
  induction h with
  | read h => exact isDotted_of_parse h
  | enclosing _ h ih => exact ih.enclosing h
  | topLevelClass _ ih => exact ih.topLevelClass
  | inner _ hname ih => exact ih.inner hname
  | peer _ hname hcapital ih => exact ih.peer hname hcapital
  | generatedModule _ hmethod ih => exact ih.generatedModule hmethod
  | contributionsModule _ ih => exact ih.contributionsModule
  | subcomponent _ htarget ih => exact ih.subcomponent htarget
  | subcomponentBuilder _ ih => exact ih.subcomponentBuilder

/-- A derived class is the target of a subcomponent as it stands. -/
theorem Derived.subcomponent_of_derived {c target : ClassName} (hc : Derived c)
    (htarget : Derived target) : Derived (c.subcomponent target) :=
  hc.subcomponent htarget.isDotted.isIdentifier_simpleName

/-- A derived class is read back from its dotted form, and no other derived class has the same
one. -/
theorem derived_canonical {c : ClassName} (hc : Derived c) :
    parse c.canonical = .ok c ∧ ∀ d, Derived d → d.canonical = c.canonical → d = c := by
  have hread := hc.isDotted.parse_canonical
  refine ⟨hread, fun d hd heq => ?_⟩
  -- Both classes are read from one text.
  have hother := hd.isDotted.parse_canonical
  rw [heq, hread] at hother
  exact (Except.ok.inj hother).symm

/-- The builder in the subcomponent of a nested class, in the module of a method of another nested
class: its dotted form is read back. -/
theorem derived_canonical_builder :
    ∃ c, Derived c ∧ c.canonical = "com.app.Outer_Module_BindWidget.PartSubcomponent.Builder" ∧
      parse c.canonical = .ok c ∧ ∀ d, Derived d → d.canonical = c.canonical → d = c := by
  have hcontainer : parse " com.app.Outer.Module" = .ok ⟨"com.app", "Outer", ["Module"]⟩ := by
    decide +kernel
  have htarget : parse "com.app.Widget" = .ok ⟨"com.app", "Widget", []⟩ := by
    decide +kernel
  have hmethod : isIdentifier "bindWidget" = true := by decide +kernel
  have hname : isIdentifier "Part" = true := by decide +kernel
  have hmodule := (Derived.read hcontainer).generatedModule hmethod
  have hpart := (Derived.read htarget).inner hname
  have hbuilder := (hmodule.subcomponent_of_derived hpart).subcomponentBuilder
  exact ⟨_, hbuilder, by decide +kernel, derived_canonical hbuilder⟩

end Multibinding.ClassName
