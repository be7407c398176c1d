import Mathlib.Data.List.Destutter
import Multibinding.Proofs.Binding.Members

/-!
# What an including module lists

A module that includes others lists them by sorting their names and leaving out each name that is
equal to the one before it. In a sorted list equal names stand beside each other, so that every name
is left once, and the list is told by which names there are.

* `once_eq_dedup`: no sorted name is listed twice;
* `pairwise_moduleNames`: the listed names are strictly ascending;
* `moduleNames_eq_of_mem_iff`: they are told by which names there are;
* `includes_ascending`: the member that lists them, and its text.
-/

namespace Multibinding

open Java

/-- The text of a member that lists classes: a class literal, or an array of them unless there is
exactly one. -/
def Java.classListText : List ClassName → String
  | [name] => name.canonical ++ ".class"
  | names =>
    "\x7b" ++ String.intercalate ", " (names.map fun n => n.canonical ++ ".class") ++ "\x7d"

/-- That is how class literals are written. -/
theorem Java.listText_map_classMember (names : List ClassName) :
    MemberValue.listText (names.map classMember) = classListText names := by
  have htexts : ∀ names : List ClassName,
      MemberValue.texts (names.map classMember) = names.map fun n => n.canonical ++ ".class" := by
    intro names
    induction names with
    | nil => rfl
    | cons name rest ih => exact congrArg (_ :: ·) ih
  match names with
  | [] => rfl
  | [name] => rfl
  | first :: second :: rest =>
    show "\x7b" ++ String.intercalate ", "
      (MemberValue.texts ((first :: second :: rest).map classMember)) ++ "\x7d" = _
    rw [htexts]
    rfl

namespace AggregateModule

/-- Making each run of equal names one is what the library calls to destutter a list. -/
theorem once_eq_destutter (names : List ClassName) : once names = names.destutter (· ≠ ·) := by
  induction names using once.induct with
  | case1 => rfl
  | case2 a => rfl
  | case3 a rest ih =>
    rw [once, if_pos rfl, ih, List.destutter_cons_cons, if_neg (not_not.mpr rfl),
      List.destutter_cons']
  | case4 a b rest hne ih =>
    rw [once, if_neg hne, ih, List.destutter_cons_cons, if_pos hne, List.destutter_cons']

/-- In a sorted list only equal names stand between equal names, so that each name is left once. -/
theorem once_eq_dedup {names : List ClassName} (h : names.Pairwise fun a b => ClassName.le a b) :
    once names = names.dedup := by
  have : Std.Antisymm fun a b : ClassName => ClassName.le a b = true :=
    ⟨ClassName.le_antisymm⟩
  rw [once_eq_destutter, h.destutter_eq_dedup]

variable (a : AggregateModule)

/-- No module is listed twice. -/
theorem nodup_moduleNames : a.moduleNames.Nodup := by
  rw [moduleNames, once_eq_dedup (ClassName.pairwise_mergeSort _)]
  exact List.nodup_dedup _

/-- The listed modules are strictly ascending. -/
theorem pairwise_moduleNames : a.moduleNames.Pairwise ClassName.Precedes := by
  have hsorted : a.moduleNames.Pairwise fun a b => ClassName.le a b := by
    rw [moduleNames, once_eq_dedup (ClassName.pairwise_mergeSort _)]
    exact (ClassName.pairwise_mergeSort _).sublist (List.dedup_sublist _)
  exact hsorted.imp₂ (fun _ _ => ClassName.precedes_of_le_of_ne) a.nodup_moduleNames

variable {a}

/-- Contributions with the same modules, in whatever order and however often, have the same modules
listed in the same order. -/
theorem moduleNames_eq_of_mem_iff {b : AggregateModule}
    (h : ∀ name, (∃ c ∈ a.contributions, c.moduleName = name) ↔
      ∃ c ∈ b.contributions, c.moduleName = name) : a.moduleNames = b.moduleNames := by
  refine ClassName.eq_of_pairwise_precedes a.pairwise_moduleNames b.pairwise_moduleNames ?_
  intro name
  rw [mem_moduleNames, mem_moduleNames, h]

/-- Whatever the configuration, an including module is annotated as a module and with nothing else,
and the annotation lists some classes in their order. -/
def Lists (a : AggregateModule) (names : List ClassName) : Prop :=
  ∀ config : Config, ∃ use : AnnotationUse, (a.file config).type.annotations = [use] ∧
    use.type = config.framework.module ∧
    use.member? "includes" = some (names.map classMember) ∧
    use.text = "@" ++ use.type.canonical ++ "(includes = " ++ classListText names ++ ")"

/-- If there are modules to include, they are listed. -/
theorem lists_moduleNames (hne : a.moduleNames ≠ []) : a.Lists a.moduleNames := by
  intro config
  refine ⟨_, annotations_file config a, rfl, ?_, ?_⟩
  · rw [if_neg hne]
    rfl
  · -- The member is written with its name, as the name is not `value`.
    rw [if_neg hne]
    show _ ++ String.intercalate ", " ["includes = " ++ MemberValue.listText _] ++ ")" = _
    have hname : "(includes = " = "(" ++ "includes = " := by decide
    rw [String.intercalate_singleton, listText_map_classMember, hname]
    simp only [String.append_assoc]

/-- The module that includes those of some contributions, of which there is at least one. It lists
the modules of the contributions and no other class, each of them once, and in strictly ascending
order. All contributions that have the same modules, in whatever order and however often, have an
including module that lists them in the same order and with the same text. -/
theorem includes_ascending (first : Contribution) (rest : List Contribution) :
    ∃ a ∈ ofContributions? (first :: rest), ∃ names : List ClassName, a.Lists names ∧
      (∀ name, name ∈ names ↔ ∃ c ∈ first :: rest, c.moduleName = name) ∧
      names.Pairwise ClassName.Precedes ∧ names.Nodup ∧
      ∀ others : List Contribution,
        (∀ name, (∃ c ∈ others, c.moduleName = name) ↔
          ∃ c ∈ first :: rest, c.moduleName = name) →
        ∃ b ∈ ofContributions? others, b.Lists names := by
  have hlists : ∀ a : AggregateModule, first.moduleName ∈ a.moduleNames → a.Lists a.moduleNames :=
    fun a hmem => lists_moduleNames (List.ne_nil_of_mem hmem)
  have hfirst : ∃ c ∈ first :: rest, c.moduleName = first.moduleName :=
    ⟨first, List.mem_cons_self, rfl⟩
  refine ⟨_, rfl, _, hlists _ (mem_moduleNames.mpr hfirst), fun name => mem_moduleNames,
    pairwise_moduleNames _, nodup_moduleNames _, ?_⟩
  intro others h
  cases others with
  | nil =>
    -- The first module belongs to one of the other contributions.
    obtain ⟨c, hc, -⟩ := (h first.moduleName).mpr hfirst
    cases hc
  | cons other more =>
    refine ⟨_, rfl, ?_⟩
    rw [← moduleNames_eq_of_mem_iff (a := ⟨other.container.contributionsModule, other :: more⟩) h]
    exact hlists _ (mem_moduleNames.mpr ((h first.moduleName).mpr hfirst))

end AggregateModule

end Multibinding
