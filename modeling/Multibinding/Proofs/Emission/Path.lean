import Multibinding.Emission.Disk
import Multibinding.Proofs.Text

/-!
# The steps of paths

A path is followed step by step, and two paths with the same steps lead to the same place. The steps
of a path are names: what is empty or a single point is no step.

* `steps_ofSteps`: steps are read back from the path that they make;
* `steps_join`: a path below another one has the steps of both.
-/

namespace Multibinding.DiskPath

/-- Whether a text can be a step of a path. -/
structure IsStep (step : String) : Prop where
  ne_empty : step ≠ ""
  ne_point : step ≠ "."
  slash : '/' ∉ step.toList

/-- The steps of a path can be steps. -/
theorem isStep_of_mem_steps {path step : String} (h : step ∈ steps path) : IsStep step := by
  obtain ⟨hmem, hstep⟩ := List.mem_filter.mp h
  rw [Bool.and_eq_true, bne_iff_ne, bne_iff_ne] at hstep
  exact ⟨hstep.1, hstep.2, Text.separator_notMem_of_mem_split hmem⟩

/-- Steps are read back from the text that joins them. -/
theorem steps_intercalate {parts : List String} (h : ∀ part ∈ parts, IsStep part) :
    steps (String.intercalate "/" parts) = parts := by
  by_cases hne : parts = []
  · subst hne
    decide
  · have hsplit : Text.split '/' (String.intercalate "/" parts) = parts :=
      Text.split_intercalate '/' hne fun part hpart => (h part hpart).slash
    rw [steps, hsplit, List.filter_eq_self]
    intro part hpart
    simp [(h part hpart).ne_empty, (h part hpart).ne_point]

/-- The text that joins steps does not start at the root of the file system. -/
theorem isAbsolute_intercalate {parts : List String} (h : ∀ part ∈ parts, IsStep part) :
    isAbsolute (String.intercalate "/" parts) = false := by
  cases parts with
  | nil => decide
  | cons part rest =>
    obtain ⟨hpart, -⟩ := List.forall_mem_cons.mp h
    obtain ⟨t, ht⟩ := Text.exists_intercalate_cons_eq_append "/" part rest
    rw [ht, isAbsolute, String.toList_append]
    cases hlist : part.toList with
    | nil => exact absurd (String.toList_eq_nil_iff.mp hlist) hpart.ne_empty
    | cons c cs =>
      have hc : c ≠ '/' := fun heq => hpart.slash (hlist ▸ heq ▸ List.mem_cons_self)
      exact beq_eq_false_iff_ne.mpr fun heq => hc (Option.some.inj heq)

/-- The steps on both sides of a slash. -/
theorem steps_append_append (s t : String) : steps (s ++ "/" ++ t) = steps s ++ steps t := by
  have hsplit : Text.split '/' (s ++ "/" ++ t) = Text.split '/' s ++ Text.split '/' t :=
    Text.split_append_append '/' s t
  rw [steps, hsplit, List.filter_append]
  rfl

/-- A text without characters has no steps. -/
theorem steps_empty : steps "" = [] := by
  decide

/-- Steps are read back from the path that they make. -/
theorem steps_ofSteps (absolute : Bool) {parts : List String} (h : ∀ part ∈ parts, IsStep part) :
    steps (ofSteps absolute parts) = parts := by
  cases absolute with
  | false =>
    rw [ofSteps, if_neg Bool.false_ne_true, String.empty_append]
    exact steps_intercalate h
  | true =>
    have hsteps := steps_append_append "" (String.intercalate "/" parts)
    rw [String.empty_append, steps_empty, List.nil_append] at hsteps
    rw [ofSteps, if_pos rfl, hsteps, steps_intercalate h]

/-- The path to the directory that a path leads into has all of its steps but the last one. -/
theorem steps_parent (path : String) : steps (parent path) = (steps path).dropLast :=
  steps_ofSteps _ fun _ hpart => isStep_of_mem_steps (List.dropLast_subset _ hpart)

/-- A path below another one has the steps of both. -/
theorem steps_join (base : String) {path : String} (hrelative : isAbsolute path = false) :
    steps (join base path) = steps base ++ steps path := by
  rw [join, hrelative, Bool.false_or]
  split
  · rename_i hempty
    rw [String.isEmpty_iff.mp hempty, steps_empty, List.nil_append]
  · split
    · rename_i hlast
      -- The slash at the end of the base parts the two.
      obtain ⟨init, hinit⟩ := List.getLast?_eq_some_iff.mp (beq_iff_eq.mp hlast)
      have hbase : base = String.ofList init ++ "/" ++ "" := by
        apply String.toList_injective
        rw [hinit]
        simp
      have hboth : base ++ path = String.ofList init ++ "/" ++ path := by
        rw [hbase, String.append_empty]
      rw [hboth, hbase, steps_append_append, steps_append_append, steps_empty, List.append_nil]
    · exact steps_append_append base path

end Multibinding.DiskPath
