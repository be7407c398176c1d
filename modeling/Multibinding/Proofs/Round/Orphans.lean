import Multibinding.Proofs.Emission.Memory
import Multibinding.Proofs.Round.Runs

/-!
# Orphans of a run

A module that includes others is named after the container of the first contribution of its round
only. Where a later round starts with a contribution of the same container, the filer has that name
already and refuses the module, and the modules that it was to include are held by the filer without
being included anywhere.

* `find?_module_iff`, `find?_aggregate_iff`: which modules of a run are taken;
* `included_iff`: when the module of a contribution is included;
* `no_orphans_iff`: when the modules of a run are.
-/

namespace Multibinding

open Java (SourceFile)

/-- In two lists, an item of the second one that is the first match there is the first match in both
exactly if nothing in the first one matches. -/
theorem find?_append_eq_some_iff {α : Type} {q : α → Bool} {before rest : List α} {a : α}
    (hnot : a ∉ before) (hrest : rest.find? q = some a) :
    (before ++ rest).find? q = some a ↔ ∀ b ∈ before, ¬q b := by
  rw [List.find?_append]
  cases hbefore : before.find? q with
  | none => exact iff_of_true (by rw [Option.none_or, hrest]) (List.find?_eq_none.mp hbefore)
  | some b =>
    have hb : b ∈ before := List.mem_of_find?_eq_some hbefore
    refine iff_of_false ?_ fun hnone => hnone b hb (List.find?_some hbefore)
    rw [Option.some_or, Option.some.injEq]
    rintro rfl
    exact hnot hb

namespace Processor

section Split

variable {p : Processor} {indexes : List DeclarationIndex} {before after : List RoundPlan}
  {plan : RoundPlan} (hplans : p.plans indexes = before ++ plan :: after)
include hplans

/-- A round of a run is one of its plans. -/
theorem plan_mem : plan ∈ p.plans indexes :=
  hplans ▸ List.mem_append_right _ List.mem_cons_self

/-- The rounds before a round of a run are among its plans. -/
theorem earlier_mem {earlier : RoundPlan} (hearlier : earlier ∈ before) :
    earlier ∈ p.plans indexes :=
  hplans ▸ List.mem_append_left _ hearlier

/-- A file that is the first one of its name in its round, and is no file of an earlier round, is
the first one of its name in the run exactly if no file of an earlier round has the name. -/
theorem find?_file_iff {file : SourceFile}
    (hfirst : plan.files.find? (·.name == file.name) = some file)
    (hnot : file ∉ before.flatMap (·.files)) :
    ((p.plans indexes).flatMap (·.files)).find? (·.name == file.name) = some file ↔
      (∀ earlier ∈ before, ∀ d ∈ earlier.contributions, d.moduleName ≠ file.name) ∧
      (∀ earlier ∈ before, ∀ b ∈ earlier.aggregate?, b.name ≠ file.name) ∧
      (before = [] ∨ file.name ∉ p.injectionModule?) := by
  have hround : (plan :: after).flatMap (·.files) = plan.files ++ after.flatMap (·.files) :=
    List.flatMap_cons
  -- In its own round the file is found first, so that only the rounds before it matter.
  have hrest : ((plan :: after).flatMap (·.files)).find? (·.name == file.name) = some file := by
    rw [hround, List.find?_append, hfirst, Option.some_or]
  obtain ⟨indexes', hbefore⟩ := plans_eq_append hplans
  rw [hplans, List.flatMap_append, find?_append_eq_some_iff hnot hrest, ← hbefore,
    ← forall_files_plans_name_ne_iff]
  simp only [beq_iff_eq, ne_eq]

end Split

end Processor

/-- No two contributions of a run have modules of one name, and none has a module that is named like
one that includes others. -/
structure Processor.ModulesApart (p : Processor) (indexes : List DeclarationIndex) : Prop where
  distinct : (((p.plans indexes).flatMap (·.contributions)).map Contribution.moduleName).Nodup
  apart : ∀ plan ∈ p.plans indexes, ∀ a ∈ plan.aggregate?, ∀ other ∈ p.plans indexes,
    ∀ c ∈ other.contributions, c.moduleName ≠ a.name

namespace Processor.ModulesApart

variable {p : Processor} {indexes : List DeclarationIndex} {before after : List RoundPlan}
  {plan : RoundPlan} (h : p.ModulesApart indexes)
  (hplans : p.plans indexes = before ++ plan :: after)
include h hplans

/-- The contributions of one round have modules of different names, and those of two rounds have
too. -/
theorem round_nodup_and_disjoint :
    (plan.contributions.map Contribution.moduleName).Nodup ∧
      ∀ other, other ∈ before ∨ other ∈ after → ∀ c ∈ other.contributions,
        ∀ d ∈ plan.contributions, c.moduleName ≠ d.moduleName := by
  have hdistinct := h.distinct
  rw [hplans, List.map_flatMap, List.nodup_flatMap, List.pairwise_append, List.pairwise_cons]
    at hdistinct
  obtain ⟨hrounds, -, ⟨hafter, -⟩, hbefore⟩ := hdistinct
  refine ⟨hrounds plan (by simp), ?_⟩
  rintro other (hother | hother) c hc d hd hname
  · exact hbefore other hother plan List.mem_cons_self (List.mem_map_of_mem hc)
      (hname ▸ List.mem_map_of_mem hd)
  · exact hafter other hother (List.mem_map_of_mem hd) (hname ▸ List.mem_map_of_mem hc)

/-- The name of a module tells the round that it comes from. -/
theorem eq_of_moduleName_eq {other : RoundPlan} (hother : other ∈ p.plans indexes)
    {c d : Contribution} (hc : c ∈ other.contributions) (hd : d ∈ plan.contributions)
    (hname : c.moduleName = d.moduleName) : other = plan := by
  have hdisjoint := (h.round_nodup_and_disjoint hplans).2 other
  rw [hplans] at hother
  rcases List.mem_append.mp hother with hbefore | hother
  · exact absurd hname (hdisjoint (Or.inl hbefore) c hc d hd)
  · rcases List.mem_cons.mp hother with rfl | hafter
    · rfl
    · exact absurd hname (hdisjoint (Or.inr hafter) c hc d hd)

/-- The module of a contribution is the first file of its name exactly if the module that declares
the maps was not handed over under that name in an earlier round. -/
theorem find?_module_iff {c : Contribution} (hc : c ∈ plan.contributions) :
    ((p.plans indexes).flatMap (·.files)).find? (·.name == c.moduleName) =
        some (c.file p.config) ↔
      before = [] ∨ c.moduleName ∉ p.injectionModule? := by
  obtain ⟨hnodup, hdisjoint⟩ := h.round_nodup_and_disjoint hplans
  obtain ⟨rest, hfiles⟩ := files_of_mem_plans (plan_mem hplans)
  -- No other module of its round has the name.
  have hfirst : plan.files.find? (·.name == c.moduleName) = some (c.file p.config) := by
    have hmodule : (plan.contributions.map (·.file p.config)).find? (·.name == c.moduleName) =
        some (c.file p.config) := by
      refine (find?_key_eq_some_iff ?_).mpr ⟨List.mem_map_of_mem hc, rfl⟩
      rw [List.map_map]
      exact hnodup
    rw [hfiles, List.find?_append, hmodule, Option.some_or]
  -- Of the earlier files, only the module that declares the maps can have it.
  have hmodules : ∀ earlier ∈ before, ∀ d ∈ earlier.contributions, d.moduleName ≠ c.moduleName :=
    fun earlier hearlier d hd => hdisjoint earlier (Or.inl hearlier) d hd c hc
  have haggregates : ∀ earlier ∈ before, ∀ b ∈ earlier.aggregate?, b.name ≠ c.moduleName :=
    fun earlier hearlier b hb =>
      (h.apart earlier (earlier_mem hplans hearlier) b hb plan (plan_mem hplans) c hc).symm
  have hnot : c.file p.config ∉ before.flatMap (·.files) := by
    obtain ⟨indexes', hbefore⟩ := plans_eq_append hplans
    rw [← hbefore, mem_files_plans_iff, hbefore]
    rintro (⟨earlier, hearlier, d, hd, heq⟩ | ⟨earlier, hearlier, b, hb, heq⟩ | ⟨-, name, -, heq⟩)
    · exact hmodules earlier hearlier d hd (congrArg SourceFile.name heq)
    · exact haggregates earlier hearlier b hb (congrArg SourceFile.name heq)
    · exact InjectionModule.file_ne_contribution p.config c name heq.symm
  refine (find?_file_iff hplans hfirst hnot).trans ?_
  exact ⟨fun hname => hname.2.2, fun hinjection => ⟨hmodules, haggregates, hinjection⟩⟩

/-- The module that includes those of a round is the first file of its name exactly if no module
that includes those of an earlier round has the name, and the module that declares the maps was not
handed over under it in an earlier round. -/
theorem find?_aggregate_iff {a : AggregateModule} (ha : a ∈ plan.aggregate?) :
    ((p.plans indexes).flatMap (·.files)).find? (·.name == a.name) = some (a.file p.config) ↔
      (∀ earlier ∈ before, ∀ b ∈ earlier.aggregate?, b.name ≠ a.name) ∧
        (before = [] ∨ a.name ∉ p.injectionModule?) := by
  obtain ⟨rest, hfiles⟩ := files_of_mem_plans (plan_mem hplans)
  have hne := (AggregateModule.contributions_of_mem ha).2
  have hmodules : ∀ other ∈ p.plans indexes, ∀ d ∈ other.contributions, d.moduleName ≠ a.name :=
    h.apart plan (plan_mem hplans) a ha
  -- In its own round, only the modules of the contributions are handed over before it.
  have hfirst : plan.files.find? (·.name == a.name) = some (a.file p.config) := by
    have hnone : (plan.contributions.map (·.file p.config)).find? (·.name == a.name) = none := by
      rw [List.find?_eq_none, List.forall_mem_map]
      intro d hd
      rw [beq_iff_eq]
      exact hmodules plan (plan_mem hplans) d hd
    rw [hfiles, List.find?_append, hnone, Option.none_or, ha, Option.toList_some,
      List.map_singleton, List.singleton_append]
    exact List.find?_cons_of_pos (beq_self_eq_true a.name)
  have hnot : a.file p.config ∉ before.flatMap (·.files) := by
    obtain ⟨indexes', hbefore⟩ := plans_eq_append hplans
    rw [← hbefore, mem_files_plans_iff, hbefore]
    rintro (⟨earlier, hearlier, d, hd, heq⟩ | ⟨earlier, hearlier, b, hb, heq⟩ | ⟨-, name, -, heq⟩)
    · exact hmodules earlier (earlier_mem hplans hearlier) d hd (congrArg SourceFile.name heq)
    · -- Both would include the module of the first contribution, which is in one round only.
      obtain ⟨c, hc⟩ := List.exists_mem_of_ne_nil _ hne
      have hinclude : classMember c.moduleName ∈ (a.file p.config).includes :=
        (RoundPlan.mem_includes_iff ha).mpr ⟨c, hc, rfl⟩
      rw [← heq, RoundPlan.mem_includes_iff hb] at hinclude
      obtain ⟨d, hd, hname⟩ := hinclude
      exact (h.round_nodup_and_disjoint hplans).2 earlier (Or.inl hearlier) d hd c hc hname
    · exact InjectionModule.file_ne_aggregate p.config a name heq.symm
  refine (find?_file_iff hplans hfirst hnot).trans ?_
  constructor
  · exact fun hname => hname.2
  · intro hname
    exact ⟨fun earlier hearlier => hmodules earlier (earlier_mem hplans hearlier), hname⟩

end Processor.ModulesApart

section Held

variable {s : Session MemoryFiler} {indexes : List DeclarationIndex} (hfresh : s.filing = .empty)
include hfresh

/-- A memory filer that is empty takes the first file of each name of a run. -/
theorem mem_handed_iff {file : SourceFile} :
    (file, true) ∈ s.handed MemoryFiler.write indexes ↔
      ((s.processor.plans indexes).flatMap (·.files)).find? (·.name == file.name) =
        some file := by
  rw [Session.handed_eq, MemoryFiler.taken_iff, hfresh]
  exact and_iff_right rfl

/-- After a run, it holds what it has taken. -/
theorem files_run :
    (s.run MemoryFiler.write indexes).2.filing.files =
      ((s.handed MemoryFiler.write indexes).filter (·.2)).map
        fun (file, _) => (file.name, file.source) := by
  rw [Session.filing_run, MemoryFiler.files_handOver, Session.handed_eq, hfresh]
  exact List.nil_append _

/-- The module of a contribution is included in a module that is taken exactly if the one of its own
round is. -/
theorem included_iff (hapart : s.processor.ModulesApart indexes) {before after : List RoundPlan}
    {plan : RoundPlan} (hplans : s.processor.plans indexes = before ++ plan :: after)
    {c : Contribution} (hc : c ∈ plan.contributions) :
    (∃ other ∈ s.processor.plans indexes, ∃ a ∈ other.aggregate?,
        (a.file s.processor.config, true) ∈ s.handed MemoryFiler.write indexes ∧
        classMember c.moduleName ∈ (a.file s.processor.config).includes) ↔
      ∀ a ∈ plan.aggregate?,
        (∀ earlier ∈ before, ∀ b ∈ earlier.aggregate?, b.name ≠ a.name) ∧
          (before = [] ∨ a.name ∉ s.processor.injectionModule?) := by
  constructor
  -- Only the module of its own round includes it, as no two contributions share a module name.
  · rintro ⟨other, hother, a, ha, htaken, hinclude⟩ b hb
    obtain ⟨d, hd, hname⟩ := (RoundPlan.mem_includes_iff ha).mp hinclude
    obtain rfl := hapart.eq_of_moduleName_eq hplans hother hd hc hname
    obtain rfl := Option.mem_unique ha hb
    exact (hapart.find?_aggregate_iff hplans ha).mp ((mem_handed_iff hfresh).mp htaken)
  · intro hfree
    obtain ⟨a, ha⟩ := AggregateModule.exists_of_mem hc
    refine ⟨plan, Processor.plan_mem hplans, a, ha, ?_, ?_⟩
    · exact (mem_handed_iff hfresh).mpr ((hapart.find?_aggregate_iff hplans ha).mpr (hfree a ha))
    · exact (RoundPlan.mem_includes_iff ha).mpr ⟨c, hc, rfl⟩

end Held

/-- A run with a memory filer that is empty, in which no two contributions have modules of one name
and none has a module that is named like one that includes others. The modules of contributions that
the filer holds after it are all included in modules that it holds exactly if, in each round of
which it has taken a module, the name of the module that is to include it is new: it is that of no
such module of an earlier round, nor was the module that declares the maps handed over under it in
an earlier round. -/
theorem no_orphans_iff (s : Session MemoryFiler) (indexes : List DeclarationIndex)
    (hfresh : s.filing = .empty) (hapart : s.processor.ModulesApart indexes) :
    let p := s.processor
    let handed := s.handed MemoryFiler.write indexes
    (s.run MemoryFiler.write indexes).2.filing.files =
        (handed.filter (·.2)).map (fun (file, _) => (file.name, file.source)) ∧
    ((∀ plan ∈ p.plans indexes, ∀ c ∈ plan.contributions, (c.file p.config, true) ∈ handed →
        ∃ other ∈ p.plans indexes, ∃ a ∈ other.aggregate?, (a.file p.config, true) ∈ handed ∧
          classMember c.moduleName ∈ (a.file p.config).includes) ↔
      ∀ before plan after, p.plans indexes = before ++ plan :: after →
        (∃ c ∈ plan.contributions, before = [] ∨ c.moduleName ∉ p.injectionModule?) →
        ∀ a ∈ plan.aggregate?,
          (∀ earlier ∈ before, ∀ b ∈ earlier.aggregate?, b.name ≠ a.name) ∧
            (before = [] ∨ a.name ∉ p.injectionModule?)) := by
  intro p handed
  refine ⟨files_run hfresh, ?_, ?_⟩
  -- The module of a contribution is taken unless the one for the maps was, under its name.
  · rintro hincluded before plan after hplans ⟨c, hc, hfree⟩
    have hplan := Processor.plan_mem hplans
    refine (included_iff hfresh hapart hplans hc).mp (hincluded plan hplan c hc ?_)
    exact (mem_handed_iff hfresh).mpr ((hapart.find?_module_iff hplans hc).mpr hfree)
  · intro hfree plan hplan c hc htaken
    obtain ⟨before, after, hplans⟩ := List.append_of_mem hplan
    refine (included_iff hfresh hapart hplans hc).mpr (hfree before plan after hplans ⟨c, hc, ?_⟩)
    exact (hapart.find?_module_iff hplans hc).mp ((mem_handed_iff hfresh).mp htaken)

/-- The modules of one round over the sample application are included. -/
theorem no_orphans_sample :
    let s := Session.start {} MemoryFiler.empty
    let indexes := [sampleIndex ["bindFirst", "bindSecond"]]
    s.processor.ModulesApart indexes ∧
      ∀ plan ∈ s.processor.plans indexes, ∀ c ∈ plan.contributions,
        (c.file {}, true) ∈ s.handed MemoryFiler.write indexes →
        ∃ other ∈ s.processor.plans indexes, ∃ a ∈ other.aggregate?,
          (a.file {}, true) ∈ s.handed MemoryFiler.write indexes ∧
            classMember c.moduleName ∈ (a.file {}).includes := by
  intro s indexes
  have hapart : s.processor.ModulesApart indexes := ⟨by decide +kernel, by decide +kernel⟩
  refine ⟨hapart, (no_orphans_iff s indexes rfl hapart).2.mpr ?_⟩
  intro before plan after hplans _ a _
  have hnone : before = [] := by
    cases before with
    | nil => rfl
    | cons first rest =>
      have hlength := congrArg List.length hplans
      simp [indexes, Processor.plans] at hlength
  subst hnone
  exact ⟨fun _ h => absurd h List.not_mem_nil, Or.inl rfl⟩

/-- Two rounds over the sample application with a contribution each. The filer holds the module of
the second one, but no module that includes it. -/
theorem orphan_sample :
    let s := Session.start {} MemoryFiler.empty
    let indexes := [sampleIndex ["bindFirst"], sampleIndex ["bindSecond"]]
    s.processor.ModulesApart indexes ∧
      ∃ plan ∈ s.processor.plans indexes, ∃ c ∈ plan.contributions,
        (c.file {}, true) ∈ s.handed MemoryFiler.write indexes ∧
        ¬∃ other ∈ s.processor.plans indexes, ∃ a ∈ other.aggregate?,
          (a.file {}, true) ∈ s.handed MemoryFiler.write indexes ∧
            classMember c.moduleName ∈ (a.file {}).includes := by
  intro s indexes
  have hapart : s.processor.ModulesApart indexes := ⟨by decide +kernel, by decide +kernel⟩
  let first := s.processor.plan (sampleIndex ["bindFirst"])
  let second := (s.processor.after first).plan (sampleIndex ["bindSecond"])
  have hplans : s.processor.plans indexes = [first] ++ second :: [] := rfl
  have hnames : ¬∀ a ∈ second.aggregate?, ∀ earlier ∈ [first], ∀ b ∈ earlier.aggregate?,
      b.name ≠ a.name := by decide +kernel
  have hsome : second.contributions ≠ [] := by
    have hlength : second.contributions.length = 1 := by decide +kernel
    exact List.ne_nil_of_length_pos (hlength ▸ Nat.one_pos)
  obtain ⟨c, hc⟩ := List.exists_mem_of_ne_nil _ hsome
  refine ⟨hapart, second, Processor.plan_mem hplans, c, hc, ?_, ?_⟩
  · exact (mem_handed_iff rfl).mpr ((hapart.find?_module_iff hplans hc).mpr (Or.inr nofun))
  · intro hincluded
    exact hnames fun a ha => ((included_iff rfl hapart hplans hc).mp hincluded a ha).1

end Multibinding
