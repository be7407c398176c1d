import Multibinding.Name.Generated
import Multibinding.Proofs.Text

/-!
# When generated names tell declarations apart

The name of a generated class joins the simple names of a container and one more part with
underscores. Parts without underscores can be read back from it, and a method can be read back from
its capitalized form unless it starts with a capital itself.

* `upperCamel_inj`: methods that do not start with a capital are told apart;
* `flattened_inj`: containers and parts without underscores are told apart;
* `generatedModule_inj`: so are the modules of methods;
* `eq_contributions_of_generatedModule_eq`: which of them have the name of a module that gathers
  others;
* `generatedModule_eq_iff`: both together.
-/

namespace Multibinding

section Capitals

/-- An ASCII letter is made a capital by taking 32 away. -/
theorem toNat_toUpper (c : Char) :
    c.toUpper.toNat = if 97 ≤ c.toNat ∧ c.toNat ≤ 122 then c.toNat - 32 else c.toNat := by
  have hlower : ('a'.val ≤ c.val ∧ c.val ≤ 'z'.val) ↔ (97 ≤ c.toNat ∧ c.toNat ≤ 122) := Iff.rfl
  delta Char.toUpper
  by_cases h : 97 ≤ c.toNat ∧ c.toNat ≤ 122
  · rw [dif_pos (hlower.mpr h), if_pos h]
    show (c.val + ('A'.val - 'a'.val)).toNat = c.toNat - 32
    have hdiff : ('A'.val - 'a'.val).toNat = 2 ^ 32 - 32 := by decide
    rw [UInt32.toNat_add, hdiff]
    show (c.toNat + _) % _ = _
    omega
  · rw [dif_neg (mt hlower.mp h), if_neg h]

/-- The capitals are the ASCII letters from `A` to `Z`. -/
theorem isUpper_iff (c : Char) : c.isUpper ↔ 65 ≤ c.toNat ∧ c.toNat ≤ 90 := by
  show decide (c.val ≥ 'A'.val ∧ c.val ≤ 'Z'.val) = true ↔ _
  rw [decide_eq_true_iff]
  exact Iff.rfl

/-- Two characters that are no capitals do not become one. -/
theorem toUpper_inj {c d : Char} (hc : ¬c.isUpper) (hd : ¬d.isUpper)
    (h : c.toUpper = d.toUpper) : c = d := by
  rw [isUpper_iff] at hc hd
  have hnat := congrArg Char.toNat h
  rw [toNat_toUpper, toNat_toUpper] at hnat
  apply Char.toNat_inj.mp
  split at hnat <;> split at hnat <;> omega

/-- No other character becomes an underscore. -/
theorem eq_underscore_of_toUpper_eq {c : Char} (h : c.toUpper = '_') : c = '_' := by
  have hnat := congrArg Char.toNat h
  rw [toNat_toUpper] at hnat
  apply Char.toNat_inj.mp
  have hunderscore : '_'.toNat = 95 := rfl
  split at hnat <;> omega

/-- Whether a text starts with a capital ASCII letter. -/
def startsWithCapital (s : String) : Bool :=
  s.toList.head?.any Char.isUpper

/-- The characters of a text with a capital. -/
theorem toList_upperCamel (s : String) :
    (upperCamel s).toList = s.toList.modifyHead Char.toUpper := by
  rw [upperCamel]
  cases s.toList with
  | nil => rfl
  | cons c rest => exact String.toList_ofList

/-- Texts that do not start with a capital are told apart with one. -/
theorem upperCamel_inj {s t : String} (hs : startsWithCapital s = false)
    (ht : startsWithCapital t = false) (h : upperCamel s = upperCamel t) : s = t := by
  have hlist := congrArg String.toList h
  rw [toList_upperCamel, toList_upperCamel] at hlist
  apply String.toList_injective
  unfold startsWithCapital at hs ht
  generalize s.toList = cs at *
  generalize t.toList = ds at *
  -- Only the first characters are changed, and those that are no capitals stay apart.
  cases cs with
  | nil => cases ds with
    | nil => rfl
    | cons d ds => cases hlist
  | cons c cs => cases ds with
    | nil => cases hlist
    | cons d ds =>
      obtain ⟨hhead, htail⟩ := List.cons.inj hlist
      rw [toUpper_inj (by simpa using hs) (by simpa using ht) hhead, htail]

/-- A capital brings in no underscore. -/
theorem underscore_notMem_upperCamel {s : String} (h : '_' ∉ s.toList) :
    '_' ∉ (upperCamel s).toList := by
  rw [toList_upperCamel]
  cases hs : s.toList with
  | nil => exact List.not_mem_nil
  | cons c rest =>
    rw [hs] at h
    intro hmem
    rcases List.mem_cons.mp hmem with hc | hrest
    · exact h (eq_underscore_of_toUpper_eq hc.symm ▸ List.mem_cons_self)
    · exact h (List.mem_cons_of_mem c hrest)

end Capitals

/-- Parts without underscores can be read back from the text that joins them. -/
theorem intercalate_inj {parts parts' : List String} (hne : parts ≠ []) (hne' : parts' ≠ [])
    (hparts : ∀ part ∈ parts, '_' ∉ part.toList) (hparts' : ∀ part ∈ parts', '_' ∉ part.toList)
    (h : String.intercalate "_" parts = String.intercalate "_" parts') : parts = parts' := by
  rw [← Text.split_intercalate '_' hne hparts, ← Text.split_intercalate '_' hne' hparts']
  exact congrArg (Text.split '_') h

namespace ClassName

/-- Whether no simple name in the chain of a class has an underscore. -/
def UnderscoreFree (c : ClassName) : Prop :=
  ∀ name ∈ c.simpleNames, '_' ∉ name.toList

instance (c : ClassName) : Decidable c.UnderscoreFree := by
  unfold UnderscoreFree
  infer_instance

/-- The name of a generated class joins the simple names of the container and one more part. -/
theorem flattened_eq (container : ClassName) (part : String) :
    container.flattened ("_" ++ part) =
      ⟨container.package, String.intercalate "_" (container.simpleNames ++ [part]), []⟩ := by
  have hne : container.simpleNames ≠ [] := List.cons_ne_nil _ _
  rw [String.intercalate_append_of_ne_nil hne (List.cons_ne_nil _ _),
    String.intercalate_singleton, String.append_assoc]
  rfl

variable {container container' : ClassName}

/-- Containers and parts without underscores can be read back from the generated name. -/
theorem flattened_inj {part part' : String} (hcontainer : container.UnderscoreFree)
    (hcontainer' : container'.UnderscoreFree) (hpart : '_' ∉ part.toList)
    (hpart' : '_' ∉ part'.toList)
    (h : container.flattened ("_" ++ part) = container'.flattened ("_" ++ part')) :
    container = container' ∧ part = part' := by
  -- The part is joined like one more simple name.
  rw [flattened_eq, flattened_eq] at h
  injection h with hpackage hjoined
  have hfree : ∀ {c : ClassName} {s : String}, c.UnderscoreFree → '_' ∉ s.toList →
      ∀ name ∈ c.simpleNames ++ [s], '_' ∉ name.toList := by
    intro c s hc hs
    exact List.forall_mem_append.mpr ⟨hc, List.forall_mem_singleton.mpr hs⟩
  have hnames := intercalate_inj (List.append_ne_nil_of_right_ne_nil _ (List.cons_ne_nil _ _))
    (List.append_ne_nil_of_right_ne_nil _ (List.cons_ne_nil _ _)) (hfree hcontainer hpart)
    (hfree hcontainer' hpart') hjoined
  obtain ⟨hsimple, hlast⟩ := List.append_inj' hnames rfl
  obtain ⟨htop, hnested⟩ := List.cons.inj hsimple
  refine ⟨?_, List.singleton_inj.mp hlast⟩
  cases container
  cases container'
  simp_all

variable {method method' : String}

/-- Methods that have no underscore, do not start with a capital and stand in containers without
underscores are told apart by their modules. -/
theorem generatedModule_inj (hcontainer : container.UnderscoreFree)
    (hcontainer' : container'.UnderscoreFree) (hmethod : '_' ∉ method.toList)
    (hmethod' : '_' ∉ method'.toList) (hcapital : startsWithCapital method = false)
    (hcapital' : startsWithCapital method' = false)
    (h : container.generatedModule method = container'.generatedModule method') :
    container = container' ∧ method = method' := by
  obtain ⟨hcontainers, hcamel⟩ := flattened_inj hcontainer hcontainer'
    (underscore_notMem_upperCamel hmethod) (underscore_notMem_upperCamel hmethod') h
  exact ⟨hcontainers, upperCamel_inj hcapital hcapital' hcamel⟩

/-- Of such methods, only those named `contributions` have modules that are named like one that
gathers the modules of a round. -/
theorem eq_contributions_of_generatedModule_eq (hcontainer : container.UnderscoreFree)
    (hcontainer' : container'.UnderscoreFree) (hmethod : '_' ∉ method.toList)
    (hcapital : startsWithCapital method = false)
    (h : container.generatedModule method = container'.contributionsModule) :
    container = container' ∧ method = "contributions" :=
  generatedModule_inj hcontainer hcontainer' hmethod (by decide) hcapital (by decide) h

/-- Where no simple name of a container has an underscore, and no method has one or starts with a
capital, the module of a method tells the container, however deep it is nested, and the method. It
is named like the module that gathers others of a container exactly for the method `contributions`
of that container. -/
theorem generatedModule_eq_iff (hcontainer : container.UnderscoreFree)
    (hcontainer' : container'.UnderscoreFree) (hmethod : '_' ∉ method.toList)
    (hcapital : startsWithCapital method = false) :
    (∀ method' : String, '_' ∉ method'.toList → startsWithCapital method' = false →
        (container.generatedModule method = container'.generatedModule method' ↔
          container = container' ∧ method = method')) ∧
      (container.generatedModule method = container'.contributionsModule ↔
        container = container' ∧ method = "contributions") := by
  constructor
  · intro method' hmethod' hcapital'
    refine ⟨generatedModule_inj hcontainer hcontainer' hmethod hmethod' hcapital hcapital', ?_⟩
    rintro ⟨rfl, rfl⟩
    rfl
  · refine ⟨eq_contributions_of_generatedModule_eq hcontainer hcontainer' hmethod hcapital, ?_⟩
    rintro ⟨rfl, rfl⟩
    -- The first letter of the method is made a capital, as in the suffix.
    have hsuffix : upperCamel "contributions" = "Contributions" := by decide
    rw [generatedModule, hsuffix]
    rfl

/-- Containers of different depths, and methods whose names go on where the other container ends. -/
theorem generatedModule_ne_sample :
    let outer : ClassName := ⟨"com.app", "Outer", []⟩
    let inner : ClassName := ⟨"com.app", "Outer", ["Inner"]⟩
    outer.UnderscoreFree ∧ inner.UnderscoreFree ∧
      outer.generatedModule "innerBindWidget" ≠ inner.generatedModule "bindWidget" ∧
      outer.generatedModule "innerContributions" ≠ inner.contributionsModule := by
  intro outer inner
  have houter : outer.UnderscoreFree := by decide
  have hinner : inner.UnderscoreFree := by decide
  have hne : outer ≠ inner := by decide
  refine ⟨houter, hinner, ?_, ?_⟩
  · intro h
    exact hne (((generatedModule_eq_iff houter hinner (by decide) (by decide)).1 _ (by decide)
      (by decide)).mp h).1
  · intro h
    exact hne ((generatedModule_eq_iff houter hinner (by decide) (by decide)).2.mp h).1

/-- An underscore may come from either side. -/
example : (⟨"com.app", "Outer_Inner", []⟩ : ClassName).generatedModule "bindWidget" =
    (⟨"com.app", "Outer", ["Inner"]⟩ : ClassName).generatedModule "bindWidget" := by
  decide

end ClassName

end Multibinding
