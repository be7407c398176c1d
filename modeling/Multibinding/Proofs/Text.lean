import Mathlib.Data.List.Basic
import Multibinding.Text

/-!
# Cutting and joining texts

A text that joins parts with a separator falls into the same parts again, unless the separator
occurs in one of them.

* `split_intercalate`: parts are read back from the text that joins them;
* `intercalate_split`: a text joins its parts;
* `split_append_append`: a text is cut at a separator;
* `separator_notMem_of_mem_split`: parts that were read do not have the separator;
* `trim_eq_self`: when nothing is cut off a text.
-/

namespace Multibinding.Text

/-- Parts without the separator are read back from the text that joins them. -/
theorem split_intercalate (separator : Char) {parts : List String} (hne : parts ≠ [])
    (hparts : ∀ part ∈ parts, separator ∉ part.toList) :
    split separator (String.intercalate (String.singleton separator) parts) = parts := by
  rw [split, String.toList_intercalate, String.toList_singleton,
    List.splitOn_intercalate separator (List.forall_mem_map.mpr hparts) (by simpa using hne)]
  simp

/-- A text is cut at a separator, and its two sides are cut further. -/
theorem split_append_append (separator : Char) (s t : String) :
    split separator (s ++ String.singleton separator ++ t) =
      split separator s ++ split separator t := by
  rw [split, split, split, String.toList_append, String.toList_append, String.toList_singleton,
    List.append_assoc, List.singleton_append, List.splitOn_append_cons_self, List.map_append]

/-- The last part may be cut further. -/
theorem split_intercalate_append (separator : Char) {parts : List String}
    (hparts : ∀ part ∈ parts, separator ∉ part.toList) (last : String) :
    split separator (String.intercalate (String.singleton separator) (parts ++ [last])) =
      parts ++ split separator last := by
  by_cases hne : parts = []
  · rw [hne, List.nil_append, List.nil_append, String.intercalate_singleton]
  · rw [String.intercalate_append_of_ne_nil hne (List.cons_ne_nil _ _),
      String.intercalate_singleton, split_append_append, split_intercalate separator hne hparts]

/-- A text is put together from its parts. -/
theorem intercalate_split (separator : Char) (s : String) :
    String.intercalate (String.singleton separator) (split separator s) = s := by
  apply String.toList_injective
  simp [split, Function.comp_def, List.intercalate_splitOn]

/-- So no two texts have the same parts. -/
theorem eq_of_split_eq {separator : Char} {s t : String}
    (h : split separator s = split separator t) : s = t := by
  rw [← intercalate_split separator s, h, intercalate_split]

/-- No part of a text has the separator. -/
theorem separator_notMem_of_mem_split {separator : Char} {s part : String}
    (h : part ∈ split separator s) : separator ∉ part.toList := by
  -- Cutting a list character by character, only the first part can change.
  have hlist : ∀ cs : List Char, ∀ part ∈ cs.splitOn separator, separator ∉ part := by
    intro cs
    induction cs with
    | nil => simp
    | cons c cs ih =>
      rw [List.splitOn_cons_eq_if_modifyHead]
      split
      · simpa using ih
      · rename_i hc
        obtain ⟨first, rest, hsplit⟩ :=
          List.exists_cons_of_ne_nil (List.splitOn_ne_nil separator cs)
        rw [hsplit] at ih ⊢
        have hne : c ≠ separator := by simpa using hc
        simpa [hne.symm] using ih
  obtain ⟨cs, hcs, rfl⟩ := List.mem_map.mp h
  rw [String.toList_ofList]
  exact hlist _ cs hcs

/-- The characters of a text that joins parts are the separator and those of the parts. -/
theorem eq_or_mem_of_mem_intercalate (separator : Char) {c : Char} {parts : List String}
    (h : c ∈ (String.intercalate (String.singleton separator) parts).toList) :
    c = separator ∨ ∃ part ∈ parts, c ∈ part.toList := by
  induction parts with
  | nil => simp at h
  | cons part rest ih =>
    -- Behind the last part there is no separator.
    by_cases hrest : rest = []
    · subst hrest
      exact .inr ⟨part, by simp, by simpa using h⟩
    · rw [String.intercalate_cons_of_ne_nil hrest] at h
      simp only [String.toList_append, String.toList_singleton, List.mem_append,
        List.mem_singleton] at h
      rcases h with (hpart | rfl) | hjoined
      · exact .inr ⟨part, List.mem_cons_self, hpart⟩
      · exact .inl rfl
      · rcases ih hjoined with rfl | ⟨other, hother, hc⟩
        · exact .inl rfl
        · exact .inr ⟨other, List.mem_cons_of_mem part hother, hc⟩

/-- A text that joins parts starts with the first of them. -/
theorem exists_intercalate_cons_eq_append (separator part : String) (rest : List String) :
    ∃ t, String.intercalate separator (part :: rest) = part ++ t :=
  ⟨String.intercalate separator ("" :: rest), by
    rw [← String.intercalate_cons_append, String.append_empty]⟩

/-- A text without characters to cut off is kept as it is. -/
theorem trim_eq_self {p : Char → Bool} {s : String} (h : ∀ c ∈ s.toList, p c = false) :
    trim p s = s := by
  have hdrop : ∀ cs : List Char, (∀ c ∈ cs, p c = false) → cs.dropWhile p = cs := by
    intro cs hcs
    cases cs with
    | nil => rfl
    | cons c cs => simp [hcs c]
  rw [trim, hdrop _ h, hdrop _ (by simpa using h)]
  simp

end Multibinding.Text
