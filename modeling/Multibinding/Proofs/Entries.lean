import Mathlib.Data.List.Basic
import Mathlib.Data.List.Perm.Basic
import Multibinding.Entries

/-!
# Maps as sorted lists

A list of assignments becomes the list of its entries in ascending order of their keys. Where no key
is repeated this only changes the order, and where the order is right already it changes nothing.

* `sorted_ofList`: the entries are sorted;
* `ofList_eq_self`: sorted entries are kept;
* `ofList_perm`: assignments to different keys are all kept;
* `filter_ofList`, `find?_ofList`: so the entries of a key are the assignments to it;
* `exists_ofList_eq_replace`: another value in one assignment changes at most the value of its key.
-/

namespace Multibinding.Entries

variable {α : Type}

/-- The entries are in ascending order of their keys, which are different. -/
def Sorted (entries : List (String × α)) : Prop :=
  entries.Pairwise (·.1 < ·.1)

/-- No key is repeated in sorted entries. -/
theorem Sorted.nodup {entries : List (String × α)} (h : Sorted entries) :
    (entries.map (·.1)).Nodup :=
  List.pairwise_map.mpr (h.imp fun {a b} hlt (heq : a.1 = b.1) =>
    String.lt_irrefl b.1 (heq ▸ hlt))

/-- Setting a key brings in no other entry. -/
theorem mem_of_mem_insert {key : String} {value : α} {entries : List (String × α)}
    {entry : String × α} (h : entry ∈ insert key value entries) :
    entry = (key, value) ∨ entry ∈ entries := by
  induction entries with
  | nil => exact .inl (List.mem_singleton.mp h)
  | cons first rest ih =>
    simp only [insert] at h
    split at h
    · exact List.mem_cons.mp h
    · split at h
      · rcases List.mem_cons.mp h with rfl | hrest
        · exact .inl rfl
        · exact .inr (List.mem_cons_of_mem first hrest)
      · rcases List.mem_cons.mp h with rfl | hrest
        · exact .inr List.mem_cons_self
        · exact (ih hrest).imp id (List.mem_cons_of_mem first)

/-- Setting a key keeps the entries sorted. -/
theorem sorted_insert {entries : List (String × α)} (h : Sorted entries) (key : String)
    (value : α) : Sorted (insert key value entries) := by
  induction entries with
  | nil => exact List.pairwise_singleton ..
  | cons first rest ih =>
    obtain ⟨hfirst, hrest⟩ := List.pairwise_cons.mp h
    simp only [insert]
    split
    · rename_i hlt
      refine List.pairwise_cons.mpr ⟨fun entry hentry => ?_, h⟩
      rcases List.mem_cons.mp hentry with rfl | hmem
      · exact hlt
      · exact String.lt_trans hlt (hfirst entry hmem)
    · rename_i hnot
      split
      · rename_i heq
        exact List.pairwise_cons.mpr ⟨heq ▸ hfirst, hrest⟩
      -- The key is neither before the first one nor the first one, so that it is behind it.
      · rename_i hne
        refine List.pairwise_cons.mpr ⟨fun entry hentry => ?_, ih hrest⟩
        rcases mem_of_mem_insert hentry with rfl | hmem
        · exact Classical.byContradiction fun hge =>
            hne (String.le_antisymm (String.not_lt.mp hge) (String.not_lt.mp hnot))
        · exact hfirst entry hmem

/-- The entries after a list of assignments. -/
def assign (entries assignments : List (String × α)) : List (String × α) :=
  assignments.foldl (fun entries entry => insert entry.1 entry.2 entries) entries

/-- Assignments keep the entries sorted. -/
theorem sorted_assign {entries : List (String × α)} (h : Sorted entries)
    (assignments : List (String × α)) : Sorted (assign entries assignments) := by
  induction assignments generalizing entries with
  | nil => exact h
  | cons first rest ih => exact ih (sorted_insert h first.1 first.2)

/-- The entries of a list of assignments are sorted. -/
theorem sorted_ofList (assignments : List (String × α)) : Sorted (ofList assignments) :=
  sorted_assign List.Pairwise.nil assignments

/-- A key beyond all others is set at the end. -/
theorem insert_eq_append {key : String} {value : α} {entries : List (String × α)}
    (h : ∀ entry ∈ entries, entry.1 < key) :
    insert key value entries = entries ++ [(key, value)] := by
  induction entries with
  | nil => rfl
  | cons first rest ih =>
    obtain ⟨hfirst, hrest⟩ := List.forall_mem_cons.mp h
    have hne : key ≠ first.1 := fun heq => String.lt_irrefl key (heq ▸ hfirst)
    simp only [insert, String.lt_asymm hfirst, hne, if_false, ih hrest, List.cons_append]

/-- Assignments that go on in ascending order are added at the end. -/
theorem assign_eq_append {entries assignments : List (String × α)}
    (h : Sorted (entries ++ assignments)) :
    assign entries assignments = entries ++ assignments := by
  induction assignments generalizing entries with
  | nil => rw [List.append_nil]; rfl
  | cons first rest ih =>
    have hentries : ∀ entry ∈ entries, entry.1 < first.1 := fun entry hentry =>
      (List.pairwise_append.mp h).2.2 entry hentry first List.mem_cons_self
    rw [List.append_cons] at h ⊢
    rw [← ih h, ← insert_eq_append hentries]
    rfl

/-- Sorted entries are kept. -/
theorem ofList_eq_self {entries : List (String × α)} (h : Sorted entries) :
    ofList entries = entries :=
  assign_eq_append (List.nil_append entries ▸ h)

/-- A key that is not set yet is added. -/
theorem insert_perm {key : String} (value : α) {entries : List (String × α)}
    (h : key ∉ entries.map (·.1)) : (insert key value entries).Perm ((key, value) :: entries) := by
  induction entries with
  | nil => exact List.Perm.refl _
  | cons first rest ih =>
    simp only [List.map_cons, List.mem_cons, not_or] at h
    simp only [insert]
    split
    · exact List.Perm.refl _
    · rw [if_neg h.1]
      exact ((ih h.2).cons first).trans (List.Perm.swap ..)

/-- Assignments to different keys that are not set yet are all added. -/
theorem assign_perm {entries assignments : List (String × α)}
    (h : ((entries ++ assignments).map (·.1)).Nodup) :
    (assign entries assignments).Perm (entries ++ assignments) := by
  induction assignments generalizing entries with
  | nil => rw [List.append_nil]; exact List.Perm.refl _
  | cons first rest ih =>
    have hmiddle : (entries ++ first :: rest).Perm (first :: (entries ++ rest)) :=
      List.perm_middle
    have hnodup := (hmiddle.map (·.1)).nodup_iff.mp h
    have hfresh : first.1 ∉ entries.map (·.1) := fun hmem =>
      (List.nodup_cons.mp hnodup).1 (List.map_append ▸ List.mem_append_left _ hmem)
    have hset := (insert_perm first.2 hfresh).append_right rest
    exact (ih ((hset.map (·.1)).nodup_iff.mpr hnodup)).trans (hset.trans hmiddle.symm)

/-- Assignments to different keys are all kept. -/
theorem ofList_perm {assignments : List (String × α)} (h : (assignments.map (·.1)).Nodup) :
    (ofList assignments).Perm assignments :=
  assign_perm (List.nil_append assignments ▸ h)

/-- Assignments bring in no other entries. -/
theorem mem_of_mem_assign {entries assignments : List (String × α)} {entry : String × α}
    (h : entry ∈ assign entries assignments) : entry ∈ entries ∨ entry ∈ assignments := by
  induction assignments generalizing entries with
  | nil => exact .inl h
  | cons first rest ih =>
    rcases ih h with hset | hrest
    · rcases mem_of_mem_insert hset with rfl | hentries
      · exact .inr List.mem_cons_self
      · exact .inl hentries
    · exact .inr (List.mem_cons_of_mem first hrest)

/-- The entries of a list of assignments are among these. -/
theorem mem_of_mem_ofList {assignments : List (String × α)} {entry : String × α}
    (h : entry ∈ ofList assignments) : entry ∈ assignments :=
  (mem_of_mem_assign h).resolve_left List.not_mem_nil

/-- Of different keys, each has one assignment at most. -/
theorem length_filter_le_one {assignments : List (String × α)}
    (h : (assignments.map (·.1)).Nodup) (key : String) :
    (assignments.filter (·.1 == key)).length ≤ 1 := by
  induction assignments with
  | nil => simp
  | cons first rest ih =>
    obtain ⟨hfirst, hrest⟩ := List.nodup_cons.mp h
    by_cases hkey : first.1 = key
    · have hnone : rest.filter (·.1 == key) = [] := by
        rw [List.filter_eq_nil_iff]
        intro entry hentry heq
        apply hfirst
        show first.1 ∈ _
        rw [hkey, ← eq_of_beq heq]
        exact List.mem_map_of_mem (f := fun entry : String × α => entry.1) hentry
      simp [hkey, hnone]
    · simpa [hkey] using ih hrest

/-- The entries of a key are the assignments to it, if no key is assigned to twice. -/
theorem filter_ofList {assignments : List (String × α)} (h : (assignments.map (·.1)).Nodup)
    (key : String) :
    (ofList assignments).filter (·.1 == key) = assignments.filter (·.1 == key) := by
  have hperm := (ofList_perm h).filter (·.1 == key)
  have hlength := length_filter_le_one h key
  cases hfilter : assignments.filter (·.1 == key) with
  | nil => rwa [hfilter, List.perm_nil] at hperm
  | cons first rest =>
    have hrest : rest = [] := by
      rw [hfilter] at hlength
      simpa using hlength
    rw [hfilter, hrest, List.perm_singleton] at hperm
    rw [hperm, hrest]

/-- There is nothing at a key that is not set. -/
theorem find?_eq_none {key : String} {entries : List (String × α)}
    (h : ∀ entry ∈ entries, entry.1 ≠ key) : find? key entries = none :=
  List.lookup_eq_none_iff.mpr fun entry hentry => bne_iff_ne.mpr (h entry hentry).symm

/-- If no key is repeated, each entry is found. -/
theorem find?_eq_some {key : String} {value : α} {entries : List (String × α)}
    (h : (entries.map (·.1)).Nodup) (hmem : (key, value) ∈ entries) :
    find? key entries = some value := by
  induction entries with
  | nil => cases hmem
  | cons entry entries ih =>
    obtain ⟨hfirst, hrest⟩ := List.nodup_cons.mp h
    rcases List.mem_cons.mp hmem with rfl | hmem
    · exact List.lookup_cons_self
    · have hkey : key ∈ entries.map (·.1) := List.mem_map.mpr ⟨(key, value), hmem, rfl⟩
      have hne : key ≠ entry.1 := by
        rintro rfl
        exact hfirst hkey
      rw [find?, List.lookup_cons, beq_eq_false_iff_ne.mpr hne]
      exact ih hrest hmem

/-- What stands at a key is the value of the first entry with it. -/
theorem find?_eq_head? (key : String) (entries : List (String × α)) :
    find? key entries = (entries.filter (·.1 == key)).head?.map (·.2) := by
  induction entries with
  | nil => rfl
  | cons entry entries ih =>
    obtain ⟨name, value⟩ := entry
    rw [find?] at ih
    by_cases h : name = key
    · subst h
      simp [find?, List.lookup_cons_self]
    · have hne : (key == name) = false := by simpa using Ne.symm h
      simp [find?, List.lookup_cons, hne, h, ih]

/-- If no key is assigned to twice, each has the value that is assigned to it. -/
theorem find?_ofList {assignments : List (String × α)} (h : (assignments.map (·.1)).Nodup)
    (key : String) : find? key (ofList assignments) = find? key assignments := by
  rw [find?_eq_head?, filter_ofList h, ← find?_eq_head?]

/-- The entries with another value of a key. -/
def replace (key : String) (value : α) (entries : List (String × α)) : List (String × α) :=
  entries.map fun entry => if entry.1 = key then (key, value) else entry

/-- Where a key is not set, no value is replaced. -/
theorem replace_eq_self {key : String} (value : α) {entries : List (String × α)}
    (h : ∀ entry ∈ entries, entry.1 ≠ key) : replace key value entries = entries := by
  conv_rhs => rw [← List.map_id entries]
  exact List.map_congr_left fun entry hentry => if_neg (h entry hentry)

theorem replace_cons_self (key : String) (value old : α) (rest : List (String × α)) :
    replace key value ((key, old) :: rest) = (key, value) :: replace key value rest := by
  rw [replace, List.map_cons, if_pos rfl]
  rfl

theorem replace_cons_of_ne {key : String} (value : α) {first : String × α} (h : first.1 ≠ key)
    (rest : List (String × α)) :
    replace key value (first :: rest) = first :: replace key value rest := by
  rw [replace, List.map_cons, if_neg h]
  rfl

/-- Behind an entry no key is a key that is not greater. -/
theorem replace_behind {key : String} (value : α) {first : String × α} {rest : List (String × α)}
    (h : Sorted (first :: rest)) (hle : ¬first.1 < key) : replace key value rest = rest :=
  replace_eq_self value fun entry hentry heq =>
    hle (heq ▸ (List.pairwise_cons.mp h).1 entry hentry)

/-- A value that has just been set is replaced. -/
theorem replace_insert_self {entries : List (String × α)} (h : Sorted entries) (key : String)
    (value other : α) :
    replace key other (insert key value entries) = insert key other entries := by
  induction entries with
  | nil => exact replace_cons_self key other value []
  | cons first rest ih =>
    obtain ⟨k, v⟩ := first
    simp only [insert]
    split
    · rename_i hlt
      -- The key is new, as all keys behind it are greater.
      have hne : k ≠ key := fun heq => String.lt_irrefl key (heq ▸ hlt)
      rw [replace_cons_self, replace_cons_of_ne other hne,
        replace_behind other h (String.lt_asymm hlt)]
    · split
      · rename_i heq
        rw [replace_cons_self, replace_behind other h (heq ▸ String.lt_irrefl key)]
      · rename_i hne
        rw [replace_cons_of_ne other (Ne.symm hne), ih (List.pairwise_cons.mp h).2]

/-- It does not matter what is replaced before a value is set. -/
theorem insert_replace_self {entries : List (String × α)} (h : Sorted entries) (key : String)
    (value other : α) :
    insert key value (replace key other entries) = insert key value entries := by
  induction entries with
  | nil => rfl
  | cons first rest ih =>
    obtain ⟨k, v⟩ := first
    by_cases heq : k = key
    · subst heq
      rw [replace_cons_self, replace_behind other h (String.lt_irrefl k)]
      simp only [insert, String.lt_irrefl, if_false, if_true]
    · rw [replace_cons_of_ne other heq]
      simp only [insert, Ne.symm heq, if_false, ih (List.pairwise_cons.mp h).2]
      split
      · rename_i hlt
        rw [replace_behind other h (String.lt_asymm hlt)]
      · rfl

/-- The values of other keys are set as before. -/
theorem insert_replace_of_ne {key other : String} (hne : other ≠ key) (value new : α)
    (entries : List (String × α)) :
    insert other value (replace key new entries) =
      replace key new (insert other value entries) := by
  -- The keys are different, so that neither change sees the entry that the other is about.
  induction entries with
  | nil => exact (replace_cons_of_ne new hne []).symm
  | cons first rest ih =>
    obtain ⟨k, v⟩ := first
    by_cases heq : k = key
    · subst heq
      rw [replace_cons_self]
      simp only [insert, hne, if_false]
      split
      · rw [replace_cons_of_ne new hne, replace_cons_self]
      · rw [replace_cons_self, ih]
    · rw [replace_cons_of_ne new heq]
      simp only [insert]
      split
      · rw [replace_cons_of_ne new hne, replace_cons_of_ne new heq]
      · split
        · rw [replace_cons_of_ne new hne]
        · rw [replace_cons_of_ne new heq, ih]

/-- Whatever is assigned behind it, a value that is replaced changes at most the value of its
key. -/
theorem exists_assign_replace {entries : List (String × α)} (h : Sorted entries) (key : String)
    (value : α) (assignments : List (String × α)) :
    ∃ last, assign (replace key value entries) assignments =
      replace key last (assign entries assignments) := by
  induction assignments generalizing entries value with
  | nil => exact ⟨value, rfl⟩
  | cons first rest ih =>
    have hsorted := sorted_insert h first.1 first.2
    by_cases hkey : first.1 = key
    · -- From here on the value does not count.
      obtain ⟨last, hlast⟩ := ih hsorted first.2
      refine ⟨last, Eq.trans ?_ hlast⟩
      show assign (insert first.1 first.2 (replace key value entries)) rest = _
      rw [← hkey, insert_replace_self h, replace_insert_self h]
    · obtain ⟨last, hlast⟩ := ih hsorted value
      refine ⟨last, Eq.trans ?_ hlast⟩
      show assign (insert first.1 first.2 (replace key value entries)) rest = _
      rw [insert_replace_of_ne hkey]

/-- Another value in one assignment changes at most the value of its key. -/
theorem exists_ofList_eq_replace (before : List (String × α)) (key : String) (old new : α)
    (behind : List (String × α)) :
    ∃ last, ofList (before ++ (key, new) :: behind) =
      replace key last (ofList (before ++ (key, old) :: behind)) := by
  have hsplit (value : α) : ofList (before ++ (key, value) :: behind) =
      assign (insert key value (ofList before)) behind :=
    List.foldl_append
  have hsorted := sorted_ofList before
  rw [hsplit, hsplit, ← replace_insert_self hsorted key old new]
  exact exists_assign_replace (sorted_insert hsorted key old) key new behind

end Multibinding.Entries
