import Multibinding.Proofs.Entries
import Multibinding.Setting.Path

/-!
# Settings that are kept as they are

Names of settings are taken for paths and put into lower case, and tables are merged into what is
there. Where the names are plain and nothing is there yet, all of this changes nothing.

* `Flat.mergeInto`: a table without tables in it is merged into an empty one as it is;
* `setAll_eq_assign`, `setAll_ofList`: settings with plain names are kept.
-/

namespace Multibinding

namespace Setting

/-- A value that is no table. -/
def IsSingle : Setting → Prop
  | .table .. => False
  | _ => True

/-- Values under names in lower case, none of which is a table. -/
def Flat (entries : List (String × Setting)) : Prop :=
  ∀ entry ∈ entries, Text.lower entry.1 = entry.1 ∧ entry.2.IsSingle

/-- A single value takes the place of what is there. -/
theorem assign_of_isSingle {v : Setting} (h : v.IsSingle) (name : String)
    (entries : List (String × Setting)) :
    assign name v entries = Entries.insert (Text.lower name) v entries := by
  cases v with
  | table => exact h.elim
  | _ => rfl

/-- Single values are merged into a table one after another. -/
theorem Flat.mergeInto {added : List (String × Setting)} (h : Flat added)
    (origin : Option String) (entries : List (String × Setting)) :
    Setting.mergeInto added (.table origin entries) =
      .table origin (Entries.assign entries added) := by
  induction added generalizing entries with
  | nil => rfl
  | cons entry added ih =>
    obtain ⟨name, v⟩ := entry
    obtain ⟨⟨hname, hv⟩, hadded⟩ := List.forall_mem_cons.mp h
    rw [Setting.mergeInto, tableParts]
    dsimp only at hname hv ⊢
    rw [assign_of_isSingle hv, hname, ih hadded]
    rfl

/-- A value that is kept where nothing is there yet. -/
def IsKept : Setting → Prop
  | .table origin entries => origin = none ∧ Flat entries ∧ Entries.Sorted entries
  | _ => True

/-- A value that is kept is set at a new name as it is. -/
theorem assign_of_isKept {v : Setting} (h : v.IsKept) {name : String}
    {entries : List (String × Setting)} (hname : Text.lower name = name)
    (hnew : ∀ entry ∈ entries, entry.1 ≠ name) :
    assign name v entries = Entries.insert name v entries := by
  cases v with
  | table origin added =>
    obtain ⟨rfl, hflat, hsorted⟩ := h
    have hadded : Entries.assign [] added = added := Entries.ofList_eq_self hsorted
    rw [assign, hname, Entries.find?_eq_none hnew, Option.getD_none, hflat.mergeInto, hadded]
  | _ =>
    show Entries.insert (Text.lower name) _ entries = _
    rw [hname]

/-- A name without signs of a path, in lower case. -/
def IsPlainName (name : String) : Prop :=
  (name.toList ≠ [] ∧ name.toList.all Path.isNameChar = true) ∧ Text.lower name = name

instance (name : String) : Decidable (IsPlainName name) :=
  inferInstanceAs (Decidable (_ ∧ _))

/-- Without signs of a path nothing is cut. -/
theorem Path.pieces_eq_singleton {cs : List Char} (h : ∀ c ∈ cs, isNameChar c = true) :
    pieces cs = [cs] := by
  induction cs with
  | nil => rfl
  | cons c cs ih =>
    obtain ⟨hc, hcs⟩ := List.forall_mem_cons.mp h
    have hsign : ¬(c = '.' ∨ c = '[') := by
      rintro (rfl | rfl) <;> exact absurd hc (by decide)
    rw [pieces, ih hcs]
    exact if_neg hsign

/-- A plain name is a path to the top. -/
theorem IsPlainName.parse_eq {name : String} (h : IsPlainName name) :
    Path.parse name = .top name := by
  obtain ⟨⟨hne, hchars⟩, -⟩ := h
  have hempty : name.toList.isEmpty = false := by simpa using hne
  rw [Path.parse, Path.pieces_eq_singleton (List.all_eq_true.mp hchars)]
  simp [hchars, hempty]

/-- Values that are kept are set at new names as they are. -/
theorem setAll_eq_assign {values entries : List (String × Setting)}
    (hvalues : ∀ entry ∈ values, IsPlainName entry.1 ∧ entry.2.IsKept)
    (hnew : ((entries.map (·.1)) ++ values.map (·.1)).Nodup) :
    setAll values entries = Entries.assign entries values := by
  induction values generalizing entries with
  | nil => rfl
  | cons entry values ih =>
    obtain ⟨name, v⟩ := entry
    obtain ⟨⟨hplain, hkept⟩, hvalues⟩ := List.forall_mem_cons.mp hvalues
    dsimp only at hplain hkept
    -- The first name moves to the front, where it is seen to differ from all that are there.
    have hperm : ((entries.map (·.1)) ++ name :: values.map (·.1)).Perm
        (name :: (entries.map (·.1) ++ values.map (·.1))) := List.perm_middle
    have hnames := hperm.nodup_iff.mp hnew
    have hname : name ∉ entries.map (·.1) := fun hmem =>
      (List.nodup_cons.mp hnames).1 (List.mem_append_left _ hmem)
    have hset : (Path.parse name).set v entries = Entries.insert name v entries := by
      rw [hplain.parse_eq, Path.set]
      refine assign_of_isKept hkept hplain.2 fun entry hentry heq => hname ?_
      exact heq ▸ List.mem_map_of_mem hentry
    have hrest : ((Entries.insert name v entries).map (·.1) ++ values.map (·.1)).Nodup :=
      (((Entries.insert_perm v hname).map (·.1)).append_right _).nodup_iff.mpr hnames
    show setAll values ((Path.parse name).set v entries) = _
    rw [hset, ih hvalues hrest]
    rfl

/-- The entries of a list of assignments are kept. -/
theorem setAll_ofList {assignments : List (String × Setting)}
    (hassignments : ∀ entry ∈ assignments, IsPlainName entry.1 ∧ entry.2.IsKept) :
    setAll (Entries.ofList assignments) [] = Entries.ofList assignments := by
  have hnodup := (Entries.sorted_ofList assignments).nodup
  rw [setAll_eq_assign (fun entry hentry => hassignments entry (Entries.mem_of_mem_ofList hentry))
    (by simpa using hnodup)]
  exact Entries.ofList_eq_self (Entries.sorted_ofList assignments)

end Setting

end Multibinding
