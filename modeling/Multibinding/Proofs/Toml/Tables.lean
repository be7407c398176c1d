import Multibinding.Proofs.Toml.Lines

/-!
# Documents in sections

A document that sets single values first and then starts one table after another, each with single
values, stands for these values and tables, if no name is repeated where it counts.

* `addLine_pair`, `addLine_table`, `addLine_pair_section`: what a line adds;
* `foldlM_addLine_pairs`, `foldlM_addLine_sections`: what several lines add;
* `parse_of_readsLines`: the settings of a document in sections.
-/

namespace Multibinding.Toml

open Scan (Line)

/-- The next of several names is new. -/
theorem notMem_of_nodup_append {before behind : List String} {name : String}
    (h : (before ++ name :: behind).Nodup) : name ∉ before := fun hmem =>
  (List.nodup_append.mp h).2.2 name hmem name List.mem_cons_self rfl

/-- The lines that set names to values. -/
def pairLines (pairs : List (String × Setting)) : List Line :=
  pairs.map fun p => .pair [p.1] p.2

/-- The lines of a section, with a blank one before them. -/
def sectionLines (title : String) (pairs : List (String × Setting)) : List Line :=
  .blank :: .table [title] :: pairLines pairs

/-- The lines of a document in sections, with a blank one at the end. -/
def documentLines (pairs : List (String × Setting))
    (sections : List (String × List (String × Setting))) : List Line :=
  pairLines pairs ++ (sections.flatMap fun s => sectionLines s.1 s.2) ++ [.blank]

/-- The items that names stand for once they are set to values. -/
def pairItems (pairs : List (String × Setting)) : List (String × Item) :=
  pairs.map fun p => (p.1, .value p.2)

theorem map_fst_pairItems (pairs : List (String × Setting)) :
    (pairItems pairs).map (·.1) = pairs.map (·.1) := by
  simp [pairItems]

theorem pairItems_append_singleton (pairs : List (String × Setting)) (name : String)
    (v : Setting) : pairItems (pairs ++ [(name, v)]) = pairItems pairs ++ [(name, .value v)] := by
  simp [pairItems]

/-- The item that a title stands for once its section is read. -/
def sectionItem (title : String) (pairs : List (String × Setting)) : String × Item :=
  (title, .table .started (pairItems pairs))

section Lines

variable {entries : List (String × Item)} {name : String}

/-- There is nothing at a new key. -/
theorem lookup_append_of_notMem (h : name ∉ entries.map (·.1)) (rest : List (String × Item)) :
    (entries ++ rest).lookup name = rest.lookup name := by
  have hnone : entries.lookup name = none := by
    refine List.lookup_eq_none_iff.mpr fun entry hentry => bne_iff_ne.mpr ?_
    rintro rfl
    exact h (List.mem_map_of_mem hentry)
  rw [List.lookup_append, hnone, Option.none_or]

/-- A new key is set at the end. -/
theorem replace_append_of_notMem (h : name ∉ entries.map (·.1)) (item : Item)
    (rest : List (String × Item)) :
    Item.replace name item (entries ++ rest) = entries ++ Item.replace name item rest := by
  induction entries with
  | nil => rfl
  | cons first entries ih =>
    simp only [List.map_cons, List.mem_cons, not_or] at h
    rw [List.cons_append, List.cons_append, Item.replace, if_neg (Ne.symm h.1), ih h.2]

/-- A new name is set to a value. -/
theorem setKey_of_notMem (h : name ∉ entries.map (·.1)) (v : Setting) :
    Item.setKey [name] v entries = some (entries ++ [(name, .value v)]) := by
  have hlookup := lookup_append_of_notMem h []
  have hreplace := replace_append_of_notMem h (.value v) []
  rw [List.append_nil] at hlookup hreplace
  simp [Item.setKey, Item.descend, hlookup, hreplace, Item.replace]

/-- A line sets a new name in front of all sections. -/
theorem addLine_pair (h : name ∉ entries.map (·.1)) (v : Setting) :
    addLine ([], entries) (.pair [name] v) = some ([], entries ++ [(name, .value v)]) := by
  simp [addLine, Item.setIn, Item.descend, setKey_of_notMem h]

/-- A line starts a new table. -/
theorem addLine_table (h : name ∉ entries.map (·.1)) (current : List String) :
    addLine (current, entries) (.table [name]) =
      some ([name], entries ++ [sectionItem name []]) := by
  have hlookup := lookup_append_of_notMem h []
  have hreplace := replace_append_of_notMem h (.table .started []) []
  rw [List.append_nil] at hlookup hreplace
  simp [addLine, Item.startTable, Item.descend, hlookup, hreplace, Item.replace, sectionItem,
    pairItems]

/-- A line sets a new name in the table that was started last. -/
theorem addLine_pair_section {title : String} (htitle : title ∉ entries.map (·.1))
    {pairs : List (String × Setting)} (h : name ∉ pairs.map (·.1)) (v : Setting) :
    addLine ([title], entries ++ [sectionItem title pairs]) (.pair [name] v) =
      some ([title], entries ++ [sectionItem title (pairs ++ [(name, v)])]) := by
  have hname : name ∉ (pairItems pairs).map (·.1) := by rwa [map_fst_pairItems]
  -- The table that was started last stands behind all others, under its title.
  have hitem : (entries ++ [sectionItem title pairs]).lookup title =
      some (.table .started (pairItems pairs)) := by
    rw [lookup_append_of_notMem htitle, sectionItem, List.lookup_cons_self]
  have hreplace (item : Item) : Item.replace title item (entries ++ [sectionItem title pairs]) =
      entries ++ [(title, item)] := by
    rw [replace_append_of_notMem htitle, sectionItem, Item.replace, if_pos rfl]
  have hset : Item.setIn [title] [name] v (entries ++ [sectionItem title pairs]) =
      some (entries ++ [sectionItem title (pairs ++ [(name, v)])]) := by
    rw [Item.setIn, Item.descend, hitem]
    simp only [Item.descend, setKey_of_notMem hname, Bool.false_eq_true, false_and, if_false]
    show some (Item.replace title _ _) = _
    rw [hreplace, sectionItem, pairItems_append_singleton]
  rw [addLine, hset, Option.map_some]

/-- Lines set new names in front of all sections. -/
theorem foldlM_addLine_pairs {pairs : List (String × Setting)}
    (h : (entries.map (·.1) ++ pairs.map (·.1)).Nodup) :
    (pairLines pairs).foldlM addLine ([], entries) = some ([], entries ++ pairItems pairs) := by
  induction pairs generalizing entries with
  | nil => simp [pairLines, pairItems]
  | cons pair pairs ih =>
    obtain ⟨name, v⟩ := pair
    have hname : name ∉ entries.map (·.1) := notMem_of_nodup_append h
    have hrest : ((entries ++ [(name, Item.value v)]).map (·.1) ++ pairs.map (·.1)).Nodup := by
      simpa using h
    rw [pairLines, List.map_cons, List.foldlM_cons, addLine_pair hname]
    show (pairLines pairs).foldlM addLine ([], entries ++ [(name, Item.value v)]) = _
    rw [ih hrest, List.append_assoc]
    rfl

/-- Lines set new names in the table that was started last. -/
theorem foldlM_addLine_pairs_section {title : String} (htitle : title ∉ entries.map (·.1))
    {before pairs : List (String × Setting)} (h : (before.map (·.1) ++ pairs.map (·.1)).Nodup) :
    (pairLines pairs).foldlM addLine ([title], entries ++ [sectionItem title before]) =
      some ([title], entries ++ [sectionItem title (before ++ pairs)]) := by
  -- The table grows by a pair with every line, so the induction is on the lines that are left.
  induction pairs generalizing before with
  | nil => simp [pairLines]
  | cons pair pairs ih =>
    obtain ⟨name, v⟩ := pair
    have hname : name ∉ before.map (·.1) := notMem_of_nodup_append h
    have hrest : ((before ++ [(name, v)]).map (·.1) ++ pairs.map (·.1)).Nodup := by
      simpa using h
    rw [pairLines, List.map_cons, List.foldlM_cons, addLine_pair_section htitle hname]
    show (pairLines pairs).foldlM addLine
      ([title], entries ++ [sectionItem title (before ++ [(name, v)])]) = _
    rw [ih hrest, List.append_assoc]
    rfl

/-- The lines of sections add a table for each of them. -/
theorem foldlM_addLine_sections {sections : List (String × List (String × Setting))}
    (h : (entries.map (·.1) ++ sections.map (·.1)).Nodup)
    (hpairs : ∀ s ∈ sections, (s.2.map (·.1)).Nodup) (current : List String) :
    ∃ last, (sections.flatMap fun s => sectionLines s.1 s.2).foldlM addLine (current, entries) =
      some (last, entries ++ sections.map fun s => sectionItem s.1 s.2) := by
  induction sections generalizing entries current with
  | nil => exact ⟨current, by simp⟩
  | cons s sections ih =>
    obtain ⟨title, pairs⟩ := s
    obtain ⟨hfirst, hpairs⟩ := List.forall_mem_cons.mp hpairs
    have htitle : title ∉ entries.map (·.1) := notMem_of_nodup_append h
    have hrest : ((entries ++ [sectionItem title pairs]).map (·.1) ++
        sections.map (·.1)).Nodup := by
      simpa [sectionItem] using h
    have hsection : (sectionLines title pairs).foldlM addLine (current, entries) =
        some ([title], entries ++ [sectionItem title pairs]) := by
      rw [sectionLines, List.foldlM_cons, addLine]
      show (Line.table [title] :: pairLines pairs).foldlM addLine (current, entries) = _
      rw [List.foldlM_cons, addLine_table htitle]
      exact foldlM_addLine_pairs_section htitle hfirst
    -- Where the section before has ended does not matter to the next one.
    obtain ⟨last, hlast⟩ := ih hrest hpairs [title]
    refine ⟨last, ?_⟩
    rw [List.flatMap_cons, List.foldlM_append, hsection]
    show (sections.flatMap _).foldlM addLine ([title], entries ++ [sectionItem title pairs]) = _
    rw [hlast, List.append_assoc]
    rfl

end Lines

section Settings

theorem settings_append (entries more : List (String × Item)) :
    Item.settings (entries ++ more) = Item.settings entries ++ Item.settings more := by
  induction entries with
  | nil => rfl
  | cons entry entries ih =>
    obtain ⟨name, item⟩ := entry
    rw [List.cons_append, Item.settings, Item.settings, ih, List.cons_append]

theorem settings_pairItems (pairs : List (String × Setting)) :
    Item.settings (pairItems pairs) = pairs := by
  induction pairs with
  | nil => rfl
  | cons pair pairs ih =>
    rw [pairItems, List.map_cons, Item.settings, ← pairItems, ih, Item.setting]

theorem settings_sectionItems (sections : List (String × List (String × Setting))) :
    Item.settings (sections.map fun s => sectionItem s.1 s.2) =
      sections.map fun s => (s.1, .table none (Entries.ofList s.2)) := by
  induction sections with
  | nil => rfl
  | cons s sections ih =>
    rw [List.map_cons, List.map_cons, sectionItem, Item.settings, Item.setting,
      settings_pairItems, ih]

end Settings

/-- The settings of a document in sections: its single values and a table for each section. -/
theorem parse_of_readsLines {text : String} {pairs : List (String × Setting)}
    {sections : List (String × List (String × Setting))}
    (htext : ReadsLines text (documentLines pairs sections))
    (hmark : ∀ c ∈ text.toList.head?, c ≠ '\ufeff')
    (hnames : (pairs.map (·.1) ++ sections.map (·.1)).Nodup)
    (hpairs : ∀ s ∈ sections, (s.2.map (·.1)).Nodup) :
    parse text = some (Entries.ofList
      (pairs ++ sections.map fun s => (s.1, .table none (Entries.ofList s.2)))) := by
  -- The lines before the first section are those of the table that the document is.
  have hfirst : (pairLines pairs).foldlM addLine ([], []) = some ([], pairItems pairs) :=
    foldlM_addLine_pairs (List.nodup_append.mp hnames).1
  have hentries : ((pairItems pairs).map (·.1) ++ sections.map (·.1)).Nodup := by
    rwa [map_fst_pairItems]
  obtain ⟨last, hlast⟩ := foldlM_addLine_sections hentries hpairs []
  have hlines : (documentLines pairs sections).foldlM addLine ([], []) =
      some (last, pairItems pairs ++ sections.map fun s => sectionItem s.1 s.2) := by
    rw [documentLines, List.foldlM_append, List.foldlM_append, hfirst]
    show ((sections.flatMap _).foldlM addLine ([], pairItems pairs) >>= _) = _
    rw [hlast]
    rfl
  rw [parse, htext.run_document hmark]
  show ((documentLines pairs sections).foldlM addLine ([], []) >>= _) = _
  rw [hlines]
  show some (Entries.ofList (Item.settings _)) = _
  rw [settings_append, settings_pairItems, settings_sectionItems]

end Multibinding.Toml
