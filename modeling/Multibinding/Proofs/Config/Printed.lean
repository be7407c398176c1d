import Multibinding.Proofs.Config.LoadedNames
import Multibinding.Proofs.Setting.Kept
import Multibinding.Proofs.Toml.Tables

/-!
# A printed configuration is read back

A configuration is printed with its single values first and a section each for the markers and the
framework types. The text is read as the settings that it states, and these make the configuration
again. What is not set is left out, and on reading it gets its default, which is to be unset except
for the comment at the head of generated files.

* `Config.readsLines_toToml`, `Config.parse_toToml`: the settings of a printed configuration;
* `Config.ofSettings_settings`: the configuration that they make;
* `Config.ofToml_toToml`: so the text of a configuration makes it again.
-/

namespace Multibinding

open Toml

/-! ## The lines that are printed -/

/-- The pair of a text that may be missing. -/
def optionalPair (name : String) (text : Option String) : List (String × Setting) :=
  (text.map fun s => (name, .string s)).toList

/-- The pairs of a record of class names. -/
def namePairs {σ : Type} (fields : List (NameField σ)) (s : σ) : List (String × Setting) :=
  fields.map fun f => (f.name, .string (f.get s).canonical)

/-- No name is repeated in the pairs of different fields. -/
theorem nodup_namePairs {σ : Type} {fields : List (NameField σ)}
    (h : (fields.map (·.name)).Nodup) (s : σ) : ((namePairs fields s).map (·.1)).Nodup := by
  simpa [namePairs, Function.comp_def] using h

/-- A table of class names is kept, if the names of the fields are in lower case. -/
theorem isKept_namePairs {σ : Type} {fields : List (NameField σ)}
    (h : ∀ f ∈ fields, Text.lower f.name = f.name) (s : σ) :
    (Setting.table none (Entries.ofList (namePairs fields s))).IsKept := by
  refine ⟨rfl, fun entry hentry => ?_, Entries.sorted_ofList _⟩
  obtain ⟨f, hf, rfl⟩ := List.mem_map.mp (Entries.mem_of_mem_ofList hentry)
  exact ⟨h f hf, trivial⟩

section Lines

theorem readsLines_optionalLine {name : String} (h : IsBare name) (text : Option String) :
    ReadsLines (optionalLine name text) (pairLines (optionalPair name text)) := by
  cases text with
  | none => exact .empty
  | some s => exact .quoted h s

theorem readsLines_namesSection {σ : Type} {title : String} (h : IsBare title)
    {fields : List (NameField σ)} (hfields : ∀ f ∈ fields, IsBare f.name) (s : σ) :
    ReadsLines (namesSection title fields s) (sectionLines title (namePairs fields s)) := by
  have hpairs : ReadsLines
      (String.join (fields.map fun f => settingLine f.name (quoted (f.get s).canonical)))
      (pairLines (namePairs fields s)) := by
    rw [pairLines, namePairs, List.map_map]
    exact .join fun f hf => .quoted (hfields f hf) _
  have htitle := (ReadsLines.blank.append (.table h)).append hpairs
  have htext : "\n" ++ ("[" ++ title ++ "]\n") = "\n[" ++ title ++ "]\n" := by
    rw [← String.append_assoc, ← String.append_assoc]
    rfl
  rw [htext] at htitle
  exact htitle

end Lines

namespace Config

/-- The pairs of the single values of a configuration. -/
def pairs (c : Config) : List (String × Setting) :=
  [("key_style", .string c.keyStyle.name),
    ("string_key_types", .list none (c.stringKeyTypes.map .string)),
    ("registry_mode", .string c.registryMode.name)] ++
  (optionalPair "output_dir" c.outputDir ++
  (optionalPair "injection_module" (c.injectionModule.map ClassName.canonical) ++
  optionalPair "file_comment" c.fileComment))

/-- The sections of a configuration. -/
def sections (c : Config) : List (String × List (String × Setting)) :=
  [("markers", namePairs MarkerNames.fields c.markers),
    ("framework", namePairs FrameworkNames.fields c.framework)]

/-- The settings of a configuration. -/
def settings (c : Config) : List (String × Setting) :=
  c.pairs ++ c.sections.map fun s => (s.1, .table none (Entries.ofList s.2))

/-- A printed configuration is read as the lines of its pairs and sections. -/
theorem readsLines_toToml (c : Config) :
    ReadsLines (c.toToml ++ "\n") (documentLines c.pairs c.sections) := by
  have hstyle := ReadsLines.quoted (by decide +kernel : IsBare "key_style") c.keyStyle.name
  have htexts := ReadsLines.textList (by decide +kernel : IsBare "string_key_types")
    c.stringKeyTypes
  have hmode := ReadsLines.quoted (by decide +kernel : IsBare "registry_mode") c.registryMode.name
  have houtput := readsLines_optionalLine (by decide +kernel : IsBare "output_dir") c.outputDir
  have hmodule := readsLines_optionalLine (by decide +kernel : IsBare "injection_module")
    (c.injectionModule.map ClassName.canonical)
  have hcomment := readsLines_optionalLine (by decide +kernel : IsBare "file_comment") c.fileComment
  have hmarkers := readsLines_namesSection (by decide +kernel : IsBare "markers")
    (by decide +kernel : ∀ f ∈ MarkerNames.fields, IsBare f.name) c.markers
  have hframework := readsLines_namesSection (by decide +kernel : IsBare "framework")
    (by decide +kernel : ∀ f ∈ FrameworkNames.fields, IsBare f.name) c.framework
  -- The lines are printed in the order of the fields, single values before tables.
  have hsingle := ((((hstyle.append htexts).append hmode).append houtput).append hmodule).append
    hcomment
  have hall := ((hsingle.append hmarkers).append hframework).append .blank
  simpa [toToml, documentLines, pairs, sections, pairLines] using hall

/-- No name is used twice at the top of a configuration. -/
theorem nodup_settings (c : Config) : (c.settings.map (·.1)).Nodup := by
  simp only [settings, pairs, sections, optionalPair]
  rcases c.outputDir with _ | _ <;> rcases c.injectionModule with _ | _ <;>
    rcases c.fileComment with _ | _ <;> simp

theorem nodup_markers : (MarkerNames.fields.map (·.name)).Nodup := by
  decide

theorem nodup_framework : (FrameworkNames.fields.map (·.name)).Nodup := by
  decide

/-- The settings of a printed configuration. -/
theorem parse_toToml (c : Config) :
    Toml.parse (c.toToml ++ "\n") = some (Entries.ofList c.settings) := by
  refine parse_of_readsLines c.readsLines_toToml ?_ ?_ ?_
  · simp [toToml, settingLine]
  · simpa [settings, Function.comp_def] using c.nodup_settings
  · simp [sections, nodup_namePairs nodup_markers, nodup_namePairs nodup_framework]

/-- All settings of a configuration have plain names, and all of them are kept. -/
theorem kept_settings (c : Config) :
    ∀ entry ∈ c.settings, Setting.IsPlainName entry.1 ∧ entry.2.IsKept := by
  have hmarkers := isKept_namePairs
    (by decide +kernel : ∀ f ∈ MarkerNames.fields, Text.lower f.name = f.name) c.markers
  have hframework := isKept_namePairs
    (by decide +kernel : ∀ f ∈ FrameworkNames.fields, Text.lower f.name = f.name) c.framework
  have hkept {name : String} {v : Setting} (hname : Setting.IsPlainName name) (hv : v.IsKept) :
      Setting.IsPlainName (name, v).1 ∧ (name, v).2.IsKept := ⟨hname, hv⟩
  have hoptional {name : String} (h : Setting.IsPlainName name) (text : Option String) :
      ∀ entry ∈ optionalPair name text, Setting.IsPlainName entry.1 ∧ entry.2.IsKept := by
    cases text with
    | none => nofun
    | some s =>
      rintro entry hentry
      cases List.mem_singleton.mp hentry
      exact hkept h trivial
  -- The entries are the three values that are always there, the three optional ones and the tables.
  intro entry hentry
  simp only [settings, pairs, sections, List.mem_append, List.mem_cons, List.map_cons,
    List.map_nil, List.not_mem_nil, or_false] at hentry
  rcases hentry with ((rfl | rfl | rfl) | hentry | hentry | hentry) | rfl | rfl
  · exact hkept (by decide +kernel) trivial
  · exact hkept (by decide +kernel) trivial
  · exact hkept (by decide +kernel) trivial
  · exact hoptional (by decide +kernel) _ entry hentry
  · exact hoptional (by decide +kernel) _ entry hentry
  · exact hoptional (by decide +kernel) _ entry hentry
  · exact hkept (by decide +kernel) hmarkers
  · exact hkept (by decide +kernel) hframework

/-- The settings of a printed configuration are taken as they are. -/
theorem setAll_settings (c : Config) :
    Setting.setAll (Entries.ofList c.settings) [] = Entries.ofList c.settings :=
  Setting.setAll_ofList c.kept_settings

/-! ## The configuration that they make -/

section Fields

variable {entries : List (String × Setting)} {α : Type} {name : String}
  {read : Setting → Except SettingError α} {set : Config → α → Config} {c : Config}

theorem readField_of_some {v : Setting} {a : α} (hv : Entries.find? name entries = some v)
    (ha : read v = .ok a) : readField entries name read set c = .ok (set c a) := by
  rw [readField, hv]
  dsimp only
  rw [ha]
  rfl

theorem readField_of_none (hnone : Entries.find? name entries = none) :
    readField entries name read set c = .ok c := by
  rw [readField, hnone]

end Fields

end Config

namespace Setting

/-- A list of texts is read as it is. -/
theorem readTexts_strings (key : String) (origin : Option String) (texts : List String) :
    readTexts key (.list origin (texts.map .string)) = .ok texts := by
  have hall (k : Nat) : ((texts.map Setting.string).zipIdx k).mapM (fun item =>
      item.1.readText (itemKey key item.2)) = (.ok texts : Except SettingError (List String)) := by
    induction texts generalizing k with
    | nil => rfl
    | cons s texts ih =>
      rw [List.map_cons, List.zipIdx_cons, List.mapM_cons, ih]
      rfl
  exact hall 0

/-- A class name is read from its dotted form, if it can be told from it. -/
theorem readClassName_canonical (key : String) {name : ClassName} (h : name.IsDotted) :
    readClassName key (.string name.canonical) = .ok name :=
  bind_eq_ok_iff.mpr ⟨name.canonical, rfl, mapError_eq_ok_iff.mpr h.parse_canonical⟩

/-- A record of names is read back, up to the order in which its fields are set. -/
theorem readNames_namePairs {σ : Type} (expected key : String) {fields : List (NameField σ)}
    (hnames : (fields.map (·.name)).Nodup) {s : σ} (hs : ∀ f ∈ fields, (f.get s).IsDotted)
    (init : σ) :
    readNames expected key fields init (.table none (Entries.ofList (namePairs fields s))) =
      .ok (fields.foldl (fun t f => f.set t (f.get s)) init) := by
  -- A field is found under its name, wherever the sorted entries have it.
  have hfind : ∀ f ∈ fields, Entries.find? f.name (Entries.ofList (namePairs fields s)) =
      some (.string (f.get s).canonical) := fun f hf => by
    have hpairs := nodup_namePairs hnames s
    rw [Entries.find?_ofList hpairs]
    exact Entries.find?_eq_some hpairs (List.mem_map_of_mem hf)
  rw [readNames]
  generalize Entries.ofList (namePairs fields s) = entries at hfind
  clear hnames
  induction fields generalizing init with
  | nil => rfl
  | cons f fields ih =>
    obtain ⟨hf, hfields⟩ := List.forall_mem_cons.mp hfind
    obtain ⟨hdotted, hs⟩ := List.forall_mem_cons.mp hs
    rw [List.foldlM_cons, hf]
    dsimp only
    rw [readClassName_canonical _ hdotted]
    exact ih hs (f.set init (f.get s)) hfields

end Setting

/-- Once every marker is set, nothing of the record before it is left. -/
theorem MarkerNames.foldl_set (m init : MarkerNames) :
    MarkerNames.fields.foldl (fun t f => f.set t (f.get m)) init = m := rfl

/-- Once every framework type is set, nothing of the record before it is left. -/
theorem FrameworkNames.foldl_set (m init : FrameworkNames) :
    FrameworkNames.fields.foldl (fun t f => f.set t (f.get m)) init = m := rfl

namespace Config

/-- What stands at the optional names of a configuration. -/
theorem find?_optional (c : Config) :
    Entries.find? "output_dir" c.settings = c.outputDir.map .string ∧
    Entries.find? "injection_module" c.settings =
      c.injectionModule.map (fun name => .string name.canonical) ∧
    Entries.find? "file_comment" c.settings = c.fileComment.map .string := by
  simp only [settings, pairs, sections, optionalPair, Entries.find?]
  rcases c.outputDir with _ | _ <;> rcases c.injectionModule with _ | _ <;>
    rcases c.fileComment with _ | _ <;> simp [List.lookup_cons]

/-- A field that may be missing is read back. -/
theorem readField_optional {α : Type} {entries : List (String × Setting)} {name : String}
    {read : Setting → Except SettingError α} {set : Config → Option α → Config} {c : Config}
    (text : α → String) {value : Option α}
    (hfind : Entries.find? name entries = value.map fun a => .string (text a))
    (hread : ∀ a ∈ value, read (.string (text a)) = .ok a) :
    readField entries name (Setting.readOptional read) set c =
      .ok (value.elim c fun a => set c (some a)) := by
  cases value with
  | none => exact readField_of_none hfind
  | some a => exact readField_of_some hfind (map_eq_ok_iff.mpr ⟨a, hread a rfl, rfl⟩)

/-- The settings of a configuration make it again, if its names can be told from their dotted forms
and it has a comment; otherwise it gets the default one. -/
theorem ofSettings_settings {c : Config} (h : c.NamesDotted) :
    ofSettings (Entries.ofList c.settings) =
      .ok { c with fileComment := c.fileComment <|> ({} : Config).fileComment } := by
  have hnames := c.nodup_settings
  have hfind {name : String} {v : Setting} (hmem : (name, v) ∈ c.settings) :
      Entries.find? name (Entries.ofList c.settings) = some v := by
    rw [Entries.find?_ofList hnames]
    exact Entries.find?_eq_some hnames hmem
  obtain ⟨houtput, hmodule, hcomment⟩ := c.find?_optional
  rw [← Entries.find?_ofList hnames] at houtput hmodule hcomment
  have hmarkers := Setting.readNames_namePairs "struct MarkerNames" "markers" nodup_markers
    h.markers {}
  have hframework := Setting.readNames_namePairs "struct FrameworkNames" "framework"
    nodup_framework h.framework {}
  rw [MarkerNames.foldl_set] at hmarkers
  rw [FrameworkNames.foldl_set] at hframework
  have hstyle : Setting.readChoice "KeyStyle" (KeyStyle.all.map fun s => (s.name, s))
      (.string c.keyStyle.name) = .ok c.keyStyle := by
    cases c.keyStyle <;> rfl
  have hmode : Setting.readChoice "RegistryMode" (RegistryMode.all.map fun m => (m.name, m))
      (.string c.registryMode.name) = .ok c.registryMode := by
    cases c.registryMode <;> rfl
  have htexts := Setting.readTexts_strings "string_key_types" none c.stringKeyTypes
  -- The fields are read one after another.
  refine bind_eq_ok_iff.mpr ⟨_, readField_of_some
    (hfind (by simp [settings, sections])) hmarkers, ?_⟩
  refine bind_eq_ok_iff.mpr ⟨_, readField_of_some
    (hfind (by simp [settings, sections])) hframework, ?_⟩
  refine bind_eq_ok_iff.mpr ⟨_, readField_of_some (hfind (by simp [settings, pairs])) hstyle, ?_⟩
  refine bind_eq_ok_iff.mpr ⟨_, readField_of_some (hfind (by simp [settings, pairs])) htexts, ?_⟩
  refine bind_eq_ok_iff.mpr ⟨_, readField_of_some (hfind (by simp [settings, pairs])) hmode, ?_⟩
  refine bind_eq_ok_iff.mpr ⟨_, readField_optional id houtput fun _ _ => rfl, ?_⟩
  refine bind_eq_ok_iff.mpr ⟨_, readField_optional _ hmodule fun name hname =>
    Setting.readClassName_canonical _ (h.injectionModule name hname), ?_⟩
  refine (readField_optional id hcomment fun _ _ => rfl).trans ?_
  -- Only the comment has a default that is not to be unset.
  obtain ⟨markers, framework, style, texts, mode, output, module, comment⟩ := c
  cases output <;> cases module <;> cases comment <;> rfl

/-- A printed configuration is loaded again, if it has no defect and its names can be told from
their dotted forms. A comment that is unset becomes the default one. -/
theorem ofToml_toToml {c : Config} (h : c.NamesDotted) (hdefect : c.defect? = none) :
    ofToml (c.toToml ++ "\n") =
      .ok { c with fileComment := c.fileComment <|> ({} : Config).fileComment } := by
  rw [ofToml, parse_toToml]
  dsimp only
  have hsame : ({ c with fileComment := c.fileComment <|> ({} : Config).fileComment } :
      Config).defect? = none := hdefect
  rw [setAll_settings]
  refine bind_eq_ok_iff.mpr ⟨_, mapError_eq_ok_iff.mpr (ofSettings_settings h), ?_⟩
  rw [hsame]
  rfl

end Config

end Multibinding
