import Multibinding.Config.Load
import Multibinding.Proofs.Except
import Multibinding.Proofs.Name.Dotted

/-!
# The names in a configuration that was loaded

The class names in settings are checked while they are read, and the defaults are names of the same
kind. So each class name of a configuration that was loaded can be told from its dotted form, be it
in a record of names or that of the module to be generated.

* `Setting.isDotted_of_readNames`: the names of a record;
* `Config.of_readField`: what stays true while fields are read;
* `Config.namesDotted_of_ofSettings`: all names of a configuration;
* `Config.isDotted_of_ofToml`: the name of the module that declares the maps;
* `Config.sound_of_load`: what is known about a configuration that was loaded.
-/

namespace Multibinding

namespace Setting

/-- A class name that is read can be told from its dotted form. -/
theorem isDotted_of_readClassName {key : String} {v : Setting} {name : ClassName}
    (h : v.readClassName key = .ok name) : name.IsDotted := by
  obtain ⟨s, -, h⟩ := bind_eq_ok_iff.mp h
  exact ClassName.isDotted_of_parse (mapError_eq_ok_iff.mp h)

/-- A value that may be missing is none, or it is read like a value. -/
theorem of_readOptional {α : Type} {read : Setting → Except SettingError α} {v : Setting}
    {value : Option α} (h : readOptional read v = .ok value) : ∀ a ∈ value, read v = .ok a := by
  rintro a ⟨rfl⟩
  cases v with
  | nothing origin => cases h
  | _ =>
    obtain ⟨b, hb, ⟨rfl⟩⟩ := map_eq_ok_iff.mp h
    exact hb

/-- The names of a record can be told from their dotted forms once it is read, if those of its
defaults can and a field is set without a change to another one. -/
theorem isDotted_of_readNames {σ : Type} {expected key : String} {fields : List (NameField σ)}
    (hfields : ∀ f ∈ fields, ∀ g ∈ fields, ∀ s name,
      g.get (f.set s name) = name ∨ g.get (f.set s name) = g.get s)
    {init s : σ} {v : Setting} (h : readNames expected key fields init v = .ok s)
    (hinit : ∀ f ∈ fields, (f.get init).IsDotted) : ∀ f ∈ fields, (f.get s).IsDotted := by
  let P (s : σ) : Prop := ∀ f ∈ fields, (f.get s).IsDotted
  -- A name that is read takes the place of one name and leaves the others as they are.
  have hset : ∀ f ∈ fields, ∀ s, ∀ name : ClassName, name.IsDotted → P s → P (f.set s name) := by
    intro f hf s name hname hs g hg
    rcases hfields f hf g hg s name with heq | heq <;> rw [heq]
    · exact hname
    · exact hs g hg
  cases v with
  | table origin entries =>
    refine of_foldlM P hinit (fun f hf s s' hs hread => ?_) h
    split at hread
    · obtain ⟨name, hname, hread⟩ := bind_eq_ok_iff.mp hread
      cases hread
      exact hset f hf s name (isDotted_of_readClassName hname) hs
    · cases hread
      exact hs
  | list origin items =>
    refine of_foldlM P hinit (fun item hitem s s' hs hread => ?_) h
    obtain ⟨name, hname, hread⟩ := bind_eq_ok_iff.mp hread
    cases hread
    exact hset item.1 (List.of_mem_zip hitem).1 s name (isDotted_of_readClassName hname) hs
  | _ => cases h

end Setting

/-- A marker is set without a change to another one. -/
theorem MarkerNames.get_set : ∀ f ∈ MarkerNames.fields, ∀ g ∈ MarkerNames.fields, ∀ s name,
    g.get (f.set s name) = name ∨ g.get (f.set s name) = g.get s := by
  simp [MarkerNames.fields]

/-- A framework type is set without a change to another one. -/
theorem FrameworkNames.get_set : ∀ f ∈ FrameworkNames.fields, ∀ g ∈ FrameworkNames.fields,
    ∀ s name, g.get (f.set s name) = name ∨ g.get (f.set s name) = g.get s := by
  simp [FrameworkNames.fields]

namespace Config

/-- What is true of a configuration stays true when a field is read, if it stays true whatever is
read for the field. -/
theorem of_readField {P : Config → Prop} {α : Type} {entries : List (String × Setting)}
    {name : String} {read : Setting → Except SettingError α} {set : Config → α → Config}
    {c c' : Config} (h : readField entries name read set c = .ok c') (hc : P c)
    (hset : ∀ v a, read v = .ok a → P (set c a)) : P c' := by
  rw [readField] at h
  split at h
  · obtain ⟨a, ha, rfl⟩ := map_eq_ok_iff.mp h
    exact hset _ a ha
  · cases h
    exact hc

/-- The class names of a configuration can be told from their dotted forms. -/
structure NamesDotted (c : Config) : Prop where
  /-- The markers can. -/
  markers : ∀ f ∈ MarkerNames.fields, (f.get c.markers).IsDotted
  /-- The framework types can. -/
  framework : ∀ f ∈ FrameworkNames.fields, (f.get c.framework).IsDotted
  /-- The module that declares the maps can. -/
  injectionModule : ∀ name ∈ c.injectionModule, name.IsDotted

/-- The names of the defaults can be told from their dotted forms. -/
theorem namesDotted_default : NamesDotted {} := by
  have hmarkers : ∀ f ∈ MarkerNames.fields,
      ClassName.parse (f.get {}).canonical = .ok (f.get {}) := by
    decide +kernel
  have hframework : ∀ f ∈ FrameworkNames.fields,
      ClassName.parse (f.get {}).canonical = .ok (f.get {}) := by
    decide +kernel
  exact ⟨fun f hf => ClassName.isDotted_of_parse (hmarkers f hf),
    fun f hf => ClassName.isDotted_of_parse (hframework f hf), nofun⟩

/-- So can those of every configuration that settings make. -/
theorem namesDotted_of_ofSettings {entries : List (String × Setting)} {c : Config}
    (h : ofSettings entries = .ok c) : c.NamesDotted := by
  -- The fields are read one after another, and only three of them hold names.
  obtain ⟨c₁, h₁, h⟩ := bind_eq_ok_iff.mp h
  obtain ⟨c₂, h₂, h⟩ := bind_eq_ok_iff.mp h
  obtain ⟨c₃, h₃, h⟩ := bind_eq_ok_iff.mp h
  obtain ⟨c₄, h₄, h⟩ := bind_eq_ok_iff.mp h
  obtain ⟨c₅, h₅, h⟩ := bind_eq_ok_iff.mp h
  obtain ⟨c₆, h₆, h⟩ := bind_eq_ok_iff.mp h
  obtain ⟨c₇, h₇, h⟩ := bind_eq_ok_iff.mp h
  have hmarkers : NamesDotted c₁ := of_readField h₁ namesDotted_default fun v m hread =>
    ⟨Setting.isDotted_of_readNames MarkerNames.get_set hread namesDotted_default.markers,
      namesDotted_default.framework, nofun⟩
  have hframework : NamesDotted c₂ := of_readField h₂ hmarkers fun v m hread =>
    ⟨hmarkers.markers,
      Setting.isDotted_of_readNames FrameworkNames.get_set hread namesDotted_default.framework,
      hmarkers.injectionModule⟩
  have hother {α : Type} {field : String} {read : Setting → Except SettingError α}
      {set : Config → α → Config} {c c' : Config} (h : readField entries field read set c = .ok c')
      (hset : ∀ a, (set c a).markers = c.markers ∧ (set c a).framework = c.framework ∧
        (set c a).injectionModule = c.injectionModule) (hc : NamesDotted c) : NamesDotted c' := by
    refine of_readField h hc fun v a _ => ?_
    obtain ⟨hm, hf, hi⟩ := hset a
    exact ⟨hm ▸ hc.markers, hf ▸ hc.framework, hi ▸ hc.injectionModule⟩
  have hbefore : NamesDotted c₆ :=
    hother h₆ (fun _ => ⟨rfl, rfl, rfl⟩) <| hother h₅ (fun _ => ⟨rfl, rfl, rfl⟩) <|
      hother h₄ (fun _ => ⟨rfl, rfl, rfl⟩) <| hother h₃ (fun _ => ⟨rfl, rfl, rfl⟩) hframework
  have hmodule : NamesDotted c₇ := of_readField h₇ hbefore fun v value hread =>
    ⟨hbefore.markers, hbefore.framework, fun name hname =>
      Setting.isDotted_of_readClassName (Setting.of_readOptional hread name hname)⟩
  exact hother h (fun _ => ⟨rfl, rfl, rfl⟩) hmodule

/-- What all settings together make has no defect, and its names can be told from their dotted
forms. -/
theorem sound_of_ofAllSettings {settings : List (String × Setting)} {c : Config}
    (h : ofAllSettings settings = .ok c) : c.NamesDotted ∧ c.defect? = none := by
  obtain ⟨config, hconfig, h⟩ := bind_eq_ok_iff.mp h
  split at h
  · cases h
  · rename_i hdefect
    cases h
    exact ⟨namesDotted_of_ofSettings (mapError_eq_ok_iff.mp hconfig), hdefect⟩

/-- The name of the module that declares the maps can be told from its dotted form, if the
configuration was loaded from a text. -/
theorem isDotted_of_ofToml {text : String} {c : Config} (h : ofToml text = .ok c) :
    ∀ name ∈ c.injectionModule, name.IsDotted := by
  rw [ofToml] at h
  split at h
  · cases h
  · exact (sound_of_ofAllSettings h).1.injectionModule

/-- What is loaded from a file and the environment has no defect, and its names can be told from
their dotted forms. -/
theorem sound_of_load {τ : Type} {disk : Disk (StateM τ)} {environment : List (String × String)}
    {path : Option String} {t : τ} {c : Config}
    (h : ((load disk environment path).run t).1 = .ok c) : c.NamesDotted ∧ c.defect? = none := by
  have hsound (found : Except ConfigError (List (String × Setting)))
      (hfound : (do ofAllSettings (Setting.setAll (Setting.ofEnvironment environment)
        (Setting.setAll (← found) []))) = .ok c) : c.NamesDotted ∧ c.defect? = none := by
    obtain ⟨values, -, hvalues⟩ := bind_eq_ok_iff.mp hfound
    exact sound_of_ofAllSettings hvalues
  cases path with
  | none => exact hsound (.ok []) h
  | some path => exact hsound ((readFile disk path).run t).1 h

end Config

end Multibinding
