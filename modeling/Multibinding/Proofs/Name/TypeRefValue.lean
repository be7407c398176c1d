import Mathlib.Data.List.Forall2
import Multibinding.Proofs.Json.Canonical
import Multibinding.Proofs.Name.TypeRefJson

/-!
# Recognizing type references in values

Whether a value has the form of a type reference does not depend on the order of its members. What
is recognized can be written, and it is recognized in what is written.

* `TypeRef.ofValues?_eq_some_iff`: several type references are recognized one by one;
* `TypeRef.Fits.ofValue?_toJson`: a type reference is recognized in its written form;
* `TypeRef.fits_of_ofValue?`: what is recognized fits into the levels of the value;
* `TypeRef.ofValue?_canonical`: it is recognized in the sorted value just as well.
-/

namespace Multibinding.TypeRef

open Json

theorem argumentsIn_eq (members : List (String × Value)) :
    argumentsIn members = (members.filter (·.1 == "arguments")).map (ofArguments? ·.2) := by
  induction members with
  | nil => rfl
  | cons m rest ih =>
    by_cases hkey : m.1 = "arguments"
    · rw [argumentsIn, if_pos hkey, ih, List.filter_cons_of_pos (by simpa using hkey),
        List.map_cons]
    · rw [argumentsIn, if_neg hkey, ih, List.filter_cons_of_neg (by simpa using hkey)]

theorem boundsIn_eq (members : List (String × Value)) :
    boundsIn members = (members.filter (·.1 == "upper_bound")).map (ofBound? ·.2) := by
  induction members with
  | nil => rfl
  | cons m rest ih =>
    by_cases hkey : m.1 = "upper_bound"
    · rw [boundsIn, if_pos hkey, ih, List.filter_cons_of_pos (by simpa using hkey), List.map_cons]
    · rw [boundsIn, if_neg hkey, ih, List.filter_cons_of_neg (by simpa using hkey)]

section Written

/-- A class name is recognized in its dotted form. -/
theorem className?_canonicalName {c : ClassName} (h : c.IsDotted) :
    className? (.string c.canonical) = some c := by
  rw [className?, h.parse_canonical]
  rfl

/-- Several type references are recognized if each of them is. -/
theorem ofValues?_toJsonList {ts : List TypeRef} (h : ∀ t ∈ ts, ofValue? t.toJson = some t) :
    ofValues? (toJsonList ts) = some ts := by
  induction ts with
  | nil => rfl
  | cons t rest ih =>
    obtain ⟨ht, hrest⟩ := List.forall_mem_cons.mp h
    rw [toJsonList, ofValues?, ht, ih hrest]
    rfl

/-- A type reference is recognized in its written form. -/
theorem Fits.ofValue?_toJson {level : Nat} {t : TypeRef} (h : t.Fits level) :
    ofValue? t.toJson = some t := by
  induction h with
  | @declared _ name hname =>
    rw [TypeRef.toJson, ofValue?, ofKind?, if_pos rfl, className?_canonicalName hname]
    rfl
  | @parameterized _ raw arguments hraw _ ih =>
    have hraw : raw? [("raw", .string raw.canonical),
        ("arguments", .array (toJsonList arguments))] = some raw := by
      simp [raw?, className?_canonicalName hraw, single?]
    have harguments : single? (argumentsIn [("raw", .string raw.canonical),
        ("arguments", .array (toJsonList arguments))]) = some arguments := by
      simp [argumentsIn, ofArguments?, ofValues?_toJsonList ih, single?]
    rw [TypeRef.toJson, ofValue?, ofKind?, if_neg (by decide), if_pos rfl, ofParameterized?, hraw,
      harguments]
    rfl
  | wildcard => rfl
  | @subtypeOf _ bound _ ih =>
    have hbound : ofBound? bound.toJson = some (.subtypeOf bound) := by
      have hobject : ofBound? bound.toJson = (ofValue? bound.toJson).map TypeRef.subtypeOf := by
        cases bound <;> rfl
      rw [hobject, ih]
      rfl
    rw [TypeRef.toJson, ofValue?, ofKind?, if_neg (by decide), if_neg (by decide), if_pos rfl,
      ofWildcard?]
    simp [boundsIn, hbound, single?]

end Written

section Recognized

/-- Several values are type references exactly if each of them is one. -/
theorem ofValues?_eq_some_iff {items : List Value} {types : List TypeRef} :
    ofValues? items = some types ↔
      List.Forall₂ (fun item type => ofValue? item = some type) items types := by
  induction items generalizing types with
  | nil => simp [ofValues?, eq_comm]
  | cons item rest ih =>
    rw [ofValues?, List.forall₂_cons_left_iff]
    constructor
    · intro h
      obtain ⟨type, htype, h⟩ := Option.bind_eq_some_iff.mp h
      obtain ⟨types', htypes, h⟩ := Option.bind_eq_some_iff.mp h
      cases h
      exact ⟨type, types', htype, ih.mp htypes, rfl⟩
    · rintro ⟨type, types', htype, htypes, rfl⟩
      rw [htype, ih.mpr htypes]
      rfl

/-- Some value among several is no type reference exactly if they are no type references. -/
theorem ofValues?_eq_none_iff {items : List Value} :
    ofValues? items = none ↔ ∃ item ∈ items, ofValue? item = none := by
  induction items with
  | nil => simp [ofValues?]
  | cons item rest ih =>
    rw [List.exists_mem_cons_iff, ← ih, ofValues?]
    cases ofValue? item <;> cases ofValues? rest <;> simp

/-- What is recognized as a class name can be told from its dotted form. -/
theorem isDotted_of_className? {v : Value} {c : ClassName} (h : className? v = some c) :
    c.IsDotted := by
  cases v with
  | string s =>
    rw [className?, toOption_eq_some_iff] at h
    exact ClassName.isDotted_of_parse h
  | _ => cases h

/-- The only element of a list is in the list. -/
theorem mem_of_single?_eq_some {α : Type} {as : List (Option α)} {a : α}
    (h : single? as = some a) : some a ∈ as := by
  unfold single? at h
  split at h
  · cases h
    exact List.mem_singleton_self _
  · cases h

/-- So can the class name in the member called `raw`. -/
theorem isDotted_of_raw? {members : List (String × Value)} {c : ClassName}
    (h : raw? members = some c) : c.IsDotted := by
  obtain ⟨m, _, hm⟩ := List.mem_map.mp (mem_of_single?_eq_some h)
  exact isDotted_of_className? hm

mutual

/-- What is recognized fits into the levels of the value. -/
theorem fits_of_ofValue? : (v : Value) → (t : TypeRef) → ofValue? v = some t → t.Fits v.height
  | .object members, t, h => fits_of_ofKind? members t h
  | .null, _, h | .bool _, _, h | .number _, _, h | .string _, _, h | .array _, _, h => nomatch h

/-- So does what is recognized by its kind. -/
theorem fits_of_ofKind? : (members : List (String × Value)) → (t : TypeRef) →
    ofKind? members = some t → t.Fits (Value.heightMembers members + 1)
  | [], _, h => nomatch h
  | [(kind, contents)], t, h => by
    rw [ofKind?] at h
    have hheight : contents.height ≤ Value.heightMembers [(kind, contents)] := by
      simp [Value.heightMembers]
    split at h
    · obtain ⟨c, hc, rfl⟩ := Option.map_eq_some_iff.mp h
      exact .declared (isDotted_of_className? hc)
    · split at h
      · exact (fits_of_ofParameterized? contents t h).mono (by omega)
      · split at h
        · exact (fits_of_ofWildcard? contents t h).mono (by omega)
        · cases h
  | _ :: _ :: _, _, h => nomatch h

/-- The contents of a class with type arguments are one level below. -/
theorem fits_of_ofParameterized? : (v : Value) → (t : TypeRef) → ofParameterized? v = some t →
    t.Fits (v.height + 1)
  | .object members, t, h => by
    obtain ⟨raw, hraw, h⟩ := Option.bind_eq_some_iff.mp h
    obtain ⟨arguments, harguments, h⟩ := Option.bind_eq_some_iff.mp h
    cases h
    obtain ⟨level, hlevel, hfit⟩ :=
      fits_of_argumentsIn members arguments (mem_of_single?_eq_some harguments)
    rw [Value.height]
    exact (Fits.parameterized (isDotted_of_raw? hraw) hfit).mono (by omega)
  | .array [raw, arguments], t, h => by
    obtain ⟨c, hc, h⟩ := Option.bind_eq_some_iff.mp h
    obtain ⟨ts, hts, h⟩ := Option.bind_eq_some_iff.mp h
    cases h
    obtain ⟨level, hlevel, hfit⟩ := fits_of_ofArguments? arguments ts hts
    have hheight : arguments.height ≤ Value.heightItems [raw, arguments] := by
      simp only [Value.heightItems]
      omega
    rw [Value.height]
    exact (Fits.parameterized (isDotted_of_className? hc) hfit).mono (by omega)
  | .array [], _, h | .array [_], _, h | .array (_ :: _ :: _ :: _), _, h => nomatch h
  | .null, _, h | .bool _, _, h | .number _, _, h | .string _, _, h => nomatch h

/-- The contents of a wildcard are one level below. -/
theorem fits_of_ofWildcard? : (v : Value) → (t : TypeRef) → ofWildcard? v = some t →
    t.Fits (v.height + 1)
  | .object members, t, h => by
    rw [ofWildcard?] at h
    rw [Value.height]
    split at h
    · cases h
      exact .wildcard
    · exact fits_of_boundsIn members t (mem_of_single?_eq_some h)
  | .array [], t, h => by
    cases h
    exact .wildcard
  | .array [bound], t, h => by
    have hheight : bound.height ≤ Value.heightItems [bound] := by simp [Value.heightItems]
    rw [Value.height]
    exact (fits_of_ofBound? bound t h).mono (by omega)
  | .array (_ :: _ :: _), _, h => nomatch h
  | .null, _, h | .bool _, _, h | .number _, _, h | .string _, _, h => nomatch h

/-- A bound is two levels below. -/
theorem fits_of_ofBound? : (v : Value) → (t : TypeRef) → ofBound? v = some t →
    t.Fits (v.height + 2)
  | .null, t, h => by
    cases h
    exact .wildcard
  | .object members, t, h => by
    obtain ⟨bound, hbound, rfl⟩ := Option.map_eq_some_iff.mp h
    exact .subtypeOf (fits_of_ofKind? members bound hbound)
  | .array _, _, h | .bool _, _, h | .number _, _, h | .string _, _, h => nomatch h

/-- Type arguments are listed one level below. -/
theorem fits_of_ofArguments? : (v : Value) → (ts : List TypeRef) → ofArguments? v = some ts →
    ∃ level, level + 1 ≤ v.height ∧ ∀ t ∈ ts, t.Fits level
  | .array items, ts, h => ⟨Value.heightItems items, Nat.le_refl _, fits_of_ofValues? items ts h⟩
  | .null, _, h | .bool _, _, h | .number _, _, h | .string _, _, h | .object _, _, h => nomatch h

/-- Each of several type references fits. -/
theorem fits_of_ofValues? : (items : List Value) → (ts : List TypeRef) →
    ofValues? items = some ts → ∀ t ∈ ts, t.Fits (Value.heightItems items)
  | [], ts, h => by
    cases h
    exact fun t ht => nomatch ht
  | v :: rest, ts, h => by
    obtain ⟨u, hu, h⟩ := Option.bind_eq_some_iff.mp h
    obtain ⟨us, hus, h⟩ := Option.bind_eq_some_iff.mp h
    cases h
    have hfirst := fits_of_ofValue? v u hu
    have hrest := fits_of_ofValues? rest us hus
    rw [Value.heightItems]
    refine List.forall_mem_cons.mpr ⟨hfirst.mono (Nat.le_max_left ..), fun t ht => ?_⟩
    exact (hrest t ht).mono (Nat.le_max_right ..)

/-- The type arguments in members are listed one level below. -/
theorem fits_of_argumentsIn : (members : List (String × Value)) → (ts : List TypeRef) →
    some ts ∈ argumentsIn members →
      ∃ level, level + 1 ≤ Value.heightMembers members ∧ ∀ t ∈ ts, t.Fits level
  | [], ts, h => nomatch h
  | (key, v) :: rest, ts, h => by
    have hlater (h : some ts ∈ argumentsIn rest) : ∃ level,
        level + 1 ≤ Value.heightMembers ((key, v) :: rest) ∧ ∀ t ∈ ts, t.Fits level := by
      obtain ⟨level, hlevel, hfit⟩ := fits_of_argumentsIn rest ts h
      exact ⟨level, Nat.le_trans hlevel (Nat.le_max_right ..), hfit⟩
    rw [argumentsIn] at h
    split at h
    · rcases List.mem_cons.mp h with hv | hrest
      · obtain ⟨level, hlevel, hfit⟩ := fits_of_ofArguments? v ts hv.symm
        exact ⟨level, Nat.le_trans hlevel (Nat.le_max_left ..), hfit⟩
      · exact hlater hrest
    · exact hlater h

/-- The bounds in members are two levels below. -/
theorem fits_of_boundsIn : (members : List (String × Value)) → (t : TypeRef) →
    some t ∈ boundsIn members → t.Fits (Value.heightMembers members + 2)
  | [], t, h => nomatch h
  | (key, v) :: rest, t, h => by
    have hlater (h : some t ∈ boundsIn rest) :
        t.Fits (Value.heightMembers ((key, v) :: rest) + 2) :=
      (fits_of_boundsIn rest t h).mono (Nat.add_le_add_right (Nat.le_max_right ..) 2)
    rw [boundsIn] at h
    split at h
    · rcases List.mem_cons.mp h with hv | hrest
      · exact (fits_of_ofBound? v t hv.symm).mono (Nat.add_le_add_right (Nat.le_max_left ..) 2)
      · exact hlater hrest
    · exact hlater h

end

end Recognized

section Canonical

/-- A class name is recognized in a sorted value just as well. -/
theorem className?_canonical (v : Value) : className? v.canonical = className? v := by
  cases v <;> rfl

variable {members : List (String × Value)}

/-- Where no key is repeated, the order of the members does not matter for the class name. -/
theorem raw?_canonical (h : (members.map (·.1)).Nodup) :
    raw? (Entries.ofList (Value.canonicalMembers members)) = raw? members := by
  rw [raw?, raw?, Value.filter_canonical h, Value.canonicalMembers_eq_map, List.map_map]
  exact congrArg single? (List.map_congr_left fun m _ => className?_canonical m.2)

/-- Nor for the type arguments. -/
theorem argumentsIn_ofList (h : (members.map (·.1)).Nodup) :
    argumentsIn (Entries.ofList (Value.canonicalMembers members)) =
      argumentsIn (Value.canonicalMembers members) := by
  rw [argumentsIn_eq, argumentsIn_eq,
    Entries.filter_ofList (by rwa [Value.map_key_canonicalMembers])]

/-- Nor for the bounds. -/
theorem boundsIn_ofList (h : (members.map (·.1)).Nodup) :
    boundsIn (Entries.ofList (Value.canonicalMembers members)) =
      boundsIn (Value.canonicalMembers members) := by
  rw [boundsIn_eq, boundsIn_eq,
    Entries.filter_ofList (by rwa [Value.map_key_canonicalMembers])]

/-- An object with several members has no kind. -/
theorem ofKind?_eq_none (h : 2 ≤ members.length) : ofKind? members = none := by
  match members with
  | _ :: _ :: _ => rfl

mutual

/-- A type reference is recognized in a plain value and in the sorted value alike. -/
theorem ofValue?_canonical : (v : Value) → v.isPlain → ofValue? v.canonical = ofValue? v
  | .null, _ => rfl
  | .bool _, _ => rfl
  | .number _, _ => rfl
  | .string _, _ => rfl
  | .array _, _ => rfl
  | .object members, h => by
    obtain ⟨hkeys, hmembers⟩ := (Bool.and_eq_true _ _).mp h
    exact ofKind?_canonical members (of_decide_eq_true hkeys) hmembers

/-- So is its kind. -/
theorem ofKind?_canonical : (members : List (String × Value)) → (members.map (·.1)).Nodup →
    Value.isPlainMembers members →
      ofKind? (Entries.ofList (Value.canonicalMembers members)) = ofKind? members
  | [], _, _ => rfl
  | [(kind, contents)], _, h => by
    have hcontents : contents.isPlain := by simpa [Value.isPlainMembers] using h
    show ofKind? [(kind, contents.canonical)] = _
    rw [ofKind?, ofKind?, className?_canonical, ofParameterized?_canonical contents hcontents,
      ofWildcard?_canonical contents hcontents]
  | m :: m' :: rest, hkeys, h => by
    -- Sorting keeps all members, so that there are still several.
    have hlength : (Entries.ofList (Value.canonicalMembers (m :: m' :: rest))).length =
        (m :: m' :: rest).length := by
      rw [(Entries.ofList_perm (by rwa [Value.map_key_canonicalMembers])).length_eq,
        Value.canonicalMembers_eq_map, List.length_map]
    rw [ofKind?_eq_none (by rw [hlength]; simp), ofKind?_eq_none (by simp)]

/-- The contents of a class with type arguments are recognized alike. -/
theorem ofParameterized?_canonical : (v : Value) → v.isPlain →
    ofParameterized? v.canonical = ofParameterized? v
  | .null, _ => rfl
  | .bool _, _ => rfl
  | .number _, _ => rfl
  | .string _, _ => rfl
  | .array [], _ => rfl
  | .array [_], _ => rfl
  | .array [raw, arguments], h => by
    have harguments : arguments.isPlain := by
      simp only [Value.isPlain, Value.isPlainItems, Bool.and_eq_true] at h
      exact h.2.1
    show ofParts? [raw.canonical, arguments.canonical] = ofParts? [raw, arguments]
    rw [ofParts?, ofParts?, className?_canonical, ofArguments?_canonical arguments harguments]
  | .array (_ :: _ :: _ :: _), _ => rfl
  | .object members, h => by
    obtain ⟨hkeys, hmembers⟩ := (Bool.and_eq_true _ _).mp h
    have hkeys := of_decide_eq_true hkeys
    rw [Value.canonical, ofParameterized?, ofParameterized?, raw?_canonical hkeys,
      argumentsIn_ofList hkeys, argumentsIn_canonicalMembers members hmembers]

/-- The contents of a wildcard are recognized alike. -/
theorem ofWildcard?_canonical : (v : Value) → v.isPlain →
    ofWildcard? v.canonical = ofWildcard? v
  | .null, _ => rfl
  | .bool _, _ => rfl
  | .number _, _ => rfl
  | .string _, _ => rfl
  | .array [], _ => rfl
  | .array [bound], h => by
    have hbound : bound.isPlain := by simpa [Value.isPlain, Value.isPlainItems] using h
    exact ofBound?_canonical bound hbound
  | .array (_ :: _ :: _), _ => rfl
  | .object members, h => by
    obtain ⟨hkeys, hmembers⟩ := (Bool.and_eq_true _ _).mp h
    have hkeys := of_decide_eq_true hkeys
    rw [Value.canonical, ofWildcard?, ofWildcard?, boundsIn_ofList hkeys,
      boundsIn_canonicalMembers members hmembers]

/-- A bound is recognized alike. -/
theorem ofBound?_canonical : (v : Value) → v.isPlain → ofBound? v.canonical = ofBound? v
  | .null, _ => rfl
  | .bool _, _ => rfl
  | .number _, _ => rfl
  | .string _, _ => rfl
  | .array _, _ => rfl
  | .object members, h => by
    obtain ⟨hkeys, hmembers⟩ := (Bool.and_eq_true _ _).mp h
    exact congrArg (Option.map subtypeOf)
      (ofKind?_canonical members (of_decide_eq_true hkeys) hmembers)

/-- Type arguments are recognized alike. -/
theorem ofArguments?_canonical : (v : Value) → v.isPlain →
    ofArguments? v.canonical = ofArguments? v
  | .null, _ => rfl
  | .bool _, _ => rfl
  | .number _, _ => rfl
  | .string _, _ => rfl
  | .array items, h => ofValues?_canonicalItems items h
  | .object _, _ => rfl

/-- Several type references are recognized alike. -/
theorem ofValues?_canonicalItems : (items : List Value) → Value.isPlainItems items →
    ofValues? (Value.canonicalItems items) = ofValues? items
  | [], _ => rfl
  | v :: rest, h => by
    obtain ⟨hv, hrest⟩ := (Bool.and_eq_true _ _).mp h
    rw [Value.canonicalItems, ofValues?, ofValues?, ofValue?_canonical v hv,
      ofValues?_canonicalItems rest hrest]

/-- The type arguments in members are recognized alike. -/
theorem argumentsIn_canonicalMembers : (members : List (String × Value)) →
    Value.isPlainMembers members → argumentsIn (Value.canonicalMembers members) =
      argumentsIn members
  | [], _ => rfl
  | (key, v) :: rest, h => by
    obtain ⟨hv, hrest⟩ := (Bool.and_eq_true _ _).mp h
    rw [Value.canonicalMembers, argumentsIn, argumentsIn, ofArguments?_canonical v hv,
      argumentsIn_canonicalMembers rest hrest]

/-- The bounds in members are recognized alike. -/
theorem boundsIn_canonicalMembers : (members : List (String × Value)) →
    Value.isPlainMembers members → boundsIn (Value.canonicalMembers members) = boundsIn members
  | [], _ => rfl
  | (key, v) :: rest, h => by
    obtain ⟨hv, hrest⟩ := (Bool.and_eq_true _ _).mp h
    rw [Value.canonicalMembers, boundsIn, boundsIn, ofBound?_canonical v hv,
      boundsIn_canonicalMembers rest hrest]

end

end Canonical

end Multibinding.TypeRef
