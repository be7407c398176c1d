import Multibinding.Proofs.Binding.KeyType

/-!
# Keys and reports of a collection

Declarations list types, and each listed type comes to a key or to a report, whatever becomes of the
others. What makes a type malformed is said of the declarations alone: a type is reported for the
first requirement that it fails.

* `isValueType_iff`: the value types of a return type, in full;
* `InjectorKey.ofType_eq_error_iff`: for which requirement a type is reported;
* `KeyCollection.Collects`: the keys and the reports that a list of types comes to;
* `KeyCollection.collected_and_reported`: they are what a collection finds.
-/

namespace Multibinding

/-- A return type without type arguments is the value type. Otherwise it has a single one: of a
wildcard the value type is the bound, which may be a wildcard again, and every other argument is the
value type itself. -/
theorem isValueType_iff {returnType v : TypeRef} :
    IsValueType returnType v ↔
      returnType.arguments = [] ∧ v = returnType ∨
        ∃ a, returnType.arguments = [a] ∧
          (a = .wildcard ∧ v = .object ∨ a = .subtypeOf v ∨ a.rawClass?.isSome ∧ v = a) := by
  have hbound (a : TypeRef) : v = a.upperBound ↔
      (a = .wildcard ∧ v = .object ∨ a = .subtypeOf v ∨ a.rawClass?.isSome ∧ v = a) := by
    cases a <;> simp [TypeRef.upperBound, TypeRef.rawClass?, eq_comm]
  simp only [← hbound]
  constructor
  · rintro (hnone | hone)
    · exact Or.inl ⟨hnone, rfl⟩
    · exact Or.inr ⟨_, hone, rfl⟩
  · rintro (⟨hnone, rfl⟩ | ⟨a, hone, rfl⟩)
    · exact .plain hnone
    · exact .argument hone

/-- A return type has a value type unless it has several type arguments. -/
theorem exists_isValueType {returnType : TypeRef} (h : ¬1 < returnType.arguments.length) :
    ∃ v, IsValueType returnType v := by
  cases harguments : returnType.arguments with
  | nil => exact ⟨_, .plain harguments⟩
  | cons a rest =>
    obtain rfl : rest = [] := by simpa [harguments] using h
    exact ⟨_, .argument harguments⟩

/-- The first requirement of key types that a type fails: to name a class, which is declared with
the marker of map keys and with exactly one method, whose return type has at most one type
argument. -/
inductive IsMalformed (config : Config) (index : DeclarationIndex) (type : TypeRef) :
    MalformedKey → Prop
  | notAClass (hnone : type.rawClass? = none) : IsMalformed config index type (.notAClass type)
  | missingMapKey {base : ClassName} (hbase : type.rawClass? = some base)
    (hmarker : ¬∃ t ∈ index.types, t.name = base ∧
      isMarkedBy config.markers.mapKey t.annotations) :
    IsMalformed config index type (.missingMapKey base)
  | accessorCount {t : TypeElement} (ht : t ∈ index.types) (hbase : type.rawClass? = some t.name)
    (hmarker : isMarkedBy config.markers.mapKey t.annotations) (hcount : t.methods.length ≠ 1) :
    IsMalformed config index type (.accessorCount t.name t.methods.length)
  | typeArguments {t : TypeElement} {m : MethodElement} (ht : t ∈ index.types)
    (hbase : type.rawClass? = some t.name)
    (hmarker : isMarkedBy config.markers.mapKey t.annotations) (hmethods : t.methods = [m])
    (hmany : 1 < m.returnType.arguments.length) :
    IsMalformed config index type (.typeArguments t.name m.returnType.arguments.length)

namespace InjectorKey

section OfType

variable {config : Config} {index : DeclarationIndex} {type : TypeRef}

theorem valueTypeOf_eq_accessorCount {base : ClassName} {methods : List MethodElement}
    (h : methods.length ≠ 1) :
    valueTypeOf base methods = .error (.accessorCount base methods.length) := by
  match methods with
  | [] => rfl
  | [_] => exact absurd rfl h
  | _ :: _ :: _ => rfl

theorem valueTypeOf_eq_typeArguments {base : ClassName} {m : MethodElement}
    (h : 1 < m.returnType.arguments.length) :
    valueTypeOf base [m] = .error (.typeArguments base m.returnType.arguments.length) := by
  simp only [valueTypeOf]
  split
  next hnone => simp [hnone] at h
  next a hone => simp [hone] at h
  next => rfl

/-- A class that is declared with the marker comes to what its methods tell. -/
theorem ofType_eq_of_mem {t : TypeElement} (ht : t ∈ index.types)
    (hbase : type.rawClass? = some t.name)
    (hmarker : isMarkedBy config.markers.mapKey t.annotations) :
    ofType config index type = (valueTypeOf t.name t.methods).map fun valueType =>
      { valueType, base := t.name, useStringKeys := config.useStringKeys valueType } := by
  rw [ofType_eq_map hbase (DeclarationIndex.isAnnotated_type_iff.mpr ⟨t, ht, rfl, hmarker⟩),
    DeclarationIndex.type?_of_mem ht]
  rfl

/-- A malformed type is reported. -/
theorem ofType_eq_error_of_isMalformed {e : MalformedKey} (h : IsMalformed config index type e) :
    ofType config index type = .error e := by
  cases h with
  | notAClass hnone => exact ofType_eq_notAClass hnone
  | missingMapKey hbase hmarker =>
    apply ofType_eq_missingMapKey hbase
    rw [← Bool.not_eq_true, DeclarationIndex.isAnnotated_type_iff]
    exact hmarker
  | accessorCount ht hbase hmarker hcount =>
    rw [ofType_eq_of_mem ht hbase hmarker, valueTypeOf_eq_accessorCount hcount]
    rfl
  | typeArguments ht hbase hmarker hmethods hmany =>
    rw [ofType_eq_of_mem ht hbase hmarker, hmethods, valueTypeOf_eq_typeArguments hmany]
    rfl

/-- A type has a key or is malformed. -/
theorem exists_isKeyOf_or_isMalformed (config : Config) (index : DeclarationIndex)
    (type : TypeRef) :
    (∃ key, IsKeyOf config index type key) ∨ ∃ e, IsMalformed config index type e := by
  -- The requirements are gone through in their order.
  cases hbase : type.rawClass? with
  | none => exact Or.inr ⟨_, .notAClass hbase⟩
  | some base =>
    by_cases hmarked : ∃ t ∈ index.types, t.name = base ∧
        isMarkedBy config.markers.mapKey t.annotations
    · obtain ⟨t, ht, rfl, hmarker⟩ := hmarked
      by_cases hcount : t.methods.length = 1
      · obtain ⟨m, hmethods⟩ := List.length_eq_one_iff.mp hcount
        by_cases hmany : 1 < m.returnType.arguments.length
        · exact Or.inr ⟨_, .typeArguments ht hbase hmarker hmethods hmany⟩
        · obtain ⟨valueType, hvalue⟩ := exists_isValueType hmany
          exact Or.inl ⟨⟨valueType, t.name, config.useStringKeys valueType⟩, hbase,
            ⟨t, ht, rfl, hmarker, m, hmethods, hvalue⟩, rfl⟩
      · exact Or.inr ⟨_, .accessorCount ht hbase hmarker hcount⟩
    · exact Or.inr ⟨_, .missingMapKey hbase hmarked⟩

/-- A type is reported exactly for the first requirement that it fails. -/
theorem ofType_eq_error_iff {e : MalformedKey} :
    ofType config index type = .error e ↔ IsMalformed config index type e := by
  refine ⟨fun h => ?_, ofType_eq_error_of_isMalformed⟩
  rcases exists_isKeyOf_or_isMalformed config index type with ⟨key, hkey⟩ | ⟨e', he⟩
  · rw [ofType_eq_ok_iff.mpr hkey] at h
    cases h
  · rw [ofType_eq_error_of_isMalformed he] at h
    obtain rfl := Except.error.inj h
    exact he

end OfType

end InjectorKey

namespace KeyCollection

variable {config : Config} {index : DeclarationIndex}

/-- The types that the annotations on declarations list, each with its declaration. -/
def listedBy (config : Config) (index : DeclarationIndex) (elements : List Element) :
    List (Element × TypeRef) :=
  elements.flatMap fun element =>
    (listedOn config (index.annotationsOf element)).map fun type => (element, type)

/-- The keys and the reports that listed types come to, both in the order of the list: the key of
each type that has one, and a report on the declaration of each malformed one. -/
inductive Collects (config : Config) (index : DeclarationIndex) :
    List (Element × TypeRef) → List InjectorKey → List Diagnostic → Prop
  | nil : Collects config index [] [] []
  | key {element : Element} {type : TypeRef} {key : InjectorKey} {rest : List (Element × TypeRef)}
    {keys : List InjectorKey} {reports : List Diagnostic} (hkey : IsKeyOf config index type key)
    (hrest : Collects config index rest keys reports) :
    Collects config index ((element, type) :: rest) (key :: keys) reports
  | report {element : Element} {type : TypeRef} {e : MalformedKey}
    {rest : List (Element × TypeRef)} {keys : List InjectorKey} {reports : List Diagnostic}
    (he : IsMalformed config index type e) (hrest : Collects config index rest keys reports) :
    Collects config index ((element, type) :: rest) keys (.error element e.message :: reports)

/-- Listed types come to keys and reports. -/
theorem exists_collects (config : Config) (index : DeclarationIndex)
    (listed : List (Element × TypeRef)) :
    ∃ keys reports, Collects config index listed keys reports := by
  induction listed with
  | nil => exact ⟨[], [], .nil⟩
  | cons entry rest ih =>
    obtain ⟨keys, reports, hrest⟩ := ih
    rcases InjectorKey.exists_isKeyOf_or_isMalformed config index entry.2 with
      ⟨key, hkey⟩ | ⟨e, he⟩
    · exact ⟨_, _, .key hkey hrest⟩
    · exact ⟨_, _, .report he hrest⟩

/-- What is collected are the listed types, each with what becomes of it. -/
theorem entries_eq_map (elements : List Element) :
    entries config index elements =
      (listedBy config index elements).map fun entry =>
        (entry.1, InjectorKey.ofType config index entry.2) := by
  rw [listedBy, List.map_flatMap, entries]
  refine List.flatMap_congr fun element _ => ?_
  rw [List.map_map]
  rfl

/-- What listed types come to is what is found for them. -/
theorem Collects.eq_filterMap {listed : List (Element × TypeRef)} {keys : List InjectorKey}
    {reports : List Diagnostic} (h : Collects config index listed keys reports) :
    keys = listed.filterMap (fun entry =>
        (InjectorKey.ofType config index entry.2).toOption) ∧
      reports = listed.filterMap fun entry =>
        match InjectorKey.ofType config index entry.2 with
        | .ok _ => none
        | .error e => some (.error entry.1 e.message) := by
  induction h with
  | nil => exact ⟨rfl, rfl⟩
  | key hkey _ ih =>
    have hfound := InjectorKey.ofType_eq_ok_iff.mpr hkey
    simpa [hfound, Except.toOption] using ih
  | report he _ ih =>
    have hfound := InjectorKey.ofType_eq_error_iff.mpr he
    simpa [hfound, Except.toOption] using ih

/-- A collection finds exactly the keys and the reports that the listed types come to, in the order
of the declarations and of their lists. The value type of a key is the return type of the only
method, or its only type argument, a wildcard being replaced once by its bound. -/
theorem collected_and_reported (config : Config) (index : DeclarationIndex)
    (elements : List Element) :
    (∀ found reports, Collects config index (listedBy config index elements) found reports ↔
        found = keys config index elements ∧ reports = diagnostics config index elements) ∧
      ∀ returnType v, IsValueType returnType v ↔
        returnType.arguments = [] ∧ v = returnType ∨
          ∃ a, returnType.arguments = [a] ∧
            (a = .wildcard ∧ v = .object ∨ a = .subtypeOf v ∨
              a.rawClass?.isSome ∧ v = a) := by
  refine ⟨fun found reports => ?_, fun returnType v => isValueType_iff⟩
  -- The listed types come to something, and there is nothing else that they come to.
  have hfound {found : List InjectorKey} {reports : List Diagnostic}
      (h : Collects config index (listedBy config index elements) found reports) :
      found = keys config index elements ∧ reports = diagnostics config index elements := by
    rw [keys, diagnostics, entries_eq_map, List.filterMap_map, List.filterMap_map]
    exact h.eq_filterMap
  refine ⟨hfound, ?_⟩
  rintro ⟨rfl, rfl⟩
  obtain ⟨found, reports, h⟩ := exists_collects config index (listedBy config index elements)
  obtain ⟨rfl, rfl⟩ := hfound h
  exact h

end KeyCollection

end Multibinding
