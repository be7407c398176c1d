import Multibinding.Binding.Contribution
import Multibinding.Proofs.Declaration.Enumeration
import Multibinding.Proofs.Except

/-!
# Key types

What makes an injector key the key of a type that a registry lists, said of the declarations alone,
and which key is the first one that a type can be assigned to.

* `ofType_eq_ok_iff`: `InjectorKey.ofType` finds exactly the key of a type;
* `flatMap_declaredTypes`: the types that registries list are read off their own declarations;
* `firstMatch?_extend`: inserting each key once changes no first match;
* `matchingKey?_eq_some_iff`: the key that a contribution is bound through is the first one;
* `exists_isFirstKey_iff`: when there is one.
-/

namespace Multibinding

/-- The type that a map is keyed by, given the return type of the method of its key type: that type
itself or its only type argument, a wildcard argument being replaced by its bound. -/
inductive IsValueType (returnType : TypeRef) : TypeRef → Prop
  | plain (h : returnType.arguments = []) : IsValueType returnType returnType
  | argument {a : TypeRef} (h : returnType.arguments = [a]) : IsValueType returnType a.upperBound

/-- What makes an injector key the key of a type. -/
structure IsKeyOf (config : Config) (index : DeclarationIndex) (type : TypeRef)
    (key : InjectorKey) : Prop where
  /-- The type names the base class. -/
  base : type.rawClass? = some key.base
  /-- The base class is declared with the marker of map keys and with one method, which tells the
  value type. -/
  accessor : ∃ t ∈ index.types, t.name = key.base ∧
    isMarkedBy config.markers.mapKey t.annotations ∧
    ∃ m, t.methods = [m] ∧ IsValueType m.returnType key.valueType
  /-- The value type decides how the key is written. -/
  style : key.useStringKeys = config.useStringKeys key.valueType

namespace InjectorKey

/-- A value type is found exactly if there is one method that tells it. -/
theorem valueTypeOf_eq_ok_iff {base : ClassName} {methods : List MethodElement}
    {valueType : TypeRef} :
    valueTypeOf base methods = .ok valueType ↔
      ∃ m, methods = [m] ∧ IsValueType m.returnType valueType := by
  -- Only a single method can tell a value type.
  match methods with
  | [] => simp [valueTypeOf]
  | _ :: _ :: _ => simp [valueTypeOf]
  | [m] =>
    simp only [valueTypeOf, List.cons.injEq, and_true, exists_eq_left']
    split
    next hnone =>
      rw [Except.ok.injEq]
      constructor
      · rintro rfl
        exact .plain hnone
      · rintro (_ | hone)
        · rfl
        · simp [hnone] at hone
    next a hone =>
      rw [Except.ok.injEq]
      constructor
      · rintro rfl
        exact .argument hone
      · rintro (hnone | hone')
        · simp [hone] at hnone
        · rw [hone, List.singleton_inj] at hone'
          rw [hone']
    next hmany hmany' =>
      refine iff_of_false (by simp) ?_
      rintro (hnone | hone)
      · exact hmany hnone
      · exact hmany' _ hone

variable {config : Config} {index : DeclarationIndex} {type : TypeRef}

/-- A wildcard is no key type. -/
theorem ofType_eq_notAClass (h : type.rawClass? = none) :
    ofType config index type = .error (.notAClass type) := by
  simp only [ofType, h]
  rfl

/-- A class without the marker of map keys is no key type. -/
theorem ofType_eq_missingMapKey {base : ClassName} (h : type.rawClass? = some base)
    (hmarker : index.isAnnotated (.type base) config.markers.mapKey = false) :
    ofType config index type = .error (.missingMapKey base) := by
  simp only [ofType, h, hmarker]
  rfl

/-- The key of a class with the marker depends on the methods of the class. -/
theorem ofType_eq_map {base : ClassName} (h : type.rawClass? = some base)
    (hmarker : index.isAnnotated (.type base) config.markers.mapKey = true) :
    ofType config index type =
      (valueTypeOf base (((index.type? base).map (·.methods)).getD [])).map fun valueType =>
        { valueType, base, useStringKeys := config.useStringKeys valueType } := by
  simp only [ofType, h, hmarker]
  cases valueTypeOf base (((index.type? base).map (·.methods)).getD []) <;> rfl

/-- The key of a type is found exactly if the type has one. -/
theorem ofType_eq_ok_iff {key : InjectorKey} :
    ofType config index type = .ok key ↔ IsKeyOf config index type key := by
  -- Without a class, or with one that is not marked, there is no key; else the methods decide.
  cases hbase : type.rawClass? with
  | none =>
    rw [ofType_eq_notAClass hbase]
    exact iff_of_false (by simp) fun h => by simpa [hbase] using h.base
  | some base =>
    cases hmarker : index.isAnnotated (.type base) config.markers.mapKey with
    | false =>
      rw [ofType_eq_missingMapKey hbase hmarker]
      refine iff_of_false (by simp) ?_
      rintro ⟨hkey, ⟨t, ht, hname, hmapKey, -⟩, -⟩
      rw [hbase, Option.some.injEq] at hkey
      have hmarked : index.isAnnotated (.type base) config.markers.mapKey = true :=
        DeclarationIndex.isAnnotated_type_iff.mpr ⟨t, ht, hname.trans hkey.symm, hmapKey⟩
      rw [hmarker] at hmarked
      cases hmarked
    | true =>
      obtain ⟨t, ht, rfl, hmapKey⟩ := DeclarationIndex.isAnnotated_type_iff.mp hmarker
      rw [ofType_eq_map hbase hmarker, DeclarationIndex.type?_of_mem ht]
      constructor
      · intro h
        obtain ⟨valueType, hvalue, rfl⟩ := map_eq_ok_iff.mp h
        exact ⟨hbase, ⟨t, ht, rfl, hmapKey, valueTypeOf_eq_ok_iff.mp hvalue⟩, rfl⟩
      · rintro ⟨hkey, ⟨t', ht', hname, -, hvalue⟩, hstyle⟩
        rw [hbase, Option.some.injEq] at hkey
        -- A class has one declaration in an index.
        obtain rfl : t' = t := DeclarationIndex.eq_of_name_eq ht' ht (hname.trans hkey.symm)
        refine map_eq_ok_iff.mpr ⟨key.valueType, valueTypeOf_eq_ok_iff.mpr hvalue, ?_⟩
        rw [hkey, ← hstyle]

instance (config : Config) (index : DeclarationIndex) (type : TypeRef) :
    Decidable (∃ key, IsKeyOf config index type key) :=
  decidable_of_iff ((ofType config index type).toOption.isSome) (by
    simp only [Option.isSome_iff_exists, toOption_eq_some_iff, ofType_eq_ok_iff])

end InjectorKey

namespace KeyCollection

/-- The key types that the annotations on one declaration list. -/
def listedOn (config : Config) (annotations : List Annotation) : List TypeRef :=
  match annotations.find? (·.type == config.markers.injectorKeyRegistry) with
  | some a => a.typeList keysArgument
  | none => []

/-- The key types that an index lists: declaration by declaration, and in the order of each
list. -/
def listed (config : Config) (index : DeclarationIndex) : List TypeRef :=
  index.declarations.flatMap fun d => listedOn config d.2

variable {config : Config} {index : DeclarationIndex}

/-- A declaration without the marker of registries lists nothing. -/
theorem listedOn_eq_nil {annotations : List Annotation}
    (h : isMarkedBy config.markers.injectorKeyRegistry annotations = false) :
    listedOn config annotations = [] := by
  have hnone : annotations.find? (·.type == config.markers.injectorKeyRegistry) = none := by
    simpa [isMarkedBy] using h
  rw [listedOn, hnone]

/-- The types that the registries of an index list are read off the registries themselves. -/
theorem flatMap_declaredTypes (hmethods : index.MethodsDistinct) :
    (registries config index).flatMap (declaredTypes config index) = listed config index := by
  rw [registries, DeclarationIndex.elementsAnnotatedWith_eq, List.flatMap_map, listed,
    ← flatMap_filter_of_eq_nil fun d _ => listedOn_eq_nil]
  -- What is looked up for a declaration is what stands on it.
  refine List.flatMap_congr fun d hd => ?_
  rw [declaredTypes, DeclarationIndex.annotation?,
    DeclarationIndex.annotationsOf_of_mem_declarations hmethods (List.mem_of_mem_filter hd)]
  rfl

/-- The keys that declarations list are those of the types that they list. -/
theorem keys_eq (elements : List Element) :
    keys config index elements =
      (elements.flatMap (declaredTypes config index)).filterMap fun type =>
        (InjectorKey.ofType config index type).toOption := by
  rw [keys, entries, List.filterMap_flatMap, List.filterMap_flatMap]
  refine List.flatMap_congr fun element _ => ?_
  rw [List.filterMap_map]
  rfl

end KeyCollection

namespace KeyRegistry

/-- Inserting a key that is there already changes no first match. -/
theorem firstMatch?_insert (registry : KeyRegistry) (key : InjectorKey) (p : InjectorKey → Bool) :
    (registry.insert key).firstMatch? p = (registry.keys ++ [key]).find? p := by
  rw [insert]
  split
  next h =>
    rw [firstMatch?, List.find?_append]
    cases hfirst : registry.keys.find? p with
    | some found => rfl
    | none =>
      have hkey := List.find?_eq_none.mp hfirst key (by simpa [contains] using h)
      simp [hkey]
  next => rfl

/-- The first match among the keys of a registry and further keys that are inserted is the first
match among all of them. -/
theorem firstMatch?_extend (registry : KeyRegistry) (keys : List InjectorKey)
    (p : InjectorKey → Bool) :
    (registry.extend keys).firstMatch? p = (registry.keys ++ keys).find? p := by
  induction keys generalizing registry with
  | nil => simp [extend, firstMatch?]
  | cons key rest ih =>
    have hstep : registry.extend (key :: rest) = (registry.insert key).extend rest := rfl
    rw [hstep, ih, List.find?_append, ← firstMatch?, firstMatch?_insert, ← List.find?_append,
      List.append_assoc, List.singleton_append]

end KeyRegistry

/-- The first key listed in an index that a type can be assigned to: it is the key of a listed type,
and the keys of the types listed before are not for the type. -/
def IsFirstKey (config : Config) (index : DeclarationIndex) (produced : TypeRef)
    (key : InjectorKey) : Prop :=
  ∃ before type after, KeyCollection.listed config index = before ++ type :: after ∧
    IsKeyOf config index type key ∧ index.isAssignable produced (.declared key.base) ∧
    ∀ earlier ∈ before, ∀ other, IsKeyOf config index earlier other →
      index.isAssignable produced (.declared other.base) = false

section FirstKey

variable {config : Config} {index : DeclarationIndex}

/-- If the registry holds the keys of the index alone, the key of a contribution is looked up among
the keys of the listed types. -/
theorem matchingKey?_eq (hmethods : index.MethodsDistinct) (produced : TypeRef) :
    Contribution.matchingKey? index (KeyCollection.into config index .empty) produced =
      ((KeyCollection.listed config index).filterMap fun type =>
        (InjectorKey.ofType config index type).toOption).find? fun key =>
          index.isAssignable produced (.declared key.base) := by
  rw [Contribution.matchingKey?, KeyCollection.into, KeyRegistry.firstMatch?_extend,
    KeyRegistry.empty, List.nil_append, KeyCollection.keys_eq,
    KeyCollection.flatMap_declaredTypes hmethods]

/-- A contribution is bound through the first key, if the registry holds the keys of the index
alone. -/
theorem matchingKey?_eq_some_iff (hmethods : index.MethodsDistinct) {produced : TypeRef}
    {key : InjectorKey} :
    Contribution.matchingKey? index (KeyCollection.into config index .empty) produced = some key ↔
      IsFirstKey config index produced key := by
  rw [matchingKey?_eq hmethods, List.find?_filterMap, Option.bind_eq_some_iff]
  constructor
  · rintro ⟨type, hfind, hkey⟩
    obtain ⟨hassignable, before, after, hlisted, hbefore⟩ :=
      List.find?_eq_some_iff_append.mp hfind
    rw [hkey, Option.any_some] at hassignable
    rw [toOption_eq_some_iff, InjectorKey.ofType_eq_ok_iff] at hkey
    -- The types listed before were passed over, so a key of theirs is not for the type.
    refine ⟨before, type, after, hlisted, hkey, hassignable, ?_⟩
    intro earlier hearlier other hother
    have hnot := hbefore earlier hearlier
    rw [toOption_eq_some_iff.mpr (InjectorKey.ofType_eq_ok_iff.mpr hother)] at hnot
    simpa using hnot
  · rintro ⟨before, type, after, hlisted, hkey, hassignable, hbefore⟩
    have hkey' := toOption_eq_some_iff.mpr (InjectorKey.ofType_eq_ok_iff.mpr hkey)
    refine ⟨type, List.find?_eq_some_iff_append.mpr ⟨?_, before, after, hlisted, ?_⟩, hkey'⟩
    · rw [hkey', Option.any_some]
      exact hassignable
    · intro earlier hearlier
      cases hother : (InjectorKey.ofType config index earlier).toOption with
      | none => rfl
      | some other =>
        rw [toOption_eq_some_iff, InjectorKey.ofType_eq_ok_iff] at hother
        simpa using hbefore earlier hearlier other hother

/-- There is a first key exactly if any listed key is for the type. -/
theorem exists_isFirstKey_iff (hmethods : index.MethodsDistinct) {produced : TypeRef} :
    (∃ key, IsFirstKey config index produced key) ↔
      ∃ type ∈ KeyCollection.listed config index, ∃ key, IsKeyOf config index type key ∧
        index.isAssignable produced (.declared key.base) := by
  simp only [← matchingKey?_eq_some_iff hmethods, ← Option.isSome_iff_exists]
  rw [matchingKey?_eq hmethods, List.find?_isSome]
  -- Whether there is a first key among those collected is whether there is any.
  constructor
  · rintro ⟨key, hmem, hassignable⟩
    obtain ⟨type, htype, hkey⟩ := List.mem_filterMap.mp hmem
    rw [toOption_eq_some_iff, InjectorKey.ofType_eq_ok_iff] at hkey
    exact ⟨type, htype, key, hkey, hassignable⟩
  · rintro ⟨type, htype, key, hkey, hassignable⟩
    refine ⟨key, List.mem_filterMap.mpr ⟨type, htype, ?_⟩, hassignable⟩
    rw [toOption_eq_some_iff, InjectorKey.ofType_eq_ok_iff]
    exact hkey

end FirstKey

end Multibinding
