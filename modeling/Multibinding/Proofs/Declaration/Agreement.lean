import Multibinding.Proofs.Binding.KeyType

/-!
# Indexes that agree

Keys are collected and contributions are resolved through look-ups in the index. Two indexes agree
on some methods if they say the same about these methods, about the annotations on all types and
about the supertypes of all types. What is resolved for one of these methods is then the same in
both, whatever other methods there are.

* `isAssignable_congr`: assignability depends on nothing but the supertypes;
* `ofMethod_eq_of_reads`, `ofType_eq_of_reads`: what contributions and keys are read off;
* `ofMethod_congr`: the contribution of a method that the indexes agree on;
* `declaredTypes_congr`: the types that a declaration lists;
* `ofType_congr`: the key of a type, which depends on the methods of the type as well.
-/

namespace Multibinding

/-- Types are always among the elements of some methods, and methods are if they are of these. -/
def Element.IsTypeOr (visible : ClassName → String → Prop) : Element → Prop
  | .type _ => True
  | .method owner name => visible owner name

namespace DeclarationIndex

/-- Two indexes agree on some methods: these methods, the annotations on all types and the
supertypes of all types are the same in both. -/
structure AgreeOn (visible : ClassName → String → Prop) (index other : DeclarationIndex) :
    Prop where
  annotations : ∀ name, other.annotationsOf (.type name) = index.annotationsOf (.type name)
  supertypes : ∀ name, other.directSupertypes name = index.directSupertypes name
  methods : ∀ owner name, visible owner name →
    other.method? owner name = index.method? owner name

variable {index other : DeclarationIndex}

/-- What can be reached depends on nothing but the supertypes. -/
theorem reaches_congr
    (h : ∀ name, other.directSupertypes name = index.directSupertypes name)
    (target : ClassName) (pending visited : List ClassName) :
    other.reaches target pending visited = index.reaches target pending visited := by
  induction pending, visited using reaches.induct index target with
  | case1 visited => rw [reaches, reaches]
  | case2 visited rest => rw [reaches, reaches, if_pos rfl, if_pos rfl]
  | case3 visited current rest hne hvisited ih =>
    rw [reaches, reaches, if_neg hne, if_neg hne, if_pos hvisited, if_pos hvisited, ih]
  | case4 visited current rest hne hvisited ih =>
    rw [reaches, reaches, if_neg hne, if_neg hne, if_neg hvisited, if_neg hvisited, h, ih]

/-- Assignability depends on nothing but the supertypes. -/
theorem isAssignable_congr
    (h : ∀ name, other.directSupertypes name = index.directSupertypes name)
    (subtype supertype : TypeRef) :
    other.isAssignable subtype supertype = index.isAssignable subtype supertype := by
  simp only [isAssignable, reaches_congr h]

namespace AgreeOn

variable {visible : ClassName → String → Prop} (h : AgreeOn visible index other)
include h

/-- The annotations on a type or on one of the methods are the same. -/
theorem annotationsOf_congr {element : Element} (he : element.IsTypeOr visible) :
    other.annotationsOf element = index.annotationsOf element := by
  cases element with
  | type name => exact h.annotations name
  | method owner name => rw [annotationsOf, annotationsOf, h.methods owner name he]

/-- So is their first annotation of each type. -/
theorem annotation?_congr (element : Element) (he : element.IsTypeOr visible)
    (marker : ClassName) : other.annotation? element marker = index.annotation? element marker := by
  rw [annotation?, annotation?, h.annotationsOf_congr he]

/-- The same types are annotated. -/
theorem isAnnotated_type_congr (name marker : ClassName) :
    other.isAnnotated (.type name) marker = index.isAnnotated (.type name) marker := by
  rw [isAnnotated, isAnnotated, h.annotation?_congr (.type name) trivial]

/-- The annotations whose own types are annotated are the same. -/
theorem metaAnnotated_congr (element : Element) (he : element.IsTypeOr visible)
    (marker : ClassName) :
    other.metaAnnotated element marker = index.metaAnnotated element marker := by
  simp only [metaAnnotated, h.annotationsOf_congr he, h.isAnnotated_type_congr]

end AgreeOn

/-- A class that is not declared carries no annotation. -/
theorem isAnnotated_type_of_type?_eq_none {name : ClassName} (h : index.type? name = none)
    (marker : ClassName) : index.isAnnotated (.type name) marker = false := by
  simp [isAnnotated, annotation?, annotationsOf, h]

end DeclarationIndex

open DeclarationIndex (AgreeOn)

variable {config : Config} {index other : DeclarationIndex} {visible : ClassName → String → Prop}

namespace Contribution

/-- A method stands in a module exactly if its type is annotated as one. -/
theorem isInModule_method (owner : ClassName) (name : String) :
    isInModule config index (.method owner name) =
      index.isAnnotated (.type owner) config.markers.module := by
  rw [isInModule, DeclarationIndex.container?]
  cases howner : index.type? owner with
  | none => exact (DeclarationIndex.isAnnotated_type_of_type?_eq_none howner _).symm
  | some t =>
    obtain ⟨-, rfl⟩ := DeclarationIndex.type?_eq_some_iff.mp howner
    rfl

/-- What becomes of an element is the same if it is a type, or a method of which the same
contribution is made. -/
theorem ofElement?_eq_of_ofMethod {registry : KeyRegistry} {element : Element}
    (h : ∀ owner name, element = .method owner name →
      ofMethod config other registry owner name = ofMethod config index registry owner name) :
    ofElement? config other registry element = ofElement? config index registry element := by
  cases element with
  | type name => rfl
  | method owner name => rw [ofElement?, ofElement?, h owner name rfl]

/-- The contribution of a method is read off the return type of the method, the supertypes of all
types, whether the method stands in a module, and the further modules and scopes on it. -/
theorem ofMethod_eq_of_reads (registry : KeyRegistry) {owner : ClassName} {name : String}
    (hreturns : (other.method? owner name).map (·.returnType) =
      (index.method? owner name).map (·.returnType))
    (hsupertypes : ∀ type, other.directSupertypes type = index.directSupertypes type)
    (hmodule : isInModule config other (.method owner name) =
      isInModule config index (.method owner name))
    (hmodules : declaredModules config other (.method owner name) =
      declaredModules config index (.method owner name))
    (hscopes : other.metaAnnotated (.method owner name) config.markers.scope =
      index.metaAnnotated (.method owner name) config.markers.scope) :
    ofMethod config other registry owner name = ofMethod config index registry owner name := by
  -- Keys are compared with the return type by assignability, which depends on supertypes only.
  have hkey : ∀ produced, matchingKey? other registry produced =
      matchingKey? index registry produced := by
    intro produced
    simp only [matchingKey?, DeclarationIndex.isAssignable_congr hsupertypes]
  cases hm : index.method? owner name with
  | none =>
    rw [hm, Option.map_none, Option.map_eq_none_iff] at hreturns
    simp only [ofMethod, hm, hreturns]
  | some m =>
    rw [hm, Option.map_some, Option.map_eq_some_iff] at hreturns
    obtain ⟨n, hn, hreturn⟩ := hreturns
    simp only [ofMethod, hm, hn, hreturn, hkey, hmodule, hmodules, hscopes]

/-- The contribution of a method that two indexes agree on is the same over both. -/
theorem ofMethod_congr (h : AgreeOn visible index other) (registry : KeyRegistry)
    {owner : ClassName} {name : String} (hvisible : visible owner name) :
    ofMethod config other registry owner name = ofMethod config index registry owner name := by
  refine ofMethod_eq_of_reads registry ?_ h.supertypes ?_ ?_ ?_
  · rw [h.methods owner name hvisible]
  · rw [isInModule_method, isInModule_method, h.isAnnotated_type_congr]
  · rw [declaredModules, declaredModules, h.annotation?_congr (.method owner name) hvisible]
  · exact h.metaAnnotated_congr (.method owner name) hvisible _

/-- So is what becomes of an element that they agree on. -/
theorem ofElement?_congr (h : AgreeOn visible index other) (registry : KeyRegistry)
    {element : Element} (he : element.IsTypeOr visible) :
    ofElement? config other registry element = ofElement? config index registry element := by
  refine ofElement?_eq_of_ofMethod ?_
  rintro owner name rfl
  exact ofMethod_congr h registry he

end Contribution

/-- The types that a declaration lists are the same if the indexes agree on the declaration. -/
theorem KeyCollection.declaredTypes_congr (h : AgreeOn visible index other) {element : Element}
    (he : element.IsTypeOr visible) :
    declaredTypes config other element = declaredTypes config index element := by
  rw [declaredTypes, declaredTypes, h.annotation?_congr element he]

namespace InjectorKey

/-- The value type of a key is read off the return types of the methods. -/
theorem valueTypeOf_congr (key : ClassName) {methods others : List MethodElement}
    (h : others.map (·.returnType) = methods.map (·.returnType)) :
    valueTypeOf key others = valueTypeOf key methods := by
  have hlength : others.length = methods.length := by simpa using congrArg List.length h
  -- With other than one method, only their number is reported.
  match methods, others with
  | [], others =>
    rw [List.length_eq_zero_iff.mp hlength]
  | [m], others =>
    obtain ⟨n, rfl⟩ := List.length_eq_one_iff.mp hlength
    simp only [valueTypeOf, List.singleton_inj.mp h]
  | _ :: _ :: methods, _ :: _ :: others =>
    simp only [valueTypeOf, hlength]
  | _ :: _ :: methods, [] | _ :: _ :: methods, [n] => simp at hlength

/-- The key of a type is read off whether the type is marked as the type of a map key and, if it is,
off the return types of its methods. -/
theorem ofType_eq_of_reads {type : TypeRef}
    (hmarked : ∀ base, other.isAnnotated (.type base) config.markers.mapKey =
      index.isAnnotated (.type base) config.markers.mapKey)
    (hreturns : ∀ base, type.rawClass? = some base →
      index.isAnnotated (.type base) config.markers.mapKey = true →
        (((other.type? base).map (·.methods)).getD []).map (·.returnType) =
          (((index.type? base).map (·.methods)).getD []).map (·.returnType)) :
    ofType config other type = ofType config index type := by
  -- The methods are looked at only if the class is marked.
  cases hbase : type.rawClass? with
  | none => rw [ofType_eq_notAClass hbase, ofType_eq_notAClass hbase]
  | some base =>
    cases hmarker : index.isAnnotated (.type base) config.markers.mapKey with
    | false =>
      rw [ofType_eq_missingMapKey hbase hmarker,
        ofType_eq_missingMapKey hbase ((hmarked base).trans hmarker)]
    | true =>
      rw [ofType_eq_map hbase hmarker, ofType_eq_map hbase ((hmarked base).trans hmarker),
        valueTypeOf_congr base (hreturns base hbase hmarker)]

/-- The key of a type is the same if the indexes agree on what is annotated, and if the methods of
the type are the same in case it is marked as the type of a map key. -/
theorem ofType_congr (h : AgreeOn visible index other) {type : TypeRef}
    (hmethods : ∀ base, type.rawClass? = some base →
      index.isAnnotated (.type base) config.markers.mapKey = true →
        other.type? base = index.type? base) :
    ofType config other type = ofType config index type := by
  refine ofType_eq_of_reads (fun base => h.isAnnotated_type_congr base _) ?_
  intro base hbase hmarker
  rw [hmethods base hbase hmarker]

end InjectorKey

end Multibinding
