import Multibinding.Declaration.Index
import Multibinding.Proofs.Keyed

/-!
# Enumerating and looking up declarations

Elements are enumerated declaration by declaration, and looked up again by name. Where every type
tells its methods apart by name, the look-up of an enumerated element finds the declaration that it
was enumerated for.

* `elementsAnnotatedWith_eq`: the enumeration is a filter of all declarations;
* `annotationsOf_of_mem_declarations`: the annotations that are looked up are those of the
  declaration;
* `isAnnotated_type_iff`: what being annotated means for a type;
* `nodup_elementsAnnotatedWith_iff`: when no declaration is enumerated twice.
-/

namespace Multibinding

/-- Items that yield nothing can be left out. -/
theorem flatMap_filter_of_eq_nil {α β : Type} {p : α → Bool} {f : α → List β} {items : List α}
    (h : ∀ a ∈ items, p a = false → f a = []) : (items.filter p).flatMap f = items.flatMap f := by
  induction items with
  | nil => rfl
  | cons a rest ih =>
    obtain ⟨ha, hrest⟩ := List.forall_mem_cons.mp h
    rw [List.filter_cons, List.flatMap_cons]
    split
    next => rw [List.flatMap_cons, ih hrest]
    next hp => rw [ha (by simpa using hp), ih hrest, List.nil_append]

namespace DeclarationIndex

/-- All declarations with the annotations on them: the types in their order, and each type before
its methods. -/
def declarations (index : DeclarationIndex) : List (Element × List Annotation) :=
  index.types.flatMap fun t =>
    (.type t.name, t.annotations) :: t.methods.map fun m => (.method t.name m.name, m.annotations)

/-- No type has two methods of one name. -/
def MethodsDistinct (index : DeclarationIndex) : Prop :=
  ∀ t ∈ index.types, (t.methods.map (·.name)).Nodup

instance (index : DeclarationIndex) : Decidable index.MethodsDistinct := by
  unfold MethodsDistinct
  infer_instance

variable {index : DeclarationIndex}

/-- The look-up of a name finds the type that has it. -/
theorem type?_eq_some_iff {name : ClassName} {t : TypeElement} :
    index.type? name = some t ↔ t ∈ index.types ∧ t.name = name :=
  find?_key_eq_some_iff index.nodup

/-- A declared type is found under its name. -/
theorem type?_of_mem {t : TypeElement} (ht : t ∈ index.types) : index.type? t.name = some t :=
  type?_eq_some_iff.mpr ⟨ht, rfl⟩

/-- A name belongs to one type. -/
theorem eq_of_name_eq {t u : TypeElement} (ht : t ∈ index.types) (hu : u ∈ index.types)
    (h : t.name = u.name) : t = u :=
  List.inj_on_of_nodup_map index.nodup ht hu h

/-- A declared method is found under its name and that of its type. -/
theorem method?_of_mem (hmethods : index.MethodsDistinct) {t : TypeElement}
    (ht : t ∈ index.types) {m : MethodElement} (hm : m ∈ t.methods) :
    index.method? t.name m.name = some m := by
  rw [method?, type?_of_mem ht]
  exact (find?_key_eq_some_iff (hmethods t ht)).mpr ⟨hm, rfl⟩

/-- The elements that carry an annotation are enumerated as a filter of all declarations. -/
theorem elementsAnnotatedWith_eq (index : DeclarationIndex) (marker : ClassName) :
    index.elementsAnnotatedWith marker =
      (index.declarations.filter (isMarkedBy marker ·.2)).map (·.1) := by
  rw [elementsAnnotatedWith, declarations, List.filter_flatMap, List.map_flatMap]
  refine List.flatMap_congr fun t _ => ?_
  rw [List.filter_cons, List.filter_map]
  split <;> simp [Function.comp_def]

/-- The annotations that are looked up for a declaration are those on it, if the methods that carry
such annotations are found. -/
theorem annotationsOf_of_method? {element : Element} {annotations : List Annotation}
    (h : (element, annotations) ∈ index.declarations)
    (hfound : ∀ t ∈ index.types, ∀ m ∈ t.methods, m.annotations = annotations →
      index.method? t.name m.name = some m) :
    index.annotationsOf element = annotations := by
  obtain ⟨t, ht, h⟩ := List.mem_flatMap.mp h
  rcases List.mem_cons.mp h with h | h
  · obtain ⟨rfl, rfl⟩ := Prod.mk.inj h
    simp [annotationsOf, type?_of_mem ht]
  · obtain ⟨m, hm, h⟩ := List.mem_map.mp h
    obtain ⟨rfl, rfl⟩ := Prod.mk.inj h
    simp [annotationsOf, hfound t ht m hm rfl]

/-- They are so for every declaration, where types tell their methods apart by name. -/
theorem annotationsOf_of_mem_declarations (hmethods : index.MethodsDistinct) {element : Element}
    {annotations : List Annotation} (h : (element, annotations) ∈ index.declarations) :
    index.annotationsOf element = annotations :=
  annotationsOf_of_method? h fun _ ht _ hm _ => method?_of_mem hmethods ht hm

/-- An element is annotated if the annotations on it say so. -/
theorem isAnnotated_eq (index : DeclarationIndex) (element : Element) (marker : ClassName) :
    index.isAnnotated element marker = isMarkedBy marker (index.annotationsOf element) := by
  rw [Bool.eq_iff_iff]
  simp [isAnnotated, annotation?, isMarkedBy]

/-- A class is annotated if it is declared as a type that carries the annotation. -/
theorem isAnnotated_type_iff {name marker : ClassName} :
    index.isAnnotated (.type name) marker ↔
      ∃ t ∈ index.types, t.name = name ∧ isMarkedBy marker t.annotations := by
  rw [isAnnotated_eq]
  constructor
  · intro h
    cases ht : index.type? name with
    | none => simp [annotationsOf, ht, isMarkedBy] at h
    | some t =>
      obtain ⟨hmem, hname⟩ := type?_eq_some_iff.mp ht
      exact ⟨t, hmem, hname, by simpa [annotationsOf, ht] using h⟩
  · rintro ⟨t, hmem, rfl, h⟩
    simpa [annotationsOf, type?_of_mem hmem] using h

/-- A method is enumerated exactly if it is declared with the annotation. -/
theorem method_mem_elementsAnnotatedWith {owner marker : ClassName} {name : String} :
    .method owner name ∈ index.elementsAnnotatedWith marker ↔
      ∃ t ∈ index.types, ∃ m ∈ t.methods, isMarkedBy marker m.annotations ∧
        t.name = owner ∧ m.name = name := by
  rw [elementsAnnotatedWith, List.mem_flatMap]
  refine exists_congr fun t => and_congr_right fun _ => ?_
  rw [List.mem_append, List.mem_map]
  simp only [List.mem_filter, Element.method.injEq]
  constructor
  · rintro (h | ⟨m, ⟨hm, hmarked⟩, hname⟩)
    · split at h <;> simp at h
    · exact ⟨m, hm, hmarked, hname⟩
  · rintro ⟨m, hm, hmarked, hname⟩
    exact Or.inr ⟨m, ⟨hm, hmarked⟩, hname⟩

/-- An element that is enumerated for a type is the type or one of its methods. -/
theorem owner_of_mem {t : TypeElement} {marker : ClassName} {element : Element}
    (h : element ∈ (if isMarkedBy marker t.annotations then [.type t.name] else []) ++
      (t.methods.filter (isMarkedBy marker ·.annotations)).map (Element.method t.name ·.name)) :
    element = .type t.name ∨ ∃ name, element = .method t.name name := by
  rcases List.mem_append.mp h with h | h
  · split at h
    · exact Or.inl (List.mem_singleton.mp h)
    · cases h
  · obtain ⟨m, -, rfl⟩ := List.mem_map.mp h
    exact Or.inr ⟨m.name, rfl⟩

/-- No declaration is enumerated twice exactly if no type has two marked methods of one name. -/
theorem nodup_elementsAnnotatedWith_iff (marker : ClassName) :
    (index.elementsAnnotatedWith marker).Nodup ↔
      ∀ t ∈ index.types,
        ((t.methods.filter (isMarkedBy marker ·.annotations)).map (·.name)).Nodup := by
  rw [elementsAnnotatedWith, List.nodup_flatMap, and_iff_left]
  · refine forall₂_congr fun t _ => ?_
    have hinj : Function.Injective (Element.method t.name) := fun _ _ h =>
      (Element.method.inj h).2
    rw [← List.nodup_map_iff hinj, List.map_map]
    -- The type itself is none of its methods.
    split <;> simp [Function.comp_def]
  · refine List.Pairwise.imp ?_ (List.pairwise_map.mp index.nodup)
    intro t u hne element ht hu
    rcases owner_of_mem ht with rfl | ⟨name, rfl⟩ <;> rcases owner_of_mem hu with h | ⟨name', h⟩
    · exact hne (Element.type.inj h)
    · cases h
    · cases h
    · exact hne (Element.method.inj h).1

/-- Where every type tells its methods apart by name, no declaration is enumerated twice. -/
theorem nodup_elementsAnnotatedWith (hmethods : index.MethodsDistinct) (marker : ClassName) :
    (index.elementsAnnotatedWith marker).Nodup :=
  (nodup_elementsAnnotatedWith_iff marker).mpr fun t ht =>
    (hmethods t ht).sublist (List.filter_sublist.map _)

end DeclarationIndex

end Multibinding
