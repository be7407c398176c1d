import Multibinding.Proofs.Declaration.Agreement

/-!
# One more method in a type

A method whose name is new in a type can be inserted at any place among the methods of the type.
Nothing else that is said about the program changes, apart from the number of methods of that type.

* `types_put`: a type that is put in place of one of its name stays in its place;
* `TypeElement.method?_withMethod_of_ne`: methods of other names are found as before;
* `agreeOn_put_withMethod`: the indexes without and with the method agree on all other methods;
* `elementsAnnotatedWith_put_withMethod`: the method is enumerated at its place if it is marked, and
  the other declarations as before.
-/

namespace Multibinding

/-- A type with one more method, inserted behind as many others as the position says. -/
def TypeElement.withMethod (t : TypeElement) (position : Nat) (m : MethodElement) : TypeElement :=
  { t with methods := t.methods.take position ++ m :: t.methods.drop position }

/-- What a type declares: itself and its methods, with the annotations on them. -/
def TypeElement.declarations (t : TypeElement) : List (Element × List Annotation) :=
  (.type t.name, t.annotations) :: t.methods.map fun m => (.method t.name m.name, m.annotations)

section Method

variable {t : TypeElement} {m : MethodElement}

/-- A method of another name is found as before. -/
theorem TypeElement.method?_withMethod_of_ne (position : Nat) {name : String}
    (hne : m.name ≠ name) : (t.withMethod position m).method? name = t.method? name := by
  rw [method?, method?, withMethod, List.find?_append, List.find?_cons_of_neg (by simpa using hne),
    ← List.find?_append, List.take_append_drop]

/-- The method is one more declaration in the type. -/
theorem TypeElement.declarations_withMethod (t : TypeElement) (position : Nat)
    (m : MethodElement) :
    ∃ first last, t.declarations = first ++ last ∧
      (t.withMethod position m).declarations =
        first ++ (.method t.name m.name, m.annotations) :: last := by
  refine ⟨(.type t.name, t.annotations) ::
      (t.methods.take position).map fun n => (.method t.name n.name, n.annotations),
    (t.methods.drop position).map fun n => (.method t.name n.name, n.annotations), ?_, ?_⟩
  · rw [declarations, List.cons_append, ← List.map_append, List.take_append_drop]
  · rw [declarations, withMethod, List.map_append, List.map_cons]
    rfl

end Method

namespace DeclarationIndex

variable {index : DeclarationIndex}

/-- The declarations of an index are those of its types. -/
theorem declarations_eq (index : DeclarationIndex) :
    index.declarations = index.types.flatMap TypeElement.declarations := rfl

/-- A type that is put in place of one of its name stays in its place. -/
theorem types_put {t u : TypeElement} (ht : t ∈ index.types) (hname : u.name = t.name) :
    ∃ before after, index.types = before ++ t :: after ∧
      (index.put u).types = before ++ u :: after := by
  obtain ⟨before, after, hsplit⟩ := List.append_of_mem ht
  refine ⟨before, after, hsplit, ?_⟩
  have hnodup := index.nodup
  rw [hsplit, List.map_append, List.map_cons, List.nodup_append, List.nodup_cons] at hnodup
  obtain ⟨-, ⟨hafter, -⟩, hbefore⟩ := hnodup
  -- No other type has the name, so that all others stay as they are.
  have hother : ∀ v ∈ before ++ after, v.name ≠ u.name := by
    intro v hv heq
    rw [hname] at heq
    rcases List.mem_append.mp hv with hv | hv
    · exact hbefore v.name (List.mem_map_of_mem hv) t.name List.mem_cons_self heq
    · exact hafter (heq ▸ List.mem_map_of_mem hv)
  have hkeep : ∀ types : List TypeElement, (∀ v ∈ types, v.name ≠ u.name) →
      types.map (fun v => if v.name = u.name then u else v) = types := by
    intro types h
    conv_rhs => rw [← List.map_id types]
    exact List.map_congr_left fun v hv => if_neg (h v hv)
  have hsome : (index.type? u.name).isSome = true := by
    rw [hname, type?_of_mem ht, Option.isSome_some]
  rw [put, dif_pos hsome]
  show index.types.map _ = _
  rw [hsplit, List.map_append, List.map_cons, if_pos hname.symm,
    hkeep before fun v hv => hother v (List.mem_append_left _ hv),
    hkeep after fun v hv => hother v (List.mem_append_right _ hv)]

/-- The look-up of a name after a type is put in place of another. -/
theorem type?_put {t u : TypeElement} (ht : t ∈ index.types) (hname : u.name = t.name)
    (name : ClassName) :
    (index.put u).type? name = if name = t.name then some u else index.type? name := by
  obtain ⟨before, after, hsplit, hput⟩ := types_put ht hname
  split
  next h =>
    subst h
    refine type?_eq_some_iff.mpr ⟨?_, hname⟩
    rw [hput]
    exact List.mem_append_right _ List.mem_cons_self
  next h =>
    have hne : ∀ v : TypeElement, v.name = t.name → (v.name == name) = false := by
      intro v hv
      rw [hv]
      exact beq_eq_false_iff_ne.mpr (Ne.symm h)
    rw [type?, type?, hput, hsplit, List.find?_append, List.find?_append, List.find?_cons,
      List.find?_cons, hne u hname, hne t rfl]

section Insertion

variable {t : TypeElement} (ht : t ∈ index.types) (position : Nat) {m : MethodElement}
  (hnew : ∀ n ∈ t.methods, n.name ≠ m.name)
include ht

/-- The type is found with the method, and each other type as before. -/
theorem type?_put_withMethod (name : ClassName) :
    (index.put (t.withMethod position m)).type? name =
      if name = t.name then some (t.withMethod position m) else index.type? name :=
  type?_put (u := t.withMethod position m) ht rfl name

/-- The indexes without and with the method agree on all other methods. -/
theorem agreeOn_put_withMethod :
    AgreeOn (fun owner name => ¬(owner = t.name ∧ name = m.name)) index
      (index.put (t.withMethod position m)) where
  annotations := by
    intro name
    rw [annotationsOf, annotationsOf, type?_put_withMethod ht]
    by_cases h : name = t.name
    · rw [if_pos h, h, type?_of_mem ht]
      rfl
    · rw [if_neg h]
  supertypes := by
    intro name
    rw [directSupertypes, directSupertypes, type?_put_withMethod ht]
    by_cases h : name = t.name
    · rw [if_pos h, h, type?_of_mem ht]
      rfl
    · rw [if_neg h]
  methods := by
    intro owner name hvisible
    rw [method?, method?, type?_put_withMethod ht]
    by_cases h : owner = t.name
    · subst h
      rw [if_pos rfl, type?_of_mem ht, Option.bind_some, Option.bind_some,
        TypeElement.method?_withMethod_of_ne position fun hname => hvisible ⟨rfl, hname.symm⟩]
    · rw [if_neg h]

/-- The method is one more declaration at its place. -/
theorem declarations_put_withMethod :
    ∃ before after, index.declarations = before ++ after ∧
      (index.put (t.withMethod position m)).declarations =
        before ++ (.method t.name m.name, m.annotations) :: after := by
  obtain ⟨before, after, hsplit, hput⟩ := types_put (u := t.withMethod position m) ht rfl
  obtain ⟨first, last, htype, hwith⟩ := t.declarations_withMethod position m
  refine ⟨before.flatMap TypeElement.declarations ++ first,
    last ++ after.flatMap TypeElement.declarations, ?_, ?_⟩
  · rw [declarations_eq, hsplit, List.flatMap_append, List.flatMap_cons, htype]
    simp only [List.append_assoc]
  · rw [declarations_eq, hput, List.flatMap_append, List.flatMap_cons, hwith]
    simp only [List.append_assoc, List.cons_append]

/-- If it is marked, the method is enumerated at its place. The other declarations are enumerated
as before. -/
theorem elementsAnnotatedWith_put_withMethod (marker : ClassName) :
    ∃ before after, index.elementsAnnotatedWith marker = before ++ after ∧
      (index.put (t.withMethod position m)).elementsAnnotatedWith marker =
        before ++ (if isMarkedBy marker m.annotations then [.method t.name m.name] else []) ++
          after := by
  obtain ⟨before, after, hindex, hput⟩ := declarations_put_withMethod ht position (m := m)
  refine ⟨(before.filter (isMarkedBy marker ·.2)).map (·.1),
    (after.filter (isMarkedBy marker ·.2)).map (·.1), ?_, ?_⟩
  · rw [elementsAnnotatedWith_eq, hindex, List.filter_append, List.map_append]
  · rw [elementsAnnotatedWith_eq, hput, List.filter_append, List.filter_cons, List.map_append,
      List.append_assoc]
    split <;> rfl

include hnew in
/-- No declaration of the index without the method is the method. -/
theorem method_notMem_elementsAnnotatedWith (marker : ClassName) :
    .method t.name m.name ∉ index.elementsAnnotatedWith marker := by
  intro h
  obtain ⟨u, hu, n, hn, -, howner, hname⟩ := method_mem_elementsAnnotatedWith.mp h
  obtain rfl := eq_of_name_eq hu ht howner
  exact hnew n hn hname

end Insertion

end DeclarationIndex

end Multibinding
