import Multibinding.Declaration.Element

/-!
# The index of declarations

The index holds the declared types of a program in the order in which they were added, each under
its own name. It answers which elements carry an annotation, what is known about an element, and
whether one type can be assigned to another.

Assignability is a search along declared supertypes. It looks at every declared type at most once,
so that it ends also where types are their own supertypes.
-/

namespace Multibinding

/-- The declared types of a program, in the order in which they were added. -/
structure DeclarationIndex where
  /-- The types. -/
  types : List TypeElement
  /-- No two types have one name. -/
  nodup : (types.map (·.name)).Nodup

/-- A type was added under a name that is taken. -/
structure DuplicateType where
  /-- The name. -/
  name : ClassName

/-- The wording of a refused addition. -/
def DuplicateType.message (e : DuplicateType) : String :=
  "声明索引中类型重复: " ++ e.name.canonical

namespace DeclarationIndex

/-- The index without types. -/
def empty : DeclarationIndex := ⟨[], List.nodup_nil⟩

/-- The type of a name. -/
def type? (index : DeclarationIndex) (name : ClassName) : Option TypeElement :=
  index.types.find? (·.name == name)

/-- A name is taken exactly if one of the types has it. -/
theorem type?_isSome_iff (index : DeclarationIndex) (name : ClassName) :
    (index.type? name).isSome ↔ name ∈ index.types.map (·.name) := by
  simp [type?]

/-- A type whose name is not taken can be added to the end. -/
theorem nodup_append (index : DeclarationIndex) (t : TypeElement)
    (h : ¬(index.type? t.name).isSome) : ((index.types ++ [t]).map (·.name)).Nodup := by
  rw [type?_isSome_iff] at h
  rw [List.map_append, List.map_singleton, List.nodup_append]
  refine ⟨index.nodup, by simp, ?_⟩
  intro name hname other hother heq
  rw [List.mem_singleton] at hother
  exact h (hother ▸ heq ▸ hname)

/-- Putting a type in place of those that have its name changes no name. -/
theorem map_name_replace (types : List TypeElement) (t : TypeElement) :
    (types.map fun u => if u.name = t.name then t else u).map (·.name) = types.map (·.name) := by
  rw [List.map_map]
  refine List.map_congr_left fun u _ => ?_
  by_cases h : u.name = t.name <;> simp [h]

/-- Adds a type, unless its name is taken. -/
def add (index : DeclarationIndex) (t : TypeElement) : Except DuplicateType DeclarationIndex :=
  if h : (index.type? t.name).isSome then .error ⟨t.name⟩
  else .ok ⟨index.types ++ [t], index.nodup_append t h⟩

/-- Adds a type, in place of the one that has its name. -/
def put (index : DeclarationIndex) (t : TypeElement) : DeclarationIndex :=
  if h : (index.type? t.name).isSome then
    ⟨index.types.map fun u => if u.name = t.name then t else u,
      map_name_replace index.types t ▸ index.nodup⟩
  else ⟨index.types ++ [t], index.nodup_append t h⟩

/-- The index of a list of types, unless two of them have one name. -/
def ofTypes (types : List TypeElement) : Except DuplicateType DeclarationIndex :=
  types.foldlM add empty

/-- The first method of a name in a type. -/
def method? (index : DeclarationIndex) (owner : ClassName) (name : String) :
    Option MethodElement :=
  (index.type? owner).bind (·.method? name)

/-- The elements that carry an annotation of a type: the types in their order, and each type before
its methods. -/
def elementsAnnotatedWith (index : DeclarationIndex) (marker : ClassName) : List Element :=
  index.types.flatMap fun t =>
    (if isMarkedBy marker t.annotations then [.type t.name] else []) ++
      (t.methods.filter (isMarkedBy marker ·.annotations)).map (.method t.name ·.name)

/-- The annotations on an element. -/
def annotationsOf (index : DeclarationIndex) : Element → List Annotation
  | .type name => ((index.type? name).map (·.annotations)).getD []
  | .method owner name => ((index.method? owner name).map (·.annotations)).getD []

/-- The first annotation of a type on an element. -/
def annotation? (index : DeclarationIndex) (element : Element) (marker : ClassName) :
    Option Annotation :=
  (index.annotationsOf element).find? (·.type == marker)

/-- Whether an element carries an annotation of a type. -/
def isAnnotated (index : DeclarationIndex) (element : Element) (marker : ClassName) : Bool :=
  (index.annotation? element marker).isSome

/-- The annotations on an element whose own type carries an annotation of a type. -/
def metaAnnotated (index : DeclarationIndex) (element : Element) (marker : ClassName) :
    List Annotation :=
  (index.annotationsOf element).filter fun a => index.isAnnotated (.type a.type) marker

/-- The type that an element is declared in. -/
def container? (index : DeclarationIndex) : Element → Option TypeElement
  | .method owner _ => index.type? owner
  | .type name => name.enclosing?.bind index.type?

/-- The classes that a declared class names as its direct supertypes. -/
def directSupertypes (index : DeclarationIndex) (name : ClassName) : List ClassName :=
  match index.type? name with
  | some t => t.supertypes.filterMap TypeRef.rawClass?
  | none => []

/-- How many supertypes are named by types other than those visited. -/
def supertypesBeyond (visited : List ClassName) : List TypeElement → Nat
  | [] => 0
  | t :: rest =>
    (if t.name ∈ visited then 0 else t.supertypes.length) + supertypesBeyond visited rest

/-- One more visited class leaves no more supertypes. -/
theorem supertypesBeyond_cons_le (name : ClassName) (visited : List ClassName)
    (types : List TypeElement) :
    supertypesBeyond (name :: visited) types ≤ supertypesBeyond visited types := by
  induction types with
  | nil => simp [supertypesBeyond]
  | cons t rest ih =>
    simp only [supertypesBeyond, List.mem_cons]
    by_cases hv : t.name ∈ visited <;> by_cases hn : t.name = name <;> simp [hv, hn] <;> omega

/-- Visiting a class takes away at least as many named supertypes as it has. -/
theorem directSupertypes_add_supertypesBeyond_le (index : DeclarationIndex) {name : ClassName}
    {visited : List ClassName} (h : name ∉ visited) :
    (index.directSupertypes name).length + supertypesBeyond (name :: visited) index.types ≤
      supertypesBeyond visited index.types := by
  simp only [directSupertypes, type?]
  generalize index.types = types
  induction types with
  | nil => simp [supertypesBeyond]
  | cons t rest ih =>
    by_cases hn : t.name = name
    · have hrest := supertypesBeyond_cons_le name visited rest
      have hlen : (t.supertypes.filterMap TypeRef.rawClass?).length ≤ t.supertypes.length :=
        List.length_filterMap_le ..
      simp only [supertypesBeyond, List.find?_cons, hn, beq_self_eq_true, List.mem_cons_self,
        if_true, h, if_false]
      omega
    · simp only [supertypesBeyond, List.find?_cons, List.mem_cons, hn,
        beq_eq_false_iff_ne.mpr hn, false_or]
      by_cases hv : t.name ∈ visited <;> simp only [hv, if_true, if_false] <;> omega

/-- Whether a class can be reached from one of the pending ones along declared supertypes. A class
that was visited before is not followed again. -/
def reaches (index : DeclarationIndex) (target : ClassName) (pending visited : List ClassName) :
    Bool :=
  match pending with
  | [] => false
  | current :: rest =>
    if current = target then true
    else if current ∈ visited then index.reaches target rest visited
    -- The supertypes wait behind the pending classes, so that nearer ones are looked at first.
    else index.reaches target (rest ++ index.directSupertypes current) (current :: visited)
termination_by pending.length + supertypesBeyond visited index.types
decreasing_by
  · simp
  · have := index.directSupertypes_add_supertypesBeyond_le (by assumption : current ∉ visited)
    simp only [List.length_append, List.length_cons]
    omega

/-- Whether a value of one type can be assigned to another. Everything can be assigned to the root
of all classes; otherwise the classes of the two bounds count. -/
def isAssignable (index : DeclarationIndex) (subtype supertype : TypeRef) : Bool :=
  match supertype.upperBound.rawClass? with
  | none => false
  | some target =>
    if target = .object then true
    else match subtype.upperBound.rawClass? with
      | none => false
      | some start => index.reaches target [start] []

end DeclarationIndex

end Multibinding
