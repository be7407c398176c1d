import Multibinding.Proofs.Declaration.Argument

/-!
# The index read back from its own text

An index that was loaded is written as JSON text and loaded from it again. Nothing changes, if the
text that it was loaded from is plain: the fields that were left out are written with the values
that they have been given, and records that came as lists are written as objects, but what is read
from them is the same.

* `Annotation.restoring_read`, `MethodElement.restoring_read`, `TypeElement.restoring_read`: each
  declaration is read back;
* `DeclarationIndex.restoring_readTypes`: so is the list of all of them;
* `DeclarationIndex.ofJsonText_toJsonText`: the index is loaded again.
-/

namespace Multibinding

open Json

namespace Annotation

/-- What is known about the fields of an annotation once they are read. -/
structure FieldsRestored (level : Nat)
    (s : Option ClassName × Option (List (String × AnnotationValue))) : Prop where
  type : ∀ type ∈ s.1, type.IsDotted
  values : ∀ values ∈ s.2, Reader.Restores (Reader.entries AnnotationValue.read)
    (Reader.writeEntries AnnotationValue.toJson) (max level 1) values

/-- The fields of an annotation are restored. -/
theorem yields_shape : Reader.Yields Node.PlainWithin (shape.read (none, none))
    (Reader.Below FieldsRestored) := by
  refine Reader.yields_shape Node.inherited_plainWithin ?_ fun level => ⟨by simp, by simp⟩
  intro field hfield
  simp only [shape, List.mem_cons, List.not_mem_nil, or_false] at hfield
  rcases hfield with rfl | rfl
  · refine Reader.yields_field Reader.yields_className ?_
    exact fun level s type hs htype => ⟨by simpa using htype, hs.values⟩
  · refine Reader.yields_field AnnotationValue.restoring_read.entries ?_
    exact fun level s values hs hvalues => ⟨hs.type, by simpa using hvalues⟩

/-- An annotation is restored if its type and its arguments are. -/
theorem restores {level : Nat} {a : Annotation} (htype : a.type.IsDotted)
    (hvalues : Reader.Restores (Reader.entries AnnotationValue.read)
      (Reader.writeEntries AnnotationValue.toJson) level a.values) :
    Reader.Restores read toJson (level + 1) a := by
  have hwrite : a.toJson = .object [("type", .string a.type.canonical),
      ("values", Reader.writeEntries AnnotationValue.toJson a.values)] := rfl
  have hplain := hvalues.plain
  have hheight := hvalues.height
  have hnames : (shape.fields.map (·.name)).Nodup := by simp [shape, Reader.Field.of]
  -- The members are written in the order of the fields, and each is read before the next.
  have hfields : shape.read (none, none) a.toJson.toNode = .ok (some a.type, some a.values) := by
    rw [hwrite]
    apply Reader.Shape.read_toNode
    rw [Reader.Shape.readMembers_cons hnames (.head _) rfl (Reader.className_toNode htype),
      Reader.Shape.readMembers_cons hnames (.tail _ (.head _)) rfl hvalues.reread]
    rfl
  refine ⟨?_, ?_, ?_⟩
  · simp [hwrite, Value.isPlain, Value.isPlainMembers, hplain]
  · simp only [hwrite, Value.height, Value.heightMembers]
    omega
  · rw [read, hfields]
    rfl

/-- Whatever annotation is read from a plain document is read back from its written form. -/
theorem restoring_read : Reader.Restoring read toJson 2 := by
  intro level n hn a ha
  obtain ⟨s, hs, ha⟩ := bind_eq_ok_iff.mp ha
  obtain ⟨below, rfl, hfields⟩ := yields_shape level n hn s hs
  obtain ⟨type, htype, ha⟩ := bind_eq_ok_iff.mp ha
  cases ha
  have htype := hfields.type type (Reader.require_eq_ok htype)
  -- Arguments that were left out are written as an object without members, one level deep.
  have hvalues := Reader.restores_getD (Reader.restores_entries_nil.mono (by omega)) hfields.values
  exact (restores htype hvalues).mono (by omega)

end Annotation

namespace MethodElement

/-- What is known about the fields of a method once they are read. -/
structure FieldsRestored (level : Nat) (s : Partial) : Prop where
  returnType : ∀ type ∈ s.returnType,
    Reader.Restores TypeRef.read TypeRef.toJson (max level 0) type
  annotations : ∀ annotations ∈ s.annotations, Reader.Restores (Reader.array Annotation.read)
    (Reader.writeArray Annotation.toJson) (max level 3) annotations

/-- The fields of a method are restored. -/
theorem yields_shape : Reader.Yields Node.PlainWithin (shape.read {})
    (Reader.Below FieldsRestored) := by
  refine Reader.yields_shape Node.inherited_plainWithin ?_ fun level => ⟨by simp, by simp⟩
  intro field hfield
  simp only [shape, List.mem_cons, List.not_mem_nil, or_false] at hfield
  rcases hfield with rfl | rfl | rfl
  · refine Reader.yields_field Reader.restoring_string ?_
    exact fun level s name hs _ => ⟨hs.returnType, hs.annotations⟩
  · refine Reader.yields_field TypeRef.restoring_read ?_
    exact fun level s type hs htype => ⟨by simpa using htype, hs.annotations⟩
  · refine Reader.yields_field Annotation.restoring_read.array ?_
    exact fun level s annotations hs hannotations => ⟨hs.returnType, by simpa using hannotations⟩

/-- A method is restored if its return type and its annotations are. -/
theorem restores {level : Nat} {m : MethodElement}
    (htype : Reader.Restores TypeRef.read TypeRef.toJson level m.returnType)
    (hannotations : Reader.Restores (Reader.array Annotation.read)
      (Reader.writeArray Annotation.toJson) level m.annotations) :
    Reader.Restores read toJson (level + 1) m := by
  have hwrite : m.toJson = .object [("name", .string m.name), ("return_type", m.returnType.toJson),
      ("annotations", Reader.writeArray Annotation.toJson m.annotations)] := rfl
  have hnames : (shape.fields.map (·.name)).Nodup := by simp [shape, Reader.Field.of]
  have hfields : shape.read {} m.toJson.toNode =
      .ok ⟨some m.name, some m.returnType, some m.annotations⟩ := by
    have hname : Reader.string (Value.string m.name).toNode = .ok m.name := rfl
    rw [hwrite]
    apply Reader.Shape.read_toNode
    rw [Reader.Shape.readMembers_cons hnames (.head _) rfl hname,
      Reader.Shape.readMembers_cons hnames (.tail _ (.head _)) rfl htype.reread,
      Reader.Shape.readMembers_cons hnames (.tail _ (.tail _ (.head _))) rfl hannotations.reread]
    rfl
  refine ⟨?_, ?_, ?_⟩
  · simp [hwrite, Value.isPlain, Value.isPlainMembers, htype.plain, hannotations.plain]
  · have hheight := htype.height
    have hheights := hannotations.height
    simp only [hwrite, Value.height, Value.heightMembers]
    omega
  · rw [read, hfields]
    rfl

/-- Whatever method is read from a plain document is read back from its written form. -/
theorem restoring_read : Reader.Restoring read toJson 4 := by
  intro level n hn m hm
  obtain ⟨s, hs, hm⟩ := bind_eq_ok_iff.mp hm
  obtain ⟨below, rfl, hfields⟩ := yields_shape level n hn s hs
  obtain ⟨name, _, hm⟩ := bind_eq_ok_iff.mp hm
  obtain ⟨type, htype, hm⟩ := bind_eq_ok_iff.mp hm
  cases hm
  have htype := hfields.returnType type (Reader.require_eq_ok htype)
  have hannotations :=
    Reader.restores_getD (Reader.restores_array_nil.mono (by omega)) hfields.annotations
  exact (restores (htype.mono (by omega)) hannotations).mono (by omega)

end MethodElement

namespace TypeElement

/-- What is known about the fields of a type once they are read. -/
structure FieldsRestored (level : Nat) (s : Partial) : Prop where
  name : ∀ name ∈ s.name, name.IsDotted
  annotations : ∀ annotations ∈ s.annotations, Reader.Restores (Reader.array Annotation.read)
    (Reader.writeArray Annotation.toJson) (max level 3) annotations
  supertypes : ∀ supertypes ∈ s.supertypes, Reader.Restores (Reader.array TypeRef.read)
    (Reader.writeArray TypeRef.toJson) (max level 1) supertypes
  methods : ∀ methods ∈ s.methods, Reader.Restores (Reader.array MethodElement.read)
    (Reader.writeArray MethodElement.toJson) (max level 5) methods

/-- The fields of a type are restored. -/
theorem yields_shape : Reader.Yields Node.PlainWithin (shape.read {})
    (Reader.Below FieldsRestored) := by
  refine Reader.yields_shape Node.inherited_plainWithin ?_
    fun level => ⟨by simp, by simp, by simp, by simp⟩
  intro field hfield
  simp only [shape, List.mem_cons, List.not_mem_nil, or_false] at hfield
  rcases hfield with rfl | rfl | rfl | rfl | rfl
  · refine Reader.yields_field Reader.yields_className ?_
    exact fun level s name hs hname => { hs with name := by simpa using hname }
  · refine Reader.yields_field (P := fun _ _ => True) (fun _ _ _ _ _ => trivial) ?_
    exact fun level s kind hs _ => { hs with }
  · refine Reader.yields_field Annotation.restoring_read.array ?_
    exact fun level s annotations hs h => { hs with annotations := by simpa using h }
  · refine Reader.yields_field TypeRef.restoring_read.array ?_
    exact fun level s supertypes hs h => { hs with supertypes := by simpa using h }
  · refine Reader.yields_field MethodElement.restoring_read.array ?_
    exact fun level s methods hs h => { hs with methods := by simpa using h }

/-- A kind is read back from its keyword. -/
theorem kind_toNode (kind : TypeKind) :
    TypeKind.read (Value.string kind.keyword).toNode = .ok kind := by
  cases kind <;> rfl

/-- A type is restored if its name, its annotations, its supertypes and its methods are. -/
theorem restores {level : Nat} {t : TypeElement} (hname : t.name.IsDotted)
    (hannotations : Reader.Restores (Reader.array Annotation.read)
      (Reader.writeArray Annotation.toJson) level t.annotations)
    (hsupertypes : Reader.Restores (Reader.array TypeRef.read)
      (Reader.writeArray TypeRef.toJson) level t.supertypes)
    (hmethods : Reader.Restores (Reader.array MethodElement.read)
      (Reader.writeArray MethodElement.toJson) level t.methods) :
    Reader.Restores read toJson (level + 1) t := by
  have hwrite : t.toJson = .object [("name", .string t.name.canonical),
      ("kind", .string t.kind.keyword),
      ("annotations", Reader.writeArray Annotation.toJson t.annotations),
      ("supertypes", Reader.writeArray TypeRef.toJson t.supertypes),
      ("methods", Reader.writeArray MethodElement.toJson t.methods)] := by
    rw [toJson, TypeRef.toJsonList_eq_map]
    rfl
  have hnames : (shape.fields.map (·.name)).Nodup := by simp [shape, Reader.Field.of]
  have hfields : shape.read {} t.toJson.toNode = .ok ⟨some t.name, some t.kind,
      some t.annotations, some t.supertypes, some t.methods⟩ := by
    rw [hwrite]
    apply Reader.Shape.read_toNode
    rw [Reader.Shape.readMembers_cons hnames (.head _) rfl (Reader.className_toNode hname),
      Reader.Shape.readMembers_cons hnames (.tail _ (.head _)) rfl (kind_toNode t.kind),
      Reader.Shape.readMembers_cons hnames (.tail _ (.tail _ (.head _))) rfl hannotations.reread,
      Reader.Shape.readMembers_cons hnames (.tail _ (.tail _ (.tail _ (.head _)))) rfl
        hsupertypes.reread,
      Reader.Shape.readMembers_cons hnames (.tail _ (.tail _ (.tail _ (.tail _ (.head _))))) rfl
        hmethods.reread]
    rfl
  refine ⟨?_, ?_, ?_⟩
  · simp [hwrite, Value.isPlain, Value.isPlainMembers, hannotations.plain, hsupertypes.plain,
      hmethods.plain]
  · have hannotations := hannotations.height
    have hsupertypes := hsupertypes.height
    have hmethods := hmethods.height
    simp only [hwrite, Value.height, Value.heightMembers]
    omega
  · rw [read, hfields]
    rfl

/-- Whatever type is read from a plain document is read back from its written form. -/
theorem restoring_read : Reader.Restoring read toJson 6 := by
  intro level n hn t ht
  obtain ⟨s, hs, ht⟩ := bind_eq_ok_iff.mp ht
  obtain ⟨below, rfl, hfields⟩ := yields_shape level n hn s hs
  obtain ⟨name, hname, ht⟩ := bind_eq_ok_iff.mp ht
  cases ht
  have hname := hfields.name name (Reader.require_eq_ok hname)
  have hannotations : Reader.Restores _ _ (max below 5) (s.annotations.getD []) :=
    (Reader.restores_getD (Reader.restores_array_nil.mono (by omega)) hfields.annotations).mono
      (by omega)
  have hsupertypes : Reader.Restores _ _ (max below 5) (s.supertypes.getD []) :=
    (Reader.restores_getD (Reader.restores_array_nil.mono (by omega)) hfields.supertypes).mono
      (by omega)
  have hmethods : Reader.Restores _ _ (max below 5) (s.methods.getD []) :=
    Reader.restores_getD (Reader.restores_array_nil.mono (by omega)) hfields.methods
  exact Reader.Restores.mono (restores hname hannotations hsupertypes hmethods) (by omega)

end TypeElement

namespace DeclarationIndex

/-- The form of the types of an index. -/
def writeTypes (types : List TypeElement) : Value :=
  .object [("types", Reader.writeArray TypeElement.toJson types)]

/-- What is known about the list of types once it is read. -/
def TypesRestored (level : Nat) (types : Option (List TypeElement)) : Prop :=
  ∀ ts ∈ types, Reader.Restores (Reader.array TypeElement.read)
    (Reader.writeArray TypeElement.toJson) (max level 7) ts

/-- The list of types is restored. -/
theorem yields_shape : Reader.Yields Node.PlainWithin (shape.read none)
    (Reader.Below TypesRestored) := by
  refine Reader.yields_shape Node.inherited_plainWithin ?_ fun level => by simp [TypesRestored]
  intro field hfield
  simp only [shape, List.mem_singleton] at hfield
  subst hfield
  refine Reader.yields_field TypeElement.restoring_read.array ?_
  exact fun level s types _ htypes => by simpa [TypesRestored] using htypes

/-- The types of an index are restored if each of them is. -/
theorem restores {level : Nat} {types : List TypeElement}
    (htypes : Reader.Restores (Reader.array TypeElement.read)
      (Reader.writeArray TypeElement.toJson) level types) :
    Reader.Restores readTypes writeTypes (level + 1) types := by
  have hnames : (shape.fields.map (·.name)).Nodup := by simp [shape]
  have hfields : shape.read none (writeTypes types).toNode = .ok (some types) := by
    apply Reader.Shape.read_toNode
    rw [Reader.Shape.readMembers_cons hnames (.head _) rfl htypes.reread]
    rfl
  refine ⟨?_, ?_, ?_⟩
  · simp [writeTypes, Value.isPlain, Value.isPlainMembers, htypes.plain]
  · have hheight := htypes.height
    simp only [writeTypes, Value.height, Value.heightMembers]
    omega
  · rw [readTypes, hfields]
    rfl

/-- Whatever types are read from a plain document are read back from their written form. -/
theorem restoring_readTypes : Reader.Restoring readTypes writeTypes 8 := by
  intro level n hn types htypes
  obtain ⟨s, hs, htypes⟩ := bind_eq_ok_iff.mp htypes
  obtain ⟨below, rfl, hfields⟩ := yields_shape level n hn s hs
  cases htypes
  have htypes := Reader.restores_getD (Reader.restores_array_nil.mono (by omega)) hfields
  exact (restores htypes).mono (by omega)

/-- An index of a list of types has these types. -/
theorem types_of_ofTypes {types : List TypeElement} {index : DeclarationIndex}
    (h : ofTypes types = .ok index) : index.types = types := by
  have hfold : ∀ (rest : List TypeElement) (start : DeclarationIndex),
      rest.foldlM add start = .ok index → index.types = start.types ++ rest := by
    intro rest
    induction rest with
    | nil =>
      intro start h
      cases h
      rw [List.append_nil]
    | cons t rest ih =>
      intro start h
      obtain ⟨next, hnext, h⟩ := bind_eq_ok_iff.mp h
      rw [add] at hnext
      split at hnext
      · cases hnext
      · cases hnext
        rw [ih _ h]
        simp
  exact hfold types empty h

/-- An index that was loaded from a plain text is loaded again from its own text: the same types in
the same order, each with the same kind, annotations, supertypes and methods. -/
theorem ofJsonText_toJsonText {text : String} {index : DeclarationIndex}
    (hload : ofJsonText text = .ok index) (hplain : (Document.parse text).root.isPlain) :
    ofJsonText index.toJsonText = .ok index := by
  rw [ofJsonText] at hload
  split at hload
  · cases hload
  rename_i types hread
  have htypes : index.types = types := by
    cases hindex : ofTypes types with
    | error e =>
      rw [hindex] at hload
      cases hload
    | ok index' =>
      rw [hindex] at hload
      cases hload
      exact types_of_ofTypes hindex
  -- The types are those that the reader takes from the root of the document.
  obtain ⟨types', hroot, hrest⟩ := bind_eq_ok_iff.mp hread
  have heq : types' = types := by
    split at hrest <;> cases hrest
    rfl
  subst heq
  have hrestores := restoring_readTypes Document.maxDepth _
    ⟨hplain, Document.height_root_parse text, Nat.le_refl _⟩ types' hroot
  have hparse : Document.parse index.toJsonText = ⟨(writeTypes types').toNode, false⟩ := by
    rw [← htypes] at hrestores ⊢
    exact Value.parse_pretty hrestores.plain hrestores.height
  have hagain : readTypes.run index.toJsonText = .ok types' := by
    rw [Reader.run, hparse, Reader.document, hrestores.reread]
    rfl
  rw [ofJsonText, hagain]
  exact hload

/-- An index with records that are lists, fields that are left out, and arguments that look like
those of other kinds. -/
def mixedJson : Value :=
  let injectable := .array [.string "com.app.Injectable", .string "interface"]
  let widget := .object [("class", .string "com.app.Widget")]
  let marker := .object [("type", .string "com.app.Marker"), ("values", .object [
    ("types", .array []),
    ("mixed", .array [widget, .number (.int (-3))]),
    ("constant", .object [("of", .null), ("enum", .string "A")]),
    ("other", .object [("enum", .bool true), ("class", .string "com.app.Widget")])])]
  let map := .object [("parameterized", .array [.string "java.util.Map",
    .array [.object [("wildcard", .array [])]]])]
  .object [("types", .array [injectable, .object [("name", .string " .Widget "),
    ("note", .number (.int 7)), ("annotations", .array [marker]), ("supertypes", .array [map])]])]

/-- The types that it has. What a record leaves out is a class or an empty list, an empty list of
arguments is one of class literals, and an object with two keys is a literal of no other kind. -/
def mixedTypes : List TypeElement :=
  let widget : TypeRef := .declared ⟨"com.app", "Widget", []⟩
  let marker : Annotation :=
    { type := ⟨"com.app", "Marker", []⟩
      values := [
        ("constant", .enum "A"),
        ("mixed", .list [.type widget, .int (-3)]),
        ("other", .other (.object [("class", .string "com.app.Widget"), ("enum", .bool true)])),
        ("types", .typeList [])] }
  [ { name := ⟨"com.app", "Injectable", []⟩
      kind := .interface
      annotations := []
      supertypes := []
      methods := [] },
    { name := ⟨"", "Widget", []⟩
      kind := .plain
      annotations := [marker]
      supertypes := [.parameterized ⟨"java.util", "Map", []⟩ [.wildcard]]
      methods := [] } ]

/-- It is loaded with these types, and it is loaded again from the text that is written for it. -/
theorem ofJsonText_toJsonText_mixed :
    ∃ index, ofJsonText mixedJson.pretty = .ok index ∧
      index.types = mixedTypes ∧
      (Document.parse mixedJson.pretty).root.isPlain ∧
      ofJsonText index.toJsonText = .ok index := by
  have hparse : Document.parse mixedJson.pretty = ⟨mixedJson.toNode, false⟩ :=
    Value.parse_pretty (by decide +kernel) (by decide +kernel)
  have hplain : (Document.parse mixedJson.pretty).root.isPlain := by
    rw [hparse]
    decide +kernel
  have hloads : (ofJsonText mixedJson.pretty).toOption.map (·.types) = some mixedTypes := by
    rw [ofJsonText, Reader.run, hparse]
    rfl
  obtain ⟨index, hindex, htypes⟩ := Option.map_eq_some_iff.mp hloads
  have hload := toOption_eq_some_iff.mp hindex
  exact ⟨index, hload, htypes, hplain, ofJsonText_toJsonText hload hplain⟩

end DeclarationIndex

end Multibinding
