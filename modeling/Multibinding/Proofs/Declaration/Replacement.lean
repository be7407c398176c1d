import Multibinding.Proofs.Declaration.RoundTrip
import Multibinding.Proofs.Json.Readable
import Multibinding.Proofs.Json.Updates

/-!
# Another value of an annotation argument

In the text of an index stands the value of an annotation argument. Whatever value is written in its
place, an index is loaded from the text, and it differs from the first one in the value of this
argument at most. So no value of an argument, however unusual, keeps an index from being loaded.

The value has to be one that can be read at all: see `Json.Spelling.Readable`.

* `ArgumentPlace`: an argument of an annotation on a type or on a method;
* `ArgumentPlace.updates`: what else is read does not depend on the value of an argument;
* `DeclarationIndex.exists_ofJsonText_replaced`: the index is loaded.
-/

namespace Multibinding

open Json Document

/-- A value that stands for one that has been left out may be updated before or after. -/
theorem getD_map {α : Type} {update : α → α} {usual : α} (h : update usual = usual)
    (value? : Option α) : (value?.map update).getD usual = update (value?.getD usual) := by
  cases value? with
  | none => exact h.symm
  | some a => rfl

section Records

variable {β : Type} {wrap : Node → Node} {old new : Node}

namespace Annotation

theorem lasting_shape : shape.Lasting where
  names := by simp [shape, Reader.Field.of]
  sets field hfield s n t ht := by
    simp only [shape, List.mem_cons, List.not_mem_nil, or_false] at hfield
    rcases hfield with rfl | rfl <;> obtain ⟨a, -, rfl⟩ := map_eq_ok_iff.mp ht <;> rfl
  keeps field hfield other hother s n t ht hset := by
    simp only [shape, List.mem_cons, List.not_mem_nil, or_false] at hfield hother
    rcases hfield with rfl | rfl <;> obtain ⟨a, -, rfl⟩ := map_eq_ok_iff.mp ht <;>
      rcases hother with rfl | rfl <;> first | exact hset | rfl

/-- Of an annotation only the arguments are updated. -/
theorem updates_values {update : β → List (String × AnnotationValue) → _}
    (hnil : ∀ x, update x [] = []) (hstep : (Step.field "values" 1).Around wrap)
    (h : Reader.Updates (Reader.entries AnnotationValue.read) update old new) :
    Reader.Updates read (fun x a => { a with values := update x a.values }) (wrap old)
      (wrap new) := by
  have hfields : Reader.Updates (shape.read (none, none))
      (fun x s => (s.1, s.2.map (update x))) (wrap old) (wrap new) := by
    refine Reader.Updates.field lasting_shape (fun x => ?_) (h.of fun _ _ _ => rfl) rfl hstep _
    refine ⟨fun s => by simp [Reader.Field.of], fun field hfield hne => ?_⟩
    simp only [shape, List.mem_cons, List.not_mem_nil, or_false] at hfield
    rcases hfield with rfl | rfl
    · exact Reader.Field.ignores_of (fun _ => rfl) fun _ _ => rfl
    · exact absurd rfl hne
  refine hfields.bind fun x s => ?_
  obtain ⟨type, values⟩ := s
  cases type with
  | none => rfl
  | some type =>
    show Except.ok { type, values := (values.map (update x)).getD [] : Annotation } = _
    rw [getD_map (hnil x)]
    rfl

end Annotation

namespace MethodElement

theorem lasting_shape : shape.Lasting where
  names := by simp [shape, Reader.Field.of]
  sets field hfield s n t ht := by
    simp only [shape, List.mem_cons, List.not_mem_nil, or_false] at hfield
    rcases hfield with rfl | rfl | rfl <;> obtain ⟨a, -, rfl⟩ := map_eq_ok_iff.mp ht <;> rfl
  keeps field hfield other hother s n t ht hset := by
    simp only [shape, List.mem_cons, List.not_mem_nil, or_false] at hfield hother
    rcases hfield with rfl | rfl | rfl <;> obtain ⟨a, -, rfl⟩ := map_eq_ok_iff.mp ht <;>
      rcases hother with rfl | rfl | rfl <;> first | exact hset | rfl

/-- Of a method only the annotations are updated. -/
theorem updates_annotations {update : β → List Annotation → List Annotation}
    (hnil : ∀ x, update x [] = []) (hstep : (Step.field "annotations" 2).Around wrap)
    (h : Reader.Updates (Reader.array Annotation.read) update old new) :
    Reader.Updates read (fun x m => { m with annotations := update x m.annotations }) (wrap old)
      (wrap new) := by
  have hfields : Reader.Updates (shape.read {})
      (fun x s => { s with annotations := s.annotations.map (update x) }) (wrap old)
      (wrap new) := by
    refine Reader.Updates.field lasting_shape (fun x => ?_) (h.of fun _ _ _ => rfl) rfl hstep _
    refine ⟨fun s => by simp [Reader.Field.of], fun field hfield hne => ?_⟩
    simp only [shape, List.mem_cons, List.not_mem_nil, or_false] at hfield
    rcases hfield with rfl | rfl | rfl
    · exact Reader.Field.ignores_of (fun _ => rfl) fun _ _ => rfl
    · exact Reader.Field.ignores_of (fun _ => rfl) fun _ _ => rfl
    · exact absurd rfl hne
  refine hfields.bind fun x s => ?_
  obtain ⟨name, returnType, annotations⟩ := s
  cases name with
  | none => rfl
  | some name =>
    cases returnType with
    | none => rfl
    | some returnType =>
      exact congrArg (fun annotations => Except.ok (MethodElement.mk name returnType annotations))
        (getD_map (hnil x) annotations)

end MethodElement

namespace TypeElement

theorem lasting_shape : shape.Lasting where
  names := by simp [shape, Reader.Field.of]
  sets field hfield s n t ht := by
    simp only [shape, List.mem_cons, List.not_mem_nil, or_false] at hfield
    rcases hfield with rfl | rfl | rfl | rfl | rfl <;>
      obtain ⟨a, -, rfl⟩ := map_eq_ok_iff.mp ht <;> rfl
  keeps field hfield other hother s n t ht hset := by
    simp only [shape, List.mem_cons, List.not_mem_nil, or_false] at hfield hother
    rcases hfield with rfl | rfl | rfl | rfl | rfl <;>
      obtain ⟨a, -, rfl⟩ := map_eq_ok_iff.mp ht <;>
      rcases hother with rfl | rfl | rfl | rfl | rfl <;> first | exact hset | rfl

/-- Of a type only the annotations are updated. -/
theorem updates_annotations {update : β → List Annotation → List Annotation}
    (hnil : ∀ x, update x [] = []) (hstep : (Step.field "annotations" 2).Around wrap)
    (h : Reader.Updates (Reader.array Annotation.read) update old new) :
    Reader.Updates read (fun x t => { t with annotations := update x t.annotations }) (wrap old)
      (wrap new) := by
  have hfields : Reader.Updates (shape.read {})
      (fun x s => { s with annotations := s.annotations.map (update x) }) (wrap old)
      (wrap new) := by
    refine Reader.Updates.field lasting_shape (fun x => ?_) (h.of fun _ _ _ => rfl) rfl hstep _
    refine ⟨fun s => by simp [Reader.Field.of], fun field hfield hne => ?_⟩
    simp only [shape, List.mem_cons, List.not_mem_nil, or_false] at hfield
    rcases hfield with rfl | rfl | rfl | rfl | rfl <;>
      first | exact absurd rfl hne | exact Reader.Field.ignores_of (fun _ => rfl) fun _ _ => rfl
  refine hfields.bind fun x s => ?_
  obtain ⟨name, kind, annotations, supertypes, methods⟩ := s
  cases name with
  | none => rfl
  | some name =>
    exact congrArg (fun annotations => Except.ok (TypeElement.mk name (kind.getD .plain)
      annotations (supertypes.getD []) (methods.getD []))) (getD_map (hnil x) annotations)

/-- Of a type only the methods are updated. -/
theorem updates_methods {update : β → List MethodElement → List MethodElement}
    (hnil : ∀ x, update x [] = []) (hstep : (Step.field "methods" 4).Around wrap)
    (h : Reader.Updates (Reader.array MethodElement.read) update old new) :
    Reader.Updates read (fun x t => { t with methods := update x t.methods }) (wrap old)
      (wrap new) := by
  have hfields : Reader.Updates (shape.read {})
      (fun x s => { s with methods := s.methods.map (update x) }) (wrap old) (wrap new) := by
    refine Reader.Updates.field lasting_shape (fun x => ?_) (h.of fun _ _ _ => rfl) rfl hstep _
    refine ⟨fun s => by simp [Reader.Field.of], fun field hfield hne => ?_⟩
    simp only [shape, List.mem_cons, List.not_mem_nil, or_false] at hfield
    rcases hfield with rfl | rfl | rfl | rfl | rfl <;>
      first | exact absurd rfl hne | exact Reader.Field.ignores_of (fun _ => rfl) fun _ _ => rfl
  refine hfields.bind fun x s => ?_
  obtain ⟨name, kind, annotations, supertypes, methods⟩ := s
  cases name with
  | none => rfl
  | some name =>
    exact congrArg (fun methods => Except.ok (TypeElement.mk name (kind.getD .plain)
      (annotations.getD []) (supertypes.getD []) methods)) (getD_map (hnil x) methods)

end TypeElement

namespace DeclarationIndex

theorem lasting_shape : shape.Lasting where
  names := by simp [shape]
  sets field hfield s n t ht := by
    simp only [shape, List.mem_singleton] at hfield
    subst hfield
    obtain ⟨a, -, rfl⟩ := map_eq_ok_iff.mp ht
    rfl
  keeps field hfield other hother s n t ht hset := by
    simp only [shape, List.mem_singleton] at hfield hother
    subst hfield hother
    obtain ⟨a, -, rfl⟩ := map_eq_ok_iff.mp ht
    rfl

/-- The types of an index are updated. -/
theorem updates_types {update : β → List TypeElement → List TypeElement}
    (hnil : ∀ x, update x [] = []) (hstep : (Step.field "types" 0).Around wrap)
    (h : Reader.Updates (Reader.array TypeElement.read) update old new) :
    Reader.Updates readTypes update (wrap old) (wrap new) := by
  have hfields : Reader.Updates (shape.read none) (fun x s => s.map (update x)) (wrap old)
      (wrap new) := by
    refine Reader.Updates.field lasting_shape (fun x => ?_) (h.of fun _ _ _ => rfl) rfl hstep _
    refine ⟨fun s => by simp [Reader.Field.of], fun field hfield hne => ?_⟩
    simp only [shape, List.mem_singleton] at hfield
    exact absurd (hfield ▸ rfl) hne
  exact hfields.bind fun x s => congrArg Except.ok (getD_map (hnil x) s)

end DeclarationIndex

end Records

namespace Annotation

/-- The annotation with another value of an argument. -/
def withArgument (a : Annotation) (name : String) (value : AnnotationValue) : Annotation :=
  { a with values := Entries.replace name value a.values }

/-- Whatever value is read there, of several annotations one argument is updated. -/
theorem updates_argument {name : String} {position : Nat} {entry field item : Node → Node}
    (hentry : (Step.entry name).Around entry) (hfield : (Step.field "values" 1).Around field)
    (hitem : (Step.item position).Around item) (old : Node) {new : Node} {value : AnnotationValue}
    (hnew : AnnotationValue.read new = .ok value) :
    Reader.Updates (Reader.array read) (fun x as => as.modify position (·.withArgument name x))
      (item (field (entry old))) (item (field (entry new))) := by
  have hvalues : Reader.Updates (Reader.entries AnnotationValue.read) (Entries.replace name)
      (entry old) (entry new) :=
    Reader.Updates.entry hentry fun _ _ => ⟨value, hnew⟩
  exact Reader.Updates.item hitem (updates_values (fun _ => rfl) hfield hvalues)

end Annotation

/-- An argument of an annotation in a list of types. -/
inductive ArgumentPlace where
  /-- On a type: the positions of the type and of the annotation on it. -/
  | onType (type annotation : Nat) (name : String)
  /-- On a method: the positions of the type, of the method in it and of the annotation on that. -/
  | onMethod (type method annotation : Nat) (name : String)

namespace ArgumentPlace

/-- The types with another value of the argument. -/
def set (value : AnnotationValue) (types : List TypeElement) : ArgumentPlace → List TypeElement
  | .onType type annotation name =>
    types.modify type fun t =>
      { t with annotations := t.annotations.modify annotation (·.withArgument name value) }
  | .onMethod type method annotation name =>
    types.modify type fun t =>
      { t with methods := t.methods.modify method fun m =>
        { m with annotations := m.annotations.modify annotation (·.withArgument name value) } }

/-- The steps to the argument from the root of a document, the last one first. -/
def steps : ArgumentPlace → List Step
  | .onType type annotation name =>
    [.entry name, .field "values" 1, .item annotation, .field "annotations" 2, .item type,
      .field "types" 0]
  | .onMethod type method annotation name =>
    [.entry name, .field "values" 1, .item annotation, .field "annotations" 2, .item method,
      .field "methods" 4, .item type, .field "types" 0]

/-- No type is renamed. -/
theorem map_name_set (place : ArgumentPlace) (value : AnnotationValue)
    (types : List TypeElement) : (place.set value types).map (·.name) = types.map (·.name) := by
  have hmodify (position : Nat) (f : TypeElement → TypeElement) (hf : ∀ t, (f t).name = t.name) :
      (types.modify position f).map (·.name) = types.map (·.name) := by
    refine List.ext_getElem (by simp) fun i hi hi' => ?_
    simp only [List.getElem_map, List.getElem_modify]
    split
    · exact hf _
    · rfl
  cases place with
  | onType type annotation name => exact hmodify type _ fun _ => rfl
  | onMethod type method annotation name => exact hmodify type _ fun _ => rfl

/-- What else is read of the types does not depend on the value of an argument. -/
theorem updates {place : ArgumentPlace} {context : Node → Node}
    (hpath : Step.Path place.steps context) (old : Node) {new : Node} {value : AnnotationValue}
    (hnew : AnnotationValue.read new = .ok value) :
    Reader.Updates DeclarationIndex.readTypes (fun x types => place.set x types) (context old)
      (context new) := by
  have hnil {α β : Type} {position : Nat} {update : β → α → α} (x : β) :
      ([] : List α).modify position (update x) = [] := List.modify_nil ..
  -- What is read is updated from the value outwards, one step after the other.
  cases place with
  | onType type annotation name =>
    obtain _ | ⟨hentry, hpath⟩ := hpath
    obtain _ | ⟨hvalues, hpath⟩ := hpath
    obtain _ | ⟨hitem, hpath⟩ := hpath
    obtain _ | ⟨hannotations, hpath⟩ := hpath
    obtain _ | ⟨htype, hpath⟩ := hpath
    obtain _ | ⟨htypes, _ | _⟩ := hpath
    have hargument := Annotation.updates_argument hentry hvalues hitem old hnew
    have ht := TypeElement.updates_annotations hnil hannotations hargument
    have hall := DeclarationIndex.updates_types hnil htypes (Reader.Updates.item htype ht)
    exact hall
  | onMethod type method annotation name =>
    obtain _ | ⟨hentry, hpath⟩ := hpath
    obtain _ | ⟨hvalues, hpath⟩ := hpath
    obtain _ | ⟨hitem, hpath⟩ := hpath
    obtain _ | ⟨hannotations, hpath⟩ := hpath
    obtain _ | ⟨hmethod, hpath⟩ := hpath
    obtain _ | ⟨hmethods, hpath⟩ := hpath
    obtain _ | ⟨htype, hpath⟩ := hpath
    obtain _ | ⟨htypes, _ | _⟩ := hpath
    have hargument := Annotation.updates_argument hentry hvalues hitem old hnew
    have hm := MethodElement.updates_annotations hnil hannotations hargument
    have ht := TypeElement.updates_methods hnil hmethods (Reader.Updates.item hmethod hm)
    have hall := DeclarationIndex.updates_types hnil htypes (Reader.Updates.item htype ht)
    exact hall

/-- Behind the text the value of the argument is due. -/
def DueBehind (place : ArgumentPlace) (text : List Char) : Prop :=
  ∃ stack, Leads text stack ∧ List.Forall₂ Step.Fits place.steps stack

end ArgumentPlace

namespace DeclarationIndex

/-- Types with different names make an index. -/
theorem exists_ofTypes {types : List TypeElement} (h : (types.map (·.name)).Nodup) :
    ∃ index, ofTypes types = .ok index ∧ index.types = types := by
  have hfold : ∀ (rest : List TypeElement) (start : DeclarationIndex),
      ((start.types ++ rest).map (·.name)).Nodup →
        ∃ index, rest.foldlM add start = .ok index ∧ index.types = start.types ++ rest := by
    -- The induction is on the types that are left, whatever index they are added to.
    intro rest
    induction rest with
    | nil => exact fun start _ => ⟨start, rfl, (List.append_nil _).symm⟩
    | cons t rest ih =>
      intro start hnodup
      have hnew : ¬(start.type? t.name).isSome := by
        rw [type?_isSome_iff]
        rw [List.map_append, List.map_cons] at hnodup
        exact fun hmem => List.disjoint_of_nodup_append hnodup hmem List.mem_cons_self
      rw [List.append_cons] at hnodup ⊢
      obtain ⟨index, hindex, htypes⟩ := ih ⟨start.types ++ [t], start.nodup_append t hnew⟩ hnodup
      refine ⟨index, ?_, htypes⟩
      rw [List.foldlM_cons, add, dif_neg hnew]
      exact hindex
  exact hfold types empty h

/-- The index of a list of types is the one that has these types. -/
theorem ofTypes_eq_ok_iff {types : List TypeElement} {index : DeclarationIndex} :
    ofTypes types = .ok index ↔ index.types = types := by
  constructor
  · exact types_of_ofTypes
  · rintro rfl
    obtain ⟨⟨types, hnodup⟩, hindex, rfl⟩ := exists_ofTypes index.nodup
    exact hindex

/-- An index is loaded from a text exactly if its types are read from the text. -/
theorem ofJsonText_eq_ok_iff {text : String} {index : DeclarationIndex} :
    ofJsonText text = .ok index ↔ readTypes.run text = .ok index.types := by
  rw [ofJsonText]
  cases readTypes.run text with
  | error e => constructor <;> intro h <;> cases h
  | ok types =>
    show (ofTypes types).mapError IndexError.duplicate = .ok index ↔ _
    rw [mapError_eq_ok_iff, ofTypes_eq_ok_iff, Except.ok.injEq, eq_comm]

/-- Whatever readable value is written in place of the value of an argument, an index is loaded, and
no more than this argument has another value. -/
theorem exists_ofJsonText_replaced {place : ArgumentPlace} {before behind : List Char}
    (hbefore : place.DueBehind before) (hbehind : Scanner.EndsNumber behind) {old new : Spelling}
    {index : DeclarationIndex}
    (hload : ofJsonText (String.ofList (before ++ old.text ++ behind)) = .ok index)
    (hnew : new.Readable) (hdepth : place.steps.length + new.node.height ≤ maxDepth) :
    ∃ index' value, ofJsonText (String.ofList (before ++ new.text ++ behind)) = .ok index' ∧
      index'.types = place.set value index.types := by
  obtain ⟨stack, hleads, hfits⟩ := hbefore
  rw [hfits.length_eq] at hdepth
  obtain ⟨context, trailing, hcloses, hparse⟩ := exists_parse_of_leads hleads hbehind
  have hpath := Step.path_of_closes hfits hcloses (by omega)
  obtain ⟨v, hv⟩ := new.exists_value hnew.numbers hnew.strings
  have hread : AnnotationValue.read (new.node.marked stack.length) =
      .ok (AnnotationValue.ofValue v) := by
    rw [Node.marked_eq_self _ _ hdepth, AnnotationValue.read, hv]
    rfl
  rw [ofJsonText_eq_ok_iff, Reader.run, hparse] at hload
  obtain ⟨value, hvalue⟩ := (place.updates hpath _ hread).document hload
  -- The types keep their names, so that no two of them have one name.
  have hnodup : ((place.set value index.types).map (·.name)).Nodup :=
    place.map_name_set value index.types ▸ index.nodup
  refine ⟨⟨place.set value index.types, hnodup⟩, value, ofJsonText_eq_ok_iff.mpr ?_, rfl⟩
  rw [Reader.run, hparse, hvalue]

section Sample

/-- The text of an index up to the value of an argument. -/
def sampleBefore : List Char :=
  ("\x7b\"types\":[\x7b\"name\":\"com.app.A\",\"annotations\":[" ++
    "\x7b\"type\":\"com.app.M\",\"values\":\x7b\"v\":").toList

/-- The text behind it. -/
def sampleBehind : List Char :=
  ['\x7d', '\x7d', ']', '\x7d', ']', '\x7d']

/-- The text with a value. -/
def sampleText (value : Spelling) : String :=
  String.ofList (sampleBefore ++ value.text ++ sampleBehind)

theorem parse_sampleText (value : Spelling) : parse (sampleText value) =
    ofTokens (Scanner.scan .between (sampleBefore ++ value.text ++ sampleBehind)) := by
  rw [sampleText, parse, tokens, String.toList_ofList]

/-- The place of the argument. -/
def samplePlace : ArgumentPlace :=
  .onType 0 0 "v"

theorem dueBehind_sampleBefore : samplePlace.DueBehind sampleBefore :=
  ⟨[.members [] (.text "v"), .members [(.text "type", .string "com.app.M")] (.text "values"),
      .items [], .members [(.text "name", .string "com.app.A")] (.text "annotations"), .items [],
      .members [] (.text "types")],
    ⟨rfl, rfl⟩, .cons rfl (.cons rfl (.cons rfl (.cons rfl (.cons rfl (.cons rfl .nil)))))⟩

/-- Digits given by their characters. -/
def sampleDigits (first : Char) (rest : List Char) : Digits :=
  ⟨digitOf first, rest.map digitOf⟩

/-- The value `1`. -/
def one : Spelling :=
  .number (.scientific (digitOf '1') none none)

/-- The value `{"enum": null,"of":2e5}`, which is almost the constant of an enumeration. -/
def almostConstant : Spelling :=
  .object (.next []
    [.plain 'e' (by decide), .plain 'n' (by decide), .plain 'u' (by decide), .plain 'm' (by decide)]
    [] [.space] .null []
    (.last [] [.plain 'o' (by decide), .plain 'f' (by decide)] [] []
      (.number (.scientific (digitOf '2') none (some ⟨false, none, sampleDigits '5' []⟩))) []))

/-- It can be written in place of a number. -/
theorem exists_ofJsonText_replaced_sample :
    ∃ index, ofJsonText (sampleText one) = .ok index ∧
      ∃ index' value, ofJsonText (sampleText almostConstant) = .ok index' ∧
        index'.types = samplePlace.set value index.types := by
  have hloads : (ofJsonText (sampleText one)).toOption.isSome := by
    rw [ofJsonText, Reader.run, parse_sampleText]
    decide +kernel
  obtain ⟨index, hindex⟩ := Option.isSome_iff_exists.mp hloads
  have hload := toOption_eq_some_iff.mp hindex
  have hbehind : Scanner.EndsNumber sampleBehind := Scanner.endsNumber_cons (by decide) _
  exact ⟨index, hload, exists_ofJsonText_replaced dueBehind_sampleBefore hbehind hload
    ⟨by decide +kernel, by decide +kernel⟩ (by decide +kernel)⟩

/-- The value `"\ud800"`, which is half of a character. -/
def half : Spelling :=
  .string [.numeric ⟨hexDigitOf 13, hexDigitOf 8, hexDigitOf 0, hexDigitOf 0⟩]

/-- The number `1.797693134862315708e308`. It is not beyond the largest floating-point number, but
its digits and its power of ten are rounded before they are multiplied. -/
def almostLargest : NumberSpelling :=
  .scientific (digitOf '1') (some (sampleDigits '7' "97693134862315708".toList))
    (some ⟨false, none, sampleDigits '3' ['0', '8']⟩)

/-- Neither can be written there, although both are well-formed and within the limits. -/
theorem ofJsonText_sampleText_unreadable :
    samplePlace.DueBehind sampleBefore ∧ Scanner.EndsNumber sampleBehind ∧
    (ofJsonText (sampleText one)).toOption.isSome ∧
    half.numbers = [] ∧ samplePlace.steps.length + half.node.height ≤ maxDepth ∧
    (ofJsonText (sampleText half)).toOption.isNone ∧
    almostLargest.text = "1.797693134862315708e308".toList ∧
    1797693134862315708 * 10 ^ 290 ≤ (2 ^ 53 - 1) * 2 ^ 971 ∧
    samplePlace.steps.length + (Spelling.number almostLargest).node.height ≤ maxDepth ∧
    (ofJsonText (sampleText (.number almostLargest))).toOption.isNone := by
  refine ⟨dueBehind_sampleBefore, Scanner.endsNumber_cons (by decide) _, ?_, rfl,
    by decide +kernel, ?_, by decide +kernel, by decide +kernel, by decide +kernel, ?_⟩
  all_goals
    rw [ofJsonText, Reader.run, parse_sampleText]
    decide +kernel

end Sample

end DeclarationIndex

end Multibinding
