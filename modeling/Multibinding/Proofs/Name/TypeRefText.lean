import Multibinding.Name.TypeRef
import Multibinding.Proofs.Name.Dotted

/-!
# Telling type references from their texts

The text of a type reference has brackets around type arguments, but nothing behind the bound of a
wildcard. All the same, no two type references have one text: what may stand behind a type is no
part of a name, so that a text is read off from left to right.

* `ClassName.canonical_append_inj`: where a class name ends;
* `TypeRef.formOf_text_append`: the form of a type, from the first characters of its text;
* `TypeRef.text_append_inj`: where a type ends;
* `TypeRef.text_inj`: the type from its text.
-/

namespace Multibinding

namespace ClassName

/-- Whether a class name can be built from its parts, all of which are identifiers. -/
def IsBuilt (c : ClassName) : Prop :=
  ofParts c.package c.topLevel c.nested = .ok c

instance (c : ClassName) : Decidable c.IsBuilt := by
  unfold IsBuilt
  infer_instance

/-- Class names that can be told from their dotted forms can be built from their parts. -/
theorem IsDotted.isBuilt {c : ClassName} (hc : c.IsDotted) : c.IsBuilt := by
  obtain ⟨before, hpackage, hbefore⟩ := hc.package
  have hidentifiers : ∀ part ∈ before, isIdentifier part = true :=
    fun part hpart => (hbefore part hpart).1
  refine ofParts_eq_ok_iff.mpr ⟨?_, rfl⟩
  rw [split_package hpackage hidentifiers]
  exact List.forall_mem_append.mpr ⟨hidentifiers, hc.identifiers⟩

/-- Whether a character may stand in the dotted form of a class name. -/
def isNameChar (c : Char) : Bool :=
  isIdentifierPart c || c == '.'

/-- The dotted form of a class name has no other characters. -/
theorem IsBuilt.isNameChar_of_mem {c : ClassName} (hc : c.IsBuilt) :
    ∀ d ∈ c.canonical.toList, isNameChar d = true := by
  obtain ⟨hidentifiers, -⟩ := ofParts_eq_ok_iff.mp hc
  -- An empty package is joined from no parts, and every other one from those it is cut into.
  obtain ⟨before, hpackage, hbefore⟩ : ∃ before : List String,
      c.package = String.intercalate "." before ∧
        ∀ part ∈ before ++ c.simpleNames, isIdentifier part = true := by
    refine ⟨_, ?_, hidentifiers⟩
    split
    next hempty => exact String.isEmpty_iff.mp hempty
    next => exact (Text.intercalate_split '.' c.package).symm
  intro d hd
  rw [canonical_eq_intercalate hpackage (List.forall_mem_append.mp hbefore).1] at hd
  rw [isNameChar]
  rcases Text.eq_or_mem_of_mem_intercalate '.' hd with rfl | ⟨part, hpart, hmem⟩
  · rw [beq_self_eq_true, Bool.or_true]
  · rw [isIdentifierPart_of_mem (hbefore part hpart) d hmem, Bool.true_or]

/-- The dotted form of a class name is not empty. -/
theorem IsBuilt.canonical_ne_nil {c : ClassName} (hc : c.IsBuilt) : c.canonical.toList ≠ [] := by
  obtain ⟨hidentifiers, -⟩ := ofParts_eq_ok_iff.mp hc
  have htop : c.topLevel ≠ "" :=
    ne_empty_of_isIdentifier (hidentifiers _ (List.mem_append_right _ List.mem_cons_self))
  obtain ⟨t, ht⟩ := Text.exists_intercalate_cons_eq_append "." c.topLevel c.nested
  rw [canonical, simpleNames, ht]
  split <;> simp [htop]

/-- Whether a text does not go on with a name. -/
def EndsName (rest : List Char) : Prop :=
  ∀ c ∈ rest.head?, isNameChar c = false

section Append

variable {c d : ClassName} {rest rest' : List Char}

/-- Behind the characters of a name there is what does not go on with it. -/
theorem IsBuilt.dropWhile_canonical_append (hc : c.IsBuilt) (hrest : EndsName rest) :
    (c.canonical.toList ++ rest).dropWhile isNameChar = rest := by
  rw [List.dropWhile_append_of_pos hc.isNameChar_of_mem]
  cases rest with
  | nil => rfl
  | cons e rest => exact List.dropWhile_cons_of_neg (by simp [hrest e rfl])

/-- A name and what stands behind it can be read off a text. -/
theorem canonical_append_inj (hc : c.IsDotted) (hd : d.IsDotted) (hrest : EndsName rest)
    (hrest' : EndsName rest') (h : c.canonical.toList ++ rest = d.canonical.toList ++ rest') :
    c = d ∧ rest = rest' := by
  have hbehind : rest = rest' := by
    rw [← hc.isBuilt.dropWhile_canonical_append hrest, h,
      hd.isBuilt.dropWhile_canonical_append hrest']
  rw [hbehind] at h
  have hcanonical : c.canonical = d.canonical :=
    String.toList_injective (List.append_cancel_right h)
  -- Both classes are read from one text.
  have hread := hc.parse_canonical
  rw [hcanonical, hd.parse_canonical] at hread
  exact ⟨(Except.ok.inj hread).symm, hbehind⟩

end Append

end ClassName

namespace TypeRef

open ClassName (IsDotted isNameChar EndsName)

mutual

/-- The classes that a type reference names, from left to right. -/
def classes : TypeRef → List ClassName
  | .declared name => [name]
  | .parameterized raw arguments => raw :: classesOf arguments
  | .wildcard => []
  | .subtypeOf bound => bound.classes

/-- The classes that several type references name. -/
def classesOf : List TypeRef → List ClassName
  | [] => []
  | t :: rest => t.classes ++ classesOf rest

end

/-- The text of type arguments with the bracket behind them. -/
def argumentsText (ts : List TypeRef) : List Char :=
  (String.intercalate ", " (texts ts)).toList ++ ['>']

/-- The text of a class with type arguments starts with its name. -/
theorem text_parameterized_append (raw : ClassName) (arguments : List TypeRef)
    (rest : List Char) :
    (parameterized raw arguments).text.toList ++ rest =
      raw.canonical.toList ++ '<' :: (argumentsText arguments ++ rest) := by
  simp [text, argumentsText]

/-- The text of a wildcard with a bound ends with that of the bound. -/
theorem text_subtypeOf_append (bound : TypeRef) (rest : List Char) :
    (subtypeOf bound).text.toList ++ rest =
      "? extends ".toList ++ (bound.text.toList ++ rest) := by
  rw [text, String.toList_append, List.append_assoc]

/-- Behind the first of several type arguments there is the bracket, or a comma and the others. -/
theorem argumentsText_cons (t : TypeRef) (ts : List TypeRef) :
    argumentsText (t :: ts) =
      t.text.toList ++ if ts.isEmpty then ['>'] else ',' :: ' ' :: argumentsText ts := by
  cases ts <;> simp [argumentsText, texts]

/-! ## The form of a type -/

/-- The forms of type references. -/
inductive Form where
  | declared
  | parameterized
  | wildcard
  | subtypeOf

/-- The form of a type reference. -/
def form : TypeRef → Form
  | .declared _ => .declared
  | .parameterized .. => .parameterized
  | .wildcard => .wildcard
  | .subtypeOf _ => .subtypeOf

/-- The form of the type that a text starts with, from what stands behind the first name. -/
def formOf (text : List Char) : Form :=
  match text.dropWhile isNameChar with
  | '<' :: _ => .parameterized
  | '?' :: ' ' :: _ => .subtypeOf
  | '?' :: _ => .wildcard
  | _ => .declared

/-- What may stand behind a type: nothing, the comma in front of another type argument, or the
bracket behind the last one. -/
def Ends (rest : List Char) : Prop :=
  ∀ c ∈ rest.head?, c = ',' ∨ c = '>'

theorem ends_nil : Ends [] := by
  rintro c ⟨⟩

/-- Type arguments end like that. -/
theorem ends_behind (ts : List TypeRef) (rest : List Char) :
    Ends ((if ts.isEmpty then ['>'] else ',' :: ' ' :: argumentsText ts) ++ rest) := by
  rintro c hc
  cases ts with
  | nil => exact .inr (Option.some.inj hc).symm
  | cons t ts => exact .inl (Option.some.inj hc).symm

/-- What stands behind a type does not go on with a name. -/
theorem Ends.endsName {rest : List Char} (h : Ends rest) : EndsName rest := by
  intro c hc
  rcases h c hc with rfl | rfl <;> decide +kernel

/-- Neither does the bracket in front of type arguments. -/
theorem endsName_bracket (rest : List Char) : EndsName ('<' :: rest) := by
  intro c hc
  obtain rfl := Option.some.inj hc
  decide +kernel

/-- The form of a type from its text. -/
theorem formOf_text_append {t : TypeRef} (ht : ∀ c ∈ t.classes, c.IsDotted) {rest : List Char}
    (hrest : Ends rest) : formOf (t.text.toList ++ rest) = t.form := by
  have hmark : isNameChar '?' = false := by decide +kernel
  -- A class name ends where a bracket opens or the type ends, and a wildcard starts with its mark.
  cases t with
  | declared name =>
    have hname := (ht name List.mem_cons_self).isBuilt
    rw [formOf, text, hname.dropWhile_canonical_append hrest.endsName]
    cases rest with
    | nil => rfl
    | cons c rest => rcases hrest c rfl with rfl | rfl <;> rfl
  | parameterized raw arguments =>
    have hraw := (ht raw List.mem_cons_self).isBuilt
    rw [formOf, text_parameterized_append,
      hraw.dropWhile_canonical_append (endsName_bracket _)]
    rfl
  | wildcard =>
    rw [formOf, text]
    cases rest with
    | nil => simp [hmark, form]
    | cons c rest => rcases hrest c rfl with rfl | rfl <;> simp [hmark, form]
  | subtypeOf bound =>
    rw [formOf, text_subtypeOf_append]
    simp [hmark, form]

/-- The text of a type does not start with the bracket behind type arguments. -/
theorem text_append_ne_bracket {t : TypeRef} (ht : ∀ c ∈ t.classes, c.IsDotted)
    (rest rest' : List Char) : t.text.toList ++ rest ≠ '>' :: rest' := by
  have hbracket : isNameChar '>' = false := by decide +kernel
  -- A class starts with the first character of its name, and a wildcard with its mark.
  have hname {c : ClassName} (hc : c.IsDotted) (rest : List Char) :
      c.canonical.toList ++ rest ≠ '>' :: rest' := by
    intro h
    obtain ⟨d, ds, hd⟩ := List.exists_cons_of_ne_nil hc.isBuilt.canonical_ne_nil
    have hchar := hc.isBuilt.isNameChar_of_mem d (hd ▸ List.mem_cons_self)
    rw [hd, List.cons_append] at h
    rw [(List.cons.inj h).1, hbracket] at hchar
    cases hchar
  cases t with
  | declared name => exact hname (ht name List.mem_cons_self) rest
  | parameterized raw arguments =>
    rw [text_parameterized_append]
    exact hname (ht raw List.mem_cons_self) _
  | wildcard => simp [text]
  | subtypeOf bound => simp [text]

/-! ## The type -/

mutual

/-- A type and what stands behind it can be read off a text. -/
theorem text_append_inj : (s t : TypeRef) → (∀ c ∈ s.classes, c.IsDotted) →
    (∀ c ∈ t.classes, c.IsDotted) → {rest rest' : List Char} → Ends rest → Ends rest' →
    s.text.toList ++ rest = t.text.toList ++ rest' → s = t ∧ rest = rest'
  | s, t, hs, ht, rest, rest', hrest, hrest', h => by
    -- The first characters tell the form, so that both types have the same.
    have hform : s.form = t.form := by
      rw [← formOf_text_append hs hrest, h, formOf_text_append ht hrest']
    cases s with
    | declared name =>
      cases t with
      | declared name' =>
        obtain ⟨rfl, hbehind⟩ := ClassName.canonical_append_inj (hs name List.mem_cons_self)
          (ht name' List.mem_cons_self) hrest.endsName hrest'.endsName h
        exact ⟨rfl, hbehind⟩
      | _ => cases hform
    | parameterized raw arguments =>
      cases t with
      | parameterized raw' arguments' =>
        rw [text_parameterized_append, text_parameterized_append] at h
        obtain ⟨hraw, hbracket⟩ := ClassName.canonical_append_inj (hs raw List.mem_cons_self)
          (ht raw' List.mem_cons_self) (endsName_bracket _) (endsName_bracket _) h
        obtain ⟨harguments, hbehind⟩ := argumentsText_append_inj arguments arguments'
          (List.forall_mem_cons.mp hs).2 (List.forall_mem_cons.mp ht).2 (List.cons.inj hbracket).2
        exact ⟨by rw [hraw, harguments], hbehind⟩
      | _ => cases hform
    | wildcard =>
      cases t with
      | wildcard => exact ⟨rfl, List.append_cancel_left h⟩
      | _ => cases hform
    | subtypeOf bound =>
      cases t with
      | subtypeOf bound' =>
        rw [text_subtypeOf_append, text_subtypeOf_append] at h
        obtain ⟨hbound, hbehind⟩ :=
          text_append_inj bound bound' hs ht hrest hrest' (List.append_cancel_left h)
        exact ⟨by rw [hbound], hbehind⟩
      | _ => cases hform

/-- So can type arguments, whose number is told by the commas at their level. -/
theorem argumentsText_append_inj : (ss ts : List TypeRef) → (∀ c ∈ classesOf ss, c.IsDotted) →
    (∀ c ∈ classesOf ts, c.IsDotted) → {rest rest' : List Char} →
    argumentsText ss ++ rest = argumentsText ts ++ rest' → ss = ts ∧ rest = rest'
  | [], [], _, _, rest, rest', h => ⟨rfl, List.append_cancel_left h⟩
  | [], t :: ts, _, ht, rest, rest', h => by
    rw [argumentsText_cons, List.append_assoc] at h
    exact absurd h.symm (text_append_ne_bracket (List.forall_mem_append.mp ht).1 _ _)
  | s :: ss, [], hs, _, rest, rest', h => by
    rw [argumentsText_cons, List.append_assoc] at h
    exact absurd h (text_append_ne_bracket (List.forall_mem_append.mp hs).1 _ _)
  | s :: ss, t :: ts, hs, ht, rest, rest', h => by
    obtain ⟨hs, hss⟩ := List.forall_mem_append.mp hs
    obtain ⟨ht, hts⟩ := List.forall_mem_append.mp ht
    rw [argumentsText_cons, argumentsText_cons, List.append_assoc, List.append_assoc] at h
    obtain ⟨rfl, hbehind⟩ :=
      text_append_inj s t hs ht (ends_behind ss rest) (ends_behind ts rest') h
    -- A comma stands behind the first argument on one side exactly if it does on the other.
    match ss, ts with
    | [], [] => exact ⟨rfl, List.append_cancel_left hbehind⟩
    | [], _ :: _ => cases (List.cons.inj hbehind).1
    | _ :: _, [] => cases (List.cons.inj hbehind).1
    | s' :: ss, t' :: ts =>
      have hcomma : argumentsText (s' :: ss) ++ rest = argumentsText (t' :: ts) ++ rest' := by
        simpa using hbehind
      obtain ⟨hothers, hbehind⟩ := argumentsText_append_inj (s' :: ss) (t' :: ts) hss hts hcomma
      exact ⟨by rw [hothers], hbehind⟩

end

/-- Two type references that name classes that were read have one text only if they are one type
reference. -/
theorem text_inj {s t : TypeRef} (hs : ∀ c ∈ s.classes, ∃ name, ClassName.parse name = .ok c)
    (ht : ∀ c ∈ t.classes, ∃ name, ClassName.parse name = .ok c) : s.text = t.text ↔ s = t := by
  have hdotted {c : ClassName} (h : ∃ name, ClassName.parse name = .ok c) : c.IsDotted := by
    obtain ⟨name, hname⟩ := h
    exact ClassName.isDotted_of_parse hname
  refine ⟨fun h => ?_, congrArg text⟩
  -- Nothing stands behind the types.
  have hlist : s.text.toList ++ [] = t.text.toList ++ [] := by rw [h]
  exact (text_append_inj s t (fun c hc => hdotted (hs c hc)) (fun c hc => hdotted (ht c hc))
    ends_nil ends_nil hlist).1

/-- An argument may belong to the bound of a wildcard or stand behind it: the bracket tells
where. -/
theorem text_ne_sample :
    let item (name : String) : ClassName := ⟨"a", name, []⟩
    let s : TypeRef := .parameterized (item "Map")
      [.subtypeOf (.parameterized (item "List") [.wildcard]), .declared (item "Item")]
    let t : TypeRef := .parameterized (item "Map")
      [.subtypeOf (.parameterized (item "List") [.wildcard, .declared (item "Item")])]
    (∀ c ∈ s.classes, ∃ name, ClassName.parse name = .ok c) ∧
      (∀ c ∈ t.classes, ∃ name, ClassName.parse name = .ok c) ∧ s.text ≠ t.text := by
  intro item s t
  have hread : ∀ c ∈ [item "Map", item "List", item "Item"],
      ∃ name, ClassName.parse name = .ok c := by
    simp only [List.forall_mem_cons]
    exact ⟨⟨"a.Map", by decide +kernel⟩, ⟨"a.List", by decide +kernel⟩,
      ⟨"a.Item", by decide +kernel⟩, by simp⟩
  have hs : ∀ c ∈ s.classes, ∃ name, ClassName.parse name = .ok c := hread
  have ht : ∀ c ∈ t.classes, ∃ name, ClassName.parse name = .ok c := hread
  have hne : s ≠ t := by decide
  exact ⟨hs, ht, fun h => hne ((text_inj hs ht).mp h)⟩

end TypeRef

end Multibinding
