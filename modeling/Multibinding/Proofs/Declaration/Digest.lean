import Mathlib.Data.List.Basic
import Multibinding.Declaration.Annotation

/-!
# Digests of equal annotations

Annotations are compared as values, where zero equals minus zero, and are identified in hashed
collections by their digests. The digest of a literal that is kept as it is holds its text, which
shows the sign of a zero. So the digests of equal annotations are equal exactly if their zeros have
the same signs.

* `eqv_iff_unsigned_eq`: values are equal if they are the same but for the signs of zeros;
* `TellsSigns`: written forms that differ in nothing but signs;
* `Json.Value.tellsSigns_compactText`: the texts of equal literals are such forms;
* `AnnotationValue.digest_eq_iff`, `Annotation.digest_eq_iff`: so are the digests of equal arguments
  and annotations.
-/

namespace Multibinding

/-! ## Values without signs of zeros -/

namespace Json

/-- The number without the sign of a zero. -/
def Number.unsigned : Number → Number
  | .int value => .int value
  | .float x => .float (if x.significand = 0 then .zero false else x)

/-- Two numbers are equal exactly if they are the same but for the signs of zeros. -/
theorem Number.eqv_iff_unsigned_eq {a b : Number} : a.eqv b = true ↔ a.unsigned = b.unsigned := by
  cases a with
  | int a =>
    cases b with
    | int b => simp [eqv, unsigned]
    | float y => simp [eqv, unsigned]
  | float x =>
    cases b with
    | int b => simp [eqv, unsigned]
    | float y =>
      -- A zero is equal to nothing but zeros, whatever their signs.
      by_cases hx : x.significand = 0 <;> by_cases hy : y.significand = 0
      · simp [eqv, unsigned, Binary64.eqv, hx, hy]
      · have hne : x ≠ y := fun h => hy (h ▸ hx)
        have hzero : Binary64.zero false ≠ y := fun h => hy (h ▸ rfl)
        simp [eqv, unsigned, Binary64.eqv, hx, hy, hne, hzero]
      · have hne : x ≠ y := fun h => hx (h ▸ hy)
        have hzero : x ≠ Binary64.zero false := fun h => hx (h ▸ rfl)
        simp [eqv, unsigned, Binary64.eqv, hx, hy, hne, hzero]
      · simp [eqv, unsigned, Binary64.eqv, hx, hy]

namespace Value

mutual

/-- The value without the signs of zeros. -/
def unsigned : Value → Value
  | .null => .null
  | .bool value => .bool value
  | .number value => .number value.unsigned
  | .string value => .string value
  | .array items => .array (unsignedItems items)
  | .object members => .object (unsignedMembers members)

/-- The items without the signs of zeros. -/
def unsignedItems : List Value → List Value
  | [] => []
  | v :: rest => v.unsigned :: unsignedItems rest

/-- The members without the signs of zeros. -/
def unsignedMembers : List (String × Value) → List (String × Value)
  | [] => []
  | (key, v) :: rest => (key, v.unsigned) :: unsignedMembers rest

end

mutual

/-- Two values are equal exactly if they are the same but for the signs of zeros. -/
theorem eqv_iff_unsigned_eq : ∀ {v w : Value}, v.eqv w = true ↔ v.unsigned = w.unsigned
  | .null, w => by cases w <;> simp [eqv, unsigned]
  | .bool a, w => by cases w <;> simp [eqv, unsigned]
  | .number a, w => by cases w <;> simp [eqv, unsigned, Number.eqv_iff_unsigned_eq]
  | .string a, w => by cases w <;> simp [eqv, unsigned]
  | .array a, w => by
    cases w with
    | array b => simp [eqv, unsigned, eqvItems_iff_unsigned_eq (v := a) (w := b)]
    | _ => simp [eqv, unsigned]
  | .object a, w => by
    cases w with
    | object b => simp [eqv, unsigned, eqvMembers_iff_unsigned_eq (v := a) (w := b)]
    | _ => simp [eqv, unsigned]

/-- So are two lists of items. -/
theorem eqvItems_iff_unsigned_eq :
    ∀ {v w : List Value}, eqvItems v w = true ↔ unsignedItems v = unsignedItems w
  | [], w => by cases w <;> simp [eqvItems, unsignedItems]
  | a :: v, w => by
    cases w with
    | nil => simp [eqvItems, unsignedItems]
    | cons b w =>
      simp [eqvItems, unsignedItems, eqv_iff_unsigned_eq (v := a) (w := b),
        eqvItems_iff_unsigned_eq (v := v) (w := w)]

/-- So are two lists of members. -/
theorem eqvMembers_iff_unsigned_eq :
    ∀ {v w : List (String × Value)}, eqvMembers v w = true ↔ unsignedMembers v = unsignedMembers w
  | [], w => by cases w <;> simp [eqvMembers, unsignedMembers]
  | (k, a) :: v, w => by
    cases w with
    | nil => simp [eqvMembers, unsignedMembers]
    | cons entry w =>
      obtain ⟨l, b⟩ := entry
      simp [eqvMembers, unsignedMembers, eqv_iff_unsigned_eq (v := a) (w := b),
        eqvMembers_iff_unsigned_eq (v := v) (w := w)]

end

end Value

end Json

namespace AnnotationValue

mutual

/-- The argument value without the signs of zeros. -/
def unsigned : AnnotationValue → AnnotationValue
  | .other value => .other value.unsigned
  | .list values => .list (unsignedList values)
  | .bool value => .bool value
  | .int value => .int value
  | .string value => .string value
  | .type value => .type value
  | .typeList values => .typeList values
  | .enum constant => .enum constant

/-- The argument values without the signs of zeros. -/
def unsignedList : List AnnotationValue → List AnnotationValue
  | [] => []
  | v :: rest => v.unsigned :: unsignedList rest

end

mutual

/-- Two argument values are equal exactly if they are the same but for the signs of zeros. -/
theorem eqv_iff_unsigned_eq : ∀ {v w : AnnotationValue}, v.eqv w = true ↔ v.unsigned = w.unsigned
  | .other a, w => by cases w <;> simp [eqv, unsigned, Json.Value.eqv_iff_unsigned_eq]
  | .list a, w => by
    cases w with
    | list b => simp [eqv, unsigned, eqvList_iff_unsigned_eq (v := a) (w := b)]
    | _ => simp [eqv, unsigned]
  | .bool a, w | .int a, w | .string a, w | .type a, w | .typeList a, w | .enum a, w => by
    cases w <;> simp [eqv, unsigned]

/-- So are two lists of argument values. -/
theorem eqvList_iff_unsigned_eq :
    ∀ {v w : List AnnotationValue}, eqvList v w = true ↔ unsignedList v = unsignedList w
  | [], w => by cases w <;> simp [eqvList, unsignedList]
  | a :: v, w => by
    cases w with
    | nil => simp [eqvList, unsignedList]
    | cons b w =>
      simp [eqvList, unsignedList, eqv_iff_unsigned_eq (v := a) (w := b),
        eqvList_iff_unsigned_eq (v := v) (w := w)]

end

end AnnotationValue

namespace Annotation

/-- The annotation without the signs of zeros. -/
def unsigned (a : Annotation) : Annotation :=
  { a with values := a.values.map fun (name, value) => (name, value.unsigned) }

/-- Two lists of arguments are equal exactly if they are the same but for the signs of zeros. -/
theorem eqvValues_iff {v w : List (String × AnnotationValue)} :
    eqvValues v w = true ↔
      (v.map fun (name, value) => (name, value.unsigned)) =
        w.map fun (name, value) => (name, value.unsigned) := by
  induction v generalizing w with
  | nil => cases w <;> simp [eqvValues]
  | cons a v ih =>
    cases w with
    | nil => simp [eqvValues]
    | cons b w => simp [eqvValues, AnnotationValue.eqv_iff_unsigned_eq, ih]

/-- So are two annotations. -/
theorem eqv_iff_unsigned_eq {a b : Annotation} : a.eqv b = true ↔ a.unsigned = b.unsigned := by
  rw [eqv, Bool.and_eq_true, beq_iff_eq, eqvValues_iff, unsigned, unsigned, mk.injEq]

end Annotation

/-! ## Forms that differ in signs -/

/-- Two written forms differ in nothing but some signs: each form has as many of them as the other
one, and the forms can be told apart, whatever follows them, exactly if the signs are different. -/
structure TellsSigns {α : Type} (x y : List α) (signs signs' : List Bool) : Prop where
  length_eq : signs.length = signs'.length
  append_eq_iff : ∀ r r' : List α, x ++ r = y ++ r' ↔ signs = signs' ∧ r = r'

namespace TellsSigns

variable {α : Type} {x y x' y' : List α} {s t s' t' : List Bool}

/-- A form differs in no sign from itself. -/
theorem refl (x : List α) (s : List Bool) : TellsSigns x x s s where
  length_eq := rfl
  append_eq_iff r r' := by simp

/-- Forms that are put together have the signs of both. -/
theorem append (h : TellsSigns x y s t) (h' : TellsSigns x' y' s' t') :
    TellsSigns (x ++ x') (y ++ y') (s ++ s') (t ++ t') where
  length_eq := by rw [List.length_append, List.length_append, h.length_eq, h'.length_eq]
  append_eq_iff r r' := by
    have hsigns : s ++ s' = t ++ t' ↔ s = t ∧ s' = t' :=
      ⟨fun heq => List.append_inj heq h.length_eq, fun heq => by rw [heq.1, heq.2]⟩
    rw [List.append_assoc, List.append_assoc, h.append_eq_iff, h'.append_eq_iff, hsigns, and_assoc]

/-- What stands around two forms brings in no sign. -/
theorem between (h : TellsSigns x y s t) (before after : List α) :
    TellsSigns (before ++ x ++ after) (before ++ y ++ after) s t := by
  simpa using ((refl before []).append h).append (refl after [])

/-- With nothing behind them, the forms are equal exactly if the signs are. -/
theorem eq_iff (h : TellsSigns x y s t) : x = y ↔ s = t := by
  simpa using h.append_eq_iff [] []

end TellsSigns

namespace Json

/-- The sign of the number if it is a zero in floating-point form. -/
def Number.zeroSigns : Number → List Bool
  | .int _ => []
  | .float x => if x.significand = 0 then [x.negative] else []

/-- The text of a floating-point zero shows nothing but its sign. -/
theorem Number.toList_text_zero {x : Binary64} (h : x.significand = 0) :
    (Number.float x).text.toList = (if x.negative then ['-'] else []) ++ ['0', '.', '0'] := by
  rw [text, Binary64.textWith, if_pos h, String.toList_ofList]
  cases x.negative <;> rfl

/-- The texts of equal numbers differ in the sign of a zero. -/
theorem Number.tellsSigns_text {a b : Number} (h : a.eqv b = true) :
    TellsSigns a.text.toList b.text.toList a.zeroSigns b.zeroSigns := by
  have hsame : a = b → TellsSigns a.text.toList b.text.toList a.zeroSigns b.zeroSigns := by
    rintro rfl
    exact .refl _ _
  cases a with
  | int a =>
    cases b with
    | int b => exact hsame (by simpa [eqv] using h)
    | float y => cases h
  | float x =>
    cases b with
    | int b => cases h
    | float y =>
      by_cases heq : x = y
      · exact hsame (congrArg Number.float heq)
      -- Two different numbers are equal as numbers only if both are zero.
      · obtain ⟨hx, hy⟩ : x.significand = 0 ∧ y.significand = 0 := by
          simpa [eqv, Binary64.eqv, heq] using h
        rw [Number.toList_text_zero hx, Number.toList_text_zero hy, zeroSigns, zeroSigns, if_pos hx,
          if_pos hy]
        exact ⟨rfl, fun r r' => by cases x.negative <;> cases y.negative <;> simp⟩

namespace Value

mutual

/-- The signs of the zeros in a value, in reading order. -/
def zeroSigns : Value → List Bool
  | .number value => value.zeroSigns
  | .array items => zeroSignsItems items
  | .object members => zeroSignsMembers members
  | .null | .bool _ | .string _ => []

/-- The signs of the zeros in items. -/
def zeroSignsItems : List Value → List Bool
  | [] => []
  | v :: rest => v.zeroSigns ++ zeroSignsItems rest

/-- The signs of the zeros in members. -/
def zeroSignsMembers : List (String × Value) → List Bool
  | [] => []
  | (_, v) :: rest => v.zeroSigns ++ zeroSignsMembers rest

end

/-- A comma stands in front of further items or members, if there are any. -/
def behindComma {α : Type} (text : List α → List Char) (rest : List α) : List Char :=
  if rest.isEmpty then [] else ',' :: text rest

theorem compactItems_cons (v : Value) (rest : List Value) :
    compactItems (v :: rest) = v.compactText ++ behindComma compactItems rest := by
  cases rest <;> simp [compactItems, behindComma]

theorem compactMembers_cons (key : String) (v : Value) (rest : List (String × Value)) :
    compactMembers ((key, v) :: rest) =
      stringText key ++ [':'] ++ v.compactText ++ behindComma compactMembers rest := by
  cases rest <;> simp [compactMembers, behindComma]

/-- A comma brings in no sign. -/
theorem tellsSigns_behindComma {α : Type} {text : List α → List Char} {v w : List α}
    {s t : List Bool} (hempty : v.isEmpty = w.isEmpty) (h : TellsSigns (text v) (text w) s t)
    (hnil : text [] = []) :
    TellsSigns (behindComma text v) (behindComma text w) s t := by
  cases v with
  | nil =>
    cases w with
    | nil => simpa [behindComma, hnil] using h
    | cons b w => cases hempty
  | cons a v =>
    cases w with
    | nil => cases hempty
    | cons b w => simpa [behindComma] using h.between [','] []

mutual

/-- The texts of equal values differ in the signs of zeros. -/
theorem tellsSigns_compactText : ∀ {v w : Value}, v.eqv w = true →
    TellsSigns v.compactText w.compactText v.zeroSigns w.zeroSigns
  -- Equal values are of one kind, and only numbers can be equal and have two texts.
  | .null, w, h => by
    cases w with
    | null => exact .refl _ _
    | _ => cases h
  | .bool a, w, h => by
    cases w with
    | bool b =>
      obtain rfl : a = b := by simpa [eqv] using h
      exact .refl _ _
    | _ => cases h
  | .number a, w, h => by
    cases w with
    | number b => exact Number.tellsSigns_text h
    | _ => cases h
  | .string a, w, h => by
    cases w with
    | string b =>
      obtain rfl : a = b := by simpa [eqv] using h
      exact .refl _ _
    | _ => cases h
  | .array a, w, h => by
    cases w with
    | array b => exact (tellsSigns_compactItems h).between ['['] [']']
    | _ => cases h
  | .object a, w, h => by
    cases w with
    | object b => exact (tellsSigns_compactMembers h).between ['\x7b'] ['\x7d']
    | _ => cases h

/-- So do the texts of equal lists of items. -/
theorem tellsSigns_compactItems : ∀ {v w : List Value}, eqvItems v w = true →
    TellsSigns (compactItems v) (compactItems w) (zeroSignsItems v) (zeroSignsItems w)
  | [], w, h => by
    cases w with
    | nil => exact .refl _ _
    | cons b w => cases h
  | a :: v, w, h => by
    cases w with
    | nil => cases h
    | cons b w =>
      obtain ⟨hab, hvw⟩ := (Bool.and_eq_true _ _).mp h
      rw [compactItems_cons, compactItems_cons]
      refine (tellsSigns_compactText hab).append ?_
      -- Both lists end here, or neither does.
      refine tellsSigns_behindComma ?_ (tellsSigns_compactItems hvw) rfl
      cases v <;> cases w <;> first | rfl | cases hvw

/-- So do the texts of equal lists of members, which have the same keys. -/
theorem tellsSigns_compactMembers : ∀ {v w : List (String × Value)}, eqvMembers v w = true →
    TellsSigns (compactMembers v) (compactMembers w) (zeroSignsMembers v) (zeroSignsMembers w)
  | [], w, h => by
    cases w with
    | nil => exact .refl _ _
    | cons b w => cases h
  | (k, a) :: v, w, h => by
    cases w with
    | nil => cases h
    | cons entry w =>
      obtain ⟨l, b⟩ := entry
      simp only [eqvMembers, Bool.and_eq_true, beq_iff_eq] at h
      obtain ⟨⟨rfl, hab⟩, hvw⟩ := h
      rw [compactMembers_cons, compactMembers_cons]
      refine TellsSigns.append ?_ (tellsSigns_behindComma ?_ (tellsSigns_compactMembers hvw) rfl)
      · simpa using (tellsSigns_compactText hab).between (stringText k ++ [':']) []
      · cases v <;> cases w <;> first | rfl | cases hvw

end

end Value

end Json

namespace AnnotationValue

mutual

/-- The signs of the zeros in an argument value, in reading order. -/
def zeroSigns : AnnotationValue → List Bool
  | .other value => value.zeroSigns
  | .list values => zeroSignsList values
  | .bool _ | .int _ | .string _ | .type _ | .typeList _ | .enum _ => []

/-- The signs of the zeros in several argument values. -/
def zeroSignsList : List AnnotationValue → List Bool
  | [] => []
  | v :: rest => v.zeroSigns ++ zeroSignsList rest

end

/-- Equal lists of argument values are of one length. -/
theorem length_eq_of_eqvList {v w : List AnnotationValue} (h : eqvList v w = true) :
    v.length = w.length := by
  induction v generalizing w with
  | nil =>
    cases w with
    | nil => rfl
    | cons b w => cases h
  | cons a v ih =>
    cases w with
    | nil => cases h
    | cons b w => rw [List.length_cons, List.length_cons, ih ((Bool.and_eq_true _ _).mp h).2]

mutual

/-- The digests of equal argument values differ in the signs of zeros. -/
theorem tellsSigns_digest : ∀ {v w : AnnotationValue}, v.eqv w = true →
    TellsSigns v.digest w.digest v.zeroSigns w.zeroSigns
  | .other a, w, h => by
    cases w with
    | other b =>
      have htext := Json.Value.tellsSigns_compactText h
      -- The text of a literal is one piece of the digest.
      have hpiece : TellsSigns [Atom.text a.compact] [Atom.text b.compact] a.zeroSigns
          b.zeroSigns :=
        ⟨htext.length_eq, fun r r' => by
          simp [Json.Value.compact, String.ofList_inj, htext.eq_iff]⟩
      simpa [digest, zeroSigns] using hpiece.between [Atom.word 7] []
    | _ => cases h
  | .list a, w, h => by
    cases w with
    | list b =>
      have hvalues := tellsSigns_digests (v := a) (w := b) h
      simpa [digest, zeroSigns, length_eq_of_eqvList h] using
        hvalues.between [Atom.word 5, Atom.word b.length] []
    | _ => cases h
  | .bool a, w, h | .int a, w, h | .string a, w, h | .type a, w, h | .typeList a, w, h
  | .enum a, w, h => by
    -- Of other kinds only one and the same value is equal.
    cases w <;> first
      | cases h
      | (simp only [eqv, beq_iff_eq] at h; subst h; exact .refl _ _)

/-- So do the digests of equal lists of argument values. -/
theorem tellsSigns_digests : ∀ {v w : List AnnotationValue}, eqvList v w = true →
    TellsSigns (digests v) (digests w) (zeroSignsList v) (zeroSignsList w)
  | [], w, h => by
    cases w with
    | nil => exact .refl _ _
    | cons b w => cases h
  | a :: v, w, h => by
    cases w with
    | nil => cases h
    | cons b w =>
      obtain ⟨hab, hvw⟩ := (Bool.and_eq_true _ _).mp h
      exact (tellsSigns_digest hab).append (tellsSigns_digests hvw)

end

/-- The digests of equal argument values are equal exactly if their zeros have the same signs. -/
theorem digest_eq_iff {v w : AnnotationValue} (h : v.eqv w = true) :
    v.digest = w.digest ↔ v.zeroSigns = w.zeroSigns :=
  (tellsSigns_digest h).eq_iff

end AnnotationValue

namespace Annotation

/-- The signs of the zeros in the arguments of an annotation, in reading order. -/
def zeroSigns (a : Annotation) : List Bool :=
  a.values.flatMap fun (_, value) => value.zeroSigns

/-- The digests of equal lists of arguments differ in the signs of zeros. -/
theorem tellsSigns_values {v w : List (String × AnnotationValue)} (h : eqvValues v w = true) :
    v.length = w.length ∧
      TellsSigns (v.flatMap fun (name, value) => Atom.text name :: value.digest)
        (w.flatMap fun (name, value) => Atom.text name :: value.digest)
        (v.flatMap fun (_, value) => value.zeroSigns)
        (w.flatMap fun (_, value) => value.zeroSigns) := by
  induction v generalizing w with
  | nil =>
    cases w with
    | nil => exact ⟨rfl, .refl _ _⟩
    | cons b w => cases h
  | cons a v ih =>
    cases w with
    | nil => cases h
    | cons b w =>
      obtain ⟨k, a⟩ := a
      obtain ⟨l, b⟩ := b
      simp only [eqvValues, Bool.and_eq_true, beq_iff_eq] at h
      obtain ⟨⟨rfl, hab⟩, hvw⟩ := h
      obtain ⟨hlength, hrest⟩ := ih hvw
      refine ⟨congrArg (· + 1) hlength, ?_⟩
      -- The names are equal, and so they tell nothing.
      have hvalue := (AnnotationValue.tellsSigns_digest hab).between [Atom.text k] []
      simpa using hvalue.append hrest

/-- The digests of equal annotations are equal exactly if their zeros have the same signs. -/
theorem digest_eq_iff {a b : Annotation} (h : a.eqv b = true) :
    a.digest = b.digest ↔ a.zeroSigns = b.zeroSigns := by
  rw [eqv, Bool.and_eq_true, beq_iff_eq] at h
  obtain ⟨hlength, hvalues⟩ := tellsSigns_values h.2
  have htells := hvalues.between (b.type.digest ++ [Atom.word b.values.length]) []
  rw [zeroSigns, zeroSigns, ← htells.eq_iff, digest, digest, h.1, hlength]
  simp

/-- So a hashed collection takes two annotations for one exactly if they are equal and their zeros
have the same signs. -/
theorem sameElement_iff {a b : Annotation} :
    a.sameElement b = true ↔ a.unsigned = b.unsigned ∧ a.zeroSigns = b.zeroSigns := by
  rw [sameElement, Bool.and_eq_true, beq_iff_eq, ← eqv_iff_unsigned_eq, and_comm]
  exact and_congr_right digest_eq_iff

end Annotation

end Multibinding
