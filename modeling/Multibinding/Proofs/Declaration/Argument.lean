import Multibinding.Declaration.Json
import Multibinding.Proofs.Name.TypeRefValue

/-!
# Annotation arguments read back from JSON

The kind of an annotation argument is told by its form alone: of eight kinds the first one that
fits. An argument of any kind is written in a form that no earlier kind fits, so that it is read
back as an argument of the same kind with the same contents, provided that no key is repeated in it.

* `AnnotationValue.ofValue?_toJson`: what is no class literal is not written like one;
* `AnnotationValue.ofValue_toJson`: the argument that a value stands for is read back;
* `AnnotationValue.restoring_read`: so is every argument that is read from a plain document.
-/

namespace Multibinding.AnnotationValue

open Json

section Forms

variable {members : List (String × Value)}

/-- The constant of an enumeration literal does not depend on the order of the members. -/
theorem constant?_canonical (h : (members.map (·.1)).Nodup) :
    constant? (Entries.ofList (Value.canonicalMembers members)) = constant? members := by
  rw [constant?, constant?, Value.filter_canonical h]
  generalize members.filter (·.1 == "enum") = found
  match found with
  | [] => rfl
  | [(_, v)] => cases v <;> rfl
  | (_, v) :: (_, _) :: _ => cases v <;> rfl

/-- The form of a type reference stands for a class literal. -/
theorem ofValue_of_ofValue? {v : Value} {t : TypeRef} (h : TypeRef.ofValue? v = some t) :
    ofValue v = .type t := by
  cases v with
  | object members => rw [ofValue, h]
  | _ => cases h

/-- An argument is written as a class literal exactly if the value that it stands for is one. -/
theorem ofValue?_toJson (v : Value) (h : v.isPlain) :
    TypeRef.ofValue? (ofValue v).toJson = TypeRef.ofValue? v := by
  cases v with
  | null => rfl
  | bool value => rfl
  | string value => rfl
  | number value =>
    cases value with
    | int value =>
      rw [ofValue]
      split <;> rfl
    | float value => rfl
  | array items =>
    rw [ofValue]
    split <;> rfl
  | object members =>
    rw [ofValue]
    split
    · rename_i t ht
      rw [toJson, (TypeRef.fits_of_ofValue? _ t ht).ofValue?_toJson, ht]
    · rename_i hnone
      split
      · rw [hnone]
        rfl
      · rw [toJson, TypeRef.ofValue?_canonical _ h]

/-- The same holds for several arguments. -/
theorem ofValues?_toJsonList (items : List Value) (h : Value.isPlainItems items) :
    TypeRef.ofValues? (toJsonList (ofValues items)) = TypeRef.ofValues? items := by
  induction items with
  | nil => rfl
  | cons v rest ih =>
    obtain ⟨hv, hrest⟩ := (Bool.and_eq_true _ _).mp h
    rw [ofValues, toJsonList, TypeRef.ofValues?, TypeRef.ofValues?, ofValue?_toJson v hv, ih hrest]

end Forms

mutual

/-- The argument that a plain value stands for is read back from its written form. -/
theorem ofValue_toJson : (v : Value) → v.isPlain → ofValue (ofValue v).toJson = ofValue v
  | .null, _ => rfl
  | .bool _, _ => rfl
  | .string _, _ => rfl
  | .number (.int value), _ => by
    rw [ofValue]
    split
    · rename_i hsigned
      rw [toJson, ofValue, if_pos hsigned]
    · rename_i hunsigned
      rw [toJson, ofValue, if_neg hunsigned]
  | .number (.float _), _ => rfl
  | .array items, h => by
    have hforms := ofValues?_toJsonList items h
    rw [ofValue]
    split
    · rename_i ts hts
      have hrecognized := TypeRef.ofValues?_toJsonList fun t ht =>
        (TypeRef.fits_of_ofValues? items ts hts t ht).ofValue?_toJson
      rw [toJson, ofValue, hrecognized]
    · rename_i hnone
      rw [toJson, ofValue, hforms, hnone, ofValues_toJsonList items h]
  | .object members, h => by
    have hkeys := of_decide_eq_true ((Bool.and_eq_true _ _).mp h).1
    have hcanonical := TypeRef.ofValue?_canonical (.object members) h
    rw [ofValue]
    split
    · rename_i t ht
      exact ofValue_of_ofValue? (TypeRef.fits_of_ofValue? _ t ht).ofValue?_toJson
    · rename_i hnone
      split
      · rfl
      · rename_i hconstant
        -- What is neither a class literal nor a constant does not become one by sorting.
        have hsorted := Value.canonical_canonical (.object members)
        rw [hnone] at hcanonical
        rw [← constant?_canonical hkeys] at hconstant
        rw [toJson, Value.canonical, ofValue]
        rw [Value.canonical] at hcanonical hsorted
        rw [hcanonical, hconstant, hsorted]

/-- The arguments that several plain values stand for are read back. -/
theorem ofValues_toJsonList : (items : List Value) → Value.isPlainItems items →
    ofValues (toJsonList (ofValues items)) = ofValues items
  | [], _ => rfl
  | v :: rest, h => by
    obtain ⟨hv, hrest⟩ := (Bool.and_eq_true _ _).mp h
    rw [ofValues, toJsonList, ofValues, ofValue_toJson v hv, ofValues_toJsonList rest hrest]

end

mutual

/-- The argument that a plain value stands for is plain where it is written, and no higher. -/
theorem isPlain_toJson : (v : Value) → v.isPlain →
    (ofValue v).toJson.isPlain ∧ (ofValue v).toJson.height ≤ v.height
  | .null, _ => ⟨rfl, Nat.le_refl _⟩
  | .bool _, _ => ⟨rfl, Nat.le_refl _⟩
  | .string _, _ => ⟨rfl, Nat.le_refl _⟩
  | .number (.int value), h => by
    rw [ofValue]
    split <;> exact ⟨h, Nat.le_refl _⟩
  | .number (.float _), h => ⟨h, Nat.le_refl _⟩
  | .array items, h => by
    rw [ofValue]
    split
    -- A list of types is written anew, and no higher than it was read.
    · rename_i ts hts
      refine ⟨TypeRef.isPlain_toJsonList ts, Nat.succ_le_succ ?_⟩
      rw [TypeRef.toJsonList_eq_map, Value.heightItems_le_iff]
      exact List.forall_mem_map.mpr fun t ht =>
        (TypeRef.fits_of_ofValues? items ts hts t ht).height_toJson
    · obtain ⟨hplain, hheight⟩ := isPlain_toJsonList items h
      exact ⟨hplain, Nat.succ_le_succ hheight⟩
  | .object members, h => by
    rw [ofValue]
    split
    · rename_i t ht
      exact ⟨TypeRef.isPlain_toJson t, (TypeRef.fits_of_ofValue? _ t ht).height_toJson⟩
    · split
      · exact ⟨by simp [toJson, Value.isPlain, Value.isPlainMembers],
          by simp [toJson, Value.height, Value.heightMembers]⟩
      · exact ⟨Value.isPlain_canonical _ h, Value.height_canonical_le _⟩

/-- The arguments that several plain values stand for are plain where they are written, and no
higher. -/
theorem isPlain_toJsonList : (items : List Value) → Value.isPlainItems items →
    Value.isPlainItems (toJsonList (ofValues items)) ∧
      Value.heightItems (toJsonList (ofValues items)) ≤ Value.heightItems items
  | [], _ => ⟨rfl, Nat.le_refl _⟩
  | v :: rest, h => by
    obtain ⟨hv, hrest⟩ := (Bool.and_eq_true _ _).mp h
    obtain ⟨hplain, hheight⟩ := isPlain_toJson v hv
    obtain ⟨hplains, hheights⟩ := isPlain_toJsonList rest hrest
    refine ⟨(Bool.and_eq_true _ _).mpr ⟨hplain, hplains⟩, ?_⟩
    rw [ofValues, toJsonList, Value.heightItems, Value.heightItems]
    omega

end

/-- Whatever argument is read from a plain document is read back from its written form. -/
theorem restoring_read : Reader.Restoring read toJson 0 := by
  rintro level n ⟨hplain, hheight, -⟩ a ha
  obtain ⟨v, hv, rfl⟩ := map_eq_ok_iff.mp ha
  obtain ⟨hplain, hle⟩ := Node.isPlain_of_value n hplain v hv
  obtain ⟨hwritten, hheight'⟩ := isPlain_toJson v hplain
  refine ⟨hwritten, by omega, ?_⟩
  rw [read, Value.value_toNode _ hwritten]
  exact congrArg Except.ok (ofValue_toJson v hplain)

end Multibinding.AnnotationValue
