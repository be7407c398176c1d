import Multibinding.Json.Read
import Multibinding.Proofs.Except
import Multibinding.Proofs.Json.Spelling

/-!
# Written values that can be read

A value is read from its text, however it is written, unless one of its numbers is too large or one
of its strings has half of a character without the other half.

* `Spelling.exists_value`: the value is read.
-/

namespace Multibinding.Json

/-- A string without unpaired halves is the text that it writes. -/
theorem Piece.exists_key_eq_text {pieces : List Piece}
    (h : (decodeFrom none pieces).isSome) : ∃ s, key pieces = .text s := by
  obtain ⟨cs, hcs⟩ := Option.isSome_iff_exists.mp h
  exact ⟨String.ofList cs, by rw [key, hcs]⟩

mutual

/-- A value is read. -/
theorem Spelling.exists_value : (s : Spelling) → (∀ n ∈ s.numbers, n.literal.value?.isSome) →
    (∀ pieces ∈ s.strings, (Piece.decodeFrom none pieces).isSome) → ∃ v, s.node.value = .ok v
  | .null, _, _ => ⟨.null, rfl⟩
  | .bool value, _, _ => ⟨.bool value, rfl⟩
  | .number number, hnumbers, _ => by
    obtain ⟨v, hv⟩ := Option.isSome_iff_exists.mp (hnumbers number List.mem_cons_self)
    exact ⟨.number v, by rw [Spelling.node, Node.value, hv]⟩
  | .string pieces, _, hstrings => by
    obtain ⟨s, hs⟩ := Piece.exists_key_eq_text (hstrings pieces List.mem_cons_self)
    exact ⟨.string s, by rw [Spelling.node, hs]; rfl⟩
  | .emptyArray _, _, _ => ⟨.array [], rfl⟩
  | .array items, hnumbers, hstrings => by
    obtain ⟨vs, hvs⟩ := items.exists_values hnumbers hstrings
    exact ⟨.array vs, bind_eq_ok_iff.mpr ⟨vs, hvs, rfl⟩⟩
  | .emptyObject _, _, _ => ⟨.object [], rfl⟩
  | .object members, hnumbers, hstrings => by
    obtain ⟨vs, hvs⟩ := members.exists_memberValues hnumbers hstrings
    exact ⟨.object vs, bind_eq_ok_iff.mpr ⟨vs, hvs, rfl⟩⟩

/-- Items are read. -/
theorem ItemsSpelling.exists_values : (items : ItemsSpelling) →
    (∀ n ∈ items.numbers, n.literal.value?.isSome) →
      (∀ pieces ∈ items.strings, (Piece.decodeFrom none pieces).isSome) →
        ∃ vs, Node.values items.nodes = .ok vs
  | .last _ item _, hnumbers, hstrings => by
    obtain ⟨v, hv⟩ := item.exists_value hnumbers hstrings
    exact ⟨[v], bind_eq_ok_iff.mpr ⟨v, hv, rfl⟩⟩
  | .next _ item _ rest, hnumbers, hstrings => by
    obtain ⟨hitem, hrest⟩ := List.forall_mem_append.mp hnumbers
    obtain ⟨hitem', hrest'⟩ := List.forall_mem_append.mp hstrings
    obtain ⟨v, hv⟩ := item.exists_value hitem hitem'
    obtain ⟨vs, hvs⟩ := rest.exists_values hrest hrest'
    exact ⟨v :: vs, bind_eq_ok_iff.mpr ⟨v, hv, bind_eq_ok_iff.mpr ⟨vs, hvs, rfl⟩⟩⟩

/-- Members are read. -/
theorem MembersSpelling.exists_memberValues : (members : MembersSpelling) →
    (∀ n ∈ members.numbers, n.literal.value?.isSome) →
      (∀ pieces ∈ members.strings, (Piece.decodeFrom none pieces).isSome) →
        ∃ vs, Node.memberValues members.nodes = .ok vs
  | .last _ key _ _ value _, hnumbers, hstrings => by
    obtain ⟨hkey, hstrings⟩ := List.forall_mem_cons.mp hstrings
    obtain ⟨k, hk⟩ := Piece.exists_key_eq_text hkey
    obtain ⟨v, hv⟩ := value.exists_value hnumbers hstrings
    refine ⟨[(k, v)], ?_⟩
    rw [MembersSpelling.nodes, hk]
    exact bind_eq_ok_iff.mpr ⟨k, rfl, bind_eq_ok_iff.mpr ⟨v, hv, rfl⟩⟩
  | .next _ key _ _ value _ rest, hnumbers, hstrings => by
    obtain ⟨hvalue, hrest⟩ := List.forall_mem_append.mp hnumbers
    obtain ⟨hstrings, hrest'⟩ := List.forall_mem_append.mp hstrings
    obtain ⟨hkey, hvalue'⟩ := List.forall_mem_cons.mp hstrings
    obtain ⟨k, hk⟩ := Piece.exists_key_eq_text hkey
    obtain ⟨v, hv⟩ := value.exists_value hvalue hvalue'
    obtain ⟨vs, hvs⟩ := rest.exists_memberValues hrest hrest'
    refine ⟨(k, v) :: vs, ?_⟩
    rw [MembersSpelling.nodes, hk]
    exact bind_eq_ok_iff.mpr
      ⟨k, rfl, bind_eq_ok_iff.mpr ⟨v, hv, bind_eq_ok_iff.mpr ⟨vs, hvs, rfl⟩⟩⟩

end

end Multibinding.Json
