import Mathlib.Tactic.IntervalCases
import Multibinding.Proofs.Json.Assembly

/-!
# Written JSON

The form of a value in several lines is one of the ways to write it, so that it is read like every
other way. The document of the text holds the value, as long as no array or object is too deep.

* `Value.exists_spelling`: the form of a value is a spelling of it;
* `Value.parse_pretty`: the document of a written value.
-/

namespace Multibinding.Json

namespace NumberText

/-- The literal of an integer. -/
def ofInt (value : Int) : NumberText :=
  ⟨value < 0, (Nat.toDigits 10 value.natAbs).map fun c => c.toNat - '0'.toNat, none, none⟩

/-- The digits of the literal are those of the number. -/
theorem ofDigits_whole_ofInt (value : Int) : ofDigits (ofInt value).whole = value.natAbs := by
  have hfold : ∀ (digits : List Char) (n : Nat),
      (digits.map fun c => c.toNat - '0'.toNat).foldl (fun n d => n * 10 + d) n =
        Nat.ofDigitChars 10 digits n := by
    intro digits
    induction digits with
    | nil => exact fun n => rfl
    | cons c rest ih =>
      intro n
      rw [List.map_cons, List.foldl_cons, ih, Nat.mul_comm]
      rfl
  exact (hfold _ 0).trans Nat.ofDigitChars_ten_toDigits

/-- An integer of 64 bits is read back from its literal. -/
theorem value?_ofInt {value : Int} (h : (Number.int value).isInteger) :
    (ofInt value).value? = some (.int value) := by
  simp only [Number.isInteger, Bool.and_eq_true, decide_eq_true_eq] at h
  have hwhole := ofDigits_whole_ofInt value
  have hnegative : (ofInt value).negative = decide (value < 0) := rfl
  -- A negative number has digits other than zero, so that minus zero is never written.
  have hliteral : (ofInt value).isInteger := by
    rw [isInteger, hwhole, hnegative]
    show (if decide (value < 0) then _ else _) = true
    by_cases hneg : value < 0 <;>
      simp only [hneg, decide_true, decide_false, Bool.false_eq_true, if_true, if_false,
        Bool.and_eq_true, decide_eq_true_eq] <;> omega
  have hinteger : (ofInt value).integer = value := by
    rw [integer, hwhole, hnegative]
    by_cases hneg : value < 0 <;>
      simp only [hneg, decide_true, decide_false, Bool.false_eq_true, if_true, if_false] <;> omega
  rw [(value?_of_isInteger hliteral).1, hinteger]

end NumberText

/-- A digit is told by its character. -/
theorem digitOf_spec {c : Char} (hc : c.isDigit) :
    digitChar (digitOf c) = c ∧ (digitOf c).val = c.toNat - '0'.toNat := by
  have hrange : 48 ≤ c.toNat ∧ c.toNat ≤ 57 := by
    rw [Char.isDigit, Bool.and_eq_true, decide_eq_true_iff, decide_eq_true_iff] at hc
    exact hc
  obtain ⟨n, hn, rfl⟩ : ∃ n, (48 ≤ n ∧ n ≤ 57) ∧ c = Char.ofNat n := ⟨c.toNat, hrange, by simp⟩
  obtain ⟨hlow, hhigh⟩ := hn
  interval_cases n <;> exact ⟨rfl, rfl⟩

/-- The digits of a number other than zero start with another digit. -/
theorem exists_toDigits_eq_cons {n : Nat} (hn : n ≠ 0) :
    ∃ c digits, Nat.toDigits 10 n = c :: digits ∧ c.toNat - '0'.toNat ≠ 0 := by
  induction n using Nat.strongRecOn with
  | ind n ih =>
    by_cases hlt : n < 10
    · refine ⟨n.digitChar, [], Nat.toDigits_of_lt_base hlt, ?_⟩
      interval_cases n <;> first | exact absurd rfl hn | decide
    · obtain ⟨c, digits, hdigits, hc⟩ := ih (n / 10) (by omega) (by omega)
      refine ⟨c, digits ++ [(n % 10).digitChar], ?_, hc⟩
      rw [Nat.toDigits_of_base_le (by decide) (by omega), hdigits, List.cons_append]

/-- The digits of a natural number are those of a literal. -/
theorem exists_digits (n : Nat) :
    ∃ digits : Digits, (digits.first = 0 → digits.rest = []) ∧ digits.text = Nat.toDigits 10 n ∧
      digits.values = (Nat.toDigits 10 n).map fun c => c.toNat - '0'.toNat := by
  have hdigit : ∀ c ∈ Nat.toDigits 10 n, c.isDigit := fun c hc =>
    Nat.isDigit_of_mem_toDigits (by decide) (by decide) hc
  -- A literal that starts with a zero has no other digit, and no number but zero is written so.
  by_cases hn : n = 0
  · subst hn
    exact ⟨⟨0, []⟩, fun _ => rfl, rfl, rfl⟩
  · obtain ⟨c, digits, heq, hc⟩ := exists_toDigits_eq_cons hn
    rw [heq] at hdigit ⊢
    obtain ⟨hfirst, hrest⟩ := List.forall_mem_cons.mp hdigit
    refine ⟨⟨digitOf c, digits.map digitOf⟩, fun hzero => absurd ?_ hc, ?_, ?_⟩
    · rw [← (digitOf_spec hfirst).2]
      exact congrArg Fin.val hzero
    · have hmap : (digits.map digitOf).map digitChar = digits := by
        rw [List.map_map]
        exact (List.map_congr_left fun c hc => (digitOf_spec (hrest c hc)).1).trans
          (List.map_id digits)
      rw [Digits.text, Digits.list, List.map_cons, (digitOf_spec hfirst).1, hmap]
    · have hmap : (digits.map digitOf).map Fin.val = digits.map fun c => c.toNat - '0'.toNat := by
        rw [List.map_map]
        exact List.map_congr_left fun c hc => (digitOf_spec (hrest c hc)).2
      rw [Digits.values, Digits.list, List.map_cons, (digitOf_spec hfirst).2, hmap, List.map_cons]

/-- The text of an integer is a spelling of its literal. -/
theorem exists_spelling_int (value : Int) :
    ∃ s : NumberSpelling, s.text = (toString value).toList ∧ s.literal = .ofInt value := by
  obtain ⟨digits, hzero, htext, hvalues⟩ := exists_digits value.natAbs
  -- The text is the sign and the digits of the absolute value.
  have hchars : (toString value).toList =
      (if value < 0 then ['-'] else []) ++ Nat.toDigits 10 value.natAbs := by
    rw [Int.toString_eq_repr, Int.repr_eq_if]
    by_cases hneg : value < 0
    · rw [if_neg (by omega), if_pos hneg, String.toList_append, Nat.toList_repr,
        show (-value).toNat = value.natAbs by omega]
      rfl
    · rw [if_pos (by omega), if_neg hneg, Nat.toList_repr,
        show value.toNat = value.natAbs by omega]
      rfl
  refine ⟨⟨value < 0, digits, hzero, none, none⟩, ?_, ?_⟩
  · rw [hchars, NumberSpelling.text, htext]
    simp
  · rw [NumberSpelling.literal, NumberText.ofInt, hvalues]
    rfl

/-- The literal that the text of a number is. -/
def Number.literal (n : Number) : NumberText :=
  match tokens n.text with
  | [.number text] => text
  | _ => ⟨false, [], none, none⟩

/-- The literal of an integer has the digits of the integer. -/
theorem Number.literal_int (value : Int) : (Number.int value).literal = .ofInt value := by
  obtain ⟨s, htext, hliteral⟩ := exists_spelling_int value
  have hscan := Scanner.scan_number s Scanner.endsNumber_nil
  rw [List.append_nil, htext, hliteral] at hscan
  have htokens : tokens (Number.int value).text = [.number (.ofInt value)] := hscan
  rw [literal, htokens]

/-- An integer is read back from its literal. -/
theorem Number.value?_literal {n : Number} (hn : n.isInteger) : n.literal.value? = some n := by
  cases n with
  | int value =>
    rw [literal_int]
    exact NumberText.value?_ofInt hn
  | float value => cases hn

/-- A hexadecimal digit in its small form. -/
def hexDigitOf (n : Nat) : HexDigit :=
  if h : n < 10 then .digit ⟨n, h⟩ else .lower (Fin.ofNat 6 (n - 10))

/-- A hexadecimal digit is told by its value. -/
theorem hexDigitOf_spec {n : Nat} (hn : n < 16) :
    (hexDigitOf n).char = Nat.digitChar n ∧ (hexDigitOf n).value = n := by
  interval_cases n <;> exact ⟨rfl, rfl⟩

/-- The escape of a control character is a piece of a string. -/
theorem exists_piece_control {c : Char} (hc : c < ' ') :
    ∃ p : Piece, p.text = '\\' :: 'u' :: '0' :: '0' :: Value.escapeDigits c ∧
      ∀ rest, Piece.decodeFrom none (p :: rest) = (Piece.decodeFrom none rest).map (c :: ·) := by
  have hlt : c.toNat < 32 := hc
  obtain ⟨hhigh, hhighValue⟩ := hexDigitOf_spec (show c.toNat / 16 < 16 by omega)
  obtain ⟨hlow, hlowValue⟩ := hexDigitOf_spec (show c.toNat % 16 < 16 by omega)
  let u : CodeUnit :=
    ⟨.digit 0, .digit 0, hexDigitOf (c.toNat / 16), hexDigitOf (c.toNat % 16)⟩
  have hvalue : u.value = c.toNat := by
    have hzero : (HexDigit.digit 0).value = 0 := rfl
    rw [CodeUnit.value, hhighValue, hlowValue, hzero]
    omega
  -- The code is no half of a pair, and so it stands for the character alone.
  have hleading : ¬ u.isLeading := by
    rw [CodeUnit.isLeading, hvalue]
    omega
  have htrailing : ¬ u.isTrailing := by
    rw [CodeUnit.isTrailing, hvalue]
    omega
  refine ⟨.numeric u, ?_, fun rest => ?_⟩
  · rw [Piece.text, CodeUnit.text, hhigh, hlow]
    rfl
  · rw [Piece.decodeFrom, if_neg htrailing, if_neg hleading, hvalue, Char.ofNat_toNat]

/-- An escaped character is a piece of a string. -/
theorem exists_piece (c : Char) :
    ∃ p : Piece, p.text = Value.escaped c ∧
      ∀ rest, Piece.decodeFrom none (p :: rest) = (Piece.decodeFrom none rest).map (c :: ·) := by
  unfold Value.escaped
  split
  case h_8 hquote hbackslash _ _ _ _ _ =>
    split
    · rename_i hcontrol
      exact exists_piece_control hcontrol
    · rename_i hshown
      exact ⟨.plain c ⟨Char.not_lt.mp hshown, hquote, hbackslash⟩, rfl, fun _ => rfl⟩
  · exact ⟨.short .quote, rfl, fun _ => rfl⟩
  · exact ⟨.short .backslash, rfl, fun _ => rfl⟩
  · exact ⟨.short .backspace, rfl, fun _ => rfl⟩
  · exact ⟨.short .formFeed, rfl, fun _ => rfl⟩
  · exact ⟨.short .newline, rfl, fun _ => rfl⟩
  · exact ⟨.short .carriageReturn, rfl, fun _ => rfl⟩
  · exact ⟨.short .tab, rfl, fun _ => rfl⟩

/-- A written string is a spelling of it. -/
theorem exists_pieces (s : String) :
    ∃ pieces : List Piece, Piece.stringText pieces = Value.stringText s ∧
      Piece.key pieces = .text s := by
  have hpieces (cs : List Char) : ∃ pieces : List Piece,
      pieces.flatMap Piece.text = cs.flatMap Value.escaped ∧
        Piece.decodeFrom none pieces = some cs := by
    induction cs with
    | nil => exact ⟨[], rfl, rfl⟩
    | cons c cs ih =>
      obtain ⟨p, htext, hdecode⟩ := exists_piece c
      obtain ⟨pieces, htexts, hdecodes⟩ := ih
      exact ⟨p :: pieces, by rw [List.flatMap_cons, List.flatMap_cons, htext, htexts],
        by rw [hdecode, hdecodes]; rfl⟩
  obtain ⟨pieces, htext, hdecode⟩ := hpieces s.toList
  refine ⟨pieces, ?_, ?_⟩
  · rw [Piece.stringText, Value.stringText, htext]
  · rw [Piece.key, hdecode]
    simp

/-- The start of a line at a depth. -/
def lineStart (depth : Nat) : List Blank :=
  .newline :: List.replicate (2 * depth) .space

theorem blankText_lineStart (depth : Nat) : blankText (lineStart depth) = Value.newline depth := by
  rw [blankText, lineStart, List.map_cons, List.map_replicate]
  rfl

namespace Value

mutual

/-- The value as it stands in a text. -/
def toNode : Value → Node
  | .null => .null
  | .bool value => .bool value
  | .number value => .number value.literal
  | .string value => .string value
  | .array items => .array (itemNodes items) none
  | .object members => .object (memberNodes members) .closed

/-- The items as they stand in a text. -/
def itemNodes : List Value → List Node
  | [] => []
  | v :: rest => v.toNode :: itemNodes rest

/-- The members as they stand in a text. -/
def memberNodes : List (String × Value) → List (Key × Node)
  | [] => []
  | (key, v) :: rest => (.text key, v.toNode) :: memberNodes rest

end

mutual

/-- The form of a value is one way to write it. -/
theorem exists_spelling (depth : Nat) : (v : Value) → v.isPlain →
    ∃ s : Spelling, s.text = v.prettyText depth ∧ s.node = v.toNode
  | .null, _ => ⟨.null, rfl, rfl⟩
  | .bool true, _ => ⟨.bool true, rfl, rfl⟩
  | .bool false, _ => ⟨.bool false, rfl, rfl⟩
  | .number (.int value), _ => by
    obtain ⟨s, htext, hliteral⟩ := exists_spelling_int value
    refine ⟨.number s, htext, ?_⟩
    rw [Spelling.node, hliteral, toNode, Number.literal_int]
  | .string value, _ => by
    obtain ⟨pieces, htext, hkey⟩ := exists_pieces value
    refine ⟨.string pieces, htext, ?_⟩
    rw [Spelling.node, hkey]
    rfl
  -- Empty arrays and objects are written without a line break.
  | .array [], _ => ⟨.emptyArray [], rfl, rfl⟩
  | .object [], _ => ⟨.emptyObject [], rfl, rfl⟩
  | .array (v :: items), hplain => by
    obtain ⟨s, htext, hnodes⟩ := exists_itemsSpelling (depth + 1) (lineStart depth) (v :: items)
      (List.cons_ne_nil v items) hplain
    refine ⟨.array s, ?_, ?_⟩
    · rw [Spelling.text, htext, blankText_lineStart]
      simp [prettyText]
    · rw [Spelling.node, hnodes, toNode]
  | .object (m :: members), hplain => by
    obtain ⟨s, htext, hnodes⟩ := exists_membersSpelling (depth + 1) (lineStart depth)
      (m :: members) (List.cons_ne_nil m members) ((Bool.and_eq_true _ _).mp hplain).2
    refine ⟨.object s, ?_, ?_⟩
    · rw [Spelling.text, htext, blankText_lineStart]
      simp [prettyText]
    · rw [Spelling.node, hnodes, toNode]

/-- So is the form of items, with blanks behind the last one. -/
theorem exists_itemsSpelling (depth : Nat) (behind : List Blank) : (items : List Value) →
    items ≠ [] → isPlainItems items →
      ∃ s : ItemsSpelling, s.text = prettyItems depth items ++ blankText behind ∧
        s.nodes = itemNodes items
  | [], hne, _ => absurd rfl hne
  | [v], _, hplain => by
    obtain ⟨s, htext, hnode⟩ := exists_spelling depth v ((Bool.and_eq_true _ _).mp hplain).1
    refine ⟨.last (lineStart depth) s behind, ?_, ?_⟩
    · rw [ItemsSpelling.text, htext, blankText_lineStart, prettyItems]
    · rw [ItemsSpelling.nodes, hnode]
      rfl
  | v :: w :: items, _, hplain => by
    obtain ⟨hv, hitems⟩ := (Bool.and_eq_true _ _).mp hplain
    obtain ⟨s, htext, hnode⟩ := exists_spelling depth v hv
    obtain ⟨rest, hrest, hnodes⟩ := exists_itemsSpelling depth behind (w :: items)
      (List.cons_ne_nil w items) hitems
    refine ⟨.next (lineStart depth) s [] rest, ?_, ?_⟩
    · rw [ItemsSpelling.text, htext, blankText_lineStart, hrest, prettyItems]
      simp [blankText]
    · rw [ItemsSpelling.nodes, hnode, hnodes]
      rfl

/-- So is the form of members. -/
theorem exists_membersSpelling (depth : Nat) (behind : List Blank) :
    (members : List (String × Value)) → members ≠ [] → isPlainMembers members →
      ∃ s : MembersSpelling, s.text = prettyMembers depth members ++ blankText behind ∧
        s.nodes = memberNodes members
  | [], hne, _ => absurd rfl hne
  | [(key, v)], _, hplain => by
    obtain ⟨s, htext, hnode⟩ := exists_spelling depth v ((Bool.and_eq_true _ _).mp hplain).1
    obtain ⟨pieces, hpieces, hkey⟩ := exists_pieces key
    refine ⟨.last (lineStart depth) pieces [] [.space] s behind, ?_, ?_⟩
    · rw [MembersSpelling.text, htext, blankText_lineStart, hpieces, prettyMembers]
      simp [blankText, Blank.char]
    · rw [MembersSpelling.nodes, hnode, hkey]
      rfl
  | (key, v) :: w :: members, _, hplain => by
    obtain ⟨hv, hmembers⟩ := (Bool.and_eq_true _ _).mp hplain
    obtain ⟨s, htext, hnode⟩ := exists_spelling depth v hv
    obtain ⟨pieces, hpieces, hkey⟩ := exists_pieces key
    obtain ⟨rest, hrest, hnodes⟩ := exists_membersSpelling depth behind (w :: members)
      (List.cons_ne_nil w members) hmembers
    refine ⟨.next (lineStart depth) pieces [] [.space] s [] rest, ?_, ?_⟩
    · rw [MembersSpelling.text, htext, blankText_lineStart, hpieces, hrest, prettyMembers]
      simp [blankText, Blank.char]
    · rw [MembersSpelling.nodes, hnode, hkey, hnodes]
      rfl

end

mutual

/-- A value is as high in a text as it is. -/
theorem height_toNode : (v : Value) → v.toNode.height = v.height
  | .null => rfl
  | .bool _ => rfl
  | .number _ => rfl
  | .string _ => rfl
  | .array items => congrArg (· + 1) (heightItems_itemNodes items)
  | .object members => congrArg (· + 1) (heightMembers_memberNodes members)

/-- Items are as high in a text as they are. -/
theorem heightItems_itemNodes : (items : List Value) →
    Node.heightItems (itemNodes items) = heightItems items
  | [] => rfl
  | v :: rest => by
    rw [itemNodes, Node.heightItems, height_toNode v, heightItems_itemNodes rest, heightItems]

/-- Members are as high in a text as they are. -/
theorem heightMembers_memberNodes : (members : List (String × Value)) →
    Node.heightMembers (memberNodes members) = heightMembers members
  | [] => rfl
  | (_, v) :: rest => by
    rw [memberNodes, Node.heightMembers, height_toNode v, heightMembers_memberNodes rest,
      heightMembers]

end

/-- The document of a written value holds the value. -/
theorem parse_pretty {v : Value} (hplain : v.isPlain) (h : v.height ≤ Document.maxDepth) :
    Document.parse v.pretty = ⟨v.toNode, false⟩ := by
  obtain ⟨s, htext, hnode⟩ := exists_spelling 0 v hplain
  rw [pretty, ← htext, ← hnode]
  exact s.parse_text (by rw [hnode, height_toNode]; exact h)

end Value

end Multibinding.Json
