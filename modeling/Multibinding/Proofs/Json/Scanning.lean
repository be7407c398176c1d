import Mathlib.Tactic.FinCases
import Multibinding.Proofs.Json.Spelling

/-!
# The tokens of a spelling

However a value is written, the scanner makes the same tokens of it, whatever follows. Only a number
needs to be told where it ends, which any character does that cannot go on with it.

* `Scanner.scan_number`, `Scanner.scan_string`: the token of a number and of a string;
* `Spelling.scan_text`: the tokens of a value.
-/

namespace Multibinding.Json

namespace Scanner

/-- Whether a number ends before a text: no digit follows it, no point and no exponent. -/
def EndsNumber (rest : List Char) : Prop :=
  ∀ c ∈ rest.head?, digit? c = none ∧ c ≠ '.' ∧ c ≠ 'e' ∧ c ≠ 'E'

/-- The end of the text ends a number. -/
theorem endsNumber_nil : EndsNumber [] := by
  rintro c ⟨⟩

/-- So does any character that cannot go on with it. -/
theorem endsNumber_cons {c : Char} (h : digit? c = none ∧ c ≠ '.' ∧ c ≠ 'e' ∧ c ≠ 'E')
    (rest : List Char) : EndsNumber (c :: rest) := by
  intro d hd
  cases hd
  exact h

/-- Blanks end a number, or what stands behind them. -/
theorem EndsNumber.blanks {rest : List Char} (h : EndsNumber rest) (blanks : List Blank) :
    EndsNumber (blankText blanks ++ rest) := by
  cases blanks with
  | nil => exact h
  | cons b blanks =>
    refine endsNumber_cons ?_ _
    cases b <;> decide

variable {rest : List Char}

theorem digit?_digitChar (d : Fin 10) : digit? (digitChar d) = some d.val := by
  revert d
  decide

/-- A step that completes no token. -/
theorem scan_cons {mode mode' : Mode} {c : Char} (h : step mode c = (mode', []))
    (rest : List Char) : scan mode (c :: rest) = scan mode' rest := by
  rw [scan, h]
  rfl

/-- Behind a digit that may be its last one, a literal is complete. -/
theorem scan_number_end {stage : NumberStage} (hstage : stage.final) (literal : NumberText)
    (h : EndsNumber rest) :
    scan (.number stage literal) rest = .number (finished literal) :: scan .between rest := by
  cases rest with
  | nil => rw [scan, finish, if_pos hstage, scan, finish]
  | cons c rest =>
    obtain ⟨hdigit, hpoint, hsmall, hlarge⟩ := h c rfl
    cases stage <;>
      simp_all [scan, step, inNumber, NumberStage.final]

/-- Digits that may follow one another are collected in reverse, in their part of the literal. -/
theorem scan_digits {stage : NumberStage} (hstage : ∀ d, stage.afterDigit? d = some stage)
    (literal : List Nat → NumberText)
    (hpush : ∀ done d, pushDigit stage (literal done) d = literal (d :: done))
    (digits : List (Fin 10)) (done : List Nat) (rest : List Char) :
    scan (.number stage (literal done)) (digits.map digitChar ++ rest) =
      scan (.number stage (literal ((digits.map Fin.val).reverse ++ done))) rest := by
  induction digits generalizing done with
  | nil => rfl
  | cons d digits ih =>
    have hstep : step (.number stage (literal done)) (digitChar d) =
        (.number stage (literal (d.val :: done)), []) := by
      simp only [step, inNumber, digit?_digitChar, hstage, hpush]
    rw [List.map_cons, List.cons_append, scan_cons hstep, ih, List.map_cons, List.reverse_cons,
      List.append_assoc, List.singleton_append]

section Number

variable (negative : Bool) (whole : List Nat) (fraction : Option (List Nat)) {stage : NumberStage}

/-- The digits before the point, wherever the scanner starts a literal at the first of them. -/
theorem scan_whole {mode : Mode} (hmode : ∀ d, step mode (digitChar d) =
      (.number (if d = 0 then .zero else .whole) ⟨negative, [d.val], none, none⟩, []))
    {digits : Digits} (hzero : digits.first = 0 → digits.rest = []) (rest : List Char) :
    ∃ stage, (stage = .zero ∨ stage = .whole) ∧
      scan mode (digits.text ++ rest) =
        scan (.number stage ⟨negative, digits.values.reverse, none, none⟩) rest := by
  obtain ⟨d, digits⟩ := digits
  rw [Digits.text, Digits.list, List.map_cons, List.cons_append, scan_cons (hmode d)]
  by_cases hd : d = 0
  · obtain rfl : digits = [] := hzero hd
    refine ⟨.zero, Or.inl rfl, ?_⟩
    rw [if_pos hd]
    rfl
  · refine ⟨.whole, Or.inr rfl, ?_⟩
    rw [if_neg hd, Digits.values, Digits.list, List.map_cons, List.reverse_cons]
    exact scan_digits (fun _ => rfl) (fun done => ⟨negative, done, none, none⟩) (fun _ _ => rfl)
      digits [d.val] rest

/-- The digits behind the point. -/
theorem scan_fraction (hstage : stage = .zero ∨ stage = .whole) (digits : Digits)
    (rest : List Char) :
    scan (.number stage ⟨negative, whole, none, none⟩) ('.' :: digits.text ++ rest) =
      scan (.number .fraction ⟨negative, whole, some digits.values.reverse, none⟩) rest := by
  obtain ⟨d, digits⟩ := digits
  have hpoint : step (.number stage ⟨negative, whole, none, none⟩) '.' =
      (.number .point ⟨negative, whole, none, none⟩, []) := by
    rcases hstage with rfl | rfl <;> rfl
  have hfirst : step (.number .point ⟨negative, whole, none, none⟩) (digitChar d) =
      (.number .fraction ⟨negative, whole, some [d.val], none⟩, []) := by
    simp only [step, inNumber, digit?_digitChar]
    rfl
  rw [Digits.text, Digits.list, List.map_cons, List.cons_append, List.cons_append,
    scan_cons hpoint, scan_cons hfirst, Digits.values, Digits.list, List.map_cons,
    List.reverse_cons]
  exact scan_digits (fun _ => rfl) (fun done => ⟨negative, whole, some done, none⟩)
    (fun _ _ => rfl) digits [d.val] rest

/-- The exponent. -/
theorem scan_exponent (hstage : stage = .zero ∨ stage = .whole ∨ stage = .fraction)
    (e : ExponentSpelling) (rest : List Char) :
    scan (.number stage ⟨negative, whole, fraction, none⟩) (e.text ++ rest) =
      scan (.number .exponent
        ⟨negative, whole, fraction, some (e.sign.getD false, e.digits.values.reverse)⟩) rest := by
  obtain ⟨capital, sign, d, digits⟩ := e
  have hmark : step (.number stage ⟨negative, whole, fraction, none⟩)
      (if capital then 'E' else 'e') = (.number .mark ⟨negative, whole, fraction, none⟩, []) := by
    cases capital <;> rcases hstage with rfl | rfl | rfl <;> rfl
  have hexponent (d : Nat) : NumberStage.exponent.afterDigit? d = some .exponent := rfl
  have hdigits (minus : Bool) := scan_digits hexponent
    (fun done => ⟨negative, whole, fraction, some (minus, done)⟩) (fun _ _ => rfl) digits [d.val]
    rest
  rw [ExponentSpelling.text, Digits.text, Digits.list, List.map_cons, List.append_assoc,
    List.cons_append, List.cons_append, scan_cons hmark, Digits.values, Digits.list, List.map_cons,
    List.reverse_cons]
  -- Without a sign, the first digit stands right behind the mark.
  cases sign with
  | none =>
    have hfirst : step (.number .mark ⟨negative, whole, fraction, none⟩) (digitChar d) =
        (.number .exponent ⟨negative, whole, fraction, some (false, [d.val])⟩, []) := by
      simp only [step, inNumber, digit?_digitChar]
      rfl
    exact (scan_cons hfirst _).trans (hdigits false)
  | some minus =>
    have hsign : step (.number .mark ⟨negative, whole, fraction, none⟩)
        (if minus then '-' else '+') =
        (.number .markSign ⟨negative, whole, fraction, some (minus, [])⟩, []) := by
      cases minus <;> rfl
    have hfirst : step (.number .markSign ⟨negative, whole, fraction, some (minus, [])⟩)
        (digitChar d) =
        (.number .exponent ⟨negative, whole, fraction, some (minus, [d.val])⟩, []) := by
      simp only [step, inNumber, digit?_digitChar]
      rfl
    exact (scan_cons hsign _).trans ((scan_cons hfirst _).trans (hdigits minus))

end Number

/-- Between tokens, a digit starts a literal. -/
theorem step_between_digit (d : Fin 10) :
    step .between (digitChar d) =
      (.number (if d = 0 then .zero else .whole) ⟨false, [d.val], none, none⟩, []) := by
  match d with
  | 0 | 1 | 2 | 3 | 4 | 5 | 6 | 7 | 8 | 9 => rfl

/-- Behind a minus sign, a digit goes on with the literal. -/
theorem step_sign_digit (d : Fin 10) :
    step (.number .sign ⟨true, [], none, none⟩) (digitChar d) =
      (.number (if d = 0 then .zero else .whole) ⟨true, [d.val], none, none⟩, []) := by
  match d with
  | 0 | 1 | 2 | 3 | 4 | 5 | 6 | 7 | 8 | 9 => rfl

/-- However a number is written, its token is the literal. -/
theorem scan_number (n : NumberSpelling) (h : EndsNumber rest) :
    scan .between (n.text ++ rest) = .number n.literal :: scan .between rest := by
  obtain ⟨negative, whole, hzero, fraction, exponent⟩ := n
  -- The scanner is followed from part to part, whatever stands behind the part.
  have hwhole (rest : List Char) : ∃ stage, (stage = .zero ∨ stage = .whole) ∧
      scan .between ((if negative then ['-'] else []) ++ whole.text ++ rest) =
        scan (.number stage ⟨negative, whole.values.reverse, none, none⟩) rest := by
    cases negative with
    | false => exact scan_whole false step_between_digit hzero rest
    | true => exact scan_whole true step_sign_digit hzero rest
  have hfraction (rest : List Char) :
      ∃ stage, (stage = .zero ∨ stage = .whole ∨ stage = .fraction) ∧
        scan .between ((if negative then ['-'] else []) ++ whole.text ++
            (fraction.toList.flatMap (fun digits => '.' :: digits.text) ++ rest)) =
          scan (.number stage ⟨negative, whole.values.reverse,
            fraction.map fun digits => digits.values.reverse, none⟩) rest := by
    cases fraction with
    | none =>
      obtain ⟨stage, hstage, hscan⟩ := hwhole rest
      exact ⟨stage, hstage.imp_right Or.inl, hscan⟩
    | some digits =>
      obtain ⟨stage, hstage, hscan⟩ := hwhole ('.' :: digits.text ++ rest)
      refine ⟨.fraction, Or.inr (Or.inr rfl), ?_⟩
      rw [Option.toList_some, List.flatMap_singleton, hscan]
      exact scan_fraction negative _ hstage digits rest
  rw [NumberSpelling.text, List.append_assoc, List.append_assoc]
  cases exponent with
  | none =>
    obtain ⟨stage, hstage, hscan⟩ := hfraction rest
    -- A number without an exponent may end behind each of its other parts.
    have hfinal : stage.final := by rcases hstage with rfl | rfl | rfl <;> rfl
    refine hscan.trans ((scan_number_end hfinal _ h).trans ?_)
    cases fraction <;> simp [finished, NumberSpelling.literal]
  | some e =>
    obtain ⟨stage, hstage, hscan⟩ := hfraction (e.text ++ rest)
    rw [Option.toList_some, List.flatMap_singleton, hscan, scan_exponent negative _ _ hstage,
      scan_number_end rfl _ h]
    cases fraction <;> simp [finished, NumberSpelling.literal]

theorem hexDigit?_char (d : HexDigit) : hexDigit? d.char = some d.value := by
  rcases d with d | d | d <;> revert d <;> decide

theorem utf8Size_char (d : HexDigit) : d.char.utf8Size = 1 := by
  rcases d with d | d | d <;> revert d <;> decide

section String

variable {done : List Char} {unpaired : Bool}

/-- A code unit is read once its four digits are. -/
theorem scan_codeUnit (u : CodeUnit) (lead : Option Nat) (rest : List Char) :
    scan (.string (.hex 0 (some 0) lead) done unpaired) (u.text ++ rest) =
      scan (afterHex u.value lead done unpaired) rest := by
  obtain ⟨a, b, c, d⟩ := u
  simp [CodeUnit.text, CodeUnit.value, scan, step, inString, hexDigit?_char, utf8Size_char]

/-- A character is read as it is. -/
theorem scan_plain {c : Char} (h : ' ' ≤ c ∧ c ≠ '"' ∧ c ≠ '\\') (rest : List Char) :
    scan (.string .plain done unpaired) (c :: rest) =
      scan (.string .plain (c :: done) unpaired) rest := by
  refine scan_cons ?_ rest
  rw [step, inString, inPlain, if_neg h.2.1, if_neg h.2.2, if_neg (Char.not_lt.mpr h.1)]

/-- A short escape is read as the character that is meant. -/
theorem scan_short (e : ShortEscape) (rest : List Char) :
    scan (.string .plain done unpaired) ('\\' :: e.letter :: rest) =
      scan (.string .plain (e.char :: done) unpaired) rest := by
  cases e <;> rfl

/-- A numeric escape is read once its digits are. -/
theorem scan_numeric (u : CodeUnit) (rest : List Char) :
    scan (.string .plain done unpaired) ('\\' :: 'u' :: u.text ++ rest) =
      scan (afterHex u.value none done unpaired) rest :=
  scan_codeUnit u none rest

section Lead

/-! Right behind the first half of a character, everything but the other half makes the string
unpaired. -/

variable {high : Nat}

theorem scan_lead_plain {c : Char} (h : ' ' ≤ c ∧ c ≠ '"' ∧ c ≠ '\\') (rest : List Char) :
    scan (.string (.lead high) done unpaired) (c :: rest) =
      scan (.string .plain (c :: done) true) rest := by
  refine scan_cons ?_ rest
  rw [step, inString, if_neg h.2.2, inPlain, if_neg h.2.1, if_neg h.2.2,
    if_neg (Char.not_lt.mpr h.1)]

theorem scan_lead_short (e : ShortEscape) (rest : List Char) :
    scan (.string (.lead high) done unpaired) ('\\' :: e.letter :: rest) =
      scan (.string .plain (e.char :: done) true) rest := by
  cases e <;> rfl

theorem scan_lead_numeric (u : CodeUnit) (rest : List Char) :
    scan (.string (.lead high) done unpaired) ('\\' :: 'u' :: u.text ++ rest) =
      scan (afterHex u.value (some high) done unpaired) rest :=
  scan_codeUnit u (some high) rest

end Lead

/-- What follows a code unit that has no first half right before it. -/
theorem afterHex_none (u : CodeUnit) :
    afterHex u.value none done unpaired =
      if u.isTrailing then .string .plain done true
      else if u.isLeading then .string (.lead u.value) done unpaired
      else .string .plain (Char.ofNat u.value :: done) unpaired := rfl

/-- What follows a code unit that has a first half right before it. -/
theorem afterHex_some (high u : CodeUnit) :
    afterHex u.value (some high.value) done unpaired =
      if u.isTrailing then .string .plain (high.pair u :: done) unpaired
      else .string .plain done true := rfl

/-- A string that has half a character without the other is unpaired, whatever else is in it. -/
theorem scan_pieces_unpaired (pieces : List Piece) (done : List Char) (rest : List Char) :
    scan (.string .plain done true) (pieces.flatMap Piece.text ++ '"' :: rest) =
        .unpaired :: scan .between rest ∧
      ∀ high, scan (.string (.lead high) done true) (pieces.flatMap Piece.text ++ '"' :: rest) =
        .unpaired :: scan .between rest := by
  -- A piece may leave half of a character behind, so that both parts need each other.
  induction pieces generalizing done with
  | nil => exact ⟨rfl, fun _ => rfl⟩
  | cons piece pieces ih =>
    rw [List.flatMap_cons, List.append_assoc]
    cases piece with
    | plain c h =>
      exact ⟨(scan_plain h _).trans (ih _).1, fun high => (scan_lead_plain h _).trans (ih _).1⟩
    | short e =>
      exact ⟨(scan_short e _).trans (ih _).1, fun high => (scan_lead_short e _).trans (ih _).1⟩
    | numeric u =>
      refine ⟨(scan_numeric u _).trans ?_, fun high => (scan_lead_numeric u _).trans ?_⟩
      · rw [afterHex]
        split
        · exact (ih _).1
        · split
          · exact (ih _).2 _
          · exact (ih _).1
      · rw [afterHex]
        dsimp only
        split <;> exact (ih _).1

/-- The token of a string, given the characters that come first in it and what those behind them
are, if they are any. -/
def stringToken (first : List Char) : Option (List Char) → Token
  | some cs => .string (String.ofList (first ++ cs))
  | none => .unpaired

/-- One more character at the front belongs to those that come first. -/
theorem stringToken_map (first : List Char) (c : Char) (cs : Option (List Char)) :
    stringToken first (cs.map (c :: ·)) = stringToken (first ++ [c]) cs := by
  cases cs with
  | none => rfl
  | some cs => rw [Option.map_some, stringToken, stringToken, List.append_assoc,
      List.singleton_append]

/-- The pieces of a string are read as the characters that they write. -/
theorem scan_pieces (pieces : List Piece) (done : List Char) (rest : List Char) :
    scan (.string .plain done false) (pieces.flatMap Piece.text ++ '"' :: rest) =
        stringToken done.reverse (Piece.decodeFrom none pieces) :: scan .between rest ∧
      ∀ u : CodeUnit,
        scan (.string (.lead u.value) done false) (pieces.flatMap Piece.text ++ '"' :: rest) =
          stringToken done.reverse (Piece.decodeFrom (some u) pieces) :: scan .between rest := by
  induction pieces generalizing done with
  | nil =>
    refine ⟨?_, fun _ => rfl⟩
    rw [Piece.decodeFrom, stringToken, List.append_nil]
    rfl
  | cons piece pieces ih =>
    rw [List.flatMap_cons, List.append_assoc]
    -- A character is added to those that have been read.
    have hnext (c : Char) :
        scan (.string .plain (c :: done) false) (pieces.flatMap Piece.text ++ '"' :: rest) =
          stringToken done.reverse ((Piece.decodeFrom none pieces).map (c :: ·)) ::
            scan .between rest := by
      rw [(ih (c :: done)).1, List.reverse_cons, stringToken_map]
    cases piece with
    | plain c h =>
      exact ⟨(scan_plain h _).trans (hnext c),
        fun u => (scan_lead_plain h _).trans (scan_pieces_unpaired pieces _ rest).1⟩
    | short e =>
      exact ⟨(scan_short e _).trans (hnext e.char),
        fun u => (scan_lead_short e _).trans (scan_pieces_unpaired pieces _ rest).1⟩
    | numeric u =>
      refine ⟨(scan_numeric u _).trans ?_, fun high => (scan_lead_numeric u _).trans ?_⟩
      · rw [afterHex_none, Piece.decodeFrom]
        by_cases htrailing : u.isTrailing
        · rw [if_pos htrailing, if_pos htrailing]
          exact (scan_pieces_unpaired pieces _ rest).1
        · rw [if_neg htrailing, if_neg htrailing]
          by_cases hleading : u.isLeading
          · rw [if_pos hleading, if_pos hleading]
            exact (ih done).2 u
          · rw [if_neg hleading, if_neg hleading]
            exact hnext _
      · rw [afterHex_some, Piece.decodeFrom]
        by_cases htrailing : u.isTrailing
        · rw [if_pos htrailing, if_pos htrailing]
          exact hnext _
        · rw [if_neg htrailing, if_neg htrailing]
          exact (scan_pieces_unpaired pieces _ rest).1

end String

end Scanner

/-- The token of a key. -/
def Key.token : Key → Token
  | .text s => .string s
  | .unpaired => .unpaired

/-- However a string is written, its token is the string, or says that it is unpaired. -/
theorem Scanner.scan_string (pieces : List Piece) (rest : List Char) :
    scan .between (Piece.stringText pieces ++ rest) =
      (Piece.key pieces).token :: scan .between rest := by
  have hstart : scan .between (Piece.stringText pieces ++ rest) =
      scan (.string .plain [] false) (pieces.flatMap Piece.text ++ '"' :: rest) := by
    rw [Piece.stringText, List.cons_append, List.cons_append, List.append_assoc]
    rfl
  rw [hstart, (scan_pieces pieces [] rest).1, Piece.key]
  cases Piece.decodeFrom none pieces <;> rfl

/-- Blanks hold no token. -/
theorem Scanner.scan_blanks (blanks : List Blank) (rest : List Char) :
    scan .between (blankText blanks ++ rest) = scan .between rest := by
  induction blanks with
  | nil => rfl
  | cons b blanks ih =>
    have hstep : step .between b.char = (.between, []) := by
      cases b <;> rfl
    exact (scan_cons hstep _).trans ih

mutual

/-- The tokens of a value. -/
def Spelling.tokens : Spelling → List Token
  | .null => [.null]
  | .bool value => [.bool value]
  | .number number => [.number number.literal]
  | .string pieces => [(Piece.key pieces).token]
  | .emptyArray _ => [.openArray, .closeArray]
  | .array items => .openArray :: items.tokens ++ [.closeArray]
  | .emptyObject _ => [.openObject, .closeObject]
  | .object members => .openObject :: members.tokens ++ [.closeObject]

/-- The tokens of items and of the commas between them. -/
def ItemsSpelling.tokens : ItemsSpelling → List Token
  | .last _ item _ => item.tokens
  | .next _ item _ rest => item.tokens ++ .comma :: rest.tokens

/-- The tokens of members and of the commas between them. -/
def MembersSpelling.tokens : MembersSpelling → List Token
  | .last _ key _ _ value _ => (Piece.key key).token :: .colon :: value.tokens
  | .next _ key _ _ value _ rest =>
    (Piece.key key).token :: .colon :: value.tokens ++ .comma :: rest.tokens

end

open Scanner

section Structural

/-! The tokens of a single character are completed by the character itself. -/

variable (rest : List Char)

theorem scan_openArray : scan .between ('[' :: rest) = .openArray :: scan .between rest := rfl

theorem scan_closeArray : scan .between (']' :: rest) = .closeArray :: scan .between rest := rfl

theorem scan_openObject : scan .between ('\x7b' :: rest) = .openObject :: scan .between rest := rfl

theorem scan_closeObject : scan .between ('\x7d' :: rest) = .closeObject :: scan .between rest :=
  rfl

theorem scan_comma : scan .between (',' :: rest) = .comma :: scan .between rest := rfl

theorem scan_colon : scan .between (':' :: rest) = .colon :: scan .between rest := rfl

end Structural

mutual

/-- However a value is written, its tokens are these, whatever follows it. -/
theorem Spelling.scan_text : (s : Spelling) → (rest : List Char) → EndsNumber rest →
    scan .between (s.text ++ rest) = s.tokens ++ scan .between rest
  | .null, _, _ => rfl
  | .bool true, _, _ => rfl
  | .bool false, _, _ => rfl
  | .number number, rest, h => scan_number number h
  | .string pieces, rest, _ => scan_string pieces rest
  | .emptyArray inside, rest, _ => by
    simp only [Spelling.text, Spelling.tokens, List.cons_append, List.append_assoc,
      List.nil_append, scan_openArray, scan_blanks, scan_closeArray]
  -- A bracket ends a number, if the last item is one.
  | .array items, rest, _ => by
    have hclose : EndsNumber (']' :: rest) := endsNumber_cons (by decide) rest
    simp only [Spelling.text, Spelling.tokens, List.cons_append, List.append_assoc,
      List.nil_append, scan_openArray, items.scan_text _ hclose, scan_closeArray]
  | .emptyObject inside, rest, _ => by
    simp only [Spelling.text, Spelling.tokens, List.cons_append, List.append_assoc,
      List.nil_append, scan_openObject, scan_blanks, scan_closeObject]
  | .object members, rest, _ => by
    have hclose : EndsNumber ('\x7d' :: rest) := endsNumber_cons (by decide) rest
    simp only [Spelling.text, Spelling.tokens, List.cons_append, List.append_assoc,
      List.nil_append, scan_openObject, members.scan_text _ hclose, scan_closeObject]

/-- The tokens of written items. -/
theorem ItemsSpelling.scan_text : (items : ItemsSpelling) → (rest : List Char) →
    EndsNumber rest → scan .between (items.text ++ rest) = items.tokens ++ scan .between rest
  | .last before item behind, rest, h => by
    simp only [ItemsSpelling.text, ItemsSpelling.tokens, List.append_assoc, scan_blanks,
      item.scan_text _ (h.blanks behind)]
  | .next before item behind items, rest, h => by
    have hcomma : EndsNumber (',' :: (items.text ++ rest)) := endsNumber_cons (by decide) _
    simp only [ItemsSpelling.text, ItemsSpelling.tokens, List.cons_append, List.append_assoc,
      scan_blanks, item.scan_text _ (hcomma.blanks behind), scan_comma, items.scan_text rest h]

/-- The tokens of written members. -/
theorem MembersSpelling.scan_text : (members : MembersSpelling) → (rest : List Char) →
    EndsNumber rest → scan .between (members.text ++ rest) = members.tokens ++ scan .between rest
  | .last before key beforeColon beforeValue value behind, rest, h => by
    simp only [MembersSpelling.text, MembersSpelling.tokens, List.cons_append, List.append_assoc,
      scan_blanks, scan_string, scan_colon, value.scan_text _ (h.blanks behind)]
  | .next before key beforeColon beforeValue value behind members, rest, h => by
    have hcomma : EndsNumber (',' :: (members.text ++ rest)) := endsNumber_cons (by decide) _
    simp only [MembersSpelling.text, MembersSpelling.tokens, List.cons_append, List.append_assoc,
      scan_blanks, scan_string, scan_colon, value.scan_text _ (hcomma.blanks behind), scan_comma,
      members.scan_text rest h]

end

end Multibinding.Json
