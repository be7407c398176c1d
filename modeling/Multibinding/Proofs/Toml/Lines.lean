import Multibinding.Config.Toml
import Multibinding.Proofs.Toml.Strings

/-!
# The lines of a document that was written

A text or a list of texts is written as a value that is read back, and a line that sets a name to a
value is read as such. A document is put together from lines, each of which is taken by a turn of
its own, so the lines of a text that joins two documents are those of the two.

* `run_value_quoted`, `run_value_textList`: values;
* `ReadsLines`: the lines that a text is read as, and how they are put together;
* `run_document`: the lines of a document.
-/

namespace Multibinding.Toml

open Scan

/-! ## Values -/

section Values

/-- Without a bracket in front a value is a single one. -/
theorem run_value_eq_scalar (levels : Nat) {s : List Char}
    (h : ∀ d ∈ s.head?, d ≠ '[' ∧ d ≠ '\x7b') : (value levels).run s = scalar.run s := by
  cases levels with
  | zero => rfl
  | succ levels =>
    have harray : (array (value levels)).run s = none :=
      run_bind_of_none (run_char_of_ne fun d hd => (h d hd).1) _
    have htable : (inlineTable (value levels)).run s = none :=
      run_bind_of_none (run_char_of_ne fun d hd => (h d hd).2) _
    rw [value, run_orElse_of_none harray, run_orElse_of_none htable]

/-- A text between quotes starts with one. -/
theorem head_quoted (s : String) (rest : List Char) :
    ∀ d ∈ ((quoted s).toList ++ rest).head?, d = '"' ∨ d = '\'' := by
  simp only [quoted]
  split_ifs <;> simp [String.toList_ofList]

/-- A quote is not taken for what may stand before an item. -/
theorem head_quoted_ne_gap (s : String) (rest : List Char) :
    ∀ c ∈ ((quoted s).toList ++ rest).head?,
      c ≠ ' ' ∧ c ≠ '\t' ∧ c ≠ '\n' ∧ c ≠ '\r' ∧ c ≠ '#' := by
  intro c hc
  rcases head_quoted s rest c hc with rfl | rfl <;> decide

/-- A text is read back as a value. -/
theorem run_value_quoted (levels : Nat) (s : String) {rest : List Char} (h : NoQuote rest) :
    (value levels).run ((quoted s).toList ++ rest) = some (.string s, rest) := by
  rw [run_value_eq_scalar levels fun d hd => by
    rcases head_quoted s rest d hd with rfl | rfl <;> decide]
  exact run_orElse_of_some (run_bind_of_some (run_string_quoted s h) _) _

/-- The end of a list is no value. -/
theorem run_value_bracket (levels : Nat) (rest : List Char) :
    (value levels).run (']' :: rest) = none := by
  rw [run_value_eq_scalar levels (by simp)]
  rfl

namespace Scan

/-- Takes an item of a list with the blanks around it. -/
def item (value : Scan Setting) : Scan Setting := do
  gap
  let v ← value
  gap
  return v

/-- Takes the items of a list, with a comma behind the last one or without. -/
def items (value : Scan Setting) : Scan (List Setting) := do
  let items ← separated (char ',') (item value)
  let _ ← optional (char ',')
  return items

theorem array_eq (value : Scan Setting) : array value = (do
    char '['
    gap
    let found ← optional (items value)
    gap
    char ']'
    return .list none (found.getD [])) := rfl

end Scan

variable (levels : Nat)

/-- A text is read back as an item, up to a comma or the end of the list. -/
theorem run_item_quoted (s : String) (before : List Char)
    (hbefore : ∀ c ∈ before, c = ' ' ∨ c = '\n') {d : Char} (hd : d = ',' ∨ d = ']')
    (rest : List Char) :
    (item (value levels)).run (before ++ ((quoted s).toList ++ d :: rest)) =
      some (.string s, d :: rest) := by
  have hquote : NoQuote (d :: rest) := by
    rcases hd with rfl | rfl <;> simp [NoQuote]
  have hbehind : gap.run (d :: rest) = some ((), d :: rest) :=
    run_gap_nil (by rcases hd with rfl | rfl <;> simp)
  have hfront : gap.run (before ++ ((quoted s).toList ++ d :: rest)) =
      some ((), (quoted s).toList ++ d :: rest) :=
    run_gap hbefore (head_quoted_ne_gap s _)
  rw [item, run_bind_of_some hfront, run_bind_of_some (run_value_quoted levels s hquote),
    run_bind_of_some hbehind]
  rfl

/-- There is no item at the end of a list. -/
theorem run_item_bracket (before : List Char) (hbefore : ∀ c ∈ before, c = ' ' ∨ c = '\n')
    (rest : List Char) : (item (value levels)).run (before ++ ']' :: rest) = none := by
  rw [item, run_bind_of_some (run_gap hbefore (by simp))]
  exact run_bind_of_none (run_value_bracket levels rest) _

/-- The line of an item in a list that has several. -/
def itemLine (s : String) : List Char :=
  [' ', ' ', ' ', ' '] ++ ((quoted s).toList ++ [',', '\n'])

/-- The items behind the first one are read back, each behind the comma of the one before it. -/
theorem repeats_itemLine (texts : List String) (rest : List Char) :
    Repeats (char ',' >>= fun _ => item (value levels))
      (',' :: '\n' :: (texts.flatMap itemLine ++ ']' :: rest)) (texts.map .string)
      (',' :: '\n' :: ']' :: rest) := by
  induction texts with
  | nil =>
    refine .stop ?_
    rw [run_bind_of_some (run_char_self _ _)]
    exact run_item_bracket levels ['\n'] (by simp) rest
  | cons s texts ih =>
    have hitem := run_item_quoted levels s ['\n', ' ', ' ', ' ', ' '] (by simp)
      (.inl rfl) ('\n' :: (texts.flatMap itemLine ++ ']' :: rest))
    rw [List.flatMap_cons, itemLine]
    simp only [List.cons_append, List.nil_append, List.append_assoc] at hitem ⊢
    refine .turn ((run_bind_of_some (run_char_self _ _) _).trans hitem) ?_ ih
    simp only [List.length_cons, List.length_append]
    omega

variable {levels}

/-- An array is read from its items, with blanks and line ends around them. -/
theorem run_value_array (before behind : List Char) {s rest : List Char}
    {found : Option (List Setting)} (hbefore : ∀ c ∈ before, c = ' ' ∨ c = '\n')
    (hs : ∀ c ∈ s.head?, c ≠ ' ' ∧ c ≠ '\t' ∧ c ≠ '\n' ∧ c ≠ '\r' ∧ c ≠ '#')
    (hfound : (Scan.optional (items (value levels))).run s = some (found, behind ++ ']' :: rest))
    (hbehind : ∀ c ∈ behind, c = ' ' ∨ c = '\n') :
    (value (levels + 1)).run ('[' :: (before ++ s)) = some (.list none (found.getD []), rest) := by
  refine run_orElse_of_some ?_ _
  rw [array_eq, run_bind_of_some (run_char_self _ _), run_bind_of_some (run_gap hbefore hs),
    run_bind_of_some hfound, run_bind_of_some (run_gap hbehind (by simp)),
    run_bind_of_some (run_char_self _ _)]
  rfl

variable (levels)

/-- A list of texts is read back as a value. -/
theorem run_value_textList (texts : List String) (rest : List Char) :
    (value (levels + 1)).run ((textList texts).toList ++ rest) =
      some (.list none (texts.map .string), rest) := by
  match texts with
  | [] =>
    have hnone : (items (value levels)).run (']' :: rest) = none :=
      run_bind_of_none (run_separated_of_none (run_item_bracket levels []
        (by simp) rest)) _
    exact run_value_array [] [] (by simp) (by simp)
      (run_optional_of_none hnone) (by simp)
  | [s] =>
    -- A single item stands on the line of the brackets, without a comma.
    have hitem : (item (value levels)).run ((quoted s).toList ++ ']' :: rest) =
        some (.string s, ']' :: rest) :=
      run_item_quoted levels s [] (by simp) (.inr rfl) rest
    have hcomma : (char ',').run (']' :: rest) = none := run_char_of_ne (by simp)
    have hitems : (items (value levels)).run ((quoted s).toList ++ ']' :: rest) =
        some ([.string s], ']' :: rest) := by
      rw [items, run_bind_of_some (run_separated hitem (.stop (run_bind_of_none hcomma _))),
        run_bind_of_some (run_optional_of_none hcomma)]
      rfl
    have hlist := run_value_array [] [] (by simp)
      (head_quoted_ne_gap s _) (run_optional_of_some hitems) (by simp)
    simpa [textList] using hlist
  | s :: t :: texts =>
    -- Several items have a line each, and the comma behind the last one is taken as an extra one.
    set behind := ',' :: '\n' :: ((t :: texts).flatMap itemLine ++ ']' :: rest) with hbehind
    have hitem : (item (value levels)).run ((quoted s).toList ++ behind) =
        some (.string s, behind) :=
      run_item_quoted levels s [] (by simp) (.inl rfl) _
    have hitems : (items (value levels)).run ((quoted s).toList ++ behind) =
        some (.string s :: (t :: texts).map .string, '\n' :: ']' :: rest) := by
      rw [items, run_bind_of_some (run_separated hitem (repeats_itemLine levels _ rest)),
        run_bind_of_some (run_optional_of_some (run_char_self _ _))]
      rfl
    have hlist := run_value_array ['\n', ' ', ' ', ' ', ' '] ['\n']
      (by simp) (head_quoted_ne_gap s _) (run_optional_of_some hitems) (by simp)
    have htext : (textList (s :: t :: texts)).toList ++ rest =
        '[' :: (['\n', ' ', ' ', ' ', ' '] ++ ((quoted s).toList ++ behind)) := by
      have hline : itemLine = fun s => ("    " ++ quoted s ++ ",\n").toList := by
        funext s
        simp [itemLine]
      simp [textList, hbehind, List.flatMap_map, hline]
    rw [htext]
    exact hlist

end Values

/-! ## Lines -/

/-- Whether a character may stand in a key without quotes. -/
def isBareChar (c : Char) : Bool :=
  c.isAlphanum || c == '_' || c == '-'

/-- Whether a name may stand as a key without quotes. -/
def IsBare (name : String) : Prop :=
  name.toList ≠ [] ∧ name.toList.all isBareChar = true

instance (name : String) : Decidable (IsBare name) :=
  inferInstanceAs (Decidable (_ ∧ _))

section Keys

variable {name : String} (hname : IsBare name)
include hname

theorem IsBare.forall_isBareChar : ∀ c ∈ name.toList, isBareChar c = true :=
  List.all_eq_true.mp hname.2

/-- A bare name starts with no other character. -/
theorem IsBare.head_ne {d : Char} (hd : isBareChar d = false) (rest : List Char) :
    ∀ c ∈ (name.toList ++ rest).head?, c ≠ d := by
  have hchars := hname.forall_isBareChar
  obtain ⟨c, cs, hcs⟩ := List.exists_cons_of_ne_nil hname.1
  rw [hcs] at hchars ⊢
  rintro c' ⟨rfl⟩ rfl
  rw [hchars c List.mem_cons_self] at hd
  cases hd

/-- A bare name is read as a key up to the next character. -/
theorem run_key (blanks : List Char) (hblanks : ∀ c ∈ blanks, c = ' ' ∨ c = '\t') {d : Char}
    (hd : isBareChar d = false ∧ d ≠ ' ' ∧ d ≠ '\t' ∧ d ≠ '.') (rest : List Char) :
    key.run (name.toList ++ (blanks ++ d :: rest)) = some ([name], d :: rest) := by
  set behind := blanks ++ d :: rest with hbehind
  have hbare : ∀ c ∈ behind.head?, isBareChar c = false := by
    intro c hc
    cases blanks with
    | nil =>
      cases hc
      exact hd.1
    | cons b blanks =>
      cases hc
      rcases hblanks c List.mem_cons_self with rfl | rfl <;> decide
  have hbefore : Scan.blanks.run (name.toList ++ behind) = some ((), name.toList ++ behind) :=
    run_blanks_nil fun c hc =>
      ⟨hname.head_ne (by decide) behind c hc, hname.head_ne (by decide) behind c hc⟩
  have hsimple : simpleKey.run (name.toList ++ behind) = some (name, behind) := by
    have hbasic : basicString.run (name.toList ++ behind) = none :=
      run_bind_of_none (run_char_of_ne (hname.head_ne (by decide) behind)) _
    have hliteral : literalString.run (name.toList ++ behind) = none :=
      run_bind_of_none (run_char_of_ne (hname.head_ne (by decide) behind)) _
    rw [simpleKey, run_orElse_of_none hbasic, run_orElse_of_none hliteral]
    refine (run_bind_of_some (run_whileTrue hname.forall_isBareChar hbare) _).trans ?_
    rw [if_neg (by simpa using hname.1), String.ofList_toList]
    rfl
  -- The blanks before the next character belong to the key, which has no second part.
  have hbetween : Scan.blanks.run behind = some ((), d :: rest) :=
    run_blanks blanks hblanks (by simpa using ⟨hd.2.1, hd.2.2.1⟩)
  have hpart : (do Scan.blanks; let k ← simpleKey; Scan.blanks; return k : Scan String).run
      (name.toList ++ behind) = some (name, d :: rest) := by
    rw [run_bind_of_some hbefore, run_bind_of_some hsimple, run_bind_of_some hbetween]
    rfl
  have hpoint : (char '.').run (d :: rest) = none := run_char_of_ne (by simpa using hd.2.2.2)
  exact run_separated hpart (.stop (run_bind_of_none hpoint _))

end Keys

/-- A line without anything is read as such. -/
theorem run_line_blank (rest : List Char) : line.run ('\n' :: rest) = some (.blank, rest) := by
  rw [line, run_bind_of_some (run_blanks_nil (by simp)), run_bind_of_some (run_rest _)]
  exact run_bind_of_some (run_lineRest rest) _

/-- A line that starts a table is read as such. -/
theorem run_line_table {title : String} (h : IsBare title) (rest : List Char) :
    line.run (("[" ++ title ++ "]\n").toList ++ rest) = some (.table [title], rest) := by
  set s := title.toList ++ ']' :: '\n' :: rest with hs
  have htext : ("[" ++ title ++ "]\n").toList ++ rest = '[' :: s := by simp [hs]
  have hkey : key.run s = some ([title], ']' :: '\n' :: rest) :=
    run_key h [] (by simp) (by decide) _
  rw [htext, line, run_bind_of_some (run_blanks_nil (by simp)), run_bind_of_some (run_rest _)]
  split
  · contradiction
  · -- A second bracket would start an item of a list.
    rename_i heq
    have hhead := h.head_ne (d := '[') (by decide) (']' :: '\n' :: rest)
    rw [← hs, (List.cons.inj heq).2] at hhead
    exact absurd rfl (hhead '[' rfl)
  · rw [run_bind_of_some (run_char_self _ _), run_bind_of_some hkey,
      run_bind_of_some (run_char_self _ _), run_bind_of_some (run_lineRest _)]
    rfl
  · rename_i hbracket heq
    exact (hbracket (List.cons.inj heq).1.symm).elim

/-- A line that starts with a character of a name sets a key. -/
theorem run_line_of_isBareChar {c : Char} (hc : isBareChar c = true) (s : List Char) :
    line.run (c :: s) = (do
      let k ← key
      char '='
      blanks
      let v ← value maxLevels
      lineRest
      return Line.pair k v : Scan Line).run (c :: s) := by
  -- The character starts none of the other lines.
  have hne {d : Char} (hd : isBareChar d = false) : c ≠ d := by
    rintro rfl
    rw [hc] at hd
    cases hd
  have hblanks : blanks.run (c :: s) = some ((), c :: s) :=
    run_blanks_nil (by simpa using ⟨hne (by decide), hne (by decide)⟩)
  rw [line, run_bind_of_some hblanks, run_bind_of_some (run_rest _)]
  split
  · contradiction
  · rename_i heq
    exact absurd (List.cons.inj heq).1 (hne (by decide))
  · rename_i heq
    exact absurd (List.cons.inj heq).1 (hne (by decide))
  · rename_i heq
    obtain ⟨rfl, -⟩ := List.cons.inj heq
    rw [if_neg (by simp [hne (d := '#') (by decide), hne (d := '\n') (by decide),
      hne (d := '\r') (by decide)])]

/-- A line that sets a name is read as such. -/
theorem run_line_setting {name text : String} (h : IsBare name) {v : Setting}
    (hread : ∀ rest, NoQuote rest → (value maxLevels).run (text.toList ++ rest) = some (v, rest))
    (hhead : ∀ rest, ∀ c ∈ (text.toList ++ rest).head?, c ≠ ' ' ∧ c ≠ '\t') (rest : List Char) :
    line.run ((settingLine name text).toList ++ rest) = some (.pair [name] v, rest) := by
  set behind := text.toList ++ '\n' :: rest with hbehind
  have htext : (settingLine name text).toList ++ rest =
      name.toList ++ ([' '] ++ '=' :: ' ' :: behind) := by
    simp [settingLine, hbehind]
  have hkey := run_key h [' '] (by simp) (d := '=') (by decide) (' ' :: behind)
  have hbetween : blanks.run (' ' :: behind) = some ((), behind) :=
    run_blanks [' '] (by simp) (hhead _)
  have hvalue := hread ('\n' :: rest) (by simp [NoQuote])
  obtain ⟨c, cs, hcs⟩ := List.exists_cons_of_ne_nil h.1
  have hline := run_line_of_isBareChar (h.forall_isBareChar c (hcs ▸ List.mem_cons_self))
    (cs ++ ([' '] ++ '=' :: ' ' :: behind))
  rw [← List.cons_append, ← hcs] at hline
  rw [htext, hline, run_bind_of_some hkey, run_bind_of_some (run_char_self _ _),
    run_bind_of_some hbetween, run_bind_of_some hvalue, run_bind_of_some (run_lineRest _)]
  rfl

/-! ## Documents -/

/-- A text is read as lines that have been ended, whatever lines follow. -/
def ReadsLines (text : String) (lines : List Line) : Prop :=
  ∀ ⦃rest : List Char⦄ ⦃more : List Line⦄ ⦃behind : List Char⦄, Repeats line rest more behind →
    Repeats line (text.toList ++ rest) (lines ++ more) behind

namespace ReadsLines

theorem empty : ReadsLines "" [] :=
  fun _ _ _ h => h

/-- A text that joins two is read as the lines of the one and those of the other. -/
theorem append {t t' : String} {lines lines' : List Line} (h : ReadsLines t lines)
    (h' : ReadsLines t' lines') : ReadsLines (t ++ t') (lines ++ lines') := by
  intro rest more behind hrest
  rw [String.toList_append, List.append_assoc, List.append_assoc]
  exact h (h' hrest)

/-- A text that is taken as a line whatever follows it is read as this line. -/
theorem of_line {t : String} {l : Line} (hne : t ≠ "")
    (h : ∀ rest, line.run (t.toList ++ rest) = some (l, rest)) : ReadsLines t [l] := by
  intro rest more behind hrest
  exact .turn (h rest) (length_lt_append (fun hnil => hne (String.toList_eq_nil_iff.mp hnil)) _)
    hrest

/-- So are texts that are joined. -/
theorem join {ι : Type} {text : ι → String} {lines : ι → Line} {items : List ι}
    (h : ∀ i ∈ items, ReadsLines (text i) [lines i]) :
    ReadsLines (String.join (items.map text)) (items.map lines) := by
  induction items with
  | nil => exact empty
  | cons i items ih =>
    obtain ⟨hi, hitems⟩ := List.forall_mem_cons.mp h
    rw [List.map_cons, String.join_cons]
    exact hi.append (ih hitems)

theorem blank : ReadsLines "\n" [.blank] :=
  of_line (by decide) run_line_blank

theorem table {title : String} (h : IsBare title) :
    ReadsLines ("[" ++ title ++ "]\n") [.table [title]] := by
  refine of_line (fun heq => ?_) (run_line_table h)
  have hnil := congrArg String.toList heq
  simp at hnil

/-- A line that sets a name to a value is read as such, if the value is read back and has no blanks
in front. -/
theorem setting {name text : String} (h : IsBare name) {v : Setting}
    (hread : ∀ rest, NoQuote rest → (value maxLevels).run (text.toList ++ rest) = some (v, rest))
    (hhead : ∀ rest, ∀ c ∈ (text.toList ++ rest).head?, c ≠ ' ' ∧ c ≠ '\t') :
    ReadsLines (settingLine name text) [.pair [name] v] := by
  refine of_line (fun heq => ?_) (run_line_setting h hread hhead)
  have hnil := congrArg String.toList heq
  simp [settingLine] at hnil

/-- So is one that sets a name to a text. -/
theorem quoted {name : String} (h : IsBare name) (s : String) :
    ReadsLines (settingLine name (Toml.quoted s)) [.pair [name] (.string s)] :=
  setting h (fun _ hrest => run_value_quoted maxLevels s hrest) fun rest c hc => by
    rcases head_quoted s rest c hc with rfl | rfl <;> decide

/-- So is one that sets a name to a list of texts. -/
theorem textList {name : String} (h : IsBare name) (texts : List String) :
    ReadsLines (settingLine name (Multibinding.textList texts))
      [.pair [name] (.list none (texts.map .string))] := by
  refine setting h (fun rest _ => run_value_textList (maxLevels - 1) texts rest) fun rest c hc => ?_
  have hopen : (Multibinding.textList texts).toList.head? = some '[' := by
    match texts with
    | [] => rfl
    | [s] => simp [Multibinding.textList]
    | s :: t :: texts => simp [Multibinding.textList]
  rw [List.head?_append, hopen] at hc
  cases hc
  decide

/-- The lines of a text are those of the document that it is. -/
theorem run_document {text : String} {lines : List Line} (h : ReadsLines text lines)
    (hmark : ∀ c ∈ text.toList.head?, c ≠ '\ufeff') :
    document.run text.toList = some (lines, []) := by
  have hend : line.run [] = none := rfl
  have hrepeats := h (.stop hend)
  rw [List.append_nil, List.append_nil] at hrepeats
  rw [document, run_bind_of_some (run_optional_of_none (run_char_of_ne hmark)),
    run_bind_of_some hrepeats.run_many]
  rfl

end ReadsLines

end Multibinding.Toml
