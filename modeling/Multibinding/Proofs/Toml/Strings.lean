import Multibinding.Proofs.Toml.Scanning
import Multibinding.Toml.Quoted

/-!
# Strings are read as they were written

A text is written in one of four forms. Between single quotes it stands as it is, between double
quotes some of its characters are escaped, and between three quotes of a kind up to two of them in a
row may stand as they are, also at the end. Whichever form is chosen, the text is read back.

* `written_escaped`: how a character is written between double quotes;
* `LongBody.exists_pieces`: how a string between three quotes falls into pieces;
* `run_string_quoted`: a text is read back from its quoted form, whatever follows but a quote.
-/

namespace Multibinding.Toml

open Scan

/-! ## Escapes -/

section Escapes

/-- The digits of an escape are four and write the code of the character. -/
theorem hexDigits_escapeDigits {c : Char} (h : needsEscape c = true) :
    (escapeDigits c).length = 4 ∧
      (escapeDigits c).all (fun d => d.isDigit || ('a' ≤ d.toLower && d.toLower ≤ 'f')) = true ∧
      valueIn 16 (escapeDigits c) = c.toNat := by
  -- Only characters of ASCII are written as codes, so that few have to be looked at.
  have hsmall : c.toNat < 128 := by
    simp only [needsEscape, Bool.or_eq_true, Bool.and_eq_true, decide_eq_true_eq,
      beq_iff_eq] at h
    rcases h with ⟨⟨hlt, -⟩, -⟩ | rfl
    · exact Nat.lt_trans (show c.toNat < 32 from hlt) (by decide)
    · decide
  have hall : ∀ n < 128, (escapeDigits (Char.ofNat n)).length = 4 ∧
      (escapeDigits (Char.ofNat n)).all
        (fun d => d.isDigit || ('a' ≤ d.toLower && d.toLower ≤ 'f')) = true ∧
      valueIn 16 (escapeDigits (Char.ofNat n)) = (Char.ofNat n).toNat := by
    decide +kernel
  simpa only [Char.ofNat_toNat] using hall c.toNat hsmall

/-- As many characters are taken as are wanted, although more could follow. -/
theorem run_atMost_satisfying {p : Char → Bool} {cs : List Char} (h : ∀ c ∈ cs, p c = true)
    (rest : List Char) : (atMost cs.length (satisfying p)).run (cs ++ rest) = some (cs, rest) := by
  induction cs with
  | nil => rfl
  | cons c cs ih =>
    obtain ⟨hc, hcs⟩ := List.forall_mem_cons.mp h
    rw [List.length_cons, atMost, List.cons_append,
      run_bind_of_some (run_optional_of_some (run_satisfying hc _))]
    dsimp only
    rw [run_bind_of_some (ih hcs)]
    rfl

/-- A character is read from the digits of its escape. -/
theorem run_hexChar {c : Char} (h : needsEscape c = true) (rest : List Char) :
    (hexChar 4).run (escapeDigits c ++ rest) = some (c, rest) := by
  obtain ⟨hlength, hdigits, hvalue⟩ := hexDigits_escapeDigits h
  have htake := run_atMost_satisfying (List.all_eq_true.mp hdigits) rest
  rw [hlength] at htake
  have hvalid : c.toNat.isValidChar := c.valid
  rw [valueIn] at hvalue
  rw [hexChar, run_bind_of_some htake]
  simp only [hvalue, hlength, hvalid, decide_true, Bool.and_self, if_true, Char.ofNat_toNat]
  rfl

/-- How a character may be written between double quotes, `run` of which stand right before it. -/
inductive Written (quotes run : Nat) (c : Char) : List Char → Prop
  /-- As an escape, whose first letter is not taken for the end of the line. -/
  | escape {d : Char} {e : List Char} (hd : d ≠ ' ' ∧ d ≠ '\t' ∧ d ≠ '\n' ∧ d ≠ '\r')
      (hread : ∀ rest, escape.run (d :: e ++ rest) = some (c, rest)) :
      Written quotes run c ('\\' :: d :: e)
  /-- As a quote of a short run. -/
  | quote (hc : c = '"') (hrun : run < quotes) : Written quotes run c [c]
  /-- As a line feed in a string of several lines. -/
  | lineFeed (hc : c = '\n') (hquotes : quotes ≠ 0) : Written quotes run c [c]
  /-- As it is. -/
  | plain (hplain : isPlain c = true) (hquote : c ≠ '"') (hslash : c ≠ '\\') :
      Written quotes run c [c]

/-- What needs no escape may stand as it is, apart from a line feed. -/
theorem isPlain_of_not_needsEscape {c : Char} (h : needsEscape c = false) (hfeed : c ≠ '\n') :
    isPlain c = true := by
  simp only [needsEscape, Bool.or_eq_false_iff, Bool.and_eq_false_iff, decide_eq_false_iff_not,
    bne_eq_false_iff_eq, beq_eq_false_iff_ne] at h
  simp only [isPlain, isCommentChar, Bool.or_eq_true, Bool.and_eq_true, decide_eq_true_eq,
    bne_iff_ne, beq_iff_eq]
  rcases h with ⟨(hge | htab) | hline, hdelete⟩
  · exact .inr ⟨Char.not_lt.mp hge, hdelete⟩
  · exact .inl htab
  · exact absurd hline hfeed

/-- What may stand as it is ends no line. -/
theorem ne_of_isPlain {c : Char} (h : isPlain c = true) : c ≠ '\n' ∧ c ≠ '\r' := by
  constructor <;> rintro rfl <;> exact absurd h (by decide)

/-- Every character is written in one of these ways. -/
theorem written_escaped (quotes run : Nat) (c : Char) :
    Written quotes run c (escaped quotes run c) := by
  -- The cases are those of `escaped`: the quote, the line feed and what has no escape of its own
  -- may stand as they are, and all others are short escapes.
  rw [escaped.eq_def]
  split
  case h_1 =>
    split
    · exact .quote rfl ‹_›
    · exact .escape (by decide) fun _ => rfl
  case h_2 =>
    split
    · exact .escape (by decide) fun _ => rfl
    · exact .lineFeed rfl ‹_›
  case h_8 hquote hfeed _ _ _ _ hslash =>
    split
    · rename_i hcode
      exact .escape (by decide) (run_hexChar hcode)
    · rename_i hcode
      exact .plain (isPlain_of_not_needsEscape (eq_false_of_ne_true hcode) hfeed) hquote hslash
  all_goals exact .escape (by decide) fun _ => rfl

theorem Written.ne_nil {quotes run : Nat} {c : Char} {t : List Char}
    (h : Written quotes run c t) : t ≠ [] := by
  cases h <;> exact List.cons_ne_nil _ _

end Escapes

/-! ## Strings of one line -/

section OneLine

/-- Takes a character of a string between double quotes. -/
def Scan.basicChar : Scan Char := do
  match ← next with
  | '"' => failure
  | '\\' => escape
  | c => if isPlain c then return c else failure

theorem run_basicChar {run : Nat} {c : Char} {t : List Char} (h : Written 0 run c t)
    (rest : List Char) : basicChar.run (t ++ rest) = some (c, rest) := by
  cases h with
  | escape _ hread => exact hread rest
  | quote _ hrun => exact absurd hrun (Nat.not_lt_zero run)
  | lineFeed _ hquotes => exact absurd rfl hquotes
  | plain hplain hquote hslash =>
    rw [List.singleton_append, basicChar, run_bind_of_some (run_next c rest)]
    split
    · exact absurd rfl hquote
    · exact absurd rfl hslash
    · rw [if_pos hplain]
      rfl

/-- The characters up to the quote at the end are read back. -/
theorem repeats_basicChar (run : Nat) (cs rest : List Char) :
    Repeats basicChar (escapedText 0 run cs ++ '"' :: rest) cs ('"' :: rest) := by
  induction cs generalizing run with
  | nil => exact .stop rfl
  | cons c cs ih =>
    have hwritten := written_escaped 0 run c
    rw [escapedText, List.append_assoc]
    exact .turn (run_basicChar hwritten _) (length_lt_append hwritten.ne_nil _) (ih _)

theorem run_basicString (cs rest : List Char) :
    basicString.run ('"' :: (escapedText 0 0 cs ++ '"' :: rest)) =
      some (String.ofList cs, rest) := by
  rw [basicString, run_bind_of_some (run_char_self _ _)]
  refine (run_bind_of_some (repeats_basicChar 0 cs rest).run_many _).trans ?_
  rw [run_bind_of_some (run_char_self _ _)]
  rfl

theorem run_literalString {cs : List Char} (hcs : ∀ c ∈ cs, isPlain c = true ∧ c ≠ '\'')
    (rest : List Char) :
    literalString.run ('\'' :: (cs ++ '\'' :: rest)) = some (String.ofList cs, rest) := by
  rw [literalString, run_bind_of_some (run_char_self _ _),
    run_bind_of_some (run_whileTrue (by simpa using hcs) (by simp)),
    run_bind_of_some (run_char_self _ _)]
  rfl

end OneLine

/-! ## Strings of several lines -/

namespace Scan

/-- A text between three quotes of a kind and what it stands for, where `run` quotes stand right
before the text. -/
inductive LongBody (quote : Char) (other : Scan (List Char)) :
    Nat → List Char → List Char → Prop
  | nil (run : Nat) : LongBody quote other run [] []
  /-- A quote of a short run stands for itself. -/
  | quote {run : Nat} {t cs : List Char} (hrun : run < 2)
      (hbody : LongBody quote other (run + 1) t cs) :
      LongBody quote other run (quote :: t) (quote :: cs)
  /-- Another character is read from a text that does not start with a quote. -/
  | char {run : Nat} {c d : Char} (first : List Char) {t cs : List Char} (hd : d ≠ quote)
      (hread : ∀ rest, (lineFeed <|> other).run (d :: first ++ rest) = some ([c], rest))
      (hbody : LongBody quote other 0 t cs) :
      LongBody quote other run (d :: first ++ t) (c :: cs)

section Long

variable {quote : Char} {other : Scan (List Char)} {s : List Char}

/-- A run of quotes goes up to another character. -/
theorem takeWhile_replicate_append (hs : ∀ d ∈ s.head?, d ≠ quote) (n : Nat) :
    (List.replicate n quote ++ s).takeWhile (· == quote) = List.replicate n quote := by
  rw [List.takeWhile_append_of_pos (by simp [List.mem_replicate])]
  cases s with
  | nil => simp
  | cons d s => simp [hs d rfl]

/-- A short run of quotes is a piece. -/
theorem run_longPiece_replicate (hs : ∀ d ∈ s.head?, d ≠ quote) {n : Nat} (hpos : 0 < n)
    (hn : n < 3) : (longPiece quote other).run (List.replicate n quote ++ s) =
      some (List.replicate n quote, s) := by
  rw [longPiece, run_bind_of_some (run_rest _), takeWhile_replicate_append hs]
  split
  · rename_i hnil
    exact absurd (by simpa using hnil) (Nat.pos_iff_ne_zero.mp hpos)
  · rw [if_pos (by rwa [List.length_replicate]), run_bind_of_some (run_rest _), List.drop_left]
    rfl

/-- A long run ends the string. -/
theorem run_longPiece_end (hs : ∀ d ∈ s.head?, d ≠ quote) (n : Nat) :
    (longPiece quote other).run (List.replicate (n + 3) quote ++ s) = none := by
  rw [longPiece, run_bind_of_some (run_rest _), takeWhile_replicate_append hs, List.replicate_succ]
  dsimp only
  rw [if_neg (by simp)]
  rfl

/-- Where there is no quote, something else is a piece. -/
theorem run_longPiece_of_ne (hs : ∀ d ∈ s.head?, d ≠ quote) :
    (longPiece quote other).run s = (lineFeed <|> other).run s := by
  have hnone := takeWhile_replicate_append hs 0
  rw [List.replicate_zero, List.nil_append] at hnone
  rw [longPiece, run_bind_of_some (run_rest _), hnone]

/-- Of the quotes at the end, all but three belong to the string. -/
theorem run_longEnd (hs : ∀ d ∈ s.head?, d ≠ quote) {n : Nat} (hn : n ≤ 2) :
    (longEnd quote).run (List.replicate (n + 3) quote ++ s) =
      some (List.replicate n quote, s) := by
  have htake : (List.replicate (n + 3) quote).take 5 = List.replicate (n + 3) quote :=
    List.take_of_length_le (by rw [List.length_replicate]; omega)
  rw [longEnd, run_bind_of_some (run_rest _)]
  dsimp only
  rw [takeWhile_replicate_append hs, htake, if_neg (by simp), run_bind_of_some (run_rest _),
    List.drop_left, List.drop_replicate]
  rfl

/-- A string between three quotes falls into pieces and the quotes that end it. -/
theorem LongBody.exists_pieces {run : Nat} {t cs : List Char} (h : LongBody quote other run t cs)
    (hrun : run ≤ 2) (hs : ∀ d ∈ s.head?, d ≠ quote) :
    ∃ pieces n, n ≤ 2 ∧
      Repeats (longPiece quote other)
        (List.replicate run quote ++ (t ++ (List.replicate 3 quote ++ s))) pieces
        (List.replicate (n + 3) quote ++ s) ∧
      pieces.flatten ++ List.replicate n quote = List.replicate run quote ++ cs := by
  -- The induction is on the text, with the run of quotes before it kept apart: whether this run is
  -- a piece or belongs to the end shows only behind it.
  induction h with
  | nil run =>
    have hjoin : List.replicate run quote ++ ([] ++ (List.replicate 3 quote ++ s)) =
        List.replicate (run + 3) quote ++ s := by
      rw [List.nil_append, ← List.append_assoc, List.replicate_append_replicate]
    refine ⟨[], run, hrun, ?_, by simp⟩
    rw [hjoin]
    exact .stop (run_longPiece_end hs run)
  | @quote run t cs hshort _ ih =>
    -- The quote makes the run before it longer.
    obtain ⟨pieces, n, hn, hrepeats, heq⟩ := ih hshort
    have hjoin (u : List Char) :
        List.replicate run quote ++ quote :: u = List.replicate (run + 1) quote ++ u := by
      rw [List.replicate_succ', List.append_assoc, List.singleton_append]
    exact ⟨pieces, n, hn, by rwa [List.cons_append, hjoin], by rwa [hjoin]⟩
  | @char run c d first t cs hd hread _ ih =>
    obtain ⟨pieces, n, hn, hrepeats, heq⟩ := ih (Nat.zero_le 2)
    rw [List.replicate_zero, List.nil_append] at hrepeats
    set behind := t ++ (List.replicate 3 quote ++ s) with hbehind
    have hhead : ∀ e ∈ (d :: first ++ behind).head?, e ≠ quote := by simpa using hd
    have hone : Repeats (longPiece quote other) (d :: first ++ behind) ([c] :: pieces)
        (List.replicate (n + 3) quote ++ s) :=
      .turn ((run_longPiece_of_ne hhead).trans (hread _))
        (length_lt_append (List.cons_ne_nil _ _) _) hrepeats
    rw [List.append_assoc, ← hbehind]
    rcases Nat.eq_zero_or_pos run with rfl | hpos
    · exact ⟨[c] :: pieces, n, hn, hone, by simpa using heq⟩
    · -- The run before the character is a piece of its own.
      have hne : List.replicate run quote ≠ [] := by
        simpa using Nat.pos_iff_ne_zero.mp hpos
      exact ⟨List.replicate run quote :: [c] :: pieces, n, hn,
        .turn (run_longPiece_replicate hhead hpos (by omega)) (length_lt_append hne _) hone,
        by simpa using heq⟩

/-- A string between three quotes is read as what it stands for. A line end behind the first quotes
does not belong to it. -/
theorem run_longString {t cs : List Char} (h : LongBody quote other 0 t cs)
    (hs : ∀ d ∈ s.head?, d ≠ quote) {lead : List Char}
    (hlead : lead = ['\n'] ∨
      lead = [] ∧ ∀ d ∈ (t ++ [quote]).head?, d ≠ '\n' ∧ d ≠ '\r') :
    (longString quote other).run
        (List.replicate 3 quote ++ (lead ++ (t ++ (List.replicate 3 quote ++ s)))) =
      some (String.ofList cs, s) := by
  obtain ⟨pieces, n, hn, hrepeats, heq⟩ := h.exists_pieces (Nat.zero_le 2) hs
  rw [List.replicate_zero, List.nil_append] at hrepeats heq
  have hopen := run_text_append (String.ofList [quote, quote, quote])
    (lead ++ (t ++ (List.replicate 3 quote ++ s)))
  rw [String.toList_ofList] at hopen
  -- Without a line end in front, none is taken, as the first character of the string is not one.
  have hlines : ∃ a, (optional lineEnd).run (lead ++ (t ++ (List.replicate 3 quote ++ s))) =
      some (a, t ++ (List.replicate 3 quote ++ s)) := by
    rcases hlead with rfl | ⟨rfl, hhead⟩
    · exact ⟨some (), run_optional_of_some (run_lineEnd _)⟩
    · refine ⟨none, run_optional_of_none (run_lineEnd_of_ne ?_)⟩
      cases t with
      | nil => exact hhead
      | cons d t => exact hhead
  obtain ⟨a, hlines⟩ := hlines
  rw [longString]
  refine (run_bind_of_some hopen _).trans ?_
  rw [run_bind_of_some hlines, run_bind_of_some hrepeats.run_many,
    run_bind_of_some (run_longEnd hs hn), heq]
  rfl

end Long

/-- Takes a character of a string of several lines between double quotes. -/
def longBasicChar : Scan (List Char) :=
  joinedLine <|> (do
    char '\\'
    return [← escape]) <|> plainChar

/-- Takes a character of a string of several lines between single quotes. -/
def longLiteralChar : Scan (List Char) := do
  return [← satisfying isPlain]

theorem run_lineFeed (rest : List Char) : lineFeed.run ('\n' :: rest) = some (['\n'], rest) :=
  run_bind_of_some (run_lineEnd rest) _

theorem run_lineFeed_of_ne {s : List Char} (h : ∀ c ∈ s.head?, c ≠ '\n' ∧ c ≠ '\r') :
    lineFeed.run s = none :=
  run_bind_of_none (run_lineEnd_of_ne h) _

/-- A backslash before a letter does not join lines. -/
theorem run_joinedLine_of_ne {d : Char} (hd : d ≠ ' ' ∧ d ≠ '\t' ∧ d ≠ '\n' ∧ d ≠ '\r')
    (rest : List Char) : joinedLine.run ('\\' :: d :: rest) = none := by
  have hblank : ∀ c ∈ (d :: rest).head?, c ≠ ' ' ∧ c ≠ '\t' := by simpa using ⟨hd.1, hd.2.1⟩
  have hline : ∀ c ∈ (d :: rest).head?, c ≠ '\n' ∧ c ≠ '\r' := by simpa using hd.2.2
  rw [joinedLine, run_bind_of_some (run_char_self _ _), run_bind_of_some (run_blanks_nil hblank)]
  exact run_bind_of_none (run_lineEnd_of_ne hline) _

/-- A character that is written by anything but a quote is taken as itself. -/
theorem run_longBasicChar {run : Nat} {c : Char} {t : List Char} (h : Written 2 run c t)
    (hquote : ¬(c = '"' ∧ run < 2)) : ∃ d first, t = d :: first ∧ d ≠ '"' ∧
      ∀ rest, (lineFeed <|> longBasicChar).run (d :: first ++ rest) = some ([c], rest) := by
  cases h with
  | @escape d e hd hread =>
    refine ⟨'\\', d :: e, rfl, by decide, fun rest => ?_⟩
    rw [run_orElse_of_none (run_lineFeed_of_ne (by simp)), longBasicChar, List.cons_append,
      List.cons_append, run_orElse_of_none (run_joinedLine_of_ne hd _)]
    exact run_orElse_of_some ((run_bind_of_some (run_char_self _ _) _).trans
      (run_bind_of_some (hread rest) _)) _
  | quote hc hrun => exact absurd ⟨hc, hrun⟩ hquote
  | lineFeed hc _ =>
    subst hc
    exact ⟨'\n', [], rfl, by decide, fun rest => run_orElse_of_some (run_lineFeed rest) _⟩
  | plain hplain hne hslash =>
    refine ⟨c, [], rfl, hne, fun rest => ?_⟩
    -- The character is taken by the last alternative, as none of those before it fits.
    have hfirst : ∀ d ∈ (c :: rest).head?, d ≠ '\\' := by simpa using hslash
    have hline : ∀ d ∈ (c :: rest).head?, d ≠ '\n' ∧ d ≠ '\r' := by
      simpa using ne_of_isPlain hplain
    have hjoined : joinedLine.run (c :: rest) = none :=
      run_bind_of_none (run_char_of_ne hfirst) _
    rw [List.singleton_append, run_orElse_of_none (run_lineFeed_of_ne hline), longBasicChar,
      run_orElse_of_none hjoined]
    refine (run_orElse_of_none (run_bind_of_none (run_char_of_ne hfirst) _) _).trans ?_
    exact run_bind_of_some (run_satisfying (by simp [hplain, hslash]) rest) _

/-- What is written between double quotes stands for the characters that were written. -/
theorem longBody_escapedText (cs : List Char) {run : Nat} (hrun : run ≤ 2) :
    LongBody '"' longBasicChar run (escapedText 2 run cs) cs := by
  induction cs generalizing run with
  | nil => exact .nil run
  | cons c cs ih =>
    rw [escapedText]
    by_cases hquote : c = '"' ∧ run < 2
    · obtain ⟨rfl, hlt⟩ := hquote
      have hself : escaped 2 run '"' = ['"'] := if_pos hlt
      rw [hself, if_pos ⟨rfl, hlt⟩]
      exact .quote hlt (ih hlt)
    · obtain ⟨d, first, heq, hd, hread⟩ := run_longBasicChar (written_escaped 2 run c) hquote
      rw [if_neg hquote, heq]
      exact .char first hd hread (ih (Nat.zero_le 2))

end Scan

/-! ## Runs of quotes -/

/-- No more than `limit` of a character stand in a row, where `run` of them stand right before the
text. -/
def RunsWithin (c : Char) (limit run : Nat) : List Char → Prop
  | [] => True
  | d :: s =>
    if d = c then run + 1 ≤ limit ∧ RunsWithin c limit (run + 1) s else RunsWithin c limit 0 s

/-- What the longest run says about all runs. -/
theorem longestRun_le_iff {c : Char} {limit : Nat} {s : List Char} :
    longestRun c s ≤ limit ↔ RunsWithin c limit 0 s := by
  -- The fold starts anywhere: with a longest run so far and a run that has not ended.
  have hfold (s : List Char) (longest run : Nat) :
      (s.foldl (fun (p : Nat × Nat) d =>
        if d = c then (max p.1 (p.2 + 1), p.2 + 1) else (p.1, 0)) (longest, run)).1 ≤ limit ↔
        longest ≤ limit ∧ RunsWithin c limit run s := by
    induction s generalizing longest run with
    | nil => simp [RunsWithin]
    | cons d s ih =>
      rw [List.foldl_cons, RunsWithin]
      split
      · rw [ih, Nat.max_le, and_assoc]
      · rw [ih]
  rw [longestRun, hfold]
  exact and_iff_right (Nat.zero_le limit)

/-- Where there is no run, the character does not occur. -/
theorem RunsWithin.notMem {c : Char} {run : Nat} {s : List Char} (h : RunsWithin c 0 run s) :
    c ∉ s := by
  induction s generalizing run with
  | nil => exact List.not_mem_nil
  | cons d s ih =>
    rw [RunsWithin] at h
    split at h
    · exact absurd h.1 (Nat.not_succ_le_zero run)
    · rename_i hne
      exact List.not_mem_cons_of_ne_of_not_mem (Ne.symm hne) (ih h)

/-- What is written between single quotes stands for itself. -/
theorem longBody_literal {cs : List Char} (hcs : ∀ c ∈ cs, isPlain c = true ∨ c = '\n') {run : Nat}
    (hruns : RunsWithin '\'' 2 run cs) : LongBody '\'' longLiteralChar run cs cs := by
  induction cs generalizing run with
  | nil => exact .nil run
  | cons c cs ih =>
    obtain ⟨hc, hcs⟩ := List.forall_mem_cons.mp hcs
    rw [RunsWithin] at hruns
    split at hruns
    · rename_i hquote
      rw [hquote]
      exact .quote hruns.1 (ih hcs hruns.2)
    · rename_i hquote
      refine .char [] hquote (fun rest => ?_) (ih hcs hruns)
      rcases hc with hplain | rfl
      · have hline : ∀ d ∈ (c :: rest).head?, d ≠ '\n' ∧ d ≠ '\r' := by
          simpa using ne_of_isPlain hplain
        refine (run_orElse_of_none (run_lineFeed_of_ne hline) _).trans ?_
        exact run_bind_of_some (run_satisfying hplain rest) _
      · exact run_orElse_of_some (run_lineFeed rest) _

/-! ## The choice of a form -/

/-- No quote comes first. -/
def NoQuote (s : List Char) : Prop :=
  ∀ d ∈ s.head?, d ≠ '"' ∧ d ≠ '\''

/-- Takes a string of one line. -/
def Scan.shortString : Scan String := do
  match (← rest).take 3 with
  | ['"', '"', '"'] | ['\'', '\'', '\''] => failure
  | _ => basicString <|> literalString

/-- A string has one line unless it starts with three quotes. -/
theorem run_shortString {s : List Char} (hbasic : ¬['"', '"', '"'] <+: s)
    (hliteral : ¬['\'', '\'', '\''] <+: s) :
    shortString.run s = (basicString <|> literalString).run s := by
  rw [shortString, run_bind_of_some (run_rest _)]
  split
  · rename_i heq
    exact absurd (heq ▸ List.take_prefix 3 s) hbasic
  · rename_i heq
    exact absurd (heq ▸ List.take_prefix 3 s) hliteral
  · rfl

/-- A string of one line does not start like one of several lines. -/
theorem not_prefix_quotes {quote : Char} {body s : List Char}
    (hbody : ∀ d ∈ body.head?, d ≠ quote) (hs : ∀ d ∈ s.head?, d ≠ quote) :
    ¬[quote, quote, quote] <+: quote :: (body ++ quote :: s) := by
  rintro ⟨u, hu⟩
  cases body with
  | nil =>
    simp only [List.cons_append, List.nil_append, List.cons.injEq, true_and] at hu
    exact hs quote (hu ▸ rfl) rfl
  | cons d body =>
    simp only [List.cons_append, List.nil_append, List.cons.injEq, true_and] at hu
    exact hbody d rfl hu.1.symm

/-- Without three quotes there is no string of several lines. -/
theorem run_longString_eq_none {quote : Char} {other : Scan (List Char)} {s : List Char}
    (h : ¬[quote, quote, quote] <+: s) : (longString quote other).run s = none :=
  run_bind_of_none (run_text_eq_none (by rwa [String.toList_ofList])) _

/-- The alternatives for a string. -/
theorem string_eq : string = (longString '"' longBasicChar <|> longString '\'' longLiteralChar <|>
    shortString) := rfl

/-- The line end in front of a string that has several lines. -/
def leadOf (cs : List Char) : List Char :=
  if cs.contains '\n' then ['\n'] else []

/-- In front of the string there is a line end, or none comes first in it. -/
theorem leadOf_or (cs t : List Char)
    (h : '\n' ∉ cs → ∀ d ∈ t.head?, d ≠ '\n' ∧ d ≠ '\r') :
    leadOf cs = ['\n'] ∨ leadOf cs = [] ∧ ∀ d ∈ t.head?, d ≠ '\n' ∧ d ≠ '\r' := by
  by_cases hline : '\n' ∈ cs
  · exact .inl (if_pos (List.contains_iff_mem.mpr hline))
  · exact .inr ⟨if_neg (mt List.contains_iff_mem.mp hline), h hline⟩

section Forms

variable (cs : List Char) {s : List Char} (hs : NoQuote s)
include hs

theorem run_string_basic : string.run ('"' :: (escapedText 0 0 cs ++ '"' :: s)) =
    some (String.ofList cs, s) := by
  have hbody : ∀ d ∈ (escapedText 0 0 cs).head?, d ≠ '"' := by
    cases cs with
    | nil => simp [escapedText]
    | cons c cs =>
      have hwritten := written_escaped 0 0 c
      rw [escapedText]
      generalize escaped 0 0 c = t at hwritten
      cases hwritten with
      | escape => simp
      | quote _ hrun => exact absurd hrun (Nat.not_lt_zero 0)
      | lineFeed _ hquotes => exact absurd rfl hquotes
      | plain _ hquote _ => simpa using hquote
  -- As the string does not start with a quote, three quotes are not read in front of it.
  have hbasic := not_prefix_quotes hbody fun d hd => (hs d hd).1
  have hliteral : ¬['\'', '\'', '\''] <+: '"' :: (escapedText 0 0 cs ++ '"' :: s) := by simp
  rw [string_eq, run_orElse_of_none (run_longString_eq_none hbasic),
    run_orElse_of_none (run_longString_eq_none hliteral), run_shortString hbasic hliteral]
  exact run_orElse_of_some (run_basicString cs s) _

theorem run_string_literal (hcs : ∀ c ∈ cs, isPlain c = true ∧ c ≠ '\'') :
    string.run ('\'' :: (cs ++ '\'' :: s)) = some (String.ofList cs, s) := by
  have hbody : ∀ d ∈ cs.head?, d ≠ '\'' := fun d hd => (hcs d (List.mem_of_mem_head? hd)).2
  have hliteral := not_prefix_quotes hbody fun d hd => (hs d hd).2
  have hbasic : ¬['"', '"', '"'] <+: '\'' :: (cs ++ '\'' :: s) := by simp
  have hnone : basicString.run ('\'' :: (cs ++ '\'' :: s)) = none :=
    run_bind_of_none (run_char_of_ne (by simp)) _
  rw [string_eq, run_orElse_of_none (run_longString_eq_none hbasic),
    run_orElse_of_none (run_longString_eq_none hliteral), run_shortString hbasic hliteral,
    run_orElse_of_none hnone]
  exact run_literalString hcs s

theorem run_string_longBasic :
    string.run (List.replicate 3 '"' ++
      (leadOf cs ++ (escapedText 2 0 cs ++ (List.replicate 3 '"' ++ s)))) =
        some (String.ofList cs, s) := by
  have hlead := leadOf_or cs (escapedText 2 0 cs ++ ['"']) fun hline => by
    cases cs with
    | nil => simp [escapedText]
    | cons c cs =>
      have hwritten := written_escaped 2 0 c
      rw [escapedText]
      generalize escaped 2 0 c = t at hwritten
      cases hwritten with
      | escape => simp
      | quote hc _ => simp [hc]
      | lineFeed hc _ => exact absurd (hc ▸ List.mem_cons_self) hline
      | plain hplain _ _ => simpa using ne_of_isPlain hplain
  exact run_orElse_of_some (run_longString (longBody_escapedText cs (Nat.zero_le 2))
    (fun d hd => (hs d hd).1) hlead) _

theorem run_string_longLiteral (hcs : ∀ c ∈ cs, isPlain c = true ∨ c = '\n')
    (hruns : longestRun '\'' cs ≤ 2) :
    string.run (List.replicate 3 '\'' ++ (leadOf cs ++ (cs ++ (List.replicate 3 '\'' ++ s)))) =
      some (String.ofList cs, s) := by
  have hlead := leadOf_or cs (cs ++ ['\'']) fun hline => by
    cases cs with
    | nil => simp
    | cons c cs =>
      have hplain := (hcs c List.mem_cons_self).resolve_right
        fun hc => hline (hc ▸ List.mem_cons_self)
      simpa using ne_of_isPlain hplain
  have hbasic : ¬['"', '"', '"'] <+: List.replicate 3 '\'' ++
      (leadOf cs ++ (cs ++ (List.replicate 3 '\'' ++ s))) := by
    simp [List.replicate]
  rw [string_eq, run_orElse_of_none (run_longString_eq_none hbasic)]
  exact run_orElse_of_some (run_longString (longBody_literal hcs (longestRun_le_iff.mp hruns))
    (fun d hd => (hs d hd).2) hlead) _

end Forms

/-- Whichever form is chosen for a text, the text is read back, if no quote follows it. -/
theorem run_string_quoted (s : String) {rest : List Char} (h : NoQuote rest) :
    string.run ((quoted s).toList ++ rest) = some (s, rest) := by
  have hself : String.ofList s.toList = s := String.ofList_toList
  -- Without codes, characters stand for themselves between single quotes.
  have hplain (hcodes : s.toList.any needsEscape = false) :
      ∀ c ∈ s.toList, isPlain c = true ∨ c = '\n' := by
    intro c hc
    by_cases hline : c = '\n'
    · exact .inr hline
    · refine .inl (isPlain_of_not_needsEscape ?_ hline)
      simpa using List.any_eq_false.mp hcodes c hc
  have hbasic := run_string_basic s.toList h
  have hlongBasic := run_string_longBasic s.toList h
  rw [hself] at hbasic hlongBasic
  have hlead : (if s.toList.contains '\n' = true then ['\n'] else []) = leadOf s.toList := rfl
  simp only [quoted, hlead, Bool.and_eq_true, Bool.not_eq_true', decide_eq_true_eq]
  split_ifs with h₁ h₂ h₃ h₄ h₅ <;>
    simp only [String.toList_ofList, List.append_assoc, List.cons_append, List.nil_append]
  · exact hbasic
  · have hquote := (longestRun_le_iff.mp (Nat.le_of_eq h₂.2)).notMem
    have hline : '\n' ∉ s.toList := by simpa using h₂.1.2
    have hliteral := run_string_literal s.toList h fun c hc =>
      ⟨(hplain h₂.1.1 c hc).resolve_right fun hfeed => hline (hfeed ▸ hc),
        fun hc' => hquote (hc' ▸ hc)⟩
    rwa [hself] at hliteral
  · exact hlongBasic
  · have hlongLiteral := run_string_longLiteral s.toList h (hplain h₄.1) h₄.2
    rw [hself] at hlongLiteral
    exact hlongLiteral
  · exact hlongBasic
  · exact hbasic

/-- A text with double quotes in it stands between single ones. -/
example : quoted "say \"hi\"" = "'say \"hi\"'" := by decide +kernel

end Multibinding.Toml
