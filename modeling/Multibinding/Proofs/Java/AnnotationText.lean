import Multibinding.Java.Annotation
import Multibinding.Proofs.Java.Lexical
import Multibinding.Proofs.Name.TypeRefText

/-!
# Annotations in source text

The strings in an annotation may be any texts. They are written as string literals, which the rules
of the language read back, so that no string ends the annotation or changes what encloses it.

* `scanFrom_escaped`: the characters of a string are read back;
* `Renders`: what a piece of source text comes to, wherever it stands;
* `MemberValue.renders_text`: what the text of a member value comes to;
* `AnnotationUse.text_scanned`: what the text of an annotation comes to.
-/

namespace Multibinding

namespace Java

/-! ## Strings -/

/-- A character of a string is written as an escape of one letter, or it stands for itself and is
neither a quote nor a backslash nor the end of a line. -/
theorem escapedChar_cases (c : Char) :
    (∃ d, escapedChar c = ['\\', d] ∧ shortEscape? d = some c ∧ isLineTerminator d = false) ∨
      escapedChar c = [c] ∧ c ≠ '"' ∧ c ≠ '\\' ∧ isLineTerminator c = false := by
  rw [escapedChar.eq_def]
  split
  case h_6 hquote hback hfeed hreturn _ =>
    refine .inr ⟨rfl, hquote, hback, ?_⟩
    rw [isLineTerminator, beq_eq_false_iff_ne.mpr hfeed, beq_eq_false_iff_ne.mpr hreturn]
    rfl
  all_goals exact .inl ⟨_, rfl, rfl, rfl⟩

/-- A character of a string is read back from its text inside of a literal. -/
theorem scanFrom_escapedChar (seen : List Char) (c : Char) (rest : List Char) :
    scanFrom (.inside seen) (escapedChar c ++ rest) = scanFrom (.inside (c :: seen)) rest := by
  rcases escapedChar_cases c with ⟨d, hc, hshort, -⟩ | ⟨hc, hquote, hback, hline⟩
  · -- Between the backslash and the letter, the scanner is inside of an escape.
    have hbackslash : scanStep (.inside seen) '\\' = some ([], .escape seen) := rfl
    have hescape : scanStep (.escape seen) d = some ([], .inside (c :: seen)) := by
      rw [scanStep, hshort]
    rw [hc, List.cons_append, scanFrom_of_silent hbackslash, List.cons_append,
      scanFrom_of_silent hescape, List.nil_append]
  · have hself : scanStep (.inside seen) c = some ([], .inside (c :: seen)) := by
      simp [scanStep, insideStep, hquote, hback, hline]
    rw [hc, List.cons_append, scanFrom_of_silent hself, List.nil_append]

/-- The characters of a string are read back one by one. -/
theorem scanFrom_escaped (cs seen rest : List Char) :
    scanFrom (.inside seen) (cs.flatMap escapedChar ++ rest) =
      scanFrom (.inside (cs.reverse ++ seen)) rest := by
  induction cs generalizing seen with
  | nil => rfl
  | cons c cs ih =>
    rw [List.flatMap_cons, List.append_assoc, scanFrom_escapedChar, ih, List.reverse_cons,
      List.append_assoc, List.singleton_append]

/-- A string literal is read, unless a quote behind it makes it the start of a text block. -/
theorem scanFrom_stringLiteral (s : String) {rest : List Char} (hrest : rest.head? ≠ some '"') :
    scanFrom .outside ((stringLiteral s).toList ++ rest) =
      (scanFrom .outside rest).map ([.literal s] ++ ·) := by
  have hopen (behind : List Char) :
      scanFrom .outside ('"' :: behind) = scanFrom (.inside []) behind :=
    scanFrom_of_silent rfl behind
  have hclose (seen : List Char) : scanFrom (.inside seen) ('"' :: rest) =
      (scanFrom .outside rest).map ([.literal (String.ofList seen.reverse)] ++ ·) := by
    -- Only behind an empty literal it matters that no quote follows.
    cases seen with
    | nil =>
      rw [← scanFrom_behindEmpty hrest]
      exact scanFrom_of_step rfl rest
    | cons c seen => exact scanFrom_of_step rfl rest
  rw [stringLiteral, String.toList_ofList, List.cons_append, List.cons_append, List.append_assoc,
    hopen, scanFrom_escaped, List.singleton_append, hclose]
  simp

/-- No character of a string ends the line of its literal. -/
theorem isLineTerminator_of_mem_stringLiteral {s : String} {c : Char}
    (h : c ∈ (stringLiteral s).toList) : isLineTerminator c = false := by
  simp only [stringLiteral, String.toList_ofList, List.cons_append, List.mem_cons,
    List.mem_append, List.mem_flatMap, List.not_mem_nil, or_false] at h
  rcases h with rfl | ⟨d, -, hd⟩ | rfl
  · decide
  · rcases escapedChar_cases d with ⟨e, hescape, -, hline⟩ | ⟨hself, -, -, hline⟩
    · rw [hescape, List.mem_pair] at hd
      rcases hd with rfl | rfl
      · decide
      · exact hline
    · rw [hself, List.mem_singleton] at hd
      rw [hd, hline]
  · decide

/-! ## Pieces of source text -/

/-- The characters that begin a literal, a comment or an escape, that end a line, and the
brackets. -/
def specialMarks : List Char :=
  ['"', '/', '\x27', '\\', '\n', '\r', '(', ')', '\x7b', '\x7d']

/-- Whether a character outside of the literals is none of these. -/
def isPlainMark (c : Char) : Bool :=
  !specialMarks.contains c

/-- What a piece of source text comes to, wherever it stands outside of the literals, as long as no
quote follows it: it stands on one line, and has these strings as literals and these brackets around
them. -/
structure Renders (text : List Char) (strings : List String) (nesting : List Nesting) :
    Prop where
  scanned : ∃ tokens, literals tokens = strings ∧
    (∀ outer level rest, nestingFrom outer level (tokens ++ rest) =
      nestingFrom outer (level ++ nesting) rest) ∧
    ∀ rest : List Char, rest.head? ≠ some '"' →
      scanFrom .outside (text ++ rest) = (scanFrom .outside rest).map (tokens ++ ·)
  oneLine : ∀ c ∈ text, isLineTerminator c = false

/-- A character that is no bracket changes nothing about the nesting. -/
theorem nestingFrom_mark {c : Char} (hopened : Bracket.opened? c = none)
    (hclosed : Bracket.closed? c = none) (outer : List (Bracket × List Nesting))
    (level : List Nesting) (rest : List Token) :
    nestingFrom outer level (.mark c :: rest) = nestingFrom outer level rest := by
  cases outer <;> simp [nestingFrom, hopened, hclosed]

/-- A bracket that is opened encloses what follows. -/
theorem nestingFrom_opening (bracket : Bracket) (outer : List (Bracket × List Nesting))
    (level : List Nesting) (rest : List Token) :
    nestingFrom outer level (.mark bracket.opening :: rest) =
      nestingFrom ((bracket, level) :: outer) [] rest := by
  cases bracket <;> cases outer <;> rfl

/-- A bracket that is closed is a group behind what stands before it. -/
theorem nestingFrom_closing (bracket : Bracket) (outer : List (Bracket × List Nesting))
    (before level : List Nesting) (rest : List Token) :
    nestingFrom ((bracket, before) :: outer) level (.mark bracket.closing :: rest) =
      nestingFrom outer (before ++ [.group bracket level]) rest := by
  cases bracket <;> rfl

/-- A character outside of the literals is found as it is, if it begins nothing else. -/
theorem scanFrom_mark {c : Char} (hquote : c ≠ '"') (hrefused : ¬(c = '/' ∨ c = '\x27' ∨ c = '\\'))
    (rest : List Char) :
    scanFrom .outside (c :: rest) = (scanFrom .outside rest).map ([.mark c] ++ ·) := by
  refine scanFrom_of_step ?_ rest
  rw [scanStep, outsideStep, if_neg hquote, if_neg hrefused]

namespace Renders

variable {text text' : List Char} {strings strings' : List String} {nesting nesting' : List Nesting}

/-- What is found if no more text follows. -/
theorem exists_scan? {s : String} (h : Renders s.toList strings nesting) :
    ∃ tokens, scan? s = some tokens ∧ literals tokens = strings ∧
      nesting? tokens = some nesting := by
  obtain ⟨tokens, hliterals, hnesting, hscan⟩ := h.scanned
  refine ⟨tokens, ?_, hliterals, ?_⟩
  · simpa [scan?, scanFrom] using hscan [] (by simp)
  · simpa [nesting?, nestingFrom] using hnesting [] [] []

theorem nil : Renders [] [] [] where
  scanned := ⟨[], rfl, fun outer level rest => by rw [List.append_nil, List.nil_append],
    fun rest _ => Option.map_id'.symm⟩
  oneLine _ h := nomatch h

theorem string (s : String) : Renders (stringLiteral s).toList [s] [.literal s] where
  scanned := by
    refine ⟨[.literal s], rfl, fun outer level rest => ?_, fun rest => scanFrom_stringLiteral s⟩
    cases outer <;> rfl
  oneLine _ := isLineTerminator_of_mem_stringLiteral

/-- A plain character in front of a piece adds nothing to what it comes to. -/
theorem mark {c : Char} (hc : isPlainMark c = true) (h : Renders text strings nesting) :
    Renders (c :: text) strings nesting := by
  obtain ⟨⟨tokens, hliterals, hnesting, hscan⟩, hline⟩ := h
  simp only [isPlainMark, specialMarks, List.contains_eq_mem, List.mem_cons, List.not_mem_nil,
    or_false, Bool.not_eq_true', decide_eq_false_iff_not, not_or] at hc
  obtain ⟨hquote, hslash, hcharacter, hback, hfeed, hreturn, hopen, hclose, hbrace, hend⟩ := hc
  refine ⟨⟨.mark c :: tokens, hliterals, fun outer level rest => ?_, fun rest hrest => ?_⟩, ?_⟩
  · have hopened : Bracket.opened? c = none := by
      simp [Bracket.opened?, Bracket.opening, Ne.symm hopen, Ne.symm hbrace]
    have hclosed : Bracket.closed? c = none := by
      simp [Bracket.closed?, Bracket.closing, Ne.symm hclose, Ne.symm hend]
    rw [List.cons_append, nestingFrom_mark hopened hclosed, hnesting]
  · rw [List.cons_append, scanFrom_mark hquote (by simp [hslash, hcharacter, hback]),
      hscan rest hrest, Option.map_map]
    rfl
  · refine List.forall_mem_cons.mpr ⟨?_, hline⟩
    simp [isLineTerminator, hfeed, hreturn]

/-- So do several plain characters. -/
theorem marks {cs : List Char} (hcs : cs.all isPlainMark = true)
    (h : Renders text strings nesting) : Renders (cs ++ text) strings nesting := by
  induction cs with
  | nil => exact h
  | cons c cs ih =>
    obtain ⟨hc, hcs⟩ := (Bool.and_eq_true _ _).mp hcs
    exact (ih hcs).mark hc

/-- Two pieces come to what they come to one by one, unless the second one starts with a quote. -/
theorem append (h : Renders text strings nesting) (h' : Renders text' strings' nesting')
    (hhead : text'.head? ≠ some '"') :
    Renders (text ++ text') (strings ++ strings') (nesting ++ nesting') := by
  obtain ⟨⟨tokens, rfl, hnesting, hscan⟩, hline⟩ := h
  obtain ⟨⟨tokens', rfl, hnesting', hscan'⟩, hline'⟩ := h'
  refine ⟨⟨tokens ++ tokens', List.filterMap_append, fun outer level rest => ?_,
    fun rest hrest => ?_⟩, List.forall_mem_append.mpr ⟨hline, hline'⟩⟩
  · rw [List.append_assoc, hnesting, hnesting', List.append_assoc]
  · -- An empty second piece leaves to the rest what follows the first one.
    have hbehind : (text' ++ rest).head? ≠ some '"' := by
      cases text' with
      | nil => exact hrest
      | cons => exact hhead
    rw [List.append_assoc, hscan _ hbehind, hscan' _ hrest, Option.map_map]
    congr 1
    funext found
    exact (List.append_assoc tokens tokens' found).symm

/-- Pieces may be joined with commas. -/
theorem comma {part : String} {parts : List String} (hne : parts ≠ [])
    (h : Renders part.toList strings nesting)
    (h' : Renders (String.intercalate ", " parts).toList strings' nesting') :
    Renders (String.intercalate ", " (part :: parts)).toList (strings ++ strings')
      (nesting ++ nesting') := by
  have hcomma : Renders (", ".toList ++ (String.intercalate ", " parts).toList) strings' nesting' :=
    h'.marks (by decide)
  rw [String.intercalate_cons_of_ne_nil hne, String.toList_append, String.toList_append,
    List.append_assoc]
  exact h.append hcomma (by simp)

/-- What stands in brackets is one group. -/
theorem enclosed (bracket : Bracket) (h : Renders text strings nesting) :
    Renders (bracket.opening :: text ++ [bracket.closing]) strings [.group bracket nesting] := by
  obtain ⟨⟨tokens, hliterals, hnesting, hscan⟩, hline⟩ := h
  refine ⟨⟨.mark bracket.opening :: tokens ++ [.mark bracket.closing], ?_,
    fun outer level rest => ?_, fun rest _ => ?_⟩, ?_⟩
  · simpa [literals] using hliterals
  · -- What stands before the bracket waits until the bracket is closed.
    rw [List.cons_append, List.cons_append, nestingFrom_opening, List.append_assoc, hnesting,
      List.nil_append, List.singleton_append, nestingFrom_closing]
  · have hbehind : ([bracket.closing] ++ rest).head? ≠ some '"' := by
      cases bracket <;> simp [Bracket.closing]
    have hopening (behind : List Char) : scanFrom .outside (bracket.opening :: behind) =
        (scanFrom .outside behind).map ([.mark bracket.opening] ++ ·) := by
      cases bracket <;> exact scanFrom_mark (by decide) (by decide) behind
    have hclosing : scanFrom .outside ([bracket.closing] ++ rest) =
        (scanFrom .outside rest).map ([.mark bracket.closing] ++ ·) := by
      cases bracket <;> exact scanFrom_mark (by decide) (by decide) rest
    rw [List.cons_append, List.cons_append, List.append_assoc, hopening, hscan _ hbehind, hclosing,
      Option.map_map, Option.map_map]
    congr 1
    funext found
    simp
  · refine List.forall_mem_append.mpr ⟨List.forall_mem_cons.mpr ⟨?_, hline⟩,
      List.forall_mem_singleton.mpr ?_⟩
    all_goals cases bracket <;> decide

end Renders

/-! ## Class literals -/

/-- The characters of names are plain. -/
theorem isPlainMark_of_isNameChar {c : Char} (h : ClassName.isNameChar c = true) :
    isPlainMark c = true := by
  have hall : specialMarks.all (!ClassName.isNameChar ·) = true := by decide +kernel
  by_contra hplain
  have hmem : c ∈ specialMarks := by simpa [isPlainMark] using hplain
  simpa [h] using List.all_eq_true.mp hall c hmem

/-- So are those of dotted forms. -/
theorem all_isPlainMark_canonical {c : ClassName} (hc : c.IsBuilt) :
    c.canonical.toList.all isPlainMark = true :=
  List.all_eq_true.mpr fun d hd => isPlainMark_of_isNameChar (hc.isNameChar_of_mem d hd)

mutual

/-- So are those of the texts of types. -/
theorem all_isPlainMark_text : (t : TypeRef) → (∀ c ∈ t.classes, c.IsBuilt) →
    t.text.toList.all isPlainMark = true
  | .declared name, h => all_isPlainMark_canonical (h name List.mem_cons_self)
  | .parameterized raw arguments, h => by
    obtain ⟨hraw, harguments⟩ := List.forall_mem_cons.mp h
    simp only [TypeRef.text, String.toList_append, List.all_append, Bool.and_eq_true]
    exact ⟨⟨⟨all_isPlainMark_canonical hraw, by decide⟩,
      all_isPlainMark_texts arguments harguments⟩, by decide⟩
  | .wildcard, _ => by decide
  | .subtypeOf bound, h => by
    simp only [TypeRef.text, String.toList_append, List.all_append, Bool.and_eq_true]
    exact ⟨by decide, all_isPlainMark_text bound h⟩

theorem all_isPlainMark_texts : (ts : List TypeRef) → (∀ c ∈ TypeRef.classesOf ts, c.IsBuilt) →
    (String.intercalate ", " (TypeRef.texts ts)).toList.all isPlainMark = true
  | [], _ => rfl
  | [t], h => all_isPlainMark_text t (List.forall_mem_append.mp h).1
  | t :: u :: rest, h => by
    obtain ⟨ht, hrest⟩ := List.forall_mem_append.mp h
    have hothers := all_isPlainMark_texts (u :: rest) hrest
    rw [TypeRef.texts] at hothers ⊢
    rw [TypeRef.texts, String.intercalate_cons_cons, String.toList_append, String.toList_append,
      List.all_append, List.all_append, all_isPlainMark_text t ht, hothers]
    decide

end

/-- So are those of class literals. -/
theorem all_isPlainMark_classLiteral {t : TypeRef} (h : ∀ c ∈ t.classes, c.IsBuilt) :
    (classLiteral t).toList.all isPlainMark = true := by
  have hending {s : String} (hs : s.toList.all isPlainMark = true) :
      (s ++ ".class").toList.all isPlainMark = true := by
    rw [String.toList_append, List.all_append, hs]
    decide
  cases t with
  | declared name => exact hending (all_isPlainMark_canonical (h name List.mem_cons_self))
  | parameterized raw arguments =>
    exact hending (all_isPlainMark_canonical (h raw List.mem_cons_self))
  | wildcard => exact hending (by decide)
  | subtypeOf bound => exact hending (all_isPlainMark_text bound h)

/-! ## Member values -/

namespace MemberValue

mutual

/-- Whether a value is made of class literals and strings, and the classes can be built from their
parts. -/
def isComposed : MemberValue → Bool
  | .classLiteral type => type.classes.all (decide ·.IsBuilt)
  | .string _ => true
  | .literal _ => false
  | .array values => areComposed values

/-- Whether all of several values are. -/
def areComposed : List MemberValue → Bool
  | [] => true
  | v :: rest => v.isComposed && areComposed rest

end

mutual

/-- The strings in a value, from left to right. -/
def strings : MemberValue → List String
  | .string value => [value]
  | .array values => stringsOf values
  | .classLiteral _ | .literal _ => []

/-- The strings in several values. -/
def stringsOf : List MemberValue → List String
  | [] => []
  | v :: rest => v.strings ++ stringsOf rest

end

mutual

/-- The brackets of a value: braces around what is in an array. -/
def nesting : MemberValue → List Nesting
  | .string value => [.literal value]
  | .array values => [.group .brace (nestingOf values)]
  | .classLiteral _ | .literal _ => []

/-- The brackets of several values. -/
def nestingOf : List MemberValue → List Nesting
  | [] => []
  | v :: rest => v.nesting ++ nestingOf rest

end

mutual

/-- What the text of a value comes to. -/
theorem renders_text : (v : MemberValue) → v.isComposed = true →
    Renders v.text.toList v.strings v.nesting
  | .classLiteral type, h => by
    have hclasses : ∀ c ∈ type.classes, c.IsBuilt := by simpa [isComposed] using h
    have hmarks := Renders.nil.marks (all_isPlainMark_classLiteral hclasses)
    rw [List.append_nil] at hmarks
    exact hmarks
  | .string value, _ => Renders.string value
  | .array values, h => by
    have henclosed := (renders_texts values h).enclosed .brace
    simpa [text, strings, nesting, Bracket.opening, Bracket.closing] using henclosed

/-- What the texts of several values come to. -/
theorem renders_texts : (vs : List MemberValue) → areComposed vs = true →
    Renders (String.intercalate ", " (texts vs)).toList (stringsOf vs) (nestingOf vs)
  | [], _ => Renders.nil
  | [v], h => by
    obtain ⟨hv, -⟩ := (Bool.and_eq_true _ _).mp h
    simpa [texts, stringsOf, nestingOf] using renders_text v hv
  | v :: w :: rest, h => by
    obtain ⟨hv, hrest⟩ := (Bool.and_eq_true _ _).mp h
    exact (renders_text v hv).comma (List.cons_ne_nil _ _) (renders_texts (w :: rest) hrest)

end

/-- The brackets of all values of a member: a single value stands alone. -/
def listNesting : List MemberValue → List Nesting
  | [value] => value.nesting
  | values => (array values).nesting

/-- What the text of all values of a member comes to. -/
theorem renders_listText {values : List MemberValue} (h : areComposed values = true) :
    Renders (listText values).toList (stringsOf values) (listNesting values) := by
  match values with
  | [value] =>
    obtain ⟨hvalue, -⟩ := (Bool.and_eq_true _ _).mp h
    simpa [listText, listNesting, stringsOf] using renders_text value hvalue
  | [] => exact renders_text (array []) h
  | value :: next :: rest => exact renders_text (array (value :: next :: rest)) h

end MemberValue

/-! ## Annotations -/

namespace AnnotationUse

open MemberValue

/-- The strings in an annotation, from left to right. -/
def strings (a : AnnotationUse) : List String :=
  a.members.flatMap fun member => stringsOf member.2

/-- The brackets of an annotation: parentheses around those of its members, if it has members. -/
def nesting (a : AnnotationUse) : List Nesting :=
  if a.members.isEmpty then []
  else [.group .parenthesis (a.members.flatMap fun member => listNesting member.2)]

/-- Members that have identifiers as names and are made of class literals and strings. -/
def Composed (members : List (String × List MemberValue)) : Prop :=
  ∀ member ∈ members, isIdentifier member.1 = true ∧ areComposed member.2 = true

/-- What the texts of members with their names come to. -/
theorem renders_members {members : List (String × List MemberValue)} (h : Composed members) :
    Renders (String.intercalate ", "
        (members.map fun (name, values) => name ++ " = " ++ listText values)).toList
      (members.flatMap fun member => stringsOf member.2)
      (members.flatMap fun member => listNesting member.2) := by
  -- A name and the sign behind it are plain, and what follows is the text of the values.
  have hmember {member : String × List MemberValue} (hname : isIdentifier member.1 = true)
      (hvalues : areComposed member.2 = true) :
      Renders (member.1 ++ " = " ++ listText member.2).toList (stringsOf member.2)
        (listNesting member.2) := by
    have hplain : (member.1 ++ " = ").toList.all isPlainMark = true := by
      rw [String.toList_append, List.all_append, Bool.and_eq_true]
      refine ⟨List.all_eq_true.mpr fun c hc => isPlainMark_of_isNameChar ?_, by decide⟩
      rw [ClassName.isNameChar, isIdentifierPart_of_mem hname c hc, Bool.true_or]
    rw [String.toList_append]
    exact (renders_listText hvalues).marks hplain
  induction members with
  | nil => exact Renders.nil
  | cons member rest ih =>
    obtain ⟨⟨hname, hvalues⟩, hrest⟩ := List.forall_mem_cons.mp h
    cases rest with
    | nil => simpa using hmember hname hvalues
    | cons next rest => exact (hmember hname hvalues).comma (List.cons_ne_nil _ _) (ih hrest)

/-- What the text of an annotation comes to. -/
theorem renders_text {a : AnnotationUse} (htype : a.type.IsBuilt) (hmembers : Composed a.members) :
    Renders a.text.toList a.strings a.nesting := by
  have htype : ('@' :: a.type.canonical.toList).all isPlainMark = true :=
    (Bool.and_eq_true _ _).mpr ⟨by decide, all_isPlainMark_canonical htype⟩
  have hbody {body : String} {strings : List String} {nesting : List Nesting}
      (h : Renders body.toList strings nesting) :
      Renders ("@" ++ a.type.canonical ++ "(" ++ body ++ ")").toList strings
        [.group .parenthesis nesting] := by
    simpa [Bracket.opening, Bracket.closing] using (h.enclosed .parenthesis).marks htype
  rw [text, strings, nesting]
  split
  next hnil =>
    rw [hnil]
    simpa using Renders.nil.marks htype
  next values hvalue =>
    -- A sole member `value` is written without its name.
    rw [hvalue] at hmembers ⊢
    simpa using hbody (renders_listText (hmembers _ List.mem_cons_self).2)
  next hnil _ =>
    rw [if_neg (by simpa using hnil)]
    exact hbody (renders_members hmembers)

/-- The text of an annotation whose members are made of class literals and of any strings is scanned
by the rules of the language. The literals are decoded to the strings, in their order, and the
brackets outside of them follow the members: parentheses around all of them, and braces around each
array. No escape is translated before that, and the text stands on one line. -/
theorem text_scanned {a : AnnotationUse} (htype : a.type.IsBuilt) (hmembers : Composed a.members) :
    ∃ tokens, scan? a.text = some tokens ∧ literals tokens = a.strings ∧
      nesting? tokens = some a.nesting ∧ hasUnicodeEscape a.text.toList = false ∧
      ∀ c ∈ a.text.toList, isLineTerminator c = false := by
  have hrenders := renders_text htype hmembers
  obtain ⟨tokens, hscan, hliterals, hnesting⟩ := hrenders.exists_scan?
  exact ⟨tokens, hscan, hliterals, hnesting, hasUnicodeEscape_of_scanFrom hscan, hrenders.oneLine⟩

/-- A sole member `value` with strings that end with a backslash, look like escapes, end the literal
or the line, or are empty, in an array with another array. -/
theorem text_scanned_sample :
    let values : List MemberValue :=
      [.string "a\"), b = \x7b", .array [.string "\\u0022\r\n", .string ""], .string "\\",
        .classLiteral (.parameterized ⟨"java.util", "Map", ["Entry"]⟩ [.wildcard])]
    let a : AnnotationUse := ⟨⟨"com.app", "Named", []⟩, [("value", values)]⟩
    a.type.IsBuilt ∧ Composed a.members ∧
      a.text = "@com.app.Named(\x7b\"a\\\"), b = \x7b\", \x7b\"\\\\u0022\\r\\n\", \"\"\x7d, " ++
        "\"\\\\\", java.util.Map.Entry.class\x7d)" ∧
      ∃ tokens, scan? a.text = some tokens ∧
        literals tokens = ["a\"), b = \x7b", "\\u0022\r\n", "", "\\"] ∧
        nesting? tokens = some [.group .parenthesis [.group .brace [.literal "a\"), b = \x7b",
          .group .brace [.literal "\\u0022\r\n", .literal ""], .literal "\\"]]] ∧
        hasUnicodeEscape a.text.toList = false ∧
        ∀ c ∈ a.text.toList, isLineTerminator c = false := by
  intro values a
  have htype : a.type.IsBuilt := by decide +kernel
  have hmembers : Composed a.members := by
    rintro member hmember
    obtain rfl := List.mem_singleton.mp hmember
    decide +kernel
  exact ⟨htype, hmembers, by decide +kernel, text_scanned htype hmembers⟩

end AnnotationUse

end Java

end Multibinding
