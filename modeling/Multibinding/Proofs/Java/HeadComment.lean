import Mathlib.Data.List.TakeWhile
import Multibinding.Proofs.Java.Layout
import Multibinding.Proofs.Java.Lexical

/-!
# The comment at the head of a file

Each line of a comment is written as a comment line. What a line of the comment is, and what a line
of the file is, are not quite the same: a carriage return alone ends a line of the file, but not one
of the comment. The comment stays a comment exactly if what stands behind such a carriage return is
a comment line by itself.

* `forall_isCommentLine_iff`: when all that is written for a line of a comment is comment lines;
* `staysComment_iff`: when all that is written for a comment is;
* `withoutHeadComment_eq_iff`: what is left without the comment lines at the head;
* `SourceFile.source_eq`: a file is its comment and what it is without one;
* `SourceFile.comment_stays_iff`: when the comment of a file stays a comment.
-/

namespace Multibinding.Java

/-! ## Comment lines -/

/-- Whether a line is a comment line. -/
def isCommentLine (line : List Char) : Bool :=
  line.take 2 == ['/', '/']

/-- The text from the first line on that is no comment line. -/
def withoutHeadComment (text : String) : String :=
  String.ofList ((sourceLines text.toList).dropWhile isCommentLine).flatten

/-- What stands behind each carriage return of a text has a property. -/
def BehindReturns (p : List Char → Prop) (text : List Char) : Prop :=
  ∀ rest, '\r' :: rest <:+ text → p rest

/-- Whether a carriage return with a text behind it ends no line of a comment within the comment:
it is the last character, it belongs to a line feed, or the line behind it is a comment line. A
second carriage return may stand between it and the line feed. -/
def ReturnCovered (rest : List Char) : Prop :=
  rest = [] ∨ rest.head? = some '\n' ∨ ['\r', '\n'] <+: rest ∨ isCommentLine rest = true

/-- Whether a comment stays a comment when its lines are written as comment lines. -/
def StaysComment (comment : String) : Prop :=
  BehindReturns ReturnCovered comment.toList

section BehindReturns

variable {p q : List Char → Prop}

theorem behindReturns_nil : BehindReturns p [] :=
  fun _ h => nomatch List.suffix_nil.mp h

theorem behindReturns_cons {c : Char} {text : List Char} :
    BehindReturns p (c :: text) ↔ (c = '\r' → p text) ∧ BehindReturns p text := by
  constructor
  · intro h
    refine ⟨?_, fun rest hrest => h rest (hrest.trans (List.suffix_cons c text))⟩
    rintro rfl
    exact h text List.suffix_rfl
  · rintro ⟨hhead, htail⟩ rest hrest
    rcases List.suffix_cons_iff.mp hrest with heq | hrest
    · obtain ⟨hc, rfl⟩ := List.cons.inj heq
      exact hhead hc.symm
    · exact htail rest hrest

/-- The returns of two texts are those of each, but behind those of the first one the second one
follows. -/
theorem behindReturns_append {before after : List Char} :
    BehindReturns p (before ++ after) ↔
      BehindReturns (fun rest => p (rest ++ after)) before ∧ BehindReturns p after := by
  induction before with
  | nil => simp [behindReturns_nil]
  | cons c before ih => rw [List.cons_append, behindReturns_cons, behindReturns_cons, ih, and_assoc]

theorem behindReturns_congr {text : List Char} (h : ∀ rest, rest <:+ text → (p rest ↔ q rest)) :
    BehindReturns p text ↔ BehindReturns q text :=
  forall_congr' fun rest => forall_congr' fun hrest =>
    h rest ((List.suffix_cons _ rest).trans hrest)

end BehindReturns

/-- Whether what stands behind a carriage return in a line of a comment is nothing or a comment
line. -/
def LineCovered (rest : List Char) : Prop :=
  rest = [] ∨ isCommentLine rest = true

/-- Text that is added behind a line does not make it a comment line, unless it starts with a
slash. -/
theorem isCommentLine_append_cons (line : List Char) {c : Char} (hc : c ≠ '/') (rest : List Char) :
    isCommentLine (line ++ c :: rest) = isCommentLine line := by
  match line with
  | [] => simp [isCommentLine, hc]
  | [a] => simp [isCommentLine, hc]
  | a :: b :: more => simp [isCommentLine]

/-- Two slashes in front tell a comment line. -/
theorem isCommentLine_cons (c : Char) (rest : List Char) :
    isCommentLine (c :: rest) = (c == '/' && rest.head? == some '/') := by
  cases rest <;> simp [isCommentLine]

/-- The first line of a text is a comment line if the text starts like one. -/
theorem isCommentLine_of_sourceLines {text line : List Char} {more : List (List Char)}
    (h : sourceLines text = line :: more) : isCommentLine line = isCommentLine text := by
  have hhead {text line : List Char} {more : List (List Char)}
      (h : sourceLines text = line :: more) : line.head? = text.head? := by
    rw [← flatten_sourceLines text, h, List.flatten_cons]
    have hne : line ≠ [] := fun hnil => nil_notMem_sourceLines text (by simp [h, hnil])
    exact (List.head?_append_of_ne_nil line hne).symm
  cases text with
  | nil => cases h
  | cons c rest =>
    cases hends : endsLine c rest with
    | true =>
      -- What ends a line is no slash.
      rw [sourceLines_cons_end hends] at h
      obtain ⟨rfl, -⟩ := List.cons.inj h
      have hc : (c == '/') = false := by
        rw [beq_eq_false_iff_ne]
        rintro rfl
        cases hends
      rw [isCommentLine_cons, isCommentLine_cons, hc]
      rfl
    | false =>
      cases hrest : sourceLines rest with
      | nil =>
        have hnil : rest = [] := by rw [← flatten_sourceLines rest, hrest, List.flatten_nil]
        rw [hnil] at h hends
        rw [sourceLines, hends] at h
        obtain ⟨rfl, -⟩ := List.cons.inj h
        rw [hnil]
      | cons next others =>
        rw [sourceLines_cons hends hrest] at h
        obtain ⟨rfl, -⟩ := List.cons.inj h
        rw [isCommentLine_cons, isCommentLine_cons, hhead hrest]

/-! ## Lines of the comment and lines of the file -/

/-- In a line of the comment, a line feed stands behind no carriage return. -/
theorem returnCovered_iff {rest : List Char} (h : '\n' ∉ rest) :
    ReturnCovered rest ↔ LineCovered rest := by
  have hhead : rest.head? ≠ some '\n' := fun heq => h (List.mem_of_head? heq)
  have hpair : ¬['\r', '\n'] <+: rest := fun hstart => h (hstart.subset (by simp))
  simp [ReturnCovered, LineCovered, hhead, hpair]

/-- In front of the line feed that ends a line of the comment, one more carriage return may
stand. -/
theorem returnCovered_append_iff {rest : List Char} (h : '\n' ∉ rest) (after : List Char) :
    ReturnCovered (rest ++ '\n' :: after) ↔ rest = ['\r'] ∨ LineCovered rest := by
  rw [ReturnCovered, LineCovered, isCommentLine_append_cons rest (by decide)]
  match rest with
  | [] => simp
  | [c] =>
    have hc : c ≠ '\n' := fun heq => h (by simp [heq])
    simp [hc, @eq_comm _ '\r' c]
  | c :: d :: more =>
    have hc : c ≠ '\n' := fun heq => h (by simp [heq])
    have hd : d ≠ '\n' := fun heq => h (by simp [heq])
    simp [hc, hd.symm]

/-- A line of a comment as it is written, with the line feed that ends it, is comment lines exactly
if what stands behind each carriage return in it is. -/
theorem forall_isCommentLine_tail_iff {cs : List Char} (h : '\n' ∉ cs) :
    (∀ line ∈ (sourceLines (cs ++ ['\n'])).tail, isCommentLine line = true) ↔
      BehindReturns LineCovered cs := by
  -- The first line is left out, since it goes on with what stands in front of the text.
  induction cs with
  | nil => simp [sourceLines, endsLine, behindReturns_nil]
  | cons c cs ih =>
    obtain ⟨hc, hcs⟩ := not_or.mp (mt List.mem_cons.mpr h)
    obtain ⟨line, more, hlines⟩ := exists_sourceLines_eq_cons (cs ++ ['\n']) (by simp)
    have hfirst : isCommentLine line = isCommentLine cs := by
      rw [isCommentLine_of_sourceLines hlines, isCommentLine_append_cons cs (by decide)]
    have hends_iff : endsLine c (cs ++ ['\n']) = true ↔ c = '\r' ∧ cs ≠ [] := by
      cases cs with
      | nil => simp [endsLine, Ne.symm hc]
      | cons d cs =>
        have hd : d ≠ '\n' := fun heq => hcs (by simp [heq])
        simp [endsLine, Ne.symm hc, hd]
    rw [behindReturns_cons, ← ih hcs, hlines, List.cons_append, List.tail_cons]
    cases hends : endsLine c (cs ++ ['\n']) with
    | true =>
      -- A carriage return inside of the line ends it.
      have hreturn := hends_iff.mp hends
      rw [sourceLines_cons_end hends, hlines, List.tail_cons, List.forall_mem_cons, hfirst]
      simp [LineCovered, hreturn]
    | false =>
      -- If `c` is a carriage return, it is the last character.
      have hlast : c = '\r' → LineCovered cs := fun hreturn => .inl (by
        by_contra hne
        rw [hends_iff.mpr ⟨hreturn, hne⟩] at hends
        cases hends)
      rw [sourceLines_cons hends hlines, List.tail_cons, and_iff_right hlast]

/-- What is written for a line of a comment is comment lines exactly if what stands behind each
carriage return in it is. -/
theorem forall_isCommentLine_iff {line : String} (h : '\n' ∉ line.toList) :
    (∀ l ∈ sourceLines ("// " ++ line ++ "\n").toList, isCommentLine l = true) ↔
      BehindReturns LineCovered line.toList := by
  obtain ⟨first, more, hlines⟩ :=
    exists_sourceLines_eq_cons (line.toList ++ ['\n']) (by simp)
  -- The marks in front of the line make its first part a comment line.
  have hwritten : sourceLines ("// " ++ line ++ "\n").toList =
      ('/' :: '/' :: ' ' :: first) :: more := by
    simp only [String.toList_append]
    exact sourceLines_cons rfl (sourceLines_cons rfl (sourceLines_cons rfl hlines))
  rw [hwritten, ← forall_isCommentLine_tail_iff h, hlines, List.forall_mem_cons, List.tail_cons]
  simp [isCommentLine]

/-- The text of a line is covered like the line: a carriage return at its end belongs to the line
feed behind it. -/
theorem behindReturns_endLine {line : List Char} (h : '\n' ∉ line) (after : List Char) :
    BehindReturns ReturnCovered (line.reverse ++ '\n' :: after) ↔
      BehindReturns LineCovered (Text.endLine line) ∧ BehindReturns ReturnCovered after := by
  have hfeed : BehindReturns ReturnCovered ('\n' :: after) ↔ BehindReturns ReturnCovered after := by
    rw [behindReturns_cons]
    simp
  have hline : BehindReturns (fun rest => ReturnCovered (rest ++ '\n' :: after)) line.reverse ↔
      BehindReturns (fun rest => rest = ['\r'] ∨ LineCovered rest) line.reverse :=
    behindReturns_congr fun rest hrest =>
      returnCovered_append_iff (fun hmem => h (List.mem_reverse.mp (hrest.subset hmem))) after
  rw [behindReturns_append, hfeed, hline, Text.endLine.eq_def]
  refine and_congr_left' ?_
  split
  next line =>
    -- Without the return at the end, each text behind another return is shorter by one.
    have hbefore :
        BehindReturns (fun rest => rest ++ ['\r'] = ['\r'] ∨ LineCovered (rest ++ ['\r']))
          line.reverse ↔ BehindReturns LineCovered line.reverse :=
      behindReturns_congr fun rest _ => by
        simp [LineCovered, isCommentLine_append_cons rest (show '\r' ≠ '/' by decide)]
    have hreturn : BehindReturns (fun rest => rest = ['\r'] ∨ LineCovered rest) ['\r'] :=
      behindReturns_cons.mpr ⟨fun _ => .inr (.inl rfl), behindReturns_nil⟩
    rw [List.reverse_cons, behindReturns_append, hbefore, and_iff_left hreturn]
  next hlast =>
    -- No return is the last character, so that the line feed stands directly behind none.
    refine behindReturns_congr fun rest hrest => or_iff_right ?_
    rintro rfl
    obtain ⟨before, hbefore⟩ := hrest
    exact hlast before.reverse (by rw [← List.reverse_reverse line, ← hbefore]; simp)

/-- No line of a text has a line feed. -/
theorem lineFeed_notMem_linesFrom {line : List Char} (cs : List Char) (h : '\n' ∉ line) :
    ∀ l ∈ Text.linesFrom line cs, '\n' ∉ l := by
  have hend {line : List Char} (h : '\n' ∉ line) : '\n' ∉ Text.endLine line := by
    rw [Text.endLine.eq_def]
    split
    · exact fun hmem => h (List.mem_cons_of_mem _ (List.mem_reverse.mp hmem))
    · rwa [List.mem_reverse]
  induction cs generalizing line with
  | nil =>
    rw [Text.linesFrom]
    split
    · exact fun l hl => nomatch hl
    · rwa [List.forall_mem_singleton, List.mem_reverse]
  | cons c cs ih =>
    rw [Text.linesFrom]
    split
    next => exact List.forall_mem_cons.mpr ⟨hend h, ih List.not_mem_nil⟩
    next hc => exact ih (by simp [Ne.symm hc, h])

/-- What a comment has behind its carriage returns is what its lines have. -/
theorem behindReturns_linesFrom {line : List Char} (cs : List Char) (h : '\n' ∉ line) :
    BehindReturns ReturnCovered (line.reverse ++ cs) ↔
      ∀ l ∈ Text.linesFrom line cs, BehindReturns LineCovered l := by
  -- The induction is on what is left of the text, whatever the current line has so far.
  induction cs generalizing line with
  | nil =>
    have hline : BehindReturns ReturnCovered line.reverse ↔
        BehindReturns LineCovered line.reverse :=
      behindReturns_congr fun rest hrest =>
        returnCovered_iff fun hmem => h (List.mem_reverse.mp (hrest.subset hmem))
    rw [List.append_nil, hline, Text.linesFrom]
    split
    next hempty => simp [List.isEmpty_iff.mp hempty, behindReturns_nil]
    next => rw [List.forall_mem_singleton]
  | cons c cs ih =>
    rw [Text.linesFrom]
    split
    next hc =>
      rw [hc, behindReturns_endLine h, List.forall_mem_cons, ← ih List.not_mem_nil]
      rfl
    next hc =>
      have hmem : '\n' ∉ c :: line := by simp [Ne.symm hc, h]
      rw [← ih hmem, List.reverse_cons, List.append_assoc, List.singleton_append]

/-- So a comment stays a comment exactly if what is written for each of its lines does. -/
theorem staysComment_iff (comment : String) :
    StaysComment comment ↔ ∀ line ∈ Text.lines comment,
      ∀ l ∈ sourceLines ("// " ++ line ++ "\n").toList, isCommentLine l = true := by
  rw [Text.lines, List.forall_mem_map]
  refine (behindReturns_linesFrom comment.toList List.not_mem_nil).trans ?_
  refine forall₂_congr fun line hline => ?_
  have hfeed := lineFeed_notMem_linesFrom comment.toList List.not_mem_nil line hline
  rw [forall_isCommentLine_iff (by rwa [String.toList_ofList]), String.toList_ofList]

/-! ## The comment and what stands behind it -/

namespace SourceWriter

variable (lines : List Line)

theorem comment_onLine (c : String) :
    (onLine lines 0 []).comment c =
      onLine (lines ++ (Text.lines c).map fun line => ⟨0, ["// " ++ line]⟩) 0 [] := by
  rw [comment]
  induction Text.lines c generalizing lines with
  | nil => simp
  | cons line rest ih => simp [ih]

/-- The lines that name the package. -/
def packageLines (package : String) : List Line :=
  if package.isEmpty then [] else [⟨0, ["package " ++ package ++ ";"]⟩, ⟨0, []⟩]

theorem package_onLine (package : String) :
    (onLine lines 0 []).package package = onLine (lines ++ packageLines package) 0 [] := by
  rw [SourceWriter.package, packageLines]
  split <;> simp

/-- Lines are written one behind the other. -/
theorem text_onLine_append (more : List Line) :
    (onLine (lines ++ more) 0 []).text =
      (onLine lines 0 []).text ++ (onLine more 0 []).text := by
  simp [text, String.join_append]

end SourceWriter

/-! ## What a file starts with -/

/-- A text that does not start with a slash is no comment line. -/
theorem StartsWith.isCommentLine_eq_false {s : String} (h : StartsWith (· ≠ '/') s) :
    isCommentLine s.toList = false := by
  obtain ⟨c, rest, hs, hc⟩ := h
  rw [hs, isCommentLine_cons, beq_eq_false_iff_ne.mpr hc, Bool.false_and]

/-- Keywords start with letters. -/
theorem Modifier.startsWith_keyword (m : Modifier) : StartsWith (· ≠ '/') m.keyword := by
  cases m <;> exact ⟨_, _, rfl, by decide⟩

/-- So do modifiers, if there are any. -/
theorem Modifier.startsWith_text {ms : List Modifier} (h : (Modifier.text ms).isEmpty = false) :
    StartsWith (· ≠ '/') (Modifier.text ms) := by
  rw [Modifier.text] at h ⊢
  cases hordered : Modifier.ordered ms with
  | nil =>
    rw [hordered] at h
    cases h
  | cons m rest =>
    rw [List.map_cons, String.join_cons]
    exact (m.startsWith_keyword.append " ").append _

namespace SourceWriter

/-- A type starts with an annotation, a modifier or the keyword of its kind. -/
theorem exists_written_opening (t : TypeDecl) :
    ∃ part parts more, written (opening t) = (part :: parts) :: more ∧
      StartsWith (· ≠ '/') part := by
  -- A text without modifiers is empty, and empty parts are not printed.
  have hheader {keyword : String} (hkeyword : StartsWith (· ≠ '/') keyword)
      (behind : List String) :
      ∃ part, (∃ parts, [Modifier.text t.modifiers].filter (!·.isEmpty) ++ keyword :: behind =
        part :: parts) ∧ StartsWith (· ≠ '/') part := by
    cases hmodifiers : (Modifier.text t.modifiers).isEmpty with
    | false => exact ⟨_, ⟨_, by simp [hmodifiers]; rfl⟩, Modifier.startsWith_text hmodifiers⟩
    | true => exact ⟨keyword, ⟨behind, by simp [hmodifiers]⟩, hkeyword⟩
  have hclass : StartsWith (· ≠ '/') "class " := ⟨_, _, rfl, by decide⟩
  have hinterface : StartsWith (· ≠ '/') "interface " := ⟨_, _, rfl, by decide⟩
  cases hannotations : t.annotations with
  | cons a rest =>
    have hmark : StartsWith (· ≠ '/') a.text :=
      a.startsWith_text.mono fun c hc => by rw [hc]; decide
    refine ⟨a.text, [], ?_⟩
    cases hsuper : t.superclass <;> cases hinterfaces : t.superinterfaces.isEmpty <;>
      simp [written, opening, header, empty_eq_onLine, hannotations, hsuper, hinterfaces, hmark]
  | nil =>
    cases hkind : t.kind <;> cases hsuper : t.superclass <;>
      cases hinterfaces : t.superinterfaces.isEmpty <;>
      simp [written, opening, header, empty_eq_onLine, hannotations, hkind, hsuper, hinterfaces,
        hheader hclass, hheader hinterface]

end SourceWriter

/-! ## Files with a comment -/

/-- Lines that are ended by a line feed are read one by one. -/
theorem sourceLines_join (lines : List String) (after : List Char) :
    sourceLines ((String.join (lines.map (· ++ "\n"))).toList ++ after) =
      lines.flatMap (fun line => sourceLines (line ++ "\n").toList) ++ sourceLines after := by
  induction lines with
  | nil => rfl
  | cons line rest ih =>
    have hfeed (more : List Char) :
        (line ++ "\n").toList ++ more = line.toList ++ '\n' :: more := by
      simp
    rw [List.map_cons, String.join_cons, String.toList_append, List.append_assoc, hfeed,
      sourceLines_append_lineFeed, ih, List.flatMap_cons, List.append_assoc]
    simp

/-- What stands behind some lines is what is left without comment lines, exactly if all of those
lines are comment lines. -/
theorem withoutHeadComment_eq_iff {head bare : String}
    (hlines : sourceLines (head ++ bare).toList =
      sourceLines head.toList ++ sourceLines bare.toList)
    (hbare : isCommentLine bare.toList = false) :
    withoutHeadComment (head ++ bare) = bare ↔
      ∀ line ∈ sourceLines head.toList, isCommentLine line = true := by
  have hbehind : (sourceLines bare.toList).dropWhile isCommentLine = sourceLines bare.toList := by
    cases hfirst : sourceLines bare.toList with
    | nil => rfl
    | cons line more =>
      have hline := isCommentLine_of_sourceLines hfirst
      exact List.dropWhile_cons_of_neg (by rw [hline, hbare]; decide)
  rw [withoutHeadComment, hlines, List.dropWhile_append, hbehind, ← List.dropWhile_eq_nil_iff]
  split
  next hempty =>
    rw [flatten_sourceLines, String.ofList_toList]
    simp [List.isEmpty_iff.mp hempty]
  next hsome =>
    refine iff_of_false (fun heq => hsome ?_) (by simpa using hsome)
    rw [List.flatten_append, flatten_sourceLines, String.ofList_append, String.ofList_toList] at heq
    have hnil : ((sourceLines head.toList).dropWhile isCommentLine).flatten = [] := by
      simpa using heq
    -- If nothing is left of the lines in front, none of them is left, as no line is empty.
    cases hleft : (sourceLines head.toList).dropWhile isCommentLine with
    | nil => rfl
    | cons line more =>
      have hmem : line ∈ sourceLines head.toList :=
        (List.dropWhile_suffix isCommentLine).mem (by rw [hleft]; exact List.mem_cons_self)
      rw [hleft, List.flatten_cons, List.append_eq_nil_iff] at hnil
      rw [hnil.1] at hmem
      exact absurd hmem (nil_notMem_sourceLines head.toList)

namespace SourceFile

open SourceWriter

/-- What a file has behind its comment. -/
def body (f : SourceFile) : List Line :=
  packageLines f.name.package ++ layout 0 f.type

/-- What is written for the comment of a file. -/
def headComment (comment : String) : String :=
  String.join ((Text.lines comment).map fun line => "// " ++ line ++ "\n")

/-- Without a comment, a file is its body. -/
theorem source_eq_text_body (f : SourceFile) :
    ({ f with comment := none } : SourceFile).source = (onLine (body f) 0 []).text := by
  simp [source, empty_eq_onLine, package_onLine, typeDecl_onLine, body]

/-- A file is what is written for its comment, and what it is without one. -/
theorem source_eq (f : SourceFile) (comment : String) :
    ({ f with comment := some comment } : SourceFile).source =
      headComment comment ++ ({ f with comment := none } : SourceFile).source := by
  have hhead : (onLine ((Text.lines comment).map fun line => ⟨0, ["// " ++ line]⟩) 0 []).text =
      headComment comment := by
    simp [text, headComment, Line.text, Function.comp_def, String.join]
  rw [source_eq_text_body, ← hhead, ← text_onLine_append]
  simp only [source, empty_eq_onLine, comment_onLine, package_onLine, typeDecl_onLine, body,
    List.append_assoc, List.nil_append]

/-- Without a comment, a file starts with its package or its type. -/
theorem startsWith_source (f : SourceFile) :
    StartsWith (· ≠ '/') ({ f with comment := none } : SourceFile).source := by
  have hpackage : StartsWith (· ≠ '/') "package " := ⟨_, _, rfl, by decide⟩
  obtain ⟨part, parts, more, hbody, hpart⟩ : ∃ part parts more,
      body f = ⟨0, part :: parts⟩ :: more ∧ StartsWith (· ≠ '/') part := by
    obtain ⟨part, parts, more, hopening, hpart⟩ := exists_written_opening f.type
    rw [body, packageLines]
    split
    · exact ⟨part, parts, _, by rw [layout_eq, hopening]; rfl, hpart⟩
    · exact ⟨_, [], _, rfl, (hpackage.append _).append _⟩
  -- The first line is not empty, and it is not indented.
  have htext : (onLine (⟨0, part :: parts⟩ :: more) 0 []).text =
      part ++ String.join parts ++ "\n" ++ String.join (more.map Line.text) := by
    simp [text, Line.text]
  rw [source_eq_text_body, hbody, htext]
  exact ((hpart.append _).append _).append _

/-- The lines that are written for a comment, with other text behind them. -/
theorem sourceLines_headComment (comment : String) (after : List Char) :
    sourceLines ((headComment comment).toList ++ after) =
      (Text.lines comment).flatMap (fun line => sourceLines ("// " ++ line ++ "\n").toList) ++
        sourceLines after := by
  simpa [headComment, Function.comp_def, List.flatMap_map] using
    sourceLines_join ((Text.lines comment).map ("// " ++ ·)) after

/-- A file with a comment has the lines that are written for the comment, and behind them those that
it has without one. All lines of the comment are comment lines exactly if none of its carriage
returns ends a line in front of something else than a comment line. In these cases, and in no other
ones, what is left of the file without the comment lines at its head is the file without a
comment. -/
theorem comment_stays_iff (f : SourceFile) (comment : String) :
    let bare := ({ f with comment := none } : SourceFile).source
    let commented := ({ f with comment := some comment } : SourceFile).source
    commented = headComment comment ++ bare ∧
      sourceLines commented.toList =
        sourceLines (headComment comment).toList ++ sourceLines bare.toList ∧
      ((∀ line ∈ sourceLines (headComment comment).toList, isCommentLine line = true) ↔
        StaysComment comment) ∧
      (withoutHeadComment commented = bare ↔ StaysComment comment) := by
  intro bare commented
  have hhead := sourceLines_headComment comment []
  rw [List.append_nil, sourceLines, List.append_nil] at hhead
  -- The comment ends with a line, so that the lines of the file behind it are not joined to it.
  have hsource : commented = headComment comment ++ bare := source_eq f comment
  have hlines : sourceLines commented.toList =
      sourceLines (headComment comment).toList ++ sourceLines bare.toList := by
    rw [hsource, String.toList_append, sourceLines_headComment, hhead]
  have hstays : (∀ line ∈ sourceLines (headComment comment).toList, isCommentLine line = true) ↔
      StaysComment comment := by
    rw [staysComment_iff, hhead, List.forall_mem_flatMap]
  refine ⟨hsource, hlines, hstays, ?_⟩
  rw [hsource] at hlines ⊢
  rw [withoutHeadComment_eq_iff hlines f.startsWith_source.isCommentLine_eq_false, hstays]

/-- The comment has one line with a carriage return inside, and half of it is a line of code. -/
theorem comment_ends_at_return :
    let root : SourceFile := ⟨⟨"", "Root", []⟩, { kind := .interfaceKind, name := "Root" }, none⟩
    root.source = "interface Root \x7b\n\x7d\n" ∧
      ({ root with comment := some "a\rb" } : SourceFile).source =
        "// a\rb\ninterface Root \x7b\n\x7d\n" ∧
      sourceLines ({ root with comment := some "a\rb" } : SourceFile).source.toList =
        ["// a\r", "b\n", "interface Root \x7b\n", "\x7d\n"].map String.toList ∧
      withoutHeadComment ({ root with comment := some "a\rb" } : SourceFile).source ≠
        root.source := by
  decide +kernel

end SourceFile

end Multibinding.Java
