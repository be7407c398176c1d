import Multibinding.Java.SourceFile

/-!
# How source files open

Lines that a writer has ended stay as they are, so that the text of a file opens with the first line
that was written. That is a comment, the package or an annotation, whichever comes first.

* `SourceWriter.lines_typeDecl`: writing a type adds lines;
* `SourceFile.opens_source`: the first character of a file.
-/

namespace Multibinding.Java

/-- A text has a first character, which has a property. -/
def StartsWith (p : Char → Prop) (s : String) : Prop :=
  ∃ c rest, s.toList = c :: rest ∧ p c

/-- A text starts as its first part does. -/
theorem StartsWith.append {p : Char → Prop} {s : String} (h : StartsWith p s) (t : String) :
    StartsWith p (s ++ t) := by
  obtain ⟨c, rest, hs, hc⟩ := h
  exact ⟨c, rest ++ t.toList, by rw [String.toList_append, hs, List.cons_append], hc⟩

theorem StartsWith.mono {p q : Char → Prop} {s : String} (h : StartsWith p s)
    (hpq : ∀ c, p c → q c) : StartsWith q s := by
  obtain ⟨c, rest, hs, hc⟩ := h
  exact ⟨c, rest, hs, hpq c hc⟩

/-- An annotation starts with its mark. -/
theorem AnnotationUse.startsWith_text (a : AnnotationUse) : StartsWith (· = '@') a.text := by
  have hmark : StartsWith (· = '@') ("@" ++ a.type.canonical) :=
    ⟨'@', a.type.canonical.toList, by rw [String.toList_append]; rfl, rfl⟩
  rw [text]
  split
  · exact hmark
  · exact ((hmark.append _).append _).append _
  · exact ((hmark.append _).append _).append _

/-- A text starts like a comment, a package or an annotation. -/
def Opens (s : String) : Prop :=
  ∃ c rest, s.toList = c :: rest ∧ (c = '/' ∨ c = 'p' ∨ c = '@')

/-- A text opens as its first part does. -/
theorem Opens.append {s : String} (h : Opens s) (t : String) : Opens (s ++ t) :=
  StartsWith.append h t

/-- Such a text is not empty. -/
theorem Opens.isEmpty_eq_false {s : String} (h : Opens s) : s.isEmpty = false := by
  obtain ⟨c, rest, hs, -⟩ := h
  rw [String.isEmpty_eq_false_iff]
  rintro rfl
  cases hs

theorem AnnotationUse.opens_text (a : AnnotationUse) : Opens a.text :=
  a.startsWith_text.mono fun _ hc => Or.inr (Or.inr hc)

namespace SourceWriter

variable {w : SourceWriter}

@[simp]
theorem lines_print (part : String) (w : SourceWriter) : (w.print part).lines = w.lines := by
  rw [print]
  split <;> rfl

/-- Ending a line adds it. -/
theorem lines_println (part : String) (w : SourceWriter) : w.lines <+: (w.println part).lines := by
  rw [println, endLine, lines_print]
  exact List.prefix_append _ _

theorem lines_annotations (as : List AnnotationUse) (w : SourceWriter) :
    w.lines <+: (w.annotations as).lines := by
  induction as generalizing w with
  | nil => exact List.prefix_refl _
  | cons a rest ih => exact (lines_println a.text w).trans (ih (w.println a.text))

theorem lines_method (owner : String) (m : Method) (w : SourceWriter) :
    w.lines <+: (w.method owner m).lines := by
  have hhead := lines_annotations m.annotations w
  rw [method]
  split
  · refine List.IsPrefix.trans ?_ (lines_println _ _)
    cases m.name? <;> simpa using hhead
  · refine List.IsPrefix.trans ?_ ((lines_println _ _).trans (lines_println _ _))
    cases m.name? <;> simpa using hhead

theorem lines_methods (owner : String) (first : Bool) (ms : List Method) (w : SourceWriter) :
    w.lines <+: (methods owner first ms w).lines := by
  induction ms generalizing first w with
  | nil => exact List.prefix_refl _
  | cons m rest ih =>
    refine List.IsPrefix.trans ?_ (ih false _)
    refine List.IsPrefix.trans ?_ (lines_method owner m _)
    cases first with
    | true => exact List.prefix_refl _
    | false => exact lines_println "" w

theorem lines_header (kind : DeclarationKind) (name : String) (modifiers : List Modifier)
    (superclass : Option TypeRef) (superinterfaces : List TypeRef) (w : SourceWriter) :
    w.lines <+: (w.header kind name modifiers superclass superinterfaces).lines := by
  unfold header
  refine List.IsPrefix.trans ?_ (lines_println _ _)
  cases superclass <;> cases superinterfaces <;> simp

mutual

/-- Writing a type adds lines to its annotations. -/
theorem lines_typeDecl : (t : TypeDecl) → (w : SourceWriter) →
    (w.annotations t.annotations).lines <+: (typeDecl t w).lines
  | ⟨kind, name, modifiers, annotations, superclass, superinterfaces, ms, ts⟩, w => by
    rw [typeDecl]
    let headed := (w.annotations annotations).header kind name modifiers superclass superinterfaces
    have hheaded : (w.annotations annotations).lines <+: headed.lines := lines_header ..
    have hmethods : headed.lines <+: (methods name true ms headed.incIndent).lines :=
      lines_methods name true ms headed.incIndent
    exact hheaded.trans (hmethods.trans ((lines_typeDecls ms.isEmpty ts _).trans
      (lines_println "\x7d" (SourceWriter.decIndent _))))

/-- Writing nested types adds lines. -/
theorem lines_typeDecls (first : Bool) : (ts : List TypeDecl) → (w : SourceWriter) →
    w.lines <+: (typeDecls first ts w).lines
  | [], w => List.prefix_refl _
  | t :: rest, w => by
    rw [typeDecls]
    refine List.IsPrefix.trans ?_ (((lines_annotations t.annotations _).trans
      (lines_typeDecl t _)).trans (lines_typeDecls false rest _))
    cases first with
    | true => exact List.prefix_refl _
    | false => exact lines_println "" w

end

/-- The first line that is ended opens a file. -/
def Opened (w : SourceWriter) : Prop :=
  ∃ line rest, w.lines = line :: rest ∧ Opens line.text

/-- What is written behind the first line changes nothing about it. -/
theorem Opened.mono {w' : SourceWriter} (h : w.Opened) (hlines : w.lines <+: w'.lines) :
    w'.Opened := by
  obtain ⟨line, rest, hw, hopens⟩ := h
  obtain ⟨more, hmore⟩ := hlines
  exact ⟨line, rest ++ more, by rw [← hmore, hw, List.cons_append], hopens⟩

/-- Nothing is written, or the first line opens a file. -/
def Fresh (w : SourceWriter) : Prop :=
  w = empty ∨ w.Opened

/-- A line that opens a file may be the first one. -/
theorem Fresh.println {part : String} (h : w.Fresh) (hpart : Opens part) :
    (w.println part).Opened := by
  rcases h with rfl | h
  · have hne := hpart.isEmpty_eq_false
    obtain ⟨c, rest, hc, hopens⟩ := hpart
    refine ⟨⟨0, [part]⟩, [], ?_, c, rest ++ ['\n'], ?_, hopens⟩
    · rw [SourceWriter.println, print, hne]
      rfl
    · simp [Line.text, String.join, hc]
  · exact h.mono (lines_println part w)

/-- Each line of a comment opens with its mark. -/
theorem Fresh.comment (comment : String) (h : w.Fresh) : (w.comment comment).Fresh := by
  rw [SourceWriter.comment]
  generalize Text.lines comment = lines
  induction lines generalizing w with
  | nil => exact h
  | cons line rest ih =>
    refine ih (Or.inr (h.println ⟨'/', '/' :: ' ' :: line.toList, ?_, Or.inl rfl⟩))
    rw [String.toList_append]
    rfl

/-- A package opens with its keyword. -/
theorem Fresh.package (package : String) (h : w.Fresh) : (w.package package).Fresh := by
  have hopens : Opens ("package " ++ package ++ ";") := by
    refine ⟨'p', ("ackage " ++ package ++ ";").toList, ?_, Or.inr (Or.inl rfl)⟩
    simp only [String.toList_append]
    rfl
  rw [SourceWriter.package]
  split
  · exact h
  · exact Or.inr ((h.println hopens).mono (lines_println "" _))

/-- A type opens with its annotations. -/
theorem Fresh.typeDecl {t : TypeDecl} (ht : t.annotations ≠ []) (h : w.Fresh) :
    (SourceWriter.typeDecl t w).Opened := by
  refine Opened.mono ?_ (lines_typeDecl t w)
  cases hannotations : t.annotations with
  | nil => exact absurd hannotations ht
  | cons a rest =>
    exact (h.println a.opens_text).mono (lines_annotations rest (w.println a.text))

end SourceWriter

/-- The source of a file whose type is annotated. -/
theorem SourceFile.opens_source {f : SourceFile} (h : f.type.annotations ≠ []) :
    Opens f.source := by
  have hopened (w : SourceWriter) (hw : w.Fresh) :
      Opens (SourceWriter.typeDecl f.type (w.package f.name.package)).text := by
    obtain ⟨line, rest, hlines, hopens⟩ := (hw.package f.name.package).typeDecl h
    rw [SourceWriter.text, hlines, List.map_cons, String.join_cons]
    exact hopens.append _
  rw [source]
  cases f.comment with
  | none => exact hopened _ (Or.inl rfl)
  | some comment => exact hopened _ (.comment comment (Or.inl rfl))

end Multibinding.Java
