import Multibinding.Proofs.Java.Opening

/-!
# The layout of generated types

A type is written line by line. Its lines are the same wherever it stands, but that all of them move
to the right with the types around it: a line stands one step further to the right for each type
body that encloses it, and there is one blank line between two members of a body.

* `SourceWriter.WritesLines`: a header or a method is written as lines beside each other;
* `SourceWriter.layout`: the lines of a type, read off its members;
* `SourceWriter.typeDecl?_onLine`: they are what is written, and the indentation that is taken back
  has always been given before;
* `SourceWriter.typeDecl_compositional`: the lines of a type in any place, from those of the type
  alone.
-/

namespace Multibinding.Java

/-- The line some steps further to the right. -/
def Line.shift (steps : Nat) (l : Line) : Line :=
  { l with indent := steps + l.indent }

namespace SourceWriter

/-! ## One line after the other -/

/-- The writer that has ended some lines and has written parts of the next one, which stands as far
to the right as the writer indents. -/
def onLine (lines : List Line) (indent : Nat) (parts : List String) : SourceWriter :=
  { lines, current := { indent, parts }, indent }

theorem empty_eq_onLine : empty = onLine [] 0 [] := rfl

section Steps

variable (lines : List Line) (indent : Nat) (parts : List String)

@[simp]
theorem lines_onLine : (onLine lines indent parts).lines = lines := rfl

/-- Printing goes on with the line. -/
@[simp]
theorem print_onLine (part : String) :
    (onLine lines indent parts).print part =
      onLine lines indent (parts ++ [part].filter (!·.isEmpty)) := by
  rw [print]
  split
  next h => simp [h]
  next h => simp [h, onLine]

/-- The line behind one that is ended stands as far to the right. -/
@[simp]
theorem println_onLine (part : String) :
    (onLine lines indent parts).println part =
      onLine (lines ++ [⟨indent, parts ++ [part].filter (!·.isEmpty)⟩]) indent [] := by
  rw [println, print_onLine]
  rfl

@[simp]
theorem blankLine_onLine :
    (onLine lines indent []).blankLine = onLine (lines ++ [⟨indent, []⟩]) indent [] := rfl

@[simp]
theorem incIndent_onLine :
    (onLine lines indent []).incIndent = onLine lines (indent + 1) [] := rfl

@[simp]
theorem annotations_onLine (as : List AnnotationUse) :
    (onLine lines indent []).annotations as =
      onLine (lines ++ as.map fun a => ⟨indent, [a.text]⟩) indent [] := by
  induction as generalizing lines with
  | nil => simp [annotations]
  | cons a rest ih =>
    have hstep : (onLine lines indent []).annotations (a :: rest) =
        ((onLine lines indent []).println a.text).annotations rest := rfl
    rw [hstep, println_onLine, ih]
    simp [a.opens_text.isEmpty_eq_false]

end Steps

/-! ## Lines beside each other -/

/-- What stands on the lines that a step writes if nothing is written yet. -/
def written (step : SourceWriter → SourceWriter) : List (List String) :=
  (step empty).lines.map (·.parts)

/-- A step writes lines, all of them as far to the right as the writer indents and none of them
blank. -/
structure WritesLines (step : SourceWriter → SourceWriter) : Prop where
  onLine_eq : ∀ lines indent, step (onLine lines indent []) =
    onLine (lines ++ (written step).map (Line.mk indent)) indent []
  nil_notMem : [] ∉ written step

/-- Writes a type up to the brace that opens its body. -/
def opening (t : TypeDecl) (w : SourceWriter) : SourceWriter :=
  (w.annotations t.annotations).header t.kind t.name t.modifiers t.superclass t.superinterfaces

theorem writesLines_opening (t : TypeDecl) : WritesLines (opening t) := by
  -- What the header prints depends on the types that it names; the last line ends with the brace.
  constructor
  · intro lines indent
    cases hclass : t.superclass <;> cases hinterfaces : t.superinterfaces.isEmpty <;>
      simp [written, opening, header, empty_eq_onLine, hclass, hinterfaces, Function.comp_def]
  · cases hclass : t.superclass <;> cases hinterfaces : t.superinterfaces.isEmpty <;>
      simp [written, opening, header, empty_eq_onLine, hclass, hinterfaces]

/-- The braces of a method enclose no line, and the indentation stays as it is. -/
theorem writesLines_method (owner : String) (m : Method) : WritesLines (method owner m) := by
  constructor
  · intro lines indent
    cases hname : m.name? <;> cases habstract : m.isAbstract <;>
      simp [written, method, empty_eq_onLine, hname, habstract, Function.comp_def]
  · cases hname : m.name? <;> cases habstract : m.isAbstract <;>
      simp [written, method, empty_eq_onLine, hname, habstract]

/-! ## Members with a blank line between them -/

/-- The lines of members of a body, each of them behind a blank line if another member precedes
it. -/
def separated (blank : Line) (first : Bool) : List (List Line) → List Line
  | [] => []
  | member :: rest => (if first then [] else [blank]) ++ member ++ separated blank false rest

/-- The members of a body may be written in two turns. -/
theorem separated_append (blank : Line) (first : Bool) (before after : List (List Line)) :
    separated blank first (before ++ after) =
      separated blank first before ++ separated blank (first && before.isEmpty) after := by
  induction before generalizing first with
  | nil => simp [separated]
  | cons member rest ih => simp [separated, ih]

/-- In the whole body there is a blank line between any two members. -/
theorem separated_eq_intercalate (blank : Line) (members : List (List Line)) :
    separated blank true members = List.intercalate [blank] members := by
  have hrest (rest : List (List Line)) (member : List Line) :
      member ++ separated blank false rest = List.intercalate [blank] (member :: rest) := by
    induction rest generalizing member with
    | nil => simp [separated]
    | cons next rest ih => simp [separated, ih]
  cases members with
  | nil => rfl
  | cons member rest => simpa [separated] using hrest rest member

theorem map_separated (f : Line → Line) (blank : Line) (first : Bool)
    (members : List (List Line)) :
    (separated blank first members).map f =
      separated (f blank) first (members.map (List.map f)) := by
  induction members generalizing first with
  | nil => rfl
  | cons member rest ih => cases first <;> simp [separated, ih]

theorem methods_onLine (owner : String) (first : Bool) (ms : List Method) (lines : List Line)
    (indent : Nat) :
    methods owner first ms (onLine lines indent []) =
      onLine (lines ++ separated ⟨indent, []⟩ first
        (ms.map fun m => (written (method owner m)).map (Line.mk indent))) indent [] := by
  induction ms generalizing first lines with
  | nil => simp [methods, separated]
  | cons m rest ih =>
    cases first <;> simp [methods, separated, (writesLines_method owner m).onLine_eq, ih]

/-! ## The lines of a type -/

mutual

/-- The lines of a type that is enclosed by some type bodies. Its header and the brace at its end
are enclosed by no further one, its members and the blank lines between them by its own body. -/
def layout (enclosing : Nat) : TypeDecl → List Line
  | t@⟨_, name, _, _, _, _, ms, ts⟩ =>
    (written (opening t)).map (Line.mk enclosing) ++
      List.intercalate [⟨enclosing + 1, []⟩]
        (ms.map (fun m => (written (method name m)).map (Line.mk (enclosing + 1))) ++
          layouts (enclosing + 1) ts) ++
      [⟨enclosing, ["\x7d"]⟩]

/-- The lines of each of several types. -/
def layouts (enclosing : Nat) : List TypeDecl → List (List Line)
  | [] => []
  | t :: rest => layout enclosing t :: layouts enclosing rest

end

theorem layouts_eq_map (enclosing : Nat) (ts : List TypeDecl) :
    layouts enclosing ts = ts.map (layout enclosing) := by
  induction ts with
  | nil => rfl
  | cons t rest ih => rw [layouts, ih, List.map_cons]

theorem layout_eq (enclosing : Nat) (t : TypeDecl) :
    layout enclosing t =
      (written (opening t)).map (Line.mk enclosing) ++
        List.intercalate [⟨enclosing + 1, []⟩]
          (t.methods.map (fun m => (written (method t.name m)).map (Line.mk (enclosing + 1))) ++
            t.types.map (layout (enclosing + 1))) ++
        [⟨enclosing, ["\x7d"]⟩] := by
  rw [← layouts_eq_map]
  cases t
  rw [layout]

mutual

/-- Further type bodies around a type move all of its lines. -/
theorem map_shift_layout (steps : Nat) : (t : TypeDecl) → (enclosing : Nat) →
    (layout enclosing t).map (Line.shift steps) = layout (steps + enclosing) t
  | ⟨kind, name, modifiers, annotations, superclass, superinterfaces, ms, ts⟩, enclosing => by
    -- The blank lines between the members are moved with them.
    have htypes := map_shift_layouts steps ts (enclosing + 1)
    simp only [layout, ← separated_eq_intercalate, List.map_append, map_separated, htypes]
    simp [Line.shift, Function.comp_def, Nat.add_assoc]

theorem map_shift_layouts (steps : Nat) : (ts : List TypeDecl) → (enclosing : Nat) →
    (layouts enclosing ts).map (List.map (Line.shift steps)) = layouts (steps + enclosing) ts
  | [], _ => rfl
  | t :: rest, enclosing => by
    rw [layouts, List.map_cons, map_shift_layout steps t, map_shift_layouts steps rest, layouts]

end

/-! ## Writing a type -/

/-- Indents one step less, and fails if the writer does not indent. -/
def decIndent? (w : SourceWriter) : Option SourceWriter :=
  if w.indent = 0 then none else some w.decIndent

@[simp]
theorem decIndent?_onLine (lines : List Line) (indent : Nat) :
    (onLine lines (indent + 1) []).decIndent? = some (onLine lines indent []) := rfl

theorem decIndent_eq_of_decIndent? {w w' : SourceWriter} (h : w.decIndent? = some w') :
    w.decIndent = w' := by
  rw [decIndent?] at h
  split at h
  · cases h
  · exact Option.some.inj h

mutual

/-- Writes a type with its members as `typeDecl` does, and fails where the indentation is taken back
though the writer does not indent. -/
def typeDecl? : TypeDecl → SourceWriter → Option SourceWriter
  | t@⟨_, name, _, _, _, _, ms, ts⟩, w => do
    let w ← typeDecls? ms.isEmpty ts (methods name true ms (opening t w).incIndent)
    let w ← w.decIndent?
    return w.println "\x7d"

/-- Writes the types nested in a type likewise. -/
def typeDecls? (first : Bool) : List TypeDecl → SourceWriter → Option SourceWriter
  | [], w => some w
  | t :: rest, w => do
    let w ← typeDecl? t (if first then w else w.blankLine)
    typeDecls? false rest w

end

mutual

/-- Where it does not fail, it writes the same. -/
theorem typeDecl_eq_of_typeDecl? : (t : TypeDecl) → {w w' : SourceWriter} →
    typeDecl? t w = some w' → typeDecl t w = w'
  | ⟨kind, name, modifiers, annotations, superclass, superinterfaces, ms, ts⟩, w, w', h => by
    simp only [typeDecl?, Option.bind_eq_bind, Option.bind_eq_some_iff] at h
    -- The body is written first, and then the indentation is taken back.
    obtain ⟨body, hbody, behind, hbehind, hw'⟩ := h
    have htypes := typeDecls_eq_of_typeDecls? _ ts hbody
    rw [opening] at htypes
    rw [typeDecl]
    simp only [htypes, decIndent_eq_of_decIndent? hbehind]
    exact Option.some.inj hw'

theorem typeDecls_eq_of_typeDecls? (first : Bool) : (ts : List TypeDecl) →
    {w w' : SourceWriter} → typeDecls? first ts w = some w' → typeDecls first ts w = w'
  | [], _, _, h => Option.some.inj h
  | t :: rest, w, w', h => by
    obtain ⟨next, hnext, hrest⟩ := Option.bind_eq_some_iff.mp h
    rw [typeDecls, typeDecl_eq_of_typeDecl? t hnext]
    exact typeDecls_eq_of_typeDecls? false rest hrest

end

mutual

/-- The lines of a type are what is written, and the indentation that is taken back has been given
before. -/
theorem typeDecl?_onLine : (t : TypeDecl) → (lines : List Line) → (indent : Nat) →
    typeDecl? t (onLine lines indent []) = some (onLine (lines ++ layout indent t) indent [])
  | ⟨kind, name, modifiers, annotations, superclass, superinterfaces, ms, ts⟩, lines, indent => by
    rw [typeDecl?, layout]
    simp only [(writesLines_opening _).onLine_eq, incIndent_onLine, methods_onLine,
      typeDecls?_onLine _ ts]
    -- The methods and the nested types are the members of one body.
    rw [← separated_eq_intercalate, separated_append]
    simp

/-- So are the lines of nested types. -/
theorem typeDecls?_onLine (first : Bool) : (ts : List TypeDecl) → (lines : List Line) →
    (indent : Nat) → typeDecls? first ts (onLine lines indent []) =
      some (onLine (lines ++ separated ⟨indent, []⟩ first (layouts indent ts)) indent [])
  | [], lines, indent => by simp [typeDecls?, layouts, separated]
  | t :: rest, lines, indent => by
    cases first <;>
      simp [typeDecls?, layouts, separated, typeDecl?_onLine t, typeDecls?_onLine false rest]

end

theorem typeDecl_onLine (t : TypeDecl) (lines : List Line) (indent : Nat) :
    typeDecl t (onLine lines indent []) = onLine (lines ++ layout indent t) indent [] :=
  typeDecl_eq_of_typeDecl? t (typeDecl?_onLine t lines indent)

/-- The lines of a type that stands for itself, moved to the right. -/
def linesAt (indent : Nat) (t : TypeDecl) : List Line :=
  (typeDecl t empty).lines.map (Line.shift indent)

theorem linesAt_eq_layout (indent : Nat) (t : TypeDecl) : linesAt indent t = layout indent t := by
  rw [linesAt, empty_eq_onLine, typeDecl_onLine, lines_onLine, List.nil_append, map_shift_layout,
    Nat.add_zero]

/-- A type that is written from the start of a line adds the lines of the type that stands for
itself, all of them moved as far to the right as the writer indents. Behind them the writer is at
the start of a line and indents as before, and the indentation that was taken back on the way had
been given before. The lines are those of the header, those of the members one step further to the
right, and the brace at the end. There is one blank line between two members and no other one, as
neither a header nor a method has any. -/
theorem typeDecl_compositional (t : TypeDecl) (lines : List Line) (indent : Nat) :
    typeDecl t (onLine lines indent []) = onLine (lines ++ linesAt indent t) indent [] ∧
      typeDecl? t (onLine lines indent []) = some (typeDecl t (onLine lines indent [])) ∧
      linesAt indent t =
        (written (opening t)).map (Line.mk indent) ++
          List.intercalate [⟨indent + 1, []⟩]
            (t.methods.map (fun m => (written (method t.name m)).map (Line.mk (indent + 1))) ++
              t.types.map (linesAt (indent + 1))) ++
          [⟨indent, ["\x7d"]⟩] ∧
      WritesLines (opening t) ∧ ∀ owner m, WritesLines (method owner m) := by
  have hlines : linesAt = layout := funext fun i => funext fun s => linesAt_eq_layout i s
  rw [hlines]
  refine ⟨typeDecl_onLine t lines indent, ?_, layout_eq indent t, writesLines_opening t,
    writesLines_method⟩
  rw [typeDecl_onLine, typeDecl?_onLine]

end SourceWriter

end Multibinding.Java
