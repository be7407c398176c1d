import Multibinding.Java.Declaration
import Multibinding.Java.SourceWriter
import Multibinding.Text

/-!
# Generated source files

A source file holds one top-level type. `SourceFile.source` writes it: the comment, the package and
the type, whose members stand one step further to the right and are parted by blank lines. All types
are written with their qualified names, so that no file needs imports.
-/

namespace Multibinding.Java

/-- A source file. -/
structure SourceFile where
  /-- The qualified name of the top-level class. -/
  name : ClassName
  /-- The top-level type. -/
  type : TypeDecl
  /-- The comment at the head of the file. -/
  comment : Option String

namespace SourceFile

/-- The path of the file below the output directory: a directory for each part of the package, and
the file itself named after the type. A name that starts at the root of the file system stands for
itself. -/
def path (f : SourceFile) : String :=
  let file := f.type.name ++ ".java"
  if f.name.package.isEmpty || file.toList.head? == some '/' then file
  else String.intercalate "/" (Text.split '.' f.name.package ++ [file])

end SourceFile

namespace SourceWriter

/-- Writes each annotation of a declaration on a line of its own. -/
def annotations (as : List AnnotationUse) (w : SourceWriter) : SourceWriter :=
  as.foldl (fun w a => w.println a.text) w

/-- Writes a method. Only an abstract one has no body. -/
def method (owner : String) (m : Method) (w : SourceWriter) : SourceWriter :=
  let w := (w.annotations m.annotations).print (Modifier.text m.modifiers)
  let w :=
    match m.name? with
    | none => w.print owner
    | some name => ((w.print ((m.returns.map TypeRef.text).getD "void")).print " ").print name
  let w := w.print ("(" ++ String.intercalate ", "
    (m.parameters.map fun p => p.type.text ++ " " ++ p.name) ++ ")")
  if m.isAbstract then w.println ";" else (w.println " \x7b").println "\x7d"

/-- Writes the methods of a type, each after a blank line if another member precedes it. -/
def methods (owner : String) (first : Bool) : List Method → SourceWriter → SourceWriter
  | [], w => w
  | m :: rest, w =>
    methods owner false rest ((if first then w else w.blankLine).method owner m)

/-- Writes the header of a type, up to the brace that opens its body. -/
def header (kind : DeclarationKind) (name : String) (modifiers : List Modifier)
    (superclass : Option TypeRef) (superinterfaces : List TypeRef) (w : SourceWriter) :
    SourceWriter :=
  let w := w.print (Modifier.text modifiers)
  let w := w.print (match kind with | .classKind => "class " | .interfaceKind => "interface ")
  let w := w.print name
  let w :=
    match superclass with
    | some type => w.print (" extends " ++ type.text)
    | none => w
  let w :=
    if superinterfaces.isEmpty then w
    else
      let keyword := match kind with | .classKind => "implements" | .interfaceKind => "extends"
      w.print (" " ++ keyword ++ " " ++ String.intercalate ", " (superinterfaces.map TypeRef.text))
  w.println " \x7b"

mutual

/-- Writes a type with its members. -/
def typeDecl : TypeDecl → SourceWriter → SourceWriter
  | ⟨kind, name, modifiers, annotations, superclass, superinterfaces, ms, ts⟩, w =>
    let w := (w.annotations annotations).header kind name modifiers superclass superinterfaces
    -- The first nested type follows a blank line if there are methods before it.
    let w := typeDecls ms.isEmpty ts (methods name true ms w.incIndent)
    w.decIndent.println "\x7d"

/-- Writes the types nested in a type, each after a blank line if another member precedes it. -/
def typeDecls (first : Bool) : List TypeDecl → SourceWriter → SourceWriter
  | [], w => w
  | t :: rest, w => typeDecls false rest (typeDecl t (if first then w else w.blankLine))

end

/-- Writes each line of a comment as a comment line. -/
def comment (comment : String) (w : SourceWriter) : SourceWriter :=
  (Text.lines comment).foldl (fun w line => w.println ("// " ++ line)) w

/-- Writes the package of a file and a blank line; the default package is not written. -/
def package (package : String) (w : SourceWriter) : SourceWriter :=
  if package.isEmpty then w else (w.println ("package " ++ package ++ ";")).blankLine

end SourceWriter

/-- The text of a source file. -/
def SourceFile.source (f : SourceFile) : String :=
  let w := match f.comment with
    | some comment => SourceWriter.empty.comment comment
    | none => SourceWriter.empty
  (SourceWriter.typeDecl f.type (w.package f.name.package)).text

end Multibinding.Java
