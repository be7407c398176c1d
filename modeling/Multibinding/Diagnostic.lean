import Multibinding.Declaration.Element

/-!
# Diagnostics

What is wrong with single declarations is reported in diagnostics and stops nothing. Reports are
kept in the order in which they were made.
-/

namespace Multibinding

/-- How grave a diagnostic is. -/
inductive DiagnosticKind where
  | note
  | warning
  | error
deriving DecidableEq

/-- The name of a kind. -/
def DiagnosticKind.name : DiagnosticKind → String
  | .note => "note"
  | .warning => "warning"
  | .error => "error"

/-- A report about a declaration, or about none in particular. -/
structure Diagnostic where
  /-- How grave it is. -/
  kind : DiagnosticKind
  /-- What it says. -/
  message : String
  /-- The declaration it is about. -/
  element : Option Element
deriving DecidableEq

namespace Diagnostic

/-- An error in a declaration. -/
def error (element : Element) (message : String) : Diagnostic :=
  { kind := .error, message, element := some element }

/-- The text of a diagnostic. -/
def text (d : Diagnostic) : String :=
  d.kind.name ++ ": " ++ d.message ++
    (match d.element with
      | some element => " (" ++ element.text ++ ")"
      | none => "")

/-- Whether a diagnostic is an error. -/
def isError (d : Diagnostic) : Bool :=
  d.kind = .error

/-- The errors among diagnostics. -/
def errors (ds : List Diagnostic) : List Diagnostic :=
  ds.filter isError

end Diagnostic

end Multibinding
