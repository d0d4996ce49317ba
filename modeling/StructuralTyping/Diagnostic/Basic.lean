import StructuralTyping.Location
import StructuralTyping.Diagnostic.Message
import StructuralTyping.Diagnostic.Template

/-! A reported problem: what is wrong, where, and the chain of causes below it.
Diagnostics are plain values; the functions whose names start with `with`
return a changed copy. -/
namespace StructuralTyping

structure Diagnostic where
  /-- Absent when the program text has no name. -/
  file : Option String
  location : Option Location
  message : String
  code : Nat
  severity : Severity
  /-- The causes, outermost first. -/
  related : List Diagnostic
deriving Repr

namespace Diagnostic

/-- A diagnostic that is attached to no position. -/
def ofMessage (message : Message) (arguments : List String) : Diagnostic where
  file := none
  location := none
  message := Template.fill message.template arguments
  code := message.code
  severity := message.severity
  related := []

def atLocation (location : Location) (message : Message) (arguments : List String) :
    Diagnostic :=
  { ofMessage message arguments with location := some location }

/-- The file is set on the diagnostic and on its direct causes. -/
def withFile (d : Diagnostic) (file : String) : Diagnostic :=
  { d with
    file := some file
    related := d.related.map fun cause => { cause with file := some file } }

def withSeverity (d : Diagnostic) (severity : Severity) : Diagnostic :=
  { d with severity := severity }

def withRelated (d : Diagnostic) (cause : Diagnostic) : Diagnostic :=
  { d with related := d.related ++ [cause] }

def isError (d : Diagnostic) : Bool :=
  d.severity == .error

/-- The position is shown only behind a file name. -/
def text (d : Diagnostic) : String :=
  let place :=
    match d.file, d.location with
    | none, _ => ""
    | some file, none => file ++ ": "
    | some file, some location => file ++ "(" ++ location.text ++ "): "
  place ++ d.severity.text ++ " TS" ++ toString d.code ++ ": " ++ d.message

end Diagnostic

end StructuralTyping
