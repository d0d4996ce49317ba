import StructuralTyping.Diagnostic.Message
import StructuralTyping.Tree.Record

/-! Options that change what a check reports, and their written form. -/
namespace StructuralTyping

/-- How a configurable check is reported. -/
inductive DiagnosticLevel where
  | off
  | warning
  | error
deriving DecidableEq, Repr

namespace DiagnosticLevel

def text : DiagnosticLevel → String
  | off => "off"
  | warning => "warning"
  | error => "error"

def all : List DiagnosticLevel := [off, warning, error]

/-- Levels are matched exactly. -/
def ofText? (text : String) : Option DiagnosticLevel :=
  all.find? fun level => level.text == text

/-- The complaint about a text that names no level. -/
def invalidText (text : String) : String :=
  "invalid diagnostic level '" ++ text ++ "' (expected off, warning or error)"

/-- The severity to report with, unless the check is off. -/
def severity? : DiagnosticLevel → Option Severity
  | off => none
  | warning => some .warning
  | error => some .error

def isNothing : Json → Bool
  | .null => true
  | _ => false

def decode? (j : Json) : Option DiagnosticLevel :=
  (Json.unitName? isNothing j).bind ofText?

end DiagnosticLevel

structure CheckerOptions where
  /-- Compare function parameters in reverse only, instead of in either
  direction. -/
  strictFunctionTypes : Bool
  /-- How to report type parameters that inference could not bind. -/
  unresolvedTypeParameters : DiagnosticLevel
deriving DecidableEq, Repr

namespace CheckerOptions

def default : CheckerOptions := ⟨false, .off⟩

instance : Inhabited CheckerOptions := ⟨default⟩

def decode? (j : Json) : Option CheckerOptions := do
  let r ← Record.ofJson? ["strictFunctionTypes", "unresolvedTypeParameters"] j
  let strict ← r.defaulted? "strictFunctionTypes" false Json.bool?
  let level ← r.defaulted? "unresolvedTypeParameters" .off DiagnosticLevel.decode?
  return ⟨strict, level⟩

end CheckerOptions

end StructuralTyping
