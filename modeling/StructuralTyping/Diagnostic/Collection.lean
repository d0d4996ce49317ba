import StructuralTyping.Diagnostic.Basic

/-! The diagnostics of a run in the order in which they were found. The list
only grows. -/
namespace StructuralTyping

structure DiagnosticCollection where
  toList : List Diagnostic
deriving Repr

namespace DiagnosticCollection

def empty : DiagnosticCollection := ⟨[]⟩

instance : Inhabited DiagnosticCollection := ⟨empty⟩

def add (c : DiagnosticCollection) (d : Diagnostic) : DiagnosticCollection :=
  ⟨c.toList ++ [d]⟩

def append (c : DiagnosticCollection) (ds : List Diagnostic) : DiagnosticCollection :=
  ⟨c.toList ++ ds⟩

def size (c : DiagnosticCollection) : Nat := c.toList.length

def isEmpty (c : DiagnosticCollection) : Bool := c.toList.isEmpty

def hasErrors (c : DiagnosticCollection) : Bool := c.toList.any Diagnostic.isError

def errorCount (c : DiagnosticCollection) : Nat := c.toList.countP Diagnostic.isError

/-- Whatever is not an error is a warning. -/
def warningCount (c : DiagnosticCollection) : Nat := c.size - c.errorCount

@[simp] theorem toList_add (c : DiagnosticCollection) (d : Diagnostic) :
    (c.add d).toList = c.toList ++ [d] := rfl

@[simp] theorem toList_append (c : DiagnosticCollection) (ds : List Diagnostic) :
    (c.append ds).toList = c.toList ++ ds := rfl

end DiagnosticCollection

end StructuralTyping
