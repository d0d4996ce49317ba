/-! Positions in a checked program. Lines and columns count from one; line zero
stands for a position nobody recorded. Positions are ordered by line, then by
column. -/
namespace StructuralTyping

structure Location where
  line : UInt32
  column : UInt32
deriving DecidableEq, Repr

namespace Location

/-- The position of a node that was given none. -/
def unknown : Location := ⟨0, 0⟩

instance : Inhabited Location := ⟨unknown⟩

def isUnknown (l : Location) : Bool := l.line == 0

/-- The form used inside diagnostics, `line,column`. -/
def text (l : Location) : String :=
  toString l.line.toNat ++ "," ++ toString l.column.toNat

/-- The form used when a location stands alone, `line:column`. -/
def colonText (l : Location) : String :=
  toString l.line.toNat ++ ":" ++ toString l.column.toNat

def atMost (a b : Location) : Bool :=
  a.line < b.line || (a.line == b.line && a.column ≤ b.column)

/-- Equal locations keep the order they came in. -/
def sort (locations : List Location) : List Location :=
  locations.mergeSort atMost

end Location

end StructuralTyping
