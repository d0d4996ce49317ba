/-! A table that hands out one number for each distinct name, in the order the
names first arrive. -/
namespace StructuralTyping

structure NameTable where
  names : Array String
deriving DecidableEq, Repr

namespace NameTable

def empty : NameTable := ⟨#[]⟩

instance : Inhabited NameTable := ⟨empty⟩

def size (t : NameTable) : Nat := t.names.size

def isEmpty (t : NameTable) : Bool := t.names.isEmpty

/-- The number of a name that was entered before. -/
def find? (t : NameTable) (name : String) : Option Nat :=
  t.names.idxOf? name

/-- The number of a name, which is entered if it is new. -/
def intern (t : NameTable) (name : String) : Nat × NameTable :=
  match t.find? name with
  | some index => (index, t)
  | none => (t.size, ⟨t.names.push name⟩)

def name? (t : NameTable) (index : Nat) : Option String :=
  t.names[index]?

theorem name?_of_find? {t : NameTable} {name : String} {index : Nat}
    (found : t.find? name = some index) : t.name? index = some name := by
  unfold find? at found
  rw [Array.idxOf?_eq_map_finIdxOf?_val] at found
  obtain ⟨place, located, rfl⟩ := Option.map_eq_some_iff.mp found
  have same : t.names[place.val] = name := (Array.finIdxOf?_eq_some_iff.mp located).1
  rw [name?, Array.getElem?_eq_getElem place.isLt, same]

/-- The number that entering a name hands out leads back to the name. -/
theorem name?_intern (t : NameTable) (name : String) :
    (t.intern name).2.name? (t.intern name).1 = some name := by
  unfold intern
  split
  · next found => exact name?_of_find? found
  · simp [name?, size]

end NameTable

end StructuralTyping
