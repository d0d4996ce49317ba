/-! Values of the interchange format. Members keep the order and the repetitions
of the text, because a reader of structured data must be able to refuse a
repeated member. -/
namespace StructuralTyping

/-- A number keeps whether it was written as an integer of 64 bits: places that
count lines accept no other. -/
inductive JsonNumber where
  | natural (n : Nat)
  /-- The value is `-n`. -/
  | negative (n : Nat)
  | real (x : Float)
deriving DecidableEq, Repr

inductive Json where
  | null
  | bool (value : Bool)
  | number (value : JsonNumber)
  | string (value : String)
  | array (items : List Json)
  | object (members : List (String × Json))
  /-- Well-formed text that stands for no value: a number beyond the doubles, or
  half of a surrogate pair, also in a member name. -/
  | unreadable
deriving Repr

namespace Json

instance : Inhabited Json := ⟨null⟩

mutual

/-- Whether the value has at most the given number of nested containers and no
unreadable part. -/
def readable (limit : Nat) : Json → Bool
  | null => true
  | bool _ => true
  | number _ => true
  | string _ => true
  | array items => limit ≠ 0 && readableItems (limit - 1) items
  | object members => limit ≠ 0 && readableMembers (limit - 1) members
  | unreadable => false

def readableItems (limit : Nat) : List Json → Bool
  | [] => true
  | item :: rest => readable limit item && readableItems limit rest

def readableMembers (limit : Nat) : List (String × Json) → Bool
  | [] => true
  | (_, value) :: rest => readable limit value && readableMembers limit rest

end

/-- The deepest nesting of containers that a text may have. -/
def nestingLimit : Nat := 127

end Json

end StructuralTyping
