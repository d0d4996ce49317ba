import StructuralTyping.Json.Basic
import StructuralTyping.Location

/-! Structured data in the interchange format. A record is an object with named
fields or an array of the same fields in their fixed order; a variant record has
its kind in a field `kind` or as the first element. Unknown fields are ignored
and a repeated field is refused. -/
namespace StructuralTyping

/-- The fields that were given. Only in a record with named fields may an
optional field be absent. -/
structure Record where
  positional : Bool
  fields : List (String × Json)

namespace Record

def count (name : String) (members : List (String × Json)) : Nat :=
  members.countP fun member => member.1 == name

def ofMembers? (names : List String) (members : List (String × Json)) : Option Record :=
  if names.all fun name => count name members ≤ 1 then
    some ⟨false, members.filter fun member => names.contains member.1⟩
  else none

def ofItems? (names : List String) (items : List Json) : Option Record :=
  if items.length ≤ names.length then some ⟨true, names.zip items⟩ else none

def ofJson? (names : List String) : Json → Option Record
  | .object members => ofMembers? names members
  | .array items => ofItems? names items
  | _ => none

/-- The name of a kind. Where a number is accepted it counts the kinds from
zero. -/
def kindName? (kinds : List String) (numbered : Bool) : Json → Option String
  | .string name => if kinds.contains name then some name else none
  | .number (.natural n) => if numbered then kinds[n]? else none
  | _ => none

/-- The kind of a variant record and the value without it. -/
def splitKind? (kinds : List String) (numbered : Bool) : Json → Option (String × Json)
  | .object members =>
      match members.filter fun member => member.1 == "kind" with
      | [(_, kind)] =>
          (kindName? kinds numbered kind).map fun name =>
            (name, .object (members.filter fun member => member.1 != "kind"))
      | _ => none
  | .array (kind :: items) => (kindName? kinds numbered kind).map fun name => (name, .array items)
  | _ => none

def find? (r : Record) (name : String) : Option Json :=
  (r.fields.find? fun field => field.1 == name).map Prod.snd

variable {α : Type}

def required? (r : Record) (name : String) (decode : Json → Option α) : Option α :=
  (r.find? name).bind decode

/-- An absent field takes the default; a null is not absent. -/
def defaulted? (r : Record) (name : String) (value : α) (decode : Json → Option α) : Option α :=
  match r.find? name with
  | none => some value
  | some given => decode given

/-- A null means that there is nothing. -/
def nullable? (decode : Json → Option α) : Json → Option (Option α)
  | .null => some none
  | given => (decode given).map some

/-- An absent field means that there is nothing, if fields have names. -/
def optional? (r : Record) (name : String) (decode : Json → Option α) : Option (Option α) :=
  match r.find? name with
  | none => if r.positional then none else some none
  | some given => nullable? decode given

end Record

namespace Json

def string? : Json → Option String
  | string s => some s
  | _ => none

def bool? : Json → Option Bool
  | bool b => some b
  | _ => none

def list? {α : Type} (decode : Json → Option α) : Json → Option (List α)
  | array items => items.mapM decode
  | _ => none

/-- Any number, as the nearest double. -/
def double? : Json → Option Float
  | number (.natural n) => some (Float.ofNat n)
  | number (.negative n) => some (-Float.ofNat n)
  | number (.real x) => some x
  | _ => none

/-- An integer of 32 bits. -/
def word? : Json → Option UInt32
  | number (.natural n) => if n < UInt32.size then some (UInt32.ofNat n) else none
  | _ => none

/-- A name that stands for itself, or an object with that one name and nothing
in it. -/
def unitName? (isNothing : Json → Bool) : Json → Option String
  | string name => some name
  | object [(name, value)] => if isNothing value then some name else none
  | _ => none

end Json

namespace Location

def decode? (j : Json) : Option Location := do
  let r ← Record.ofJson? ["line", "column"] j
  let line ← r.required? "line" Json.word?
  let column ← r.required? "column" Json.word?
  return ⟨line, column⟩

def encode (l : Location) : Json :=
  .object [("line", .number (.natural l.line.toNat)), ("column", .number (.natural l.column.toNat))]

end Location

end StructuralTyping
