import StructuralTyping.Dictionary
import StructuralTyping.Tree.Basic

/-! Types live in a table and are named by their index in it, so a type may
mention itself. Entries are appended and never change, with two exceptions: a
reserved entry is filled once, and a type parameter receives its constraint
while its declaration is built. The first seven entries are the primitive types
and `unknown`. -/
namespace StructuralTyping

/-- The index of a type in its table. -/
abbrev TypeId := Nat

inductive Primitive where
  | string
  | number
  | boolean
  | void
  | null
  | undefined
deriving DecidableEq, Repr

namespace Primitive

def text : Primitive → String
  | string => "string"
  | number => "number"
  | boolean => "boolean"
  | void => "void"
  | null => "null"
  | undefined => "undefined"

def all : List Primitive := [string, number, boolean, void, null, undefined]

end Primitive

structure Property where
  type : TypeId
  optional : Bool
deriving DecidableEq, Repr

structure ObjectType where
  /-- The name of an interface, which only display uses. -/
  name : Option String
  /-- Property names are distinct and keep their declaration order. -/
  properties : Dictionary String Property
deriving DecidableEq, Repr

structure Parameter where
  name : String
  type : TypeId
  optional : Bool
deriving DecidableEq, Repr

structure FunctionType where
  typeParameters : List TypeId
  parameters : List Parameter
  returnType : TypeId
deriving DecidableEq, Repr

/-- A generic interface, the origin of its instantiations. -/
structure GenericType where
  name : String
  typeParameters : List TypeId
  body : TypeId
deriving DecidableEq, Repr

/-- A generic interface with arguments; the bindings go from the names of the
type parameters to the arguments, in the order of the declaration. -/
structure InstantiatedType where
  origin : TypeId
  bindings : Dictionary String TypeId
deriving DecidableEq, Repr

inductive TypeKind where
  | primitive (name : Primitive)
  /-- Assignable to and from everything. -/
  | unknown
  | object (type : ObjectType)
  | function (type : FunctionType)
  | typeParameter (name : String) (constraint : Option TypeId)
  | generic (type : GenericType)
  | instantiated (type : InstantiatedType)
  /-- Reserved for a declaration whose body is not built yet. -/
  | pending
deriving DecidableEq, Repr

/-- A coarse classification of types. -/
inductive TypeFlag where
  | primitive
  | unknown
  | object
  | function
  | typeParameter
  | generic
  | instantiated
  | pending
deriving DecidableEq, Repr

namespace TypeKind

def flag : TypeKind → TypeFlag
  | primitive _ => .primitive
  | unknown => .unknown
  | object _ => .object
  | function _ => .function
  | typeParameter _ _ => .typeParameter
  | generic _ => .generic
  | instantiated _ => .instantiated
  | pending => .pending

end TypeKind

namespace TypeFlag

/-- Types that relate to everything in both directions. -/
def isWildcard : TypeFlag → Bool
  | unknown => true
  | pending => true
  | _ => false

def isObjectLike : TypeFlag → Bool
  | object => true
  | instantiated => true
  | _ => false

end TypeFlag

namespace FunctionType

def isGeneric (f : FunctionType) : Bool := !f.typeParameters.isEmpty

/-- The arguments a caller must supply: all up to the last required one. -/
def minArgumentCount (f : FunctionType) : Nat :=
  (f.parameters.reverse.dropWhile fun parameter => parameter.optional).length

end FunctionType

namespace TypeId

def string : TypeId := 0

def number : TypeId := 1

def boolean : TypeId := 2

def void : TypeId := 3

def null : TypeId := 4

def undefined : TypeId := 5

def unknown : TypeId := 6

/-- The type that a keyword names. -/
def ofKeyword : Keyword → TypeId
  | .string => string
  | .number => number
  | .boolean => boolean
  | .void => void
  | .null => null
  | .undefined => undefined
  | .unknown => unknown

end TypeId

/-- From type parameters to the types bound to them. -/
abbrev Bindings := Dictionary TypeId TypeId

/-- A declaration that cannot be built. -/
inductive ConstructionError where
  | duplicateProperty (name : String)
  | bindingCount (origin : String) (expected found : Nat)
  | unknownBinding (origin name : String)
  | notGeneric (id : TypeId)
  | alreadyDefined (id : TypeId)
deriving DecidableEq, Repr

namespace ConstructionError

/-- How a type is shown in the text of an error. -/
def showId (id : TypeId) : String := "TypeId(" ++ toString id ++ ")"

def message : ConstructionError → String
  | duplicateProperty name => "duplicate property '" ++ name ++ "'"
  | bindingCount origin expected found =>
      "'" ++ origin ++ "' declares " ++ toString expected ++ " type parameter(s) but " ++
        toString found ++ " binding(s) were supplied"
  | unknownBinding origin name =>
      "'" ++ origin ++ "' has no type parameter named '" ++ name ++ "'"
  | notGeneric id => "type " ++ showId id ++ " is not a generic declaration"
  | alreadyDefined id => "type " ++ showId id ++ " was already defined"

end ConstructionError

namespace ObjectType

/-- The first name that occurs a second time. -/
def firstRepeated (seen : List String) : List (String × Property) → Option String
  | [] => none
  | (name, _) :: rest =>
      if seen.contains name then some name else firstRepeated (name :: seen) rest

/-- Property names must be distinct. -/
def ofProperties (name : Option String) (properties : List (String × Property)) :
    Except ConstructionError ObjectType :=
  match firstRepeated [] properties with
  | some repeated => .error (.duplicateProperty repeated)
  | none => .ok ⟨name, ⟨properties⟩⟩

def property? (o : ObjectType) (name : String) : Option Property := o.properties.find? name

end ObjectType

structure TypeTable where
  entries : Array TypeKind
  /-- The bodies of instantiated types that were resolved before, by origin and
  arguments. -/
  resolved : Dictionary (TypeId × List TypeId) TypeId
deriving DecidableEq, Repr

namespace TypeTable

def initial : TypeTable where
  entries := #[.primitive .string, .primitive .number, .primitive .boolean, .primitive .void,
    .primitive .null, .primitive .undefined, .unknown]
  resolved := .empty

instance : Inhabited TypeTable := ⟨initial⟩

def size (t : TypeTable) : Nat := t.entries.size

def isEmpty (t : TypeTable) : Bool := t.entries.isEmpty

/-- An index outside the table reads as `unknown`. -/
def kind (t : TypeTable) (id : TypeId) : TypeKind := t.entries[id]?.getD .unknown

/-- Whatever does not read as `unknown` is an entry. -/
theorem getElem?_of_kind {t : TypeTable} {id : TypeId} {kind : TypeKind}
    (entry : t.kind id = kind) (known : kind ≠ .unknown) : t.entries[id]? = some kind := by
  subst entry
  cases found : t.entries[id]? with
  | none => simp [TypeTable.kind, found] at known
  | some kind => simp [TypeTable.kind, found]

theorem lt_size_of_kind {t : TypeTable} {id : TypeId} {kind : TypeKind}
    (entry : t.kind id = kind) (known : kind ≠ .unknown) : id < t.size :=
  (Array.getElem?_eq_some_iff.mp (getElem?_of_kind entry known)).1

theorem mem_entries_of_kind {t : TypeTable} {id : TypeId} {kind : TypeKind}
    (entry : t.kind id = kind) (known : kind ≠ .unknown) : kind ∈ t.entries :=
  Array.mem_of_getElem? (getElem?_of_kind entry known)

def flag (t : TypeTable) (id : TypeId) : TypeFlag := (t.kind id).flag

def isWildcard (t : TypeTable) (id : TypeId) : Bool := (t.flag id).isWildcard

def primitive? (name : String) : Option TypeId := (Keyword.ofText? name).map TypeId.ofKeyword

def isPrimitive (t : TypeTable) (id : TypeId) (name : Primitive) : Bool :=
  match t.kind id with
  | .primitive p => p == name
  | _ => false

def asObject? (t : TypeTable) (id : TypeId) : Option ObjectType :=
  match t.kind id with
  | .object o => some o
  | _ => none

def asFunction? (t : TypeTable) (id : TypeId) : Option FunctionType :=
  match t.kind id with
  | .function f => some f
  | _ => none

def asGeneric? (t : TypeTable) (id : TypeId) : Option GenericType :=
  match t.kind id with
  | .generic g => some g
  | _ => none

def constraint? (t : TypeTable) (id : TypeId) : Option TypeId :=
  match t.kind id with
  | .typeParameter _ constraint => constraint
  | _ => none

/-- Append an entry; its index is the size before. -/
def add (t : TypeTable) (kind : TypeKind) : TypeId × TypeTable :=
  (t.size, { t with entries := t.entries.push kind })

@[simp] theorem fst_add (t : TypeTable) (kind : TypeKind) : (t.add kind).1 = t.size := rfl

@[simp] theorem size_add (t : TypeTable) (kind : TypeKind) :
    (t.add kind).2.size = t.size + 1 := by
  simp [add, size]

theorem kind_add_size (t : TypeTable) (kind : TypeKind) :
    (t.add kind).2.kind t.size = kind := by
  simp [add, TypeTable.kind, size]

/-- Appending leaves the entries before it alone. -/
theorem kind_add_of_lt {t : TypeTable} {id : TypeId} (inside : id < t.size) (kind : TypeKind) :
    (t.add kind).2.kind id = t.kind id := by
  have before : id < t.entries.size := inside
  simp [add, TypeTable.kind, Array.getElem?_push, Nat.ne_of_lt before]

def addObject (t : TypeTable) (properties : List (String × Property)) :
    Except ConstructionError (TypeId × TypeTable) :=
  (ObjectType.ofProperties none properties).map fun o => t.add (.object o)

/-- Every call makes another parameter, also for the same name. -/
def addTypeParameter (t : TypeTable) (name : String) : TypeId × TypeTable :=
  t.add (.typeParameter name none)

def addGeneric (t : TypeTable) (name : String) (typeParameters : List TypeId) (body : TypeId) :
    TypeId × TypeTable :=
  t.add (.generic ⟨name, typeParameters, body⟩)

def reserve (t : TypeTable) : TypeId × TypeTable := t.add .pending

def setKind (t : TypeTable) (id : TypeId) (kind : TypeKind) : TypeTable :=
  { t with entries := t.entries.setIfInBounds id kind }

@[simp] theorem size_setKind (t : TypeTable) (id : TypeId) (kind : TypeKind) :
    (t.setKind id kind).size = t.size := by
  simp [setKind, size]

theorem kind_setKind {t : TypeTable} {id : TypeId} (inside : id < t.size) (kind : TypeKind)
    (other : TypeId) :
    (t.setKind id kind).kind other = if id = other then kind else t.kind other := by
  have within : id < t.entries.size := inside
  by_cases same : id = other
  · subst same
    simp [setKind, TypeTable.kind, within]
  · simp [setKind, TypeTable.kind, same]

/-- Only a type parameter has a constraint. -/
def setConstraint (t : TypeTable) (id constraint : TypeId) : TypeTable :=
  match t.kind id with
  | .typeParameter name _ => t.setKind id (.typeParameter name (some constraint))
  | _ => t

/-- Setting a constraint changes a type parameter only. -/
theorem kind_setConstraint (t : TypeTable) (id constraint other : TypeId) :
    (t.setConstraint id constraint).kind other = t.kind other ∨
      ∃ name before, t.kind other = .typeParameter name before ∧
        (t.setConstraint id constraint).kind other = .typeParameter name (some constraint) := by
  unfold setConstraint
  split
  · next name before entry =>
      rw [kind_setKind (lt_size_of_kind entry (by simp))]
      split
      · next same => exact .inr ⟨name, before, same ▸ entry, rfl⟩
      · exact .inl rfl
  · exact .inl rfl

@[simp] theorem size_setConstraint (t : TypeTable) (id constraint : TypeId) :
    (t.setConstraint id constraint).size = t.size := by
  unfold setConstraint
  split
  · exact size_setKind _ _ _
  · rfl

theorem generic_setConstraint {t : TypeTable} {id constraint other : TypeId} {g : GenericType}
    (generic : (t.setConstraint id constraint).kind other = .generic g) :
    t.kind other = .generic g := by
  rcases kind_setConstraint t id constraint other with same | ⟨name, before, -, set⟩
  · exact same ▸ generic
  · simp [set] at generic

/-- Fill a reserved entry, which is possible once. -/
def define (t : TypeTable) (id : TypeId) (kind : TypeKind) :
    Except ConstructionError TypeTable :=
  if t.kind id = .pending then .ok (t.setKind id kind) else .error (.alreadyDefined id)

/-- Anything but a type parameter goes by the name `?`. -/
def typeParameterName (t : TypeTable) (id : TypeId) : String :=
  match t.kind id with
  | .typeParameter name _ => name
  | _ => "?"

/-- The bindings in the order of the declared names; a name without a binding is
reported together with a supplied name that is not declared. -/
def orderBindings (origin : String) (declared : List String)
    (supplied : Dictionary String TypeId) : Except ConstructionError (Dictionary String TypeId) :=
  if supplied.size ≠ declared.length then
    .error (.bindingCount origin declared.length supplied.size)
  else if declared.all supplied.contains then
    .ok (.ofList (declared.filterMap fun name => (supplied.find? name).map fun id => (name, id)))
  else
    .error (.unknownBinding origin ((supplied.keys.find? fun k => !declared.contains k).getD ""))

/-- Instantiate a generic interface. The bindings must name exactly its type
parameters; of several for one name the last counts. -/
def addInstantiated (t : TypeTable) (origin : TypeId) (bindings : List (String × TypeId)) :
    Except ConstructionError (TypeId × TypeTable) :=
  match t.kind origin with
  | .generic g => do
      let declared := g.typeParameters.map t.typeParameterName
      let ordered ← orderBindings g.name declared (.ofList bindings)
      return t.add (.instantiated ⟨origin, ordered⟩)
  | _ => .error (.notGeneric origin)

/-- The key under which the body of an instantiated type is remembered. -/
def instantiationKey (i : InstantiatedType) : TypeId × List TypeId := (i.origin, i.bindings.values)

end TypeTable

/-- Computations that extend a table. -/
abbrev TableM := StateM TypeTable

namespace TableM

def add (kind : TypeKind) : TableM TypeId := modifyGet fun t => t.add kind

def kind (id : TypeId) : TableM TypeKind := return (← get).kind id

end TableM

end StructuralTyping
