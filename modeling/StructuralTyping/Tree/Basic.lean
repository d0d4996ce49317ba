import StructuralTyping.Location

/-! The trees that are checked: written types, expressions, statements and
source files. Every node carries the position of its first token. -/
namespace StructuralTyping

/-- The types that have a keyword of their own. -/
inductive Keyword where
  | string
  | number
  | boolean
  | void
  | null
  | undefined
  | unknown
deriving DecidableEq, Repr

namespace Keyword

def text : Keyword → String
  | string => "string"
  | number => "number"
  | boolean => "boolean"
  | void => "void"
  | null => "null"
  | undefined => "undefined"
  | unknown => "unknown"

def all : List Keyword := [string, number, boolean, void, null, undefined, unknown]

/-- Keywords are matched exactly. -/
def ofText? (text : String) : Option Keyword :=
  all.find? fun keyword => keyword.text == text

end Keyword

mutual

inductive TypeNode where
  | keyword (keyword : Keyword) (location : Location)
  /-- `Name` or `Name<Arguments>`. -/
  | reference (name : String) (arguments : List TypeNode) (location : Location)
  | literal (members : List PropertySignature) (location : Location)
  | function (typeParameters : List TypeParameterNode) (parameters : List ParameterNode)
      (returnType : TypeNode) (location : Location)

/-- A member of an interface or of a written object type. -/
structure PropertySignature where
  name : String
  optional : Bool
  declaredType : TypeNode
  location : Location

structure TypeParameterNode where
  name : String
  constraint : Option TypeNode
  location : Location

structure ParameterNode where
  name : String
  optional : Bool
  declaredType : Option TypeNode
  location : Location

end

deriving instance Repr for TypeNode
deriving instance Repr for PropertySignature
deriving instance Repr for TypeParameterNode
deriving instance Repr for ParameterNode

instance : Inhabited TypeNode := ⟨.keyword .unknown .unknown⟩

inductive BinaryOperator where
  | plus
  | minus
  | times
  | dividedBy
deriving DecidableEq, Repr

namespace BinaryOperator

def text : BinaryOperator → String
  | plus => "+"
  | minus => "-"
  | times => "*"
  | dividedBy => "/"

def all : List BinaryOperator := [plus, minus, times, dividedBy]

def ofText? (text : String) : Option BinaryOperator :=
  all.find? fun operator => operator.text == text

end BinaryOperator

structure InterfaceDeclaration where
  name : String
  typeParameters : List TypeParameterNode
  members : List PropertySignature
  location : Location
deriving Repr

mutual

inductive Expression where
  | identifier (name : String) (location : Location)
  | string (value : String) (location : Location)
  | number (value : Float) (location : Location)
  | boolean (value : Bool) (location : Location)
  | object (literal : ObjectLiteral)
  | call (callee : Expression) (typeArguments : List TypeNode) (arguments : List Expression)
      (location : Location)
  | property (object : Expression) (name : String) (location : Location)
  | function (node : FunctionNode)
  | binary (operator : BinaryOperator) (left right : Expression) (location : Location)

structure ObjectLiteral where
  properties : List PropertyAssignment
  location : Location

structure PropertyAssignment where
  name : String
  initializer : Expression
  location : Location

/-- What function declarations and function expressions have in common. An arrow
with an expression as its body has a single `return` statement for a body. -/
structure FunctionNode where
  typeParameters : List TypeParameterNode
  parameters : List ParameterNode
  returnType : Option TypeNode
  body : List Statement
  location : Location

inductive Statement where
  | interface (declaration : InterfaceDeclaration)
  | function (name : String) (node : FunctionNode)
  | variable (name : String) (declaredType : Option TypeNode) (initializer : Option Expression)
      (location : Location)
  | expression (expression : Expression) (location : Location)
  | returning (expression : Option Expression) (location : Location)

end

deriving instance Repr for Expression
deriving instance Repr for ObjectLiteral
deriving instance Repr for PropertyAssignment
deriving instance Repr for FunctionNode
deriving instance Repr for Statement

/-- The statements of one program text; a text without a name has the empty one. -/
structure SourceFile where
  name : String
  statements : List Statement
deriving Repr

namespace TypeNode

def location : TypeNode → Location
  | keyword _ l => l
  | reference _ _ l => l
  | literal _ l => l
  | function _ _ _ l => l

end TypeNode

namespace Expression

instance : Inhabited Expression := ⟨identifier "" .unknown⟩

def location : Expression → Location
  | identifier _ l => l
  | string _ l => l
  | number _ l => l
  | boolean _ l => l
  | object literal => literal.location
  | call _ _ _ l => l
  | property _ _ l => l
  | function node => node.location
  | binary _ _ _ l => l

/-- The object literal that this expression is, if it is one. -/
def asObjectLiteral? : Expression → Option ObjectLiteral
  | object literal => some literal
  | _ => none

end Expression

namespace FunctionNode

/-- A parameter without a written type takes its type from the context, but only
in a function without type parameters. -/
def isContextSensitive (f : FunctionNode) : Bool :=
  f.typeParameters.isEmpty && f.parameters.any fun parameter => parameter.declaredType.isNone

end FunctionNode

namespace Expression

def isContextSensitive : Expression → Bool
  | function node => node.isContextSensitive
  | _ => false

end Expression

namespace Statement

def location : Statement → Location
  | .interface declaration => declaration.location
  | .function _ node => node.location
  | .variable _ _ _ l => l
  | .expression _ l => l
  | .returning _ l => l

end Statement

end StructuralTyping
