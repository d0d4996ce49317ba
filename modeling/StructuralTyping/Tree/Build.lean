import StructuralTyping.Tree.Basic

/-! Building trees by hand. Nodes are made at the unknown location and moved to
another one afterwards; moving a node leaves the nodes inside it where they are. -/
namespace StructuralTyping

namespace TypeNode

def ofKeyword (keyword : Keyword) : TypeNode := .keyword keyword .unknown

/-- Also how a type parameter is mentioned. -/
def named (name : String) (arguments : List TypeNode) : TypeNode :=
  .reference name arguments .unknown

def ofMembers (members : List PropertySignature) : TypeNode := .literal members .unknown

def ofSignature (typeParameters : List TypeParameterNode) (parameters : List ParameterNode)
    (returnType : TypeNode) : TypeNode :=
  .function typeParameters parameters returnType .unknown

end TypeNode

namespace PropertySignature

def required (name : String) (declaredType : TypeNode) : PropertySignature :=
  ⟨name, false, declaredType, .unknown⟩

def possible (name : String) (declaredType : TypeNode) : PropertySignature :=
  ⟨name, true, declaredType, .unknown⟩

def moveTo (location : Location) (p : PropertySignature) : PropertySignature :=
  { p with location := location }

end PropertySignature

namespace TypeParameterNode

def free (name : String) : TypeParameterNode := ⟨name, none, .unknown⟩

def bounded (name : String) (constraint : TypeNode) : TypeParameterNode :=
  ⟨name, some constraint, .unknown⟩

end TypeParameterNode

namespace ParameterNode

def required (name : String) (declaredType : Option TypeNode) : ParameterNode :=
  ⟨name, false, declaredType, .unknown⟩

def possible (name : String) (declaredType : Option TypeNode) : ParameterNode :=
  ⟨name, true, declaredType, .unknown⟩

def moveTo (location : Location) (p : ParameterNode) : ParameterNode :=
  { p with location := location }

end ParameterNode

namespace PropertyAssignment

def ofPair (name : String) (initializer : Expression) : PropertyAssignment :=
  ⟨name, initializer, .unknown⟩

def moveTo (location : Location) (p : PropertyAssignment) : PropertyAssignment :=
  { p with location := location }

end PropertyAssignment

namespace Expression

def moveTo (location : Location) : Expression → Expression
  | identifier name _ => identifier name location
  | string value _ => string value location
  | number value _ => number value location
  | boolean value _ => boolean value location
  | object literal => object { literal with location := location }
  | call callee typeArguments arguments _ => call callee typeArguments arguments location
  | property owner name _ => property owner name location
  | function node => function { node with location := location }
  | binary operator left right _ => binary operator left right location

def ofName (name : String) : Expression := identifier name .unknown

def ofString (value : String) : Expression := string value .unknown

def ofNumber (value : Float) : Expression := number value .unknown

def ofBool (value : Bool) : Expression := boolean value .unknown

def ofProperties (properties : List PropertyAssignment) : Expression :=
  object ⟨properties, .unknown⟩

def ofCall (callee : Expression) (typeArguments : List TypeNode) (arguments : List Expression) :
    Expression :=
  call callee typeArguments arguments .unknown

def ofAccess (owner : Expression) (name : String) : Expression := property owner name .unknown

def ofFunction (typeParameters : List TypeParameterNode) (parameters : List ParameterNode)
    (returnType : Option TypeNode) (body : List Statement) : Expression :=
  function ⟨typeParameters, parameters, returnType, body, .unknown⟩

/-- A function whose body is one expression; the `return` around it stands where
the expression stands. -/
def arrow (parameters : List ParameterNode) (body : Expression) : Expression :=
  ofFunction [] parameters none [.returning (some body) body.location]

def ofOperator (operator : BinaryOperator) (left right : Expression) : Expression :=
  binary operator left right .unknown

end Expression

namespace Statement

def moveTo (location : Location) : Statement → Statement
  | .interface declaration => .interface { declaration with location := location }
  | .function name node => .function name { node with location := location }
  | .variable name declaredType initializer _ => .variable name declaredType initializer location
  | .expression inner _ => .expression inner location
  | .returning inner _ => .returning inner location

def ofInterface (name : String) (typeParameters : List TypeParameterNode)
    (members : List PropertySignature) : Statement :=
  .interface ⟨name, typeParameters, members, .unknown⟩

def ofFunction (name : String) (typeParameters : List TypeParameterNode)
    (parameters : List ParameterNode) (returnType : Option TypeNode) (body : List Statement) :
    Statement :=
  .function name ⟨typeParameters, parameters, returnType, body, .unknown⟩

def ofVariable (name : String) (declaredType : Option TypeNode)
    (initializer : Option Expression) : Statement :=
  .variable name declaredType initializer .unknown

def ofExpression (inner : Expression) : Statement := .expression inner .unknown

def ofReturn (inner : Option Expression) : Statement := .returning inner .unknown

end Statement

end StructuralTyping
