import StructuralTyping.Json.Printer
import StructuralTyping.Tree.Basic
import StructuralTyping.Tree.Record

/-! Writing trees. Every field is present, in a fixed order: the kind first, the
location last, and null for a node that is absent. -/
namespace StructuralTyping

def kindField (kind : String) : String × Json := ("kind", .string kind)

def locationField (l : Location) : String × Json := ("loc", l.encode)

mutual

def TypeNode.encode : TypeNode → Json
  | .keyword keyword location =>
      .object [kindField "Keyword", ("keyword", .string keyword.text), locationField location]
  | .reference name arguments location =>
      .object [kindField "TypeReference", ("name", .string name),
        ("typeArguments", .array (TypeNode.encodeList arguments)), locationField location]
  | .literal members location =>
      .object [kindField "TypeLiteral", ("members", .array (PropertySignature.encodeList members)),
        locationField location]
  | .function typeParameters parameters returnType location =>
      .object [kindField "FunctionType",
        ("typeParameters", .array (TypeParameterNode.encodeList typeParameters)),
        ("parameters", .array (ParameterNode.encodeList parameters)),
        ("returnType", returnType.encode), locationField location]

def TypeNode.encodeList : List TypeNode → List Json
  | [] => []
  | node :: rest => node.encode :: TypeNode.encodeList rest

def PropertySignature.encodeList : List PropertySignature → List Json
  | [] => []
  | ⟨name, optional, declaredType, location⟩ :: rest =>
      .object [("name", .string name), ("optional", .bool optional),
        ("typeAnnotation", declaredType.encode), locationField location] ::
        PropertySignature.encodeList rest

def TypeParameterNode.encodeList : List TypeParameterNode → List Json
  | [] => []
  | ⟨name, constraint, location⟩ :: rest =>
      .object [("name", .string name), ("constraint", TypeNode.encodeOption constraint),
        locationField location] :: TypeParameterNode.encodeList rest

def ParameterNode.encodeList : List ParameterNode → List Json
  | [] => []
  | ⟨name, optional, declaredType, location⟩ :: rest =>
      .object [("name", .string name), ("optional", .bool optional),
        ("typeAnnotation", TypeNode.encodeOption declaredType), locationField location] ::
        ParameterNode.encodeList rest

def TypeNode.encodeOption : Option TypeNode → Json
  | none => .null
  | some node => node.encode

end

mutual

def Expression.encode : Expression → Json
  | .identifier name location =>
      .object [kindField "Identifier", ("name", .string name), locationField location]
  | .string value location =>
      .object [kindField "StringLiteral", ("value", .string value), locationField location]
  | .number value location =>
      .object [kindField "NumericLiteral", ("value", .number (.real value)),
        locationField location]
  | .boolean value location =>
      .object [kindField "BooleanLiteral", ("value", .bool value), locationField location]
  | .object ⟨properties, location⟩ =>
      .object [kindField "ObjectLiteral",
        ("properties", .array (PropertyAssignment.encodeList properties)), locationField location]
  | .call callee typeArguments arguments location =>
      .object [kindField "Call", ("callee", callee.encode),
        ("typeArguments", .array (TypeNode.encodeList typeArguments)),
        ("arguments", .array (Expression.encodeList arguments)), locationField location]
  | .property object name location =>
      .object [kindField "PropertyAccess", ("expression", object.encode), ("name", .string name),
        locationField location]
  | .function node => .object (kindField "Function" :: node.encodeFields)
  | .binary operator left right location =>
      .object [kindField "Binary", ("operator", .string operator.text), ("left", left.encode),
        ("right", right.encode), locationField location]

def Expression.encodeList : List Expression → List Json
  | [] => []
  | expression :: rest => expression.encode :: Expression.encodeList rest

def Expression.encodeOption : Option Expression → Json
  | none => .null
  | some expression => expression.encode

def PropertyAssignment.encodeList : List PropertyAssignment → List Json
  | [] => []
  | ⟨name, initializer, location⟩ :: rest =>
      .object [("name", .string name), ("initializer", initializer.encode),
        locationField location] :: PropertyAssignment.encodeList rest

def FunctionNode.encodeFields : FunctionNode → List (String × Json)
  | ⟨typeParameters, parameters, returnType, body, location⟩ =>
      [("typeParameters", .array (TypeParameterNode.encodeList typeParameters)),
        ("parameters", .array (ParameterNode.encodeList parameters)),
        ("returnType", TypeNode.encodeOption returnType),
        ("body", .array (Statement.encodeList body)), locationField location]

def Statement.encode : Statement → Json
  | .interface ⟨name, typeParameters, members, location⟩ =>
      .object [kindField "InterfaceDeclaration", ("name", .string name),
        ("typeParameters", .array (TypeParameterNode.encodeList typeParameters)),
        ("members", .array (PropertySignature.encodeList members)), locationField location]
  | .function name node =>
      .object (kindField "FunctionDeclaration" :: ("name", .string name) :: node.encodeFields)
  | .variable name declaredType initializer location =>
      .object [kindField "VariableDeclaration", ("name", .string name),
        ("typeAnnotation", TypeNode.encodeOption declaredType),
        ("initializer", Expression.encodeOption initializer), locationField location]
  | .expression expression location =>
      .object [kindField "ExpressionStatement", ("expression", expression.encode),
        locationField location]
  | .returning expression location =>
      .object [kindField "ReturnStatement", ("expression", Expression.encodeOption expression),
        locationField location]

def Statement.encodeList : List Statement → List Json
  | [] => []
  | statement :: rest => statement.encode :: Statement.encodeList rest

end

namespace SourceFile

def encode (file : SourceFile) : Json :=
  .object [("fileName", .string file.name),
    ("statements", .array (Statement.encodeList file.statements))]

/-- The written form, on one line. -/
def text (file : SourceFile) : String := file.encode.compact

end SourceFile

end StructuralTyping
