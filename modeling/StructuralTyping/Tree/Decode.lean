import StructuralTyping.Json.Reader
import StructuralTyping.Tree.Basic
import StructuralTyping.Tree.Record

/-! Reading trees. The depth that is passed down is the nesting that may still
follow, so it ends every descent. A node inside another one may give its kind by
number. -/
namespace StructuralTyping

/-- The field that every node ends with. -/
def Record.location? (r : Record) : Option Location :=
  r.defaulted? "loc" .unknown Location.decode?

/-- Inside a node an empty object counts as nothing, like null. -/
def isNothingInNode : Json → Bool
  | .null => true
  | .object [] => true
  | _ => false

def Keyword.decode? (j : Json) : Option Keyword :=
  (Json.unitName? isNothingInNode j).bind Keyword.ofText?

def BinaryOperator.decode? (j : Json) : Option BinaryOperator :=
  (Json.unitName? isNothingInNode j).bind BinaryOperator.ofText?

namespace TypeNode

def kinds : List String := ["Keyword", "TypeReference", "TypeLiteral", "FunctionType"]

mutual

def decodeAt? : Nat → Bool → Json → Option TypeNode
  | 0, _, _ => none
  | depth + 1, nested, j => do
      let (kind, fields) ← Record.splitKind? kinds nested j
      match kind with
      | "Keyword" => do
          let r ← Record.ofJson? ["keyword", "loc"] fields
          let keyword ← r.required? "keyword" Keyword.decode?
          let location ← r.location?
          return .keyword keyword location
      | "TypeReference" => do
          let r ← Record.ofJson? ["name", "typeArguments", "loc"] fields
          let name ← r.required? "name" Json.string?
          let arguments ← r.defaulted? "typeArguments" [] (Json.list? (decodeAt? depth true))
          let location ← r.location?
          return .reference name arguments location
      | "TypeLiteral" => do
          let r ← Record.ofJson? ["members", "loc"] fields
          let members ← r.defaulted? "members" [] (Json.list? (decodeSignatureAt? depth))
          let location ← r.location?
          return .literal members location
      | _ => do
          let r ← Record.ofJson? ["typeParameters", "parameters", "returnType", "loc"] fields
          let typeParameters ←
            r.defaulted? "typeParameters" [] (Json.list? (decodeTypeParameterAt? depth))
          let parameters ← r.defaulted? "parameters" [] (Json.list? (decodeParameterAt? depth))
          let returnType ← r.required? "returnType" (decodeAt? depth true)
          let location ← r.location?
          return .function typeParameters parameters returnType location

def decodeSignatureAt? : Nat → Json → Option PropertySignature
  | 0, _ => none
  | depth + 1, j => do
      let r ← Record.ofJson? ["name", "optional", "typeAnnotation", "loc"] j
      let name ← r.required? "name" Json.string?
      let optional ← r.defaulted? "optional" false Json.bool?
      let declaredType ← r.required? "typeAnnotation" (decodeAt? depth true)
      let location ← r.location?
      return ⟨name, optional, declaredType, location⟩

def decodeTypeParameterAt? : Nat → Json → Option TypeParameterNode
  | 0, _ => none
  | depth + 1, j => do
      let r ← Record.ofJson? ["name", "constraint", "loc"] j
      let name ← r.required? "name" Json.string?
      let constraint ← r.optional? "constraint" (decodeAt? depth true)
      let location ← r.location?
      return ⟨name, constraint, location⟩

def decodeParameterAt? : Nat → Json → Option ParameterNode
  | 0, _ => none
  | depth + 1, j => do
      let r ← Record.ofJson? ["name", "optional", "typeAnnotation", "loc"] j
      let name ← r.required? "name" Json.string?
      let optional ← r.defaulted? "optional" false Json.bool?
      let declaredType ← r.optional? "typeAnnotation" (decodeAt? depth true)
      let location ← r.location?
      return ⟨name, optional, declaredType, location⟩

end

/-- A node that stands alone must be readable as a whole. -/
def decode? (j : Json) : Option TypeNode :=
  if j.readable Json.nestingLimit then decodeAt? Json.nestingLimit false j else none

end TypeNode

namespace InterfaceDeclaration

def decodeAt? (depth : Nat) (j : Json) : Option InterfaceDeclaration := do
  let r ← Record.ofJson? ["name", "typeParameters", "members", "loc"] j
  let name ← r.required? "name" Json.string?
  let typeParameters ←
    r.defaulted? "typeParameters" [] (Json.list? (TypeNode.decodeTypeParameterAt? depth))
  let members ← r.defaulted? "members" [] (Json.list? (TypeNode.decodeSignatureAt? depth))
  let location ← r.location?
  return ⟨name, typeParameters, members, location⟩

end InterfaceDeclaration

namespace Expression

def kinds : List String :=
  ["Identifier", "StringLiteral", "NumericLiteral", "BooleanLiteral", "ObjectLiteral", "Call",
    "PropertyAccess", "Function", "Binary"]

end Expression

namespace Statement

def kinds : List String :=
  ["InterfaceDeclaration", "FunctionDeclaration", "VariableDeclaration", "ExpressionStatement",
    "ReturnStatement"]

end Statement

mutual

def Expression.decodeAt? : Nat → Bool → Json → Option Expression
  | 0, _, _ => none
  | depth + 1, nested, j => do
      let (kind, fields) ← Record.splitKind? Expression.kinds nested j
      match kind with
      | "Identifier" => do
          let r ← Record.ofJson? ["name", "loc"] fields
          let name ← r.required? "name" Json.string?
          let location ← r.location?
          return .identifier name location
      | "StringLiteral" => do
          let r ← Record.ofJson? ["value", "loc"] fields
          let value ← r.required? "value" Json.string?
          let location ← r.location?
          return .string value location
      | "NumericLiteral" => do
          let r ← Record.ofJson? ["value", "loc"] fields
          let value ← r.required? "value" Json.double?
          let location ← r.location?
          return .number value location
      | "BooleanLiteral" => do
          let r ← Record.ofJson? ["value", "loc"] fields
          let value ← r.required? "value" Json.bool?
          let location ← r.location?
          return .boolean value location
      | "ObjectLiteral" => do
          let r ← Record.ofJson? ["properties", "loc"] fields
          let properties ←
            r.defaulted? "properties" [] (Json.list? (PropertyAssignment.decodeAt? depth))
          let location ← r.location?
          return .object ⟨properties, location⟩
      | "Call" => do
          let r ← Record.ofJson? ["callee", "typeArguments", "arguments", "loc"] fields
          let callee ← r.required? "callee" (Expression.decodeAt? depth true)
          let typeArguments ←
            r.defaulted? "typeArguments" [] (Json.list? (TypeNode.decodeAt? depth true))
          let arguments ← r.defaulted? "arguments" [] (Json.list? (Expression.decodeAt? depth true))
          let location ← r.location?
          return .call callee typeArguments arguments location
      | "PropertyAccess" => do
          let r ← Record.ofJson? ["expression", "name", "loc"] fields
          let object ← r.required? "expression" (Expression.decodeAt? depth true)
          let name ← r.required? "name" Json.string?
          let location ← r.location?
          return .property object name location
      | "Function" => do
          let r ← Record.ofJson? ["typeParameters", "parameters", "returnType", "body", "loc"] fields
          let node ← FunctionNode.decodeAt? depth r
          return .function node
      | _ => do
          let r ← Record.ofJson? ["operator", "left", "right", "loc"] fields
          let operator ← r.required? "operator" BinaryOperator.decode?
          let left ← r.required? "left" (Expression.decodeAt? depth true)
          let right ← r.required? "right" (Expression.decodeAt? depth true)
          let location ← r.location?
          return .binary operator left right location

def PropertyAssignment.decodeAt? : Nat → Json → Option PropertyAssignment
  | 0, _ => none
  | depth + 1, j => do
      let r ← Record.ofJson? ["name", "initializer", "loc"] j
      let name ← r.required? "name" Json.string?
      let initializer ← r.required? "initializer" (Expression.decodeAt? depth true)
      let location ← r.location?
      return ⟨name, initializer, location⟩

/-- The fields of a function, apart from its name. -/
def FunctionNode.decodeAt? : Nat → Record → Option FunctionNode
  | 0, _ => none
  | depth + 1, r => do
      let typeParameters ←
        r.defaulted? "typeParameters" [] (Json.list? (TypeNode.decodeTypeParameterAt? depth))
      let parameters ←
        r.defaulted? "parameters" [] (Json.list? (TypeNode.decodeParameterAt? depth))
      let returnType ← r.optional? "returnType" (TypeNode.decodeAt? depth true)
      let body ← r.defaulted? "body" [] (Json.list? (Statement.decodeAt? depth true))
      let location ← r.location?
      return ⟨typeParameters, parameters, returnType, body, location⟩

def Statement.decodeAt? : Nat → Bool → Json → Option Statement
  | 0, _, _ => none
  | depth + 1, nested, j => do
      let (kind, fields) ← Record.splitKind? Statement.kinds nested j
      match kind with
      | "InterfaceDeclaration" => do
          let declaration ← InterfaceDeclaration.decodeAt? depth fields
          return .interface declaration
      | "FunctionDeclaration" => do
          let r ←
            Record.ofJson? ["name", "typeParameters", "parameters", "returnType", "body", "loc"]
              fields
          let name ← r.required? "name" Json.string?
          let node ← FunctionNode.decodeAt? depth r
          return .function name node
      | "VariableDeclaration" => do
          let r ← Record.ofJson? ["name", "typeAnnotation", "initializer", "loc"] fields
          let name ← r.required? "name" Json.string?
          let declaredType ← r.optional? "typeAnnotation" (TypeNode.decodeAt? depth true)
          let initializer ← r.optional? "initializer" (Expression.decodeAt? depth true)
          let location ← r.location?
          return .variable name declaredType initializer location
      | "ExpressionStatement" => do
          let r ← Record.ofJson? ["expression", "loc"] fields
          let expression ← r.required? "expression" (Expression.decodeAt? depth true)
          let location ← r.location?
          return .expression expression location
      | _ => do
          let r ← Record.ofJson? ["expression", "loc"] fields
          let expression ← r.optional? "expression" (Expression.decodeAt? depth true)
          let location ← r.location?
          return .returning expression location

end

namespace Expression

def decode? (j : Json) : Option Expression :=
  if j.readable Json.nestingLimit then decodeAt? (2 * Json.nestingLimit) false j else none

end Expression

namespace Statement

def decode? (j : Json) : Option Statement :=
  if j.readable Json.nestingLimit then decodeAt? (2 * Json.nestingLimit) false j else none

end Statement

namespace SourceFile

/-- The statements take one level of nesting less than the file. -/
def decodeStatements? (j : Json) : Option (List Statement) :=
  if j.readable (Json.nestingLimit - 1) then
    Json.list? (Statement.decodeAt? (2 * Json.nestingLimit) false) j
  else none

/-- The fields that are not used may hold anything well-formed. -/
def decode? (j : Json) : Option SourceFile := do
  let r ← Record.ofJson? ["fileName", "statements"] j
  let name ← r.defaulted? "fileName" "" Json.string?
  let statements ← r.defaulted? "statements" [] decodeStatements?
  return ⟨name, statements⟩

def parse? (text : String) : Option SourceFile :=
  (Json.parse? text).bind decode?

end SourceFile

end StructuralTyping
