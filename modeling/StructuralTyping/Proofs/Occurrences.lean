import StructuralTyping.Tree.Basic

/-! The names in a tree, in the order in which they stand there, each with the
part it plays: an identifier among the expressions, the declaration of a value,
or the name of a type. Parameters of written function types and members of
interfaces name no values and no types, so they do not occur. -/
namespace StructuralTyping

inductive NameRole where
  /-- An identifier that stands as an expression. -/
  | identifier
  /-- The name of a function, a variable or a parameter. -/
  | declaration
  | typeName
deriving DecidableEq, Repr

abbrev Occurrence := NameRole × String

mutual

/-- The type names in a written type. -/
def TypeNode.names : TypeNode → List String
  | .keyword _ _ => []
  | .reference name arguments _ => name :: typeNames arguments
  | .literal members _ => memberTypeNames members
  | .function typeParameters parameters returnType _ =>
      constraintNames typeParameters ++ (parameterTypeNames parameters ++ returnType.names)

def typeNames : List TypeNode → List String
  | [] => []
  | node :: rest => node.names ++ typeNames rest

def memberTypeNames : List PropertySignature → List String
  | [] => []
  | ⟨_, _, declaredType, _⟩ :: rest => declaredType.names ++ memberTypeNames rest

def constraintNames : List TypeParameterNode → List String
  | [] => []
  | ⟨_, some constraint, _⟩ :: rest => constraint.names ++ constraintNames rest
  | ⟨_, none, _⟩ :: rest => constraintNames rest

def parameterTypeNames : List ParameterNode → List String
  | [] => []
  | ⟨_, _, some declaredType, _⟩ :: rest => declaredType.names ++ parameterTypeNames rest
  | ⟨_, _, none, _⟩ :: rest => parameterTypeNames rest

end

def optionalTypeNames : Option TypeNode → List String
  | none => []
  | some node => node.names

def asTypeNames (names : List String) : List Occurrence :=
  names.map fun name => (.typeName, name)

def InterfaceDeclaration.occurrences (declaration : InterfaceDeclaration) : List Occurrence :=
  asTypeNames (constraintNames declaration.typeParameters ++ memberTypeNames declaration.members)

/-- What a function declares and mentions ahead of its body. -/
def signatureOccurrences (typeParameters : List TypeParameterNode)
    (parameters : List ParameterNode) (returnType : Option TypeNode) : List Occurrence :=
  asTypeNames
      (constraintNames typeParameters ++
        (parameterTypeNames parameters ++ optionalTypeNames returnType)) ++
    parameters.map fun parameter => (.declaration, parameter.name)

mutual

def Expression.occurrences : Expression → List Occurrence
  | .identifier name _ => [(.identifier, name)]
  | .string _ _ => []
  | .number _ _ => []
  | .boolean _ _ => []
  | .object ⟨properties, _⟩ => propertyOccurrences properties
  | .call callee typeArguments arguments _ =>
      callee.occurrences ++ (asTypeNames (typeNames typeArguments) ++ argumentOccurrences arguments)
  | .property object _ _ => object.occurrences
  | .function node => node.occurrences
  | .binary _ left right _ => left.occurrences ++ right.occurrences

def propertyOccurrences : List PropertyAssignment → List Occurrence
  | [] => []
  | ⟨_, initializer, _⟩ :: rest => initializer.occurrences ++ propertyOccurrences rest

def argumentOccurrences : List Expression → List Occurrence
  | [] => []
  | argument :: rest => argument.occurrences ++ argumentOccurrences rest

def FunctionNode.occurrences : FunctionNode → List Occurrence
  | ⟨typeParameters, parameters, returnType, body, _⟩ =>
      signatureOccurrences typeParameters parameters returnType ++ statementOccurrences body

def Statement.occurrences : Statement → List Occurrence
  | .interface declaration => declaration.occurrences
  | .function name node => (.declaration, name) :: node.occurrences
  | .variable name declaredType none _ =>
      (.declaration, name) :: asTypeNames (optionalTypeNames declaredType)
  | .variable name declaredType (some initializer) _ =>
      (.declaration, name) ::
        (asTypeNames (optionalTypeNames declaredType) ++ initializer.occurrences)
  | .expression expression _ => expression.occurrences
  | .returning none _ => []
  | .returning (some expression) _ => expression.occurrences

def statementOccurrences : List Statement → List Occurrence
  | [] => []
  | statement :: rest => statement.occurrences ++ statementOccurrences rest

end

/-- The names in a program of several files. -/
def programOccurrences (files : List SourceFile) : List Occurrence :=
  files.flatMap fun file => statementOccurrences file.statements

/-- The tree neither declares a value of the name nor mentions a type of it. -/
structure Undeclared (name : String) (occurrences : List Occurrence) : Prop where
  value : (.declaration, name) ∉ occurrences
  type : (.typeName, name) ∉ occurrences

/-- The identifiers of the name. -/
def identifierCount (name : String) (occurrences : List Occurrence) : Nat :=
  occurrences.count (.identifier, name)

namespace Undeclared

variable {name : String}

@[simp] theorem append_iff (first second : List Occurrence) :
    Undeclared name (first ++ second) ↔ Undeclared name first ∧ Undeclared name second := by
  constructor
  · rintro ⟨value, type⟩
    simp only [List.mem_append, not_or] at value type
    exact ⟨⟨value.1, type.1⟩, value.2, type.2⟩
  · rintro ⟨⟨value, type⟩, value', type'⟩
    exact ⟨by simp [value, value'], by simp [type, type']⟩

@[simp] theorem cons_declaration_iff (other : String) (rest : List Occurrence) :
    Undeclared name ((.declaration, other) :: rest) ↔ name ≠ other ∧ Undeclared name rest := by
  constructor
  · rintro ⟨value, type⟩
    simp only [List.mem_cons, not_or, Prod.mk.injEq, true_and] at value type
    exact ⟨value.1, value.2, type.2⟩
  · rintro ⟨apart, value, type⟩
    exact ⟨by simp [apart, value], by simp [type]⟩

@[simp] theorem asTypeNames_iff (names : List String) :
    Undeclared name (asTypeNames names) ↔ name ∉ names := by
  constructor
  · rintro ⟨_, type⟩ member
    exact type (by simpa [asTypeNames] using member)
  · intro absent
    exact ⟨by simp [asTypeNames], by simpa [asTypeNames] using absent⟩

end Undeclared

section Counting

variable (name : String)

@[simp] theorem identifierCount_append (first second : List Occurrence) :
    identifierCount name (first ++ second) =
      identifierCount name first + identifierCount name second :=
  List.count_append

@[simp] theorem identifierCount_cons_declaration (other : String) (rest : List Occurrence) :
    identifierCount name ((.declaration, other) :: rest) = identifierCount name rest := by
  simp [identifierCount]

@[simp] theorem identifierCount_asTypeNames (names : List String) :
    identifierCount name (asTypeNames names) = 0 := by
  simp [identifierCount, asTypeNames, List.count_eq_zero]

@[simp] theorem identifierCount_signature (typeParameters : List TypeParameterNode)
    (parameters : List ParameterNode) (returnType : Option TypeNode) :
    identifierCount name (signatureOccurrences typeParameters parameters returnType) = 0 := by
  simp [signatureOccurrences, identifierCount, asTypeNames, List.count_eq_zero]

end Counting

end StructuralTyping
