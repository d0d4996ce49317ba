import StructuralTyping.Tree.Basic

/-! The names that stand side by side in a tree: the properties of one interface, of
one written object type or of one object literal, and the type parameters of one
interface. A tree whose groups hold no name twice declares nothing malformed. -/
namespace StructuralTyping

inductive NameGroup where
  /-- The properties of an interface, a written object type or an object literal. -/
  | properties (names : List String)
  /-- The type parameters of an interface. -/
  | interfaceParameters (names : List String)
deriving DecidableEq, Repr

def NameGroup.names : NameGroup → List String
  | properties names => names
  | interfaceParameters names => names

mutual

def TypeNode.nameGroups : TypeNode → List NameGroup
  | .keyword _ _ => []
  | .reference _ arguments _ => typeNameGroups arguments
  | .literal members _ =>
      .properties (members.map PropertySignature.name) :: memberNameGroups members
  | .function typeParameters parameters returnType _ =>
      constraintNameGroups typeParameters ++
        (parameterNameGroups parameters ++ returnType.nameGroups)

def typeNameGroups : List TypeNode → List NameGroup
  | [] => []
  | node :: rest => node.nameGroups ++ typeNameGroups rest

def memberNameGroups : List PropertySignature → List NameGroup
  | [] => []
  | ⟨_, _, declaredType, _⟩ :: rest => declaredType.nameGroups ++ memberNameGroups rest

def constraintNameGroups : List TypeParameterNode → List NameGroup
  | [] => []
  | ⟨_, some constraint, _⟩ :: rest => constraint.nameGroups ++ constraintNameGroups rest
  | ⟨_, none, _⟩ :: rest => constraintNameGroups rest

def parameterNameGroups : List ParameterNode → List NameGroup
  | [] => []
  | ⟨_, _, some declaredType, _⟩ :: rest => declaredType.nameGroups ++ parameterNameGroups rest
  | ⟨_, _, none, _⟩ :: rest => parameterNameGroups rest

end

def optionalTypeNameGroups : Option TypeNode → List NameGroup
  | none => []
  | some node => node.nameGroups

def InterfaceDeclaration.nameGroups (declaration : InterfaceDeclaration) : List NameGroup :=
  .interfaceParameters (declaration.typeParameters.map TypeParameterNode.name) ::
    .properties (declaration.members.map PropertySignature.name) ::
      (constraintNameGroups declaration.typeParameters ++ memberNameGroups declaration.members)

/-- The groups in what a function declares ahead of its body. -/
def signatureNameGroups (typeParameters : List TypeParameterNode)
    (parameters : List ParameterNode) (returnType : Option TypeNode) : List NameGroup :=
  constraintNameGroups typeParameters ++
    (parameterNameGroups parameters ++ optionalTypeNameGroups returnType)

mutual

def Expression.nameGroups : Expression → List NameGroup
  | .identifier _ _ => []
  | .string _ _ => []
  | .number _ _ => []
  | .boolean _ _ => []
  | .object ⟨properties, _⟩ =>
      .properties (properties.map PropertyAssignment.name) :: propertyNameGroups properties
  | .call callee typeArguments arguments _ =>
      callee.nameGroups ++ (typeNameGroups typeArguments ++ argumentNameGroups arguments)
  | .property object _ _ => object.nameGroups
  | .function node => node.nameGroups
  | .binary _ left right _ => left.nameGroups ++ right.nameGroups

def propertyNameGroups : List PropertyAssignment → List NameGroup
  | [] => []
  | ⟨_, initializer, _⟩ :: rest => initializer.nameGroups ++ propertyNameGroups rest

def argumentNameGroups : List Expression → List NameGroup
  | [] => []
  | argument :: rest => argument.nameGroups ++ argumentNameGroups rest

def FunctionNode.nameGroups : FunctionNode → List NameGroup
  | ⟨typeParameters, parameters, returnType, body, _⟩ =>
      signatureNameGroups typeParameters parameters returnType ++ statementNameGroups body

def Statement.nameGroups : Statement → List NameGroup
  | .interface declaration => declaration.nameGroups
  | .function _ node => node.nameGroups
  | .variable _ declaredType none _ => optionalTypeNameGroups declaredType
  | .variable _ declaredType (some initializer) _ =>
      optionalTypeNameGroups declaredType ++ initializer.nameGroups
  | .expression expression _ => expression.nameGroups
  | .returning none _ => []
  | .returning (some expression) _ => expression.nameGroups

def statementNameGroups : List Statement → List NameGroup
  | [] => []
  | statement :: rest => statement.nameGroups ++ statementNameGroups rest

end

/-- The groups of names in a program of several files. -/
def programNameGroups (files : List SourceFile) : List NameGroup :=
  files.flatMap fun file => statementNameGroups file.statements

/-- No group holds a name twice. -/
def Unrepeated (groups : List NameGroup) : Prop := ∀ group ∈ groups, group.names.Nodup

namespace Unrepeated

@[simp] theorem nil : Unrepeated [] := List.forall_mem_nil _

@[simp] theorem cons_iff (group : NameGroup) (rest : List NameGroup) :
    Unrepeated (group :: rest) ↔ group.names.Nodup ∧ Unrepeated rest :=
  List.forall_mem_cons

@[simp] theorem append_iff (first second : List NameGroup) :
    Unrepeated (first ++ second) ↔ Unrepeated first ∧ Unrepeated second :=
  List.forall_mem_append

/-- The names do not repeat if those of properties and those of parameters do not. -/
theorem of_kinds {groups : List NameGroup}
    (properties : ∀ names, .properties names ∈ groups → names.Nodup)
    (parameters : ∀ names, .interfaceParameters names ∈ groups → names.Nodup) :
    Unrepeated groups := by
  intro group member
  cases group with
  | properties names => exact properties names member
  | interfaceParameters names => exact parameters names member

end Unrepeated

end StructuralTyping
