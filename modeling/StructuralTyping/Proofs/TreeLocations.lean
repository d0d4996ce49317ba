import StructuralTyping.Tree.Basic

/-! The locations in a tree: those of its root and of every node below it. -/
namespace StructuralTyping

mutual

def TypeNode.locations : TypeNode → List Location
  | .keyword _ location => [location]
  | .reference _ arguments location => location :: typeLocations arguments
  | .literal members location => location :: memberLocations members
  | .function typeParameters parameters returnType location =>
      location :: (typeParameterLocations typeParameters ++
        (parameterLocations parameters ++ returnType.locations))

def typeLocations : List TypeNode → List Location
  | [] => []
  | node :: rest => node.locations ++ typeLocations rest

def memberLocations : List PropertySignature → List Location
  | [] => []
  | ⟨_, _, declaredType, location⟩ :: rest =>
      location :: (declaredType.locations ++ memberLocations rest)

def typeParameterLocations : List TypeParameterNode → List Location
  | [] => []
  | ⟨_, some constraint, location⟩ :: rest =>
      location :: (constraint.locations ++ typeParameterLocations rest)
  | ⟨_, none, location⟩ :: rest => location :: typeParameterLocations rest

def parameterLocations : List ParameterNode → List Location
  | [] => []
  | ⟨_, _, some declaredType, location⟩ :: rest =>
      location :: (declaredType.locations ++ parameterLocations rest)
  | ⟨_, _, none, location⟩ :: rest => location :: parameterLocations rest

end

def optionalTypeLocations : Option TypeNode → List Location
  | none => []
  | some node => node.locations

def InterfaceDeclaration.locations (declaration : InterfaceDeclaration) : List Location :=
  declaration.location ::
    (typeParameterLocations declaration.typeParameters ++ memberLocations declaration.members)

/-- The locations in what a function declares ahead of its body. -/
def signatureLocations (typeParameters : List TypeParameterNode)
    (parameters : List ParameterNode) (returnType : Option TypeNode) : List Location :=
  typeParameterLocations typeParameters ++
    (parameterLocations parameters ++ optionalTypeLocations returnType)

mutual

def Expression.locations : Expression → List Location
  | .identifier _ location => [location]
  | .string _ location => [location]
  | .number _ location => [location]
  | .boolean _ location => [location]
  | .object ⟨properties, location⟩ => location :: propertyLocations properties
  | .call callee typeArguments arguments location =>
      location :: (callee.locations ++
        (typeLocations typeArguments ++ argumentLocations arguments))
  | .property object _ location => location :: object.locations
  | .function node => node.locations
  | .binary _ left right location => location :: (left.locations ++ right.locations)

def propertyLocations : List PropertyAssignment → List Location
  | [] => []
  | ⟨_, initializer, location⟩ :: rest =>
      location :: (initializer.locations ++ propertyLocations rest)

def argumentLocations : List Expression → List Location
  | [] => []
  | argument :: rest => argument.locations ++ argumentLocations rest

def FunctionNode.locations : FunctionNode → List Location
  | ⟨typeParameters, parameters, returnType, body, location⟩ =>
      location :: (signatureLocations typeParameters parameters returnType ++
        statementLocations body)

def Statement.locations : Statement → List Location
  | .interface declaration => declaration.locations
  | .function _ node => node.locations
  | .variable _ declaredType none location => location :: optionalTypeLocations declaredType
  | .variable _ declaredType (some initializer) location =>
      location :: (optionalTypeLocations declaredType ++ initializer.locations)
  | .expression expression location => location :: expression.locations
  | .returning none location => [location]
  | .returning (some expression) location => location :: expression.locations

def statementLocations : List Statement → List Location
  | [] => []
  | statement :: rest => statement.locations ++ statementLocations rest

end

def ObjectLiteral.locations (literal : ObjectLiteral) : List Location :=
  literal.location :: propertyLocations literal.properties

theorem Expression.locations_object : ∀ literal : ObjectLiteral,
    (Expression.object literal).locations = literal.locations
  | ⟨_, _⟩ => rfl

def SourceFile.locations (file : SourceFile) : List Location :=
  statementLocations file.statements

section Members

theorem TypeNode.location_mem : ∀ node : TypeNode, node.location ∈ node.locations
  | .keyword _ _ => List.mem_cons_self
  | .reference _ _ _ => List.mem_cons_self
  | .literal _ _ => List.mem_cons_self
  | .function _ _ _ _ => List.mem_cons_self

theorem FunctionNode.location_mem : ∀ node : FunctionNode, node.location ∈ node.locations
  | ⟨_, _, _, _, _⟩ => List.mem_cons_self

theorem Expression.location_mem : ∀ expression : Expression,
    expression.location ∈ expression.locations
  | .identifier _ _ => List.mem_cons_self
  | .string _ _ => List.mem_cons_self
  | .number _ _ => List.mem_cons_self
  | .boolean _ _ => List.mem_cons_self
  | .object ⟨_, _⟩ => List.mem_cons_self
  | .call _ _ _ _ => List.mem_cons_self
  | .property _ _ _ => List.mem_cons_self
  | .function node => node.location_mem
  | .binary _ _ _ _ => List.mem_cons_self

theorem location_mem_typeLocations {node : TypeNode} :
    ∀ {nodes : List TypeNode}, node ∈ nodes → node.location ∈ typeLocations nodes
  | _ :: _, .head _ => List.mem_append_left _ node.location_mem
  | _ :: _, .tail _ later => List.mem_append_right _ (location_mem_typeLocations later)

theorem location_mem_typeParameterLocations :
    ∀ {nodes : List TypeParameterNode} {node : TypeParameterNode}, node ∈ nodes →
      node.location ∈ typeParameterLocations nodes
  | ⟨_, none, _⟩ :: _, _, .head _ => List.mem_cons_self
  | ⟨_, some _, _⟩ :: _, _, .head _ => List.mem_cons_self
  | ⟨_, none, _⟩ :: _, _, .tail _ later =>
      List.mem_cons_of_mem _ (location_mem_typeParameterLocations later)
  | ⟨_, some _, _⟩ :: _, _, .tail _ later =>
      List.mem_cons_of_mem _
        (List.mem_append_right _ (location_mem_typeParameterLocations later))

theorem location_mem_parameterLocations :
    ∀ {nodes : List ParameterNode} {node : ParameterNode}, node ∈ nodes →
      node.location ∈ parameterLocations nodes
  | ⟨_, _, none, _⟩ :: _, _, .head _ => List.mem_cons_self
  | ⟨_, _, some _, _⟩ :: _, _, .head _ => List.mem_cons_self
  | ⟨_, _, none, _⟩ :: _, _, .tail _ later =>
      List.mem_cons_of_mem _ (location_mem_parameterLocations later)
  | ⟨_, _, some _, _⟩ :: _, _, .tail _ later =>
      List.mem_cons_of_mem _ (List.mem_append_right _ (location_mem_parameterLocations later))

theorem location_mem_propertyLocations :
    ∀ {properties : List PropertyAssignment} {p : PropertyAssignment}, p ∈ properties →
      p.location ∈ propertyLocations properties
  | ⟨_, _, _⟩ :: _, _, .head _ => List.mem_cons_self
  | ⟨_, _, _⟩ :: _, _, .tail _ later =>
      List.mem_cons_of_mem _ (List.mem_append_right _ (location_mem_propertyLocations later))

end Members

end StructuralTyping
