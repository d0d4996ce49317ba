import StructuralTyping.Checker.State

/-! From written types to entries of the table. Type names are looked up from the
innermost scope outwards and then among the top-level interfaces. An interface is
built in three steps, so that interfaces may mention each other in any order: its
name and parameters are entered, then its constraints, then its body. -/
namespace StructuralTyping

namespace CheckM

/-- Report an argument that does not satisfy the constraint of its parameter. -/
def reportUnsatisfied (c : DeferredConstraint) : CheckM Unit := do
  match (← table).constraint? c.parameter with
  | none => return ()
  | some constraint => do
      let constraint ← onTable (substitute constraint c.bindings)
      match ← assignable c.argument constraint false with
      | .ok () => return ()
      | .error _ =>
          error c.location .constraintUnsatisfied [← display c.argument, ← display constraint]

/-- While declaring, the check waits until every interface is built. -/
def checkConstraint (parameter argument : TypeId) (bindings : Bindings) (location : Location) :
    CheckM Unit := do
  let checker ← get
  let check : DeferredConstraint := ⟨parameter, argument, bindings, location, checker.currentFile⟩
  if checker.phase = .declaring then
    set { checker with deferred := checker.deferred ++ [check] }
  else reportUnsatisfied check

def lookupTypeIn (name : String) : List Scope → Option TypeId
  | [] => none
  | scope :: outer =>
      match scope.types.find? name with
      | some id => some id
      | none => lookupTypeIn name outer

def lookupType (name : String) : CheckM (Option TypeId) := do
  let checker ← get
  match lookupTypeIn name checker.scopes with
  | some id => return some id
  | none => return checker.declaredTypes.find? name

/-- The name of a type parameter list is bound to the fresh parameters. -/
def bindTypeParameterNames (reportDuplicates : Bool) :
    List (TypeParameterNode × TypeId) → CheckM Unit
  | [] => return ()
  | (node, id) :: rest => do
      match (← get).scopes with
      | [] => return ()
      | scope :: _ => do
          bindType node.name id
          if reportDuplicates && scope.types.contains node.name then
            error node.location .duplicateIdentifier [node.name]
          bindTypeParameterNames reportDuplicates rest

def freshTypeParameters (nodes : List TypeParameterNode) : CheckM (List TypeId) :=
  nodes.mapM fun node => addType (.typeParameter node.name none)

def checkConstraints (bindings : Bindings) : List ((TypeId × TypeId) × Location) → CheckM Unit
  | [] => return ()
  | ((parameter, argument), location) :: rest => do
      checkConstraint parameter argument bindings location
      checkConstraints bindings rest

/-- Build the instance of a generic interface for given arguments. -/
def instantiateReference (declared : TypeId) (g : GenericType) (arguments : List TypeId)
    (locations : List Location) (location : Location) : CheckM TypeId := do
  let pairs := g.typeParameters.zip arguments
  checkConstraints (.ofList pairs) (pairs.zip locations)
  let table ← table
  let named := pairs.filterMap fun (parameter, argument) =>
    match table.kind parameter with
    | .typeParameter name _ => some (name, argument)
    | _ => none
  match table.addInstantiated declared named with
  | .ok (id, table) => do
      modify fun checker => { checker with table := table }
      return id
  | .error cause => fail cause location

end CheckM

open CheckM

/-- A parameter without a written type takes it from the signature in the
context, if there is one with a parameter at that place. -/
def contextParameter (context : Option FunctionType) (index : Nat) : TypeId :=
  ((context.bind fun f => f.parameters[index]?).map fun p => p.type).getD TypeId.unknown

mutual

/-- The entry for a written type. -/
def resolveType : TypeNode → CheckM TypeId
  | .keyword keyword _ => return TypeId.ofKeyword keyword
  | .reference name arguments location => do
      match ← lookupType name with
      | none => do
          error location .cannotFindName [name]
          return TypeId.unknown
      | some declared => do
          match (← table).kind declared with
          | .generic g =>
              if arguments.length ≠ g.typeParameters.length then do
                error location .genericRequiresArguments [name, toString g.typeParameters.length]
                return TypeId.unknown
              else do
                let ids ← resolveTypes arguments
                instantiateReference declared g ids (arguments.map TypeNode.location) location
          | _ => do
              if !arguments.isEmpty then error location .notGeneric [← display declared]
              return declared
  | .literal members _ => do
      let properties ← resolveMembers [] members
      match ObjectType.ofProperties none properties with
      | .ok o => addType (.object o)
      | .error cause => fail cause ((members.head?.map fun m => m.location).getD .unknown)
  | .function typeParameters parameters returnType _ => do
      pushScope .empty
      let ids ← freshTypeParameters typeParameters
      bindTypeParameterNames true (typeParameters.zip ids)
      resolveConstraints typeParameters ids
      let parameters ← resolveParameters none 0 parameters
      let returnType ← resolveType returnType
      popScope
      addType (.function ⟨ids, parameters, returnType⟩)

def resolveTypes : List TypeNode → CheckM (List TypeId)
  | [] => return []
  | node :: rest => do
      let id ← resolveType node
      let ids ← resolveTypes rest
      return id :: ids

/-- Members are resolved in order; the first repeated name aborts. -/
def resolveMembers (seen : List String) :
    List PropertySignature → CheckM (List (String × Property))
  | [] => return []
  | ⟨name, optional, declaredType, location⟩ :: rest => do
      if seen.contains name then fail (.duplicateProperty name) location
      let type ← resolveType declaredType
      let properties ← resolveMembers (name :: seen) rest
      return (name, ⟨type, optional⟩) :: properties

/-- Constraints are resolved after all names of their list are bound, so they may
mention each other's parameters. -/
def resolveConstraints : List TypeParameterNode → List TypeId → CheckM Unit
  | ⟨_, constraint, _⟩ :: nodes, id :: ids => do
      match constraint with
      | some node => do
          let bound ← resolveType node
          modify fun checker => { checker with table := checker.table.setConstraint id bound }
      | none => pure ()
      resolveConstraints nodes ids
  | _, _ => return ()

def resolveParameters (context : Option FunctionType) (index : Nat) :
    List ParameterNode → CheckM (List Parameter)
  | [] => return []
  | ⟨name, optional, declaredType, _⟩ :: rest => do
      let type ←
        match declaredType with
        | some node => resolveType node
        | none => pure (contextParameter context index)
      let parameters ← resolveParameters context (index + 1) rest
      return ⟨name, type, optional⟩ :: parameters

end

/-- A written type that may be absent. -/
def resolveOptionalType : Option TypeNode → CheckM (Option TypeId)
  | none => return none
  | some node => return some (← resolveType node)

/-- Fresh parameters for a declared list, bound in the innermost scope together
with their constraints. -/
def declareTypeParameters (nodes : List TypeParameterNode) : CheckM (List TypeId) := do
  let ids ← freshTypeParameters nodes
  bindTypeParameterNames true (nodes.zip ids)
  resolveConstraints nodes ids
  return ids

/-- The object type of a list of members. -/
def buildObjectType (name : Option String) (members : List PropertySignature) :
    CheckM ObjectType := do
  let properties ← resolveMembers [] members
  match ObjectType.ofProperties name properties with
  | .ok o => return o
  | .error cause => fail cause ((members.head?.map fun m => m.location).getD .unknown)

/-- Enter the name of an interface. A generic one gets its parameters and origin
at once, so that references can be instantiated before there is a body. -/
def beginInterface (declaration : InterfaceDeclaration) : CheckM (Option PendingInterface) := do
  let checker ← get
  let taken :=
    match checker.scopes with
    | scope :: _ => scope.types.contains declaration.name
    | [] => checker.declaredTypes.contains declaration.name
  if taken then
    error declaration.location .duplicateIdentifier [declaration.name]
    return none
  else
    let typeParameters ← freshTypeParameters declaration.typeParameters
    let body ← addType .pending
    let declared ←
      if typeParameters.isEmpty then pure body
      else addType (.generic ⟨declaration.name, typeParameters, body⟩)
    if checker.scopes.isEmpty then
      modify fun checker =>
        { checker with
          declaredTypes := checker.declaredTypes.insert declaration.name declared }
    else bindType declaration.name declared
    return some ⟨declaration, body, typeParameters, checker.currentFile⟩

/-- Set the constraints of an interface. -/
def constrainInterface (pending : PendingInterface) : CheckM Unit := do
  pushScope .empty
  bindTypeParameterNames true (pending.declaration.typeParameters.zip pending.typeParameters)
  resolveConstraints pending.declaration.typeParameters pending.typeParameters
  popScope

/-- Build the body of an interface whose constraints are set. -/
def completeInterface (pending : PendingInterface) : CheckM Unit := do
  let declaration := pending.declaration
  pushScope .empty
  bindTypeParameterNames false (declaration.typeParameters.zip pending.typeParameters)
  let o ← buildObjectType (some declaration.name) declaration.members
  popScope
  match (← table).define pending.body (.object o) with
  | .ok table => modify fun checker => { checker with table := table }
  | .error cause => fail cause declaration.location

end StructuralTyping
