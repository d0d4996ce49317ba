import StructuralTyping.Checker.Assignment
import StructuralTyping.Checker.WrittenTypes

/-! Checking expressions and statements. Function bodies are checked where they
stand; only a reference to a top-level function may have to check a body
elsewhere first, and how to get its type is a parameter of everything here. -/
namespace StructuralTyping

open CheckM

/-- How to get the type of a top-level function. -/
abbrev FunctionTypes := Nat → CheckM TypeId

def findValue? (name : String) : List Scope → Option TypeId
  | [] => none
  | scope :: outer =>
      match scope.values.find? name with
      | some id => some id
      | none => findValue? name outer

/-- Values are looked up from the innermost scope outwards, then among the
globals. A function body may use top-level variables that are declared further
down. -/
def checkIdentifier (types : FunctionTypes) (name : String) (location : Location) :
    CheckM TypeId := do
  let checker ← get
  match findValue? name checker.scopes with
  | some id => return id
  | none =>
      match checker.globals.find? name with
      | some (.variable id) => return id
      | some (.function index) => types index
      | none =>
          match if checker.returns.isEmpty then none else checker.hoisted.find? name with
          | some id => return id
          | none =>
              if name = "undefined" then return TypeId.undefined
              else do
                error location .cannotFindName [name]
                return TypeId.unknown

/-- The object type expected by the context, if there is one. -/
def contextObject (context : Option TypeId) : CheckM (Option ObjectType) := do
  match context with
  | none => return none
  | some id => do
      let body ← CheckM.resolve id
      return (← table).asObject? body

/-- The signature expected by the context, if there is one. -/
def contextFunction (context : Option TypeId) : CheckM (Option FunctionType) := do
  match context with
  | none => return none
  | some id => do
      let body ← CheckM.resolve id
      return (← table).asFunction? body

/-- The property of a value of known type. -/
def checkPropertyOf (object : TypeId) (name : String) (location : Location) : CheckM TypeId := do
  let body ← CheckM.resolve object
  let table ← table
  if table.isWildcard body then return TypeId.unknown
  else
    match (table.asObject? body).bind fun o => o.property? name with
    | some p => return p.type
    | none => do
        error location .noSuchProperty [name, ← display object]
        return TypeId.unknown

/-- The result of an operator on two types, if it applies to them. -/
def operatorResult (table : TypeTable) (operator : BinaryOperator) (left right : TypeId) :
    Option TypeId :=
  let isString := fun id => table.isPrimitive id .string
  let isNumeric := fun id => table.isPrimitive id .number || table.isWildcard id
  if operator == .plus && (isString left || isString right) then some TypeId.string
  else if operator == .plus && table.isWildcard left && table.isWildcard right then
    some TypeId.unknown
  else if isNumeric left && isNumeric right then some TypeId.number
  else none

def checkOperator (operator : BinaryOperator) (left right : TypeId) (location : Location) :
    CheckM TypeId := do
  match operatorResult (← table) operator left right with
  | some id => return id
  | none => do
      error location .operatorNotApplicable [operator.text, ← display left, ← display right]
      return TypeId.unknown

/-- Report a count of arguments that the signature does not accept. -/
def checkArgumentCount (signature : FunctionType) (count : Nat) (location : Location) :
    CheckM Unit := do
  let least := signature.minArgumentCount
  let most := signature.parameters.length
  if count < least || most < count then
    let expected := if least = most then toString most else toString least ++ "-" ++ toString most
    error location .argumentCount [expected, toString count]

def reportInferenceError (location : Location) : InferenceError → CheckM Unit
  | .inconsistent parameter first second => do
      error location .conflictingInference
        [← display parameter, ← display first, ← display second]
  | .typeArgumentCount expected found =>
      error location .typeArgumentCount [toString expected, toString found]
  | .notAFunction callee => do error location .notCallable [← display callee]

/-- Report type parameters that inference left open, if the options ask for it. -/
def reportUnresolved (location : Location) : List TypeId → CheckM Unit
  | [] => return ()
  | parameter :: rest => do
      match (← get).options.unresolvedTypeParameters.severity? with
      | some severity => do
          let shown ← display parameter
          report ((Diagnostic.atLocation location .unresolvedTypeParameter [shown]).withSeverity
            severity)
      | none => pure ()
      reportUnresolved location rest

/-- Check the bindings of an instantiated signature against the constraints of its
type parameters, each at its type argument if there is one. -/
def checkBindings (bindings : Bindings) (location : Location) :
    List TypeId → List Location → CheckM Unit
  | [], _ => return ()
  | parameter :: rest, locations => do
      match bindings.find? parameter with
      | some argument =>
          checkConstraint parameter argument bindings (locations.head?.getD location)
      | none => pure ()
      checkBindings bindings location rest locations.tail

/-- What a pass of inference over the arguments has come to. -/
structure InferencePass where
  inference : Inference
  /-- The types of the arguments checked so far. -/
  known : List (Option TypeId)
  failed : Bool

/-- How to check the arguments of the call at hand. -/
structure ArgumentChecks where
  /-- Infer from the arguments that are context sensitive, or from the others. -/
  infer : Bool → List Parameter → Inference → List (Option TypeId) → CheckM InferencePass
  /-- Check the arguments against the parameter types. -/
  check : List TypeId → List (Option TypeId) → CheckM Unit
  /-- Check the arguments that have no type yet, against nothing. -/
  loose : List (Option TypeId) → CheckM Unit

/-- Go on with an instantiated signature. -/
def checkInstantiatedCall (checks : ArgumentChecks) (signature : FunctionType)
    (instantiated : InstantiatedSignature) (known : List (Option TypeId))
    (typeArguments : List TypeNode) (location : Location) : CheckM TypeId := do
  reportUnresolved location instantiated.unresolved
  checkBindings instantiated.bindings location signature.typeParameters
    (typeArguments.map TypeNode.location)
  checks.check instantiated.parameters known
  return instantiated.returnType

/-- Infer in two passes: first from the arguments that need no context, then from
function expressions without written parameter types, which are typed from what
the first pass has found. -/
def checkInferredCall (checks : ArgumentChecks) (signature : FunctionType)
    (unknown : List (Option TypeId)) (location : Location) : CheckM TypeId := do
  let first ←
    checks.infer false signature.parameters (.ofTypeParameters signature.typeParameters) unknown
  let pass ←
    if first.failed then pure first
    else checks.infer true signature.parameters first.inference first.known
  if pass.failed then
    checks.loose pass.known
    return TypeId.unknown
  else
    let instantiated ← onTable (pass.inference.finish.apply signature)
    checkInstantiatedCall checks signature instantiated pass.known [] location

def checkExplicitCall (checks : ArgumentChecks) (callee : TypeId) (signature : FunctionType)
    (unknown : List (Option TypeId)) (typeArguments : List TypeNode) (location : Location) :
    CheckM TypeId := do
  let explicit ← resolveTypes typeArguments
  match ← onTable (instantiate callee [] (some explicit)) with
  | .ok instantiated =>
      checkInstantiatedCall checks signature instantiated unknown typeArguments location
  | .error cause => do
      reportInferenceError location cause
      checks.loose unknown
      return TypeId.unknown

/-- Check a call of a callee of known type. -/
def checkCallOf (checks : ArgumentChecks) (callee : TypeId) (typeArguments : List TypeNode)
    (count : Nat) (location : Location) : CheckM TypeId := do
  let unknown := List.replicate count none
  let body ← CheckM.resolve callee
  let table ← table
  if table.isWildcard body then
    checks.loose unknown
    return TypeId.unknown
  else
    match table.asFunction? body with
    | none => do
        error location .notCallable [← display callee]
        checks.loose unknown
        return TypeId.unknown
    | some signature => do
        checkArgumentCount signature count location
        if signature.isGeneric then
          if typeArguments.isEmpty then checkInferredCall checks signature unknown location
          else checkExplicitCall checks body signature unknown typeArguments location
        else
          if !typeArguments.isEmpty then
            error location .typeArgumentCount ["0", toString typeArguments.length]
          checks.check (signature.parameters.map fun p => p.type) unknown
          return signature.returnType

/-- Enter the parameters of a function as values. -/
def declareParameters : List (ParameterNode × Parameter) → CheckM Unit
  | [] => return ()
  | (node, parameter) :: rest => do
      declareValue node.name parameter.type node.location
      declareParameters rest

/-- A type that a function without a value may be declared to return. -/
def mayOmitValue (table : TypeTable) (declared : TypeId) : Bool :=
  table.isWildcard declared || table.isPrimitive declared .void ||
    table.isPrimitive declared .undefined

/-- Check a function body. Its return type is the declared one, else the type of
the first `return` with a value, else `void`. -/
def checkBodyWith (statements : CheckM Unit) (declared : Option TypeId) (location : Location) :
    CheckM TypeId := do
  modify fun checker => { checker with returns := ⟨declared, none, false⟩ :: checker.returns }
  statements
  let checker ← get
  let context := checker.returns.head?.getD ⟨declared, none, false⟩
  set { checker with returns := checker.returns.tail }
  match declared with
  | some id => do
      if !context.hasValue && !mayOmitValue (← table) id then
        error location .mustReturnValue []
      return id
  | none => return context.inferred.getD TypeId.void

/-- Enter a checked variable. A redeclared global keeps its first binding. -/
def declareVariable (name : String) (id : TypeId) (location : Location) : CheckM Unit := do
  let checker ← get
  if checker.scopes.isEmpty && checker.globals.contains name then
    error location .duplicateIdentifier [name]
  else declareValue name id location

/-- Note the type of a returned value; the first one counts. -/
def noteReturn (id : TypeId) : CheckM Unit :=
  modify fun checker =>
    match checker.returns with
    | context :: outer =>
        { checker with
          returns :=
            { context with
              hasValue := true
              inferred := some (context.inferred.getD id) } :: outer }
    | [] => checker

mutual

/-- The type of an expression; the context may expect a type of it. -/
def checkExpression (types : FunctionTypes) (context : Option TypeId) :
    Expression → CheckM TypeId
  | .identifier name location => checkIdentifier types name location
  | .string _ _ => return TypeId.string
  | .number _ _ => return TypeId.number
  | .boolean _ _ => return TypeId.boolean
  | .object ⟨properties, _⟩ => do
      let expected ← contextObject context
      let given ← checkProperties types expected [] properties
      addType (.object ⟨none, ⟨given⟩⟩)
  | .call callee typeArguments arguments location => do
      let id ← checkExpression types none callee
      checkCallOf
        { infer := fun sensitive parameters inference known =>
            inferArguments types sensitive inference arguments parameters known
          check := fun parameters known => checkArguments types arguments parameters known
          loose := fun known => checkLoose types arguments known }
        id typeArguments arguments.length location
  | .property object name location => do
      let id ← checkExpression types none object
      checkPropertyOf id name location
  | .function node => do
      let expected ← contextFunction context
      checkFunction types expected node
  | .binary operator left right location => do
      let l ← checkExpression types none left
      let r ← checkExpression types none right
      checkOperator operator l r location

/-- Properties are checked in order; the first repeated name aborts. -/
def checkProperties (types : FunctionTypes) (context : Option ObjectType) (seen : List String) :
    List PropertyAssignment → CheckM (List (String × Property))
  | [] => return []
  | ⟨name, initializer, location⟩ :: rest => do
      if seen.contains name then fail (.duplicateProperty name) location
      let expected := (context.bind fun o => o.property? name).map fun p => p.type
      let id ← checkExpression types expected initializer
      let properties ← checkProperties types context (name :: seen) rest
      return (name, ⟨id, false⟩) :: properties

/-- Infer from the arguments that are context sensitive or from the others, up to
the first conflict. -/
def inferArguments (types : FunctionTypes) (sensitive : Bool) (inference : Inference) :
    List Expression → List Parameter → List (Option TypeId) → CheckM InferencePass
  | argument :: arguments, parameter :: parameters, known :: rest => do
      if argument.isContextSensitive != sensitive then
        let pass ← inferArguments types sensitive inference arguments parameters rest
        return { pass with known := known :: pass.known }
      else
        let context ← onTable (inference.contextualType parameter.type)
        let id ← checkExpression types (some context) argument
        let (outcome, inference) ← onTable (inference.infer parameter.type id)
        match outcome with
        | .error cause => do
            reportInferenceError argument.location cause
            return ⟨inference, some id :: rest, true⟩
        | .ok () => do
            let pass ← inferArguments types sensitive inference arguments parameters rest
            return { pass with known := some id :: pass.known }
  | _, _, known => return ⟨inference, known, false⟩

/-- Check arguments against their parameters. An argument whose type is known is
not checked again as an expression. -/
def checkArguments (types : FunctionTypes) :
    List Expression → List TypeId → List (Option TypeId) → CheckM Unit
  | [], _, _ => return ()
  | argument :: arguments, parameters, known => do
      let parameter := parameters.head?
      let id ←
        match known.head?.join with
        | some id => pure id
        | none => checkExpression types parameter argument
      match parameter with
      | some target =>
          let _ ← checkAssignment argument id target argument.location .argumentNotAssignable
      | none => pure ()
      checkArguments types arguments parameters.tail known.tail

/-- The arguments of a call that could not be resolved are still checked as
expressions. -/
def checkLoose (types : FunctionTypes) : List Expression → List (Option TypeId) → CheckM Unit
  | [], _ => return ()
  | argument :: arguments, known => do
      if known.head?.join.isNone then
        let _ ← checkExpression types none argument
      checkLoose types arguments known.tail

/-- The type of a nested function. -/
def checkFunction (types : FunctionTypes) (context : Option FunctionType) :
    FunctionNode → CheckM TypeId
  | ⟨typeParameters, parameters, returnType, body, location⟩ => do
      pushScope .empty
      let ids ← declareTypeParameters typeParameters
      let resolved ← resolveParameters context 0 parameters
      declareParameters (parameters.zip resolved)
      let declared ← resolveOptionalType returnType
      let result ← checkBodyWith (checkStatements types body) declared location
      popScope
      addType (.function ⟨ids, resolved, result⟩)

/-- Check the initializer of a variable against its declared type and enter the
variable. -/
def checkVariable (types : FunctionTypes) (name : String) (declared : Option TypeId)
    (location : Location) : Option Expression → CheckM Unit
  | some initializer => do
      let id ← checkExpression types declared initializer
      match declared with
      | some target => do
          let _ ← checkAssignment initializer id target location .notAssignable
          declareVariable name target location
      | none => declareVariable name id location
  | none => declareVariable name (declared.getD TypeId.unknown) location

def checkReturn (types : FunctionTypes) (location : Location) : Option Expression → CheckM Unit
  | none => do
      if (← get).returns.isEmpty then error location .returnOutsideFunction []
  | some expression => do
      match (← get).returns with
      | [] => do
          error location .returnOutsideFunction []
          let _ ← checkExpression types none expression
      | context :: _ => do
          let expected := context.declared <|> context.inferred
          let id ← checkExpression types expected expression
          match expected with
          | some target =>
              let _ ← checkAssignment expression id target expression.location .notAssignable
          | none => pure ()
          noteReturn id

def checkStatement (types : FunctionTypes) : Statement → CheckM Unit
  | .interface declaration => do
      match ← beginInterface declaration with
      | some pending => do
          constrainInterface pending
          completeInterface pending
      | none => return ()
  | .function name node => do
      declareValue name TypeId.unknown node.location
      let id ← checkFunction types none node
      bindValue name id
  | .variable name declaredType initializer location => do
      let declared ← resolveOptionalType declaredType
      checkVariable types name declared location initializer
  | .expression expression _ => do
      let _ ← checkExpression types none expression
  | .returning expression location => checkReturn types location expression

def checkStatements (types : FunctionTypes) : List Statement → CheckM Unit
  | [] => return ()
  | statement :: rest => do
      checkStatement types statement
      checkStatements types rest

end

end StructuralTyping
