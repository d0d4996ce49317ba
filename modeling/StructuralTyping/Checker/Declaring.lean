import StructuralTyping.Checker.WrittenTypes

/-! Entering the top-level declarations of all files: interfaces first, then the
signatures of functions and the written types of variables, and last the
constraint checks that had to wait for the interfaces. -/
namespace StructuralTyping

open CheckM

/-- Enter the names of the interfaces among the statements of a file. -/
def beginInterfaces : List Statement → CheckM (List PendingInterface)
  | [] => return []
  | .interface declaration :: rest => do
      let pending ← beginInterface declaration
      let others ← beginInterfaces rest
      return pending.toList ++ others
  | _ :: rest => beginInterfaces rest

def beginFiles : List SourceFile → CheckM (List PendingInterface)
  | [] => return []
  | file :: rest => do
      setFile (some file.name)
      let pending ← beginInterfaces file.statements
      let others ← beginFiles rest
      return pending ++ others

/-- Do a step for every interface, as part of the file that declares it. -/
def forInterfaces (step : PendingInterface → CheckM Unit) : List PendingInterface → CheckM Unit
  | [] => return ()
  | pending :: rest => do
      setFile pending.file
      step pending
      forInterfaces step rest

/-- Build the signature of a top-level function. The first function of a name is
the one that the name stands for. -/
def declareFunction (name : String) (node : FunctionNode) : CheckM Unit := do
  pushScope .empty
  let typeParameters ← declareTypeParameters node.typeParameters
  let parameters ← resolveParameters none 0 node.parameters
  let returnType ← resolveOptionalType node.returnType
  popScope
  let type ←
    match returnType with
    | some result => do
        let id ← addType (.function ⟨typeParameters, parameters, result⟩)
        pure (some id)
    | none => pure none
  let checker ← get
  set { checker with
    functions := checker.functions.push
      ⟨node, checker.currentFile, typeParameters, parameters, returnType, type, .unchecked⟩ }
  if checker.globals.contains name then error node.location .duplicateIdentifier [name]
  else
    modify fun c => { c with globals := c.globals.insert name (.function checker.functions.size) }

/-- Resolve the written type of a top-level variable, so that function bodies can
see the variable ahead of its declaration. -/
def declareHoisted (name : String) (declaredType : Option TypeNode) : CheckM Unit := do
  let declared ← resolveOptionalType declaredType
  modify fun checker =>
    { checker with
      variableTypes := checker.variableTypes.push declared
      hoisted :=
        if checker.hoisted.contains name then checker.hoisted
        else checker.hoisted.insert name (declared.getD TypeId.unknown) }

def declareStatements : List Statement → CheckM Unit
  | [] => return ()
  | .function name node :: rest => do
      declareFunction name node
      declareStatements rest
  | .variable name declaredType _ _ :: rest => do
      declareHoisted name declaredType
      declareStatements rest
  | _ :: rest => declareStatements rest

def declareFiles : List SourceFile → CheckM Unit
  | [] => return ()
  | file :: rest => do
      setFile (some file.name)
      declareStatements file.statements
      declareFiles rest

def runDeferred : List DeferredConstraint → CheckM Unit
  | [] => return ()
  | check :: rest => do
      setFile check.file
      reportUnsatisfied check
      runDeferred rest

/-- Every constraint exists before any reference in a body is checked against it. -/
def declareAll : CheckM Unit := do
  let files := (← get).files
  let pending ← beginFiles files
  forInterfaces constrainInterface pending
  forInterfaces completeInterface pending
  declareFiles files
  let deferred := (← get).deferred
  modify fun checker => { checker with deferred := [] }
  runDeferred deferred
  setFile none

end StructuralTyping
