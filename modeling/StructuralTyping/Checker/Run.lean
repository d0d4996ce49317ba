import StructuralTyping.Checker.Declaring
import StructuralTyping.Checker.Expressions

/-! Running a check. The body of a top-level function is checked once: at its
statement, or before that when its return type is needed. A body that is being
checked is not entered again, so the nesting of such checks is bounded by the
number of functions. -/
namespace StructuralTyping

open CheckM

def updateFunction (index : Nat) (f : DeclaredFunction → DeclaredFunction) : CheckM Unit :=
  modify fun checker => { checker with functions := checker.functions.modify index f }

/-- The scope of a top-level function, with its type parameters. -/
def functionScope (function : DeclaredFunction) : Scope :=
  { Scope.empty with
    types := .ofList
      ((function.node.typeParameters.zip function.typeParameters).map fun (node, id) =>
        (node.name, id)) }

/-- Check the body of a top-level function that has not been checked. It sees the
globals alone, whoever asks for it. -/
def checkFunctionBody (types : FunctionTypes) (index : Nat) : CheckM Unit := do
  let saved ← get
  match saved.functions[index]? with
  | none => return ()
  | some function =>
      if function.body ≠ .unchecked then return ()
      else
        updateFunction index fun f => { f with body := .checking }
        modify fun checker =>
          { checker with
            scopes := [functionScope function]
            returns := []
            currentFile := function.file }
        declareParameters (function.node.parameters.zip function.parameters)
        let result ←
          checkBodyWith (checkStatements types function.node.body) function.returnType
            function.node.location
        modify fun checker =>
          { checker with
            scopes := saved.scopes
            returns := saved.returns
            currentFile := saved.currentFile }
        let type ←
          match function.type with
          | some id => pure id
          | none => addType (.function ⟨function.typeParameters, function.parameters, result⟩)
        updateFunction index fun f => { f with type := some type, body := .checked }

/-- The type of a top-level function. A function without a written return type
that is referenced while its body is being checked counts as `unknown`. The first
argument bounds the nesting of such checks. -/
def functionTypeWithin : Nat → FunctionTypes
  | 0, _ => return TypeId.unknown
  | fuel + 1, index => do
      match (← get).functions[index]? with
      | none => return TypeId.unknown
      | some function =>
          match function.type with
          | some id => return id
          | none =>
              if function.body = .checking then return TypeId.unknown
              else
                checkFunctionBody (functionTypeWithin fuel) index
                let checked := (← get).functions[index]?
                return (checked.bind fun f => f.type).getD TypeId.unknown

def functionType : FunctionTypes := fun index => do
  functionTypeWithin ((← get).functions.size + 1) index

/-- The functions and variables that top-level statements have come to. -/
structure TopLevelCursor where
  functionCount : Nat
  variableCount : Nat
deriving DecidableEq, Repr

def checkTopLevelStatement (cursor : TopLevelCursor) : Statement → CheckM TopLevelCursor
  | .interface _ => return cursor
  | .function _ _ => do
      checkFunctionBody functionType cursor.functionCount
      return { cursor with functionCount := cursor.functionCount + 1 }
  | .variable name _ initializer location => do
      let declared := (← get).variableTypes[cursor.variableCount]?.join
      checkVariable functionType name declared location initializer
      return { cursor with variableCount := cursor.variableCount + 1 }
  | statement => do
      checkStatement functionType statement
      return cursor

def checkTopLevelStatements (cursor : TopLevelCursor) : List Statement → CheckM TopLevelCursor
  | [] => return cursor
  | statement :: rest => do
      let cursor ← checkTopLevelStatement cursor statement
      checkTopLevelStatements cursor rest

def checkFiles (cursor : TopLevelCursor) : List SourceFile → CheckM Unit
  | [] => return ()
  | file :: rest => do
      setFile (some file.name)
      let cursor ← checkTopLevelStatements cursor file.statements
      checkFiles cursor rest

/-- Declare and check every registered file. -/
def checkDeclarations : CheckM Unit := do
  if (← get).phase ≠ .declaring then throw .alreadyChecked
  else
    declareAll
    modify fun checker => { checker with phase := .checking }
    checkFiles ⟨0, 0⟩ (← get).files
    modify fun checker => { checker with currentFile := none, phase := .done }

/-- Register a file. All registered files share one global scope. -/
def declareSourceFile (file : SourceFile) : CheckM Unit := do
  if (← get).phase ≠ .declaring then throw (.declarationAfterDeclaring file.name)
  else modify fun checker => { checker with files := checker.files ++ [file] }

/-- Register a file and check all that are registered. -/
def checkSourceFile (file : SourceFile) : CheckM Unit := do
  if (← get).phase = .done then throw .alreadyChecked
  else
    declareSourceFile file
    checkDeclarations

/-- The type of a top-level value. -/
def globalType (name : String) : CheckM (Option TypeId) := do
  match (← get).globals.find? name with
  | none => return none
  | some (.variable id) => return some id
  | some (.function index) => return some (← functionType index)

namespace Checker

/-- The type declared under a name at the top level. -/
def declaredType? (checker : Checker) (name : String) : Option TypeId :=
  checker.declaredTypes.find? name

/-- Run a step; the checker goes on from the state that the step leaves. -/
def step {α : Type} (checker : Checker) (action : CheckM α) : Except CheckError α × Checker :=
  action.run.run checker

/-- Take the diagnostics collected so far out of the checker. -/
def takeDiagnostics (checker : Checker) : DiagnosticCollection × Checker :=
  (checker.diagnostics, { checker with diagnostics := .empty })

end Checker

/-- Register files up to the first failure, then check them. -/
def declareAndCheck (files : List SourceFile) : CheckM Unit := do
  for file in files do
    declareSourceFile file
  checkDeclarations

/-- Check one file on its own. -/
def check (file : SourceFile) (options : CheckerOptions) : Except CheckError (List Diagnostic) :=
  match (Checker.new options).step (checkSourceFile file) with
  | (.ok (), checker) => .ok checker.diagnostics.toList
  | (.error e, _) => .error e

end StructuralTyping
