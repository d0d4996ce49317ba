import StructuralTyping.Assignability.Relation
import StructuralTyping.Diagnostic.Collection
import StructuralTyping.Options

/-! The state of a run. A run passes through three phases: declarations are
entered into the type table, statements are checked in order, and then the
diagnostics are available. A malformed declaration aborts the run and leaves the
state as it was at that moment. -/
namespace StructuralTyping

inductive Phase where
  | declaring
  | checking
  | done
deriving DecidableEq, Repr

/-- What aborts a run: a tree that is no program, or a run at the wrong time. -/
inductive CheckError where
  | construction (cause : ConstructionError) (location : Location)
  | declarationAfterDeclaring (name : String)
  | alreadyChecked
deriving DecidableEq, Repr

namespace CheckError

def message : CheckError → String
  | construction cause location =>
      "malformed declaration at " ++ location.text ++ ": " ++ cause.message
  | declarationAfterDeclaring name =>
      "cannot declare '" ++ name ++ "' after checking has begun"
  | alreadyChecked => "checker has already run; create a new checker for each source file"

end CheckError

/-- The names that one block introduces. -/
structure Scope where
  values : Dictionary String TypeId
  types : Dictionary String TypeId
deriving DecidableEq, Repr

namespace Scope

def empty : Scope := ⟨.empty, .empty⟩

end Scope

/-- What a top-level name stands for. -/
inductive ValueSymbol where
  | variable (type : TypeId)
  | function (index : Nat)
deriving DecidableEq, Repr

inductive BodyState where
  | unchecked
  | checking
  | checked
deriving DecidableEq, Repr

/-- A top-level function. Its signature is built while declaring; without a
written return type the function type exists only once the body is checked. -/
structure DeclaredFunction where
  node : FunctionNode
  file : Option String
  typeParameters : List TypeId
  parameters : List Parameter
  returnType : Option TypeId
  type : Option TypeId
  body : BodyState

/-- An interface whose name is entered but whose body is not built yet. -/
structure PendingInterface where
  declaration : InterfaceDeclaration
  body : TypeId
  typeParameters : List TypeId
  file : Option String

/-- A constraint check met while declaring. It may concern interfaces whose bodies
are not built yet. -/
structure DeferredConstraint where
  parameter : TypeId
  argument : TypeId
  bindings : Bindings
  location : Location
  file : Option String
deriving DecidableEq, Repr

/-- The function body that statements belong to. -/
structure ReturnContext where
  declared : Option TypeId
  inferred : Option TypeId
  hasValue : Bool
deriving DecidableEq, Repr

structure Checker where
  table : TypeTable
  options : CheckerOptions
  diagnostics : DiagnosticCollection
  phase : Phase
  files : List SourceFile
  currentFile : Option String
  /-- Top-level interfaces. -/
  declaredTypes : Dictionary String TypeId
  /-- Top-level functions and the variables declared so far. -/
  globals : Dictionary String ValueSymbol
  functions : Array DeclaredFunction
  /-- The written types of top-level variables, in statement order. -/
  variableTypes : Array (Option TypeId)
  /-- Top-level variables as function bodies see them ahead of their
  declaration. -/
  hoisted : Dictionary String TypeId
  deferred : List DeferredConstraint
  /-- Block scopes inside function bodies, innermost first. -/
  scopes : List Scope
  /-- The function bodies around the current statement, innermost first. -/
  returns : List ReturnContext

namespace Checker

def new (options : CheckerOptions) : Checker where
  table := .initial
  options := options
  diagnostics := .empty
  phase := .declaring
  files := []
  currentFile := none
  declaredTypes := .empty
  globals := .empty
  functions := #[]
  variableTypes := #[]
  hoisted := .empty
  deferred := []
  scopes := []
  returns := []

end Checker

/-- A step of a run. What it has done before it fails stays done. -/
abbrev CheckM := ExceptT CheckError (StateM Checker)

namespace CheckM

def table : CheckM TypeTable := return (← get).table

def onTable {α : Type} (action : TableM α) : CheckM α :=
  modifyGet fun checker =>
    let (result, table) := action.run checker.table
    (result, { checker with table := table })

def addType (kind : TypeKind) : CheckM TypeId := onTable (TableM.add kind)

/-- A file without a name is not mentioned. -/
def report (d : Diagnostic) : CheckM Unit :=
  modify fun checker =>
    let d :=
      match checker.currentFile with
      | some file => if file.isEmpty then d else d.withFile file
      | none => d
    { checker with diagnostics := checker.diagnostics.add d }

def error (location : Location) (message : Message) (arguments : List String) : CheckM Unit :=
  report (.atLocation location message arguments)

def display (id : TypeId) : CheckM String := return (← table).text id

def reportMismatch (mismatch : Mismatch) (location : Location) (head : Message) : CheckM Unit := do
  report (mismatch.report (← table) location head)

/-- Ask a new question about the table. -/
def assignable (source target : TypeId) (fresh : Bool) : CheckM Verdict := do
  let options := (← get).options
  onTable (StructuralTyping.assignable options.strictFunctionTypes source target fresh)

def resolve (id : TypeId) : CheckM TypeId := onTable (StructuralTyping.resolve id)

def fail {α : Type} (cause : ConstructionError) (location : Location) : CheckM α :=
  throw (.construction cause location)

def setFile (file : Option String) : CheckM Unit :=
  modify fun checker => { checker with currentFile := file }

def pushScope (scope : Scope) : CheckM Unit :=
  modify fun checker => { checker with scopes := scope :: checker.scopes }

def popScope : CheckM Unit :=
  modify fun checker => { checker with scopes := checker.scopes.tail }

/-- Change the innermost scope, if there is one. -/
def updateScope (f : Scope → Scope) : CheckM Unit :=
  modify fun checker =>
    match checker.scopes with
    | scope :: outer => { checker with scopes := f scope :: outer }
    | [] => checker

/-- Enter a type in the innermost scope. -/
def bindType (name : String) (id : TypeId) : CheckM Unit :=
  updateScope fun scope => { scope with types := scope.types.insert name id }

/-- Enter a value in the innermost scope. -/
def bindValue (name : String) (id : TypeId) : CheckM Unit :=
  updateScope fun scope => { scope with values := scope.values.insert name id }

/-- Enter a value in the innermost scope, or among the globals where there is
none, and complain if the name was taken. -/
def declareValue (name : String) (id : TypeId) (location : Location) : CheckM Unit := do
  let checker ← get
  match checker.scopes with
  | scope :: _ => do
      bindValue name id
      if scope.values.contains name then error location .duplicateIdentifier [name]
  | [] => do
      set { checker with globals := checker.globals.insert name (.variable id) }
      if checker.globals.contains name then error location .duplicateIdentifier [name]

end CheckM

end StructuralTyping
