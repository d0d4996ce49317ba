import StructuralTyping.Checker.State
import StructuralTyping.Tree.Basic

/-! What declarations give rise to, read off the tree. A type name means what the
innermost scope or a top-level interface makes of it, and for a written type it only
matters whether the name is known and how many arguments it takes. So everything that
is reported about written types, and every type argument whose constraint has to be
checked, is a function of the tree and of the meaning of the names. -/
namespace StructuralTyping

/-- What type names mean: a generic interface takes a number of arguments, and any other
type takes none. -/
abbrev Names := String → Option (Option Nat)

/-- Inside the scope of type parameters. -/
def Names.bind (names : Names) (nodes : List TypeParameterNode) : Names := fun name =>
  if name ∈ nodes.map TypeParameterNode.name then some none else names name

inductive Finding where
  | unknownName (name : String) (location : Location)
  | argumentCount (name : String) (expected : Nat) (location : Location)
  | notGeneric (location : Location)
  | duplicate (name : String) (location : Location)
  /-- A type argument that has to satisfy the constraint of its parameter. -/
  | argument (location : Location)
deriving DecidableEq, Repr

/-- A name that was seen before is a duplicate. -/
def duplicateFindings (seen : List String) : List TypeParameterNode → List Finding
  | [] => []
  | ⟨name, _, location⟩ :: rest =>
      (if name ∈ seen then [.duplicate name location] else []) ++
        duplicateFindings (name :: seen) rest

mutual

def TypeNode.findings (names : Names) : TypeNode → List Finding
  | .keyword _ _ => []
  | .reference name arguments location =>
      match names name with
      | none => [.unknownName name location]
      | some (some count) =>
          if arguments.length ≠ count then [.argumentCount name count location]
          else
            typeFindings names arguments ++ arguments.map fun node => .argument node.location
      | some none => if arguments.isEmpty then [] else [.notGeneric location]
  | .literal members _ => memberFindings names members
  | .function typeParameters parameters returnType _ =>
      duplicateFindings [] typeParameters ++
        (constraintFindings (names.bind typeParameters) typeParameters ++
          (parameterFindings (names.bind typeParameters) parameters ++
            returnType.findings (names.bind typeParameters)))

def typeFindings (names : Names) : List TypeNode → List Finding
  | [] => []
  | node :: rest => node.findings names ++ typeFindings names rest

def memberFindings (names : Names) : List PropertySignature → List Finding
  | [] => []
  | ⟨_, _, declaredType, _⟩ :: rest => declaredType.findings names ++ memberFindings names rest

def constraintFindings (names : Names) : List TypeParameterNode → List Finding
  | [] => []
  | ⟨_, some constraint, _⟩ :: rest => constraint.findings names ++ constraintFindings names rest
  | ⟨_, none, _⟩ :: rest => constraintFindings names rest

def parameterFindings (names : Names) : List ParameterNode → List Finding
  | [] => []
  | ⟨_, _, some declaredType, _⟩ :: rest =>
      declaredType.findings names ++ parameterFindings names rest
  | ⟨_, _, none, _⟩ :: rest => parameterFindings names rest

end

def optionalTypeFindings (names : Names) : Option TypeNode → List Finding
  | none => []
  | some node => node.findings names

namespace InterfaceDeclaration

def arity (declaration : InterfaceDeclaration) : Option Nat :=
  if declaration.typeParameters.isEmpty then none else some declaration.typeParameters.length

/-- What is found in the list of type parameters. -/
def headFindings (names : Names) (declaration : InterfaceDeclaration) : List Finding :=
  duplicateFindings [] declaration.typeParameters ++
    constraintFindings (names.bind declaration.typeParameters) declaration.typeParameters

def bodyFindings (names : Names) (declaration : InterfaceDeclaration) : List Finding :=
  memberFindings (names.bind declaration.typeParameters) declaration.members

end InterfaceDeclaration

/-- What is found in a function ahead of its body. -/
def FunctionNode.signatureFindings (names : Names) : FunctionNode → List Finding
  | ⟨typeParameters, parameters, returnType, _, _⟩ =>
      duplicateFindings [] typeParameters ++
        (constraintFindings (names.bind typeParameters) typeParameters ++
          (parameterFindings (names.bind typeParameters) parameters ++
            optionalTypeFindings (names.bind typeParameters) returnType))

def Statement.interface? : Statement → Option InterfaceDeclaration
  | .interface declaration => some declaration
  | _ => none

def Statement.functionName? : Statement → Option String
  | .function name _ => some name
  | _ => none

/-- What is found in the functions and variables among the statements, when there are
functions of the names that are taken. -/
def statementFindings (names : Names) (taken : List String) : List Statement → List Finding
  | [] => []
  | .function name node :: rest =>
      node.signatureFindings names ++
        ((if name ∈ taken then [.duplicate name node.location] else []) ++
          statementFindings names (taken ++ [name]) rest)
  | .variable _ declaredType _ _ :: rest =>
      optionalTypeFindings names declaredType ++ statementFindings names taken rest
  | _ :: rest => statementFindings names taken rest

/-- Something found, and the file it was found in. -/
abbrev Note := Option String × Finding

def notesIn (file : Option String) (findings : List Finding) : List Note :=
  findings.map fun finding => (file, finding)

/-- An interface and the file that declares it. -/
abbrev PlacedInterface := Option String × InterfaceDeclaration

def programInterfaces (files : List SourceFile) : List PlacedInterface :=
  files.flatMap fun file =>
    (file.statements.filterMap Statement.interface?).map fun declaration =>
      (some file.name, declaration)

/-- A name stands for the first interface that has it. -/
def interfaceNames (interfaces : List PlacedInterface) : Names := fun name =>
  (interfaces.find? fun entered => entered.2.name == name).map fun entered => entered.2.arity

/-- The interfaces that are the first of their name, when these names came before. -/
def newInterfaces (earlier : List String) : List PlacedInterface → List PlacedInterface
  | [] => []
  | (file, declaration) :: rest =>
      (if declaration.name ∈ earlier then [] else [(file, declaration)]) ++
        newInterfaces (declaration.name :: earlier) rest

/-- The interfaces whose names came before. -/
def repeatedInterfaces (earlier : List String) : List PlacedInterface → List Note
  | [] => []
  | (file, declaration) :: rest =>
      (if declaration.name ∈ earlier then
        [(file, .duplicate declaration.name declaration.location)] else []) ++
        repeatedInterfaces (declaration.name :: earlier) rest

def fileNotes (names : Names) (taken : List String) : List SourceFile → List Note
  | [] => []
  | file :: rest =>
      notesIn (some file.name) (statementFindings names taken file.statements) ++
        fileNotes names (taken ++ file.statements.filterMap Statement.functionName?) rest

/-- Everything that is found while the declarations of a program are entered, in order. -/
def programNotes (files : List SourceFile) : List Note :=
  let interfaces := programInterfaces files
  let names := interfaceNames interfaces
  let entered := newInterfaces [] interfaces
  repeatedInterfaces [] interfaces ++
    ((entered.flatMap fun placed => notesIn placed.1 (placed.2.headFindings names)) ++
      ((entered.flatMap fun placed => notesIn placed.1 (placed.2.bodyFindings names)) ++
        fileNotes names [] files))

namespace Diagnostic

/-- In a file, if it has a name. -/
def inFile (d : Diagnostic) : Option String → Diagnostic
  | some file => if file.isEmpty then d else d.withFile file
  | none => d

@[simp] theorem code_inFile (d : Diagnostic) (file : Option String) :
    (d.inFile file).code = d.code := by
  cases file with
  | none => rfl
  | some file =>
      rw [inFile]
      split <;> rfl

/-- A type that is not generic may be shown before it is built; the name it is shown by
is left out. -/
def unnamed (d : Diagnostic) : Diagnostic :=
  if d.code = Message.notGeneric.code then { d with message := "" } else d

theorem unnamed_inFile (d : Diagnostic) (file : Option String) :
    (d.inFile file).unnamed = d.unnamed.inFile file := by
  cases file with
  | none => rfl
  | some file =>
      have code : (d.withFile file).code = d.code := rfl
      by_cases nameless : file.isEmpty
      · simp [inFile, nameless]
      · by_cases generic : d.code = Message.notGeneric.code
        · simp [inFile, unnamed, nameless, generic, withFile]
        · simp [inFile, unnamed, nameless, code, generic]

theorem unnamed_notGeneric (location : Location) (arguments arguments' : List String) :
    (atLocation location .notGeneric arguments).unnamed =
      (atLocation location .notGeneric arguments').unnamed := by
  have code (shown : List String) : (atLocation location .notGeneric shown).code =
    Message.notGeneric.code := rfl
  rw [unnamed, unnamed, if_pos (code _), if_pos (code _)]
  rfl

end Diagnostic

/-- What is reported about a finding. An argument is not reported by itself. -/
def Finding.report? : Finding → Option Diagnostic
  | unknownName name location => some (.atLocation location .cannotFindName [name])
  | argumentCount name expected location =>
      some (.atLocation location .genericRequiresArguments [name, toString expected])
  | notGeneric location => some (Diagnostic.atLocation location .notGeneric []).unnamed
  | duplicate name location => some (.atLocation location .duplicateIdentifier [name])
  | argument _ => none

def Finding.argument? : Finding → Option Location
  | argument location => some location
  | _ => none

/-- What is reported about a program, but for the types that are not generic. -/
def noteReports (notes : List Note) : List Diagnostic :=
  notes.filterMap fun note => note.2.report?.map fun d => d.inFile note.1

/-- The places of the type arguments that are found. -/
def noteArguments (notes : List Note) : List (Location × Option String) :=
  notes.filterMap fun note => note.2.argument?.map fun location => (location, note.1)

section Notes
variable (first second : List Note)

@[simp] theorem noteReports_append :
    noteReports (first ++ second) = noteReports first ++ noteReports second :=
  List.filterMap_append

@[simp] theorem noteArguments_append :
    noteArguments (first ++ second) = noteArguments first ++ noteArguments second :=
  List.filterMap_append

@[simp] theorem notesIn_append (file : Option String) (findings findings' : List Finding) :
    notesIn file (findings ++ findings') = notesIn file findings ++ notesIn file findings' :=
  List.map_append

end Notes

end StructuralTyping
