import StructuralTyping.Proofs.IdentifierRun
import StructuralTyping.Proofs.StepProperties

/-! Properties of steps that carry over to the check of a whole program. Beyond what
the check of a statement needs, a property has to hold of the check of a function body,
which may belong to another file. It does if the property does not depend on the file
and holds of the steps that keep the books of the functions and that turn to a file. -/
namespace StructuralTyping

open CheckM

/-- What a run does after all declarations are entered. -/
def checkDeclared : CheckM Unit := do
  modify fun checker => { checker with phase := .checking }
  checkFiles ⟨0, 0⟩ (← get).files
  modify fun checker => { checker with currentFile := none, phase := .done }

namespace Checker

theorem step_checkDeclarations {c : Checker} (declaring : c.phase = .declaring) :
    c.step checkDeclarations = c.step (do declareAll; checkDeclared) := by
  rw [checkDeclarations, step_bind, step_get]
  dsimp only
  rw [if_neg (not_not.mpr declaring)]
  rfl

/-- To check a program is to check what is registered of it. -/
theorem step_declareAndCheck (options : CheckerOptions) (files : List SourceFile) :
    (new options).step (declareAndCheck files) =
      ({ new options with files := files } : Checker).step (do declareAll; checkDeclared) := by
  rw [declareAndCheck, step_bind, step_declareSourceFiles files rfl]
  exact step_checkDeclarations rfl

end Checker

section Parts

theorem declareStatements_append (first second : List Statement) :
    declareStatements (first ++ second) = (do
      declareStatements first
      declareStatements second) := by
  induction first with
  | nil => simp [declareStatements]
  | cons statement rest ih => cases statement <;> simp [declareStatements, ih]

theorem checkTopLevelStatements_append (cursor : TopLevelCursor) (first second : List Statement) :
    checkTopLevelStatements cursor (first ++ second) = (do
      let next ← checkTopLevelStatements cursor first
      checkTopLevelStatements next second) := by
  induction first generalizing cursor with
  | nil => simp [checkTopLevelStatements]
  | cons statement rest ih => simp [checkTopLevelStatements, ih]

end Parts

/-- Turn to a body, or back to what asked for it. -/
def enterBody (scopes : List Scope) (returns : List ReturnContext) (file : Option String) :
    CheckM Unit :=
  modify fun checker =>
    { checker with scopes := scopes, returns := returns, currentFile := file }

/-- The check of a body that has been turned to. -/
def checkOpened (types : FunctionTypes) (function : DeclaredFunction) : CheckM TypeId := do
  declareParameters (function.node.parameters.zip function.parameters)
  checkBodyWith (checkStatements types function.node.body) function.returnType
    function.node.location

/-- The type that a function gets at the end of the check of its body. -/
def finishBody (function : DeclaredFunction) (result : TypeId) : CheckM TypeId :=
  match function.type with
  | some id => pure id
  | none => addType (.function ⟨function.typeParameters, function.parameters, result⟩)

theorem checkEntered_eq (types : FunctionTypes) (outside : Checker)
    (function : DeclaredFunction) : checkEntered types outside function = (do
      enterBody [functionScope function] [] function.file
      let result ← checkOpened types function
      enterBody outside.scopes outside.returns outside.currentFile
      finishBody function result) := by
  rw [checkEntered]
  refine congrArg (_ >>= ·) (funext fun _ => ?_)
  rw [checkOpened, bind_assoc]
  rfl

theorem TreeProperty.checkOpened {near : Location → Prop}
    {holds : {α : Type} → CheckM α → Prop} (property : TreeProperty false near holds)
    {types : FunctionTypes} (known : ∀ index, holds (types index)) (function : DeclaredFunction)
    (inside : ∀ l ∈ function.node.locations, near l) : holds (checkOpened types function) := by
  obtain ⟨node, file, ids, entered, declared, type, state⟩ := function
  obtain ⟨typeParameters, parameters, returnType, body, location⟩ := node
  obtain ⟨here, below⟩ := List.forall_mem_cons.mp inside
  obtain ⟨signature, statements⟩ := List.forall_mem_append.mp below
  have written := (List.forall_mem_append.mp (List.forall_mem_append.mp signature).2).1
  refine property.bind (property.declareParameters written _) fun _ => ?_
  have checked := property.block.checkStatements known body ⟨nofun, statements⟩
  exact property.checkBodyWith here checked declared

/-- The properties hold of every step that the check of a file is built from. They are about
what is at a place, such as a file, and a function body may be at another place than the
code that asks for its type. -/
structure BodyProperty {Place : Type} (near : Place → Location → Prop)
    (holds inBlock : Place → {α : Type} → CheckM α → Prop) : Prop where
  tree (place : Place) : BlockProperty false (near place) (holds place) (inBlock place)
  checkFunctionBody {types : FunctionTypes} : (∀ place index, holds place (types index)) →
    ∀ place index, holds place (checkFunctionBody types index)

namespace BodyProperty

variable {Place : Type} {near : Place → Location → Prop}
  {holds inBlock : Place → {α : Type} → CheckM α → Prop}
  (property : BodyProperty near holds inBlock) (place : Place)

include property

theorem functionTypeWithin (fuel index : Nat) : holds place (functionTypeWithin fuel index) := by
  induction fuel generalizing place index with
  | zero => exact (property.tree place).pure _
  | succ fuel ih =>
      have tree := property.tree place
      rw [StructuralTyping.functionTypeWithin]
      refine tree.reading (fun c => ?_) fun c => ?_
      · rw [Checker.getElem?_functions_bare]
        cases c.functions[index]? <;> rfl
      · split
        · exact tree.pure _
        · split
          · exact tree.pure _
          · refine QuietProperty.ite (tree.pure _) ?_
            refine tree.bind (property.checkFunctionBody ih place index) fun _ => ?_
            refine tree.reading (fun c => ?_) fun c => tree.pure _
            rw [Checker.getElem?_functions_bare]
            cases c.functions[index]? <;> rfl

theorem functionType (index : Nat) : holds place (functionType index) := by
  refine (property.tree place).reading (fun c => ?_) fun _ =>
    property.functionTypeWithin place _ index
  rw [Checker.size_functions_bare]

theorem checkTopLevelStatement (cursor : TopLevelCursor) :
    ∀ statement : Statement, (∀ l ∈ statement.locations, near place l) →
      inBlock place (checkTopLevelStatement cursor statement)
  | .interface _, _ => (property.tree place).within ((property.tree place).pure _)
  | .function _ _, _ => by
      have tree := property.tree place
      have checked := property.checkFunctionBody property.functionType place
      exact tree.within (tree.bind (checked cursor.functionCount) fun _ => tree.pure _)
  | .variable name declaredType initializer location, inside => by
      have tree := property.tree place
      have here : near place location := by
        cases initializer <;> exact inside _ List.mem_cons_self
      have initial : ∀ expression, initializer = some expression →
          Considered false (near place) expression.nameGroups expression.locations := by
        rintro expression rfl
        obtain ⟨-, below⟩ := List.forall_mem_cons.mp inside
        exact ⟨nofun, (List.forall_mem_append.mp below).2⟩
      refine tree.readingWithin (fun _ => rfl) fun c => ?_
      have checked := tree.checkVariable (property.functionType place) name
      exact tree.next (checked _ here initializer initial) fun _ => tree.within (tree.pure _)
  | .expression e location, inside => by
      have tree := property.tree place
      have checked := tree.checkStatement (property.functionType place) (.expression e location)
      exact tree.next (checked ⟨nofun, inside⟩) fun _ => tree.within (tree.pure _)
  | .returning e location, inside => by
      have tree := property.tree place
      have checked := tree.checkStatement (property.functionType place) (.returning e location)
      exact tree.next (checked ⟨nofun, inside⟩) fun _ => tree.within (tree.pure _)

theorem checkTopLevelStatements (cursor : TopLevelCursor) (statements : List Statement)
    (inside : ∀ l ∈ statementLocations statements, near place l) :
    inBlock place (checkTopLevelStatements cursor statements) := by
  induction statements generalizing cursor with
  | nil => exact (property.tree place).within ((property.tree place).pure cursor)
  | cons statement rest ih =>
      obtain ⟨here, later⟩ := List.forall_mem_append.mp inside
      have first := property.checkTopLevelStatement place cursor statement here
      exact (property.tree place).next first fun next => ih next later

theorem checkFiles (setFile : ∀ file, holds place (setFile file))
    (everywhere : ∀ l, near place l) (cursor : TopLevelCursor) (files : List SourceFile) :
    inBlock place (checkFiles cursor files) := by
  induction files generalizing cursor with
  | nil => exact (property.tree place).within ((property.tree place).pure ())
  | cons file rest ih =>
      have tree := property.tree place
      refine tree.next (tree.within (setFile _)) fun _ => ?_
      have statements := property.checkTopLevelStatements place cursor file.statements
      exact tree.next (statements fun l _ => everywhere l) fun next => ih next

end BodyProperty

/-- The property holds of every step that the check of a program is built from, whatever
the file. -/
structure RunProperty (holds : {α : Type} → CheckM α → Prop) : Prop extends
    TreeProperty false (fun _ => True) holds where
  /-- What is read of the checker does not tell reports apart. -/
  readWhole {α : Type} {k : Checker → CheckM α} :
    (∀ c, k c.unreported = k c) → (∀ c, holds (k c)) → holds (get >>= k)
  changeScopes (f : List Scope → List Scope) :
    holds (modify fun checker => { checker with scopes := f checker.scopes } : CheckM PUnit)
  modifyFunctions (f : Array DeclaredFunction → Array DeclaredFunction) :
    holds (modify fun checker => { checker with functions := f checker.functions } : CheckM PUnit)
  setFile (file : Option String) : holds (setFile file)

namespace RunProperty

variable {holds : {α : Type} → CheckM α → Prop} (property : RunProperty holds)

include property

theorem updateFunction (index : Nat) (change : DeclaredFunction → DeclaredFunction) :
    holds (updateFunction index change) :=
  property.modifyFunctions fun functions => functions.modify index change

/-- To turn to a body is to change the scopes, the functions around, and the file. -/
theorem enterBody (scopes : List Scope) (returns : List ReturnContext) (file : Option String) :
    holds (enterBody scopes returns file) := by
  have whole : StructuralTyping.enterBody scopes returns file = (do
      modify fun checker => { checker with scopes := scopes }
      modify fun checker => { checker with returns := returns }
      CheckM.setFile file) :=
    Checker.step_ext fun _ => rfl
  rw [whole]
  refine property.bind (property.changeScopes fun _ => scopes) fun _ => ?_
  exact property.bind (property.modifyReturns fun _ => returns) fun _ => property.setFile file

section Bodies
variable {types : FunctionTypes} (known : ∀ index, holds (types index))

include known

theorem checkEntered (outside : Checker) (function : DeclaredFunction) :
    holds (checkEntered types outside function) := by
  rw [checkEntered_eq]
  refine property.bind (property.enterBody _ _ _) fun _ => ?_
  have opened := property.toTreeProperty.checkOpened known function fun _ _ => trivial
  refine property.bind opened fun result => ?_
  refine property.bind (property.enterBody _ _ _) fun _ => ?_
  rw [finishBody]
  cases function.type with
  | some id => exact property.pure id
  | none => exact property.addType rfl nofun

theorem checkFunctionBody (index : Nat) : holds (checkFunctionBody types index) := by
  rw [checkFunctionBody_eq]
  refine property.readWhole (fun _ => rfl) fun outside => ?_
  split
  · exact property.pure ()
  · next function _ =>
      refine QuietProperty.ite (property.pure ()) ?_
      refine property.bind (property.updateFunction index beginBody) fun _ => ?_
      refine property.bind (property.checkEntered known outside function) fun type => ?_
      exact property.updateFunction index (endBody type)

end Bodies

/-- All places are one to a property that does not depend on the file. -/
theorem bodyProperty :
    BodyProperty (fun (_ : Unit) _ => True) (fun _ => holds) fun _ => holds where
  tree _ := property.toTreeProperty.block
  checkFunctionBody known _ := property.checkFunctionBody (known ())

theorem checkFiles (cursor : TopLevelCursor) (files : List SourceFile) :
    holds (checkFiles cursor files) :=
  property.bodyProperty.checkFiles () property.setFile (fun _ => trivial) cursor files

end RunProperty

end StructuralTyping
