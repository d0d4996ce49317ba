import StructuralTyping.Checker.Expressions
import StructuralTyping.Proofs.DerivedEntries
import StructuralTyping.Proofs.NameGroups
import StructuralTyping.Proofs.Placement
import StructuralTyping.Proofs.Steps
import StructuralTyping.Proofs.TreeLocations

/-! Properties of steps that carry over from the elementary steps to the check of
whole expressions and statements. A property has to survive sequencing and to hold
of the steps that read the checker, report, ask about types, and enter names and
written types; then it holds of every check that is built from these. What is
reported is never that a constraint is not satisfied, since only the check of a
constraint says so. A property may be about clean trees alone, in which no group
repeats a name; then it need not hold of a step that fails. And it may be about trees
in some place alone; then it need not hold of reports about other locations. What the
steps go by is neither the files nor the reports so far; the level at which unresolved
type parameters are reported decides about these reports and about nothing else. -/
namespace StructuralTyping

open CheckM

/-- Trees with these groups and these locations are considered. -/
structure Considered (clean : Bool) (near : Location → Prop) (groups : List NameGroup)
    (locations : List Location) : Prop where
  unrepeated : clean = true → Unrepeated groups
  near : ∀ location ∈ locations, near location

namespace Considered

variable {clean : Bool} {near : Location → Prop} {first second : List NameGroup}
  {here there : List Location}

/-- Anywhere, a tree that repeats no name is considered. -/
theorem anywhere (unrepeated : clean = true → Unrepeated first) :
    Considered clean (fun _ => True) first here :=
  ⟨unrepeated, fun _ _ => trivial⟩

/-- What is considered may be looked at part by part. -/
theorem append (considered : Considered clean near (first ++ second) (here ++ there)) :
    Considered clean near first here ∧ Considered clean near second there := by
  obtain ⟨one, two⟩ := List.forall_mem_append.mp considered.near
  have unrepeated (isClean : clean = true) :=
    (Unrepeated.append_iff first second).mp (considered.unrepeated isClean)
  exact ⟨⟨fun isClean => (unrepeated isClean).1, one⟩, ⟨fun isClean => (unrepeated isClean).2, two⟩⟩

theorem cons {group : NameGroup} (considered : Considered clean near (group :: first) here) :
    (clean = true → group.names.Nodup) ∧ Considered clean near first here := by
  have unrepeated (isClean : clean = true) :=
    (Unrepeated.cons_iff group first).mp (considered.unrepeated isClean)
  exact ⟨fun isClean => (unrepeated isClean).1,
    ⟨fun isClean => (unrepeated isClean).2, considered.near⟩⟩

/-- The location of a node comes before those of the nodes below it. -/
theorem node {location : Location} (considered : Considered clean near first (location :: here)) :
    near location ∧ Considered clean near first here := by
  obtain ⟨one, rest⟩ := List.forall_mem_cons.mp considered.near
  exact ⟨one, ⟨considered.unrepeated, rest⟩⟩

end Considered

/-- What is reported of a type parameter that inference has left open. -/
def Checker.unresolvedReport? (c : Checker) (location : Location) (parameter : TypeId) :
    Option Diagnostic :=
  c.options.unresolvedTypeParameters.severity?.map fun severity =>
    (Diagnostic.atLocation location .unresolvedTypeParameter
      [c.table.text parameter]).withSeverity severity

/-- Report one type parameter that inference has left open, if the options ask for it. -/
def reportOpen (location : Location) (parameter : TypeId) : CheckM Unit := do
  match (← get).unresolvedReport? location parameter with
  | some d => report d
  | none => pure ()

theorem reportUnresolved_cons (location : Location) (parameter : TypeId) (rest : List TypeId) :
    reportUnresolved location (parameter :: rest) = (do
      reportOpen location parameter
      reportUnresolved location rest) := by
  refine Checker.step_ext fun c => ?_
  rw [reportUnresolved, reportOpen, bind_assoc, Checker.step_bind, Checker.step_bind,
    Checker.step_get]
  dsimp only [Checker.unresolvedReport?]
  cases c.options.unresolvedTypeParameters.severity? with
  | none => simp only [Option.map_none, pure_bind]
  | some severity =>
      rw [Option.map_some, Checker.step_bind, display, Checker.step_bind, Checker.step_table]
      rfl

/-- What the code stands for is reported on no other account than what is found where it
is reported. The exceptions are what is found of constraints, which may have to wait, and
of unresolved type parameters, which the options may silence. -/
def OrdinaryCode (code : Nat) : Prop :=
  code ≠ Message.constraintUnsatisfied.code ∧ code ≠ Message.unresolvedTypeParameter.code

instance (code : Nat) : Decidable (OrdinaryCode code) := inferInstanceAs (Decidable (_ ∧ _))

/-- The change enters no type under a name. -/
def KeepsTypes (f : List Scope → List Scope) : Prop :=
  ∀ scopes, ∀ scope ∈ f scopes, scope.types = .empty ∨ ∃ before ∈ scopes, scope.types = before.types

/-- The property holds of the steps that leave the names and the function bodies around them
alone, and survives sequencing. -/
structure QuietProperty (near : Location → Prop) (holds : {α : Type} → CheckM α → Prop) :
    Prop where
  pure {α : Type} (a : α) : holds (pure a)
  bind {α β : Type} {m : CheckM α} {k : α → CheckM β} :
    holds m → (∀ a, holds (k a)) → holds (m >>= k)
  /-- What is read of the checker does not tell files or reports apart. -/
  reading {α : Type} {k : Checker → CheckM α} :
    (∀ c, k c.bare = k c) → (∀ c, holds (k c)) → holds (get >>= k)
  onTable {α : Type} {action : TableM α} : action.Derives → holds (onTable action)
  report {d : Diagnostic} : d.Near near → OrdinaryCode d.code → holds (report d)
  reportOpen {location : Location} (parameter : TypeId) :
    near location → holds (reportOpen location parameter)

/-- The property holds of the elementary steps and survives sequencing. -/
structure StepProperty (near : Location → Prop) (holds : {α : Type} → CheckM α → Prop) :
    Prop extends QuietProperty near holds where
  modifyScopes {f : List Scope → List Scope} : KeepsTypes f →
    holds (modify fun checker => { checker with scopes := f checker.scopes } : CheckM PUnit)
  modifyReturns (f : List ReturnContext → List ReturnContext) :
    holds (modify fun checker => { checker with returns := f checker.returns } : CheckM PUnit)
  bindGlobal (name : String) (id : TypeId) :
    holds (modify fun checker =>
      { checker with globals := checker.globals.insert name (.variable id) } : CheckM PUnit)

/-- The property does not depend on what the scopes are. -/
structure ScopeProperty (near : Location → Prop) (holds : {α : Type} → CheckM α → Prop) :
    Prop extends StepProperty near holds where
  changeScopes (f : List Scope → List Scope) :
    holds (modify fun checker => { checker with scopes := f checker.scopes } : CheckM PUnit)

/-- A property that may depend on the reports holds of the report of an unresolved type
parameter if it holds of every report with its code. -/
theorem reportOpen_of (near : Location → Prop) {holds : CheckM Unit → Prop}
    (reading : ∀ {k : Checker → CheckM Unit}, (∀ c, k c.unplaced = k c) → (∀ c, holds (k c)) →
      holds (get >>= k))
    (report : ∀ {d : Diagnostic}, d.Near near → d.code = Message.unresolvedTypeParameter.code →
      holds (report d))
    (silent : holds (pure ())) {location : Location} (here : near location)
    (parameter : TypeId) : holds (reportOpen location parameter) := by
  refine reading (fun _ => rfl) fun c => ?_
  cases found : c.unresolvedReport? location parameter with
  | none => exact silent
  | some d =>
      obtain ⟨severity, -, rfl⟩ := Option.map_eq_some_iff.mp found
      have reported :=
        Diagnostic.near_atLocation here .unresolvedTypeParameter [c.table.text parameter]
      exact report ⟨reported.located, reported.flat⟩ rfl

/-- The property holds as well of what the check of a call makes of the types that are written
in it. -/
structure CallProperty (clean : Bool) (near : Location → Prop)
    (holds : {α : Type} → CheckM α → Prop) : Prop extends QuietProperty near holds where
  checkConstraint (parameter argument : TypeId) (bindings : Bindings) {location : Location} :
    near location → holds (checkConstraint parameter argument bindings location)
  resolveType (node : TypeNode) :
    Considered clean near node.nameGroups node.locations → holds (resolveType node)
  fail {α : Type} (cause : ConstructionError) (location : Location) :
    clean = false → holds (fail cause location : CheckM α)

/-- An interface in a block is built at once. -/
def declareInterface (declaration : InterfaceDeclaration) : CheckM Unit := do
  match ← beginInterface declaration with
  | some pending => do
      constrainInterface pending
      completeInterface pending
  | none => return ()

/-- The property holds as well of the steps that enter what is written. -/
structure TreeProperty (clean : Bool) (near : Location → Prop)
    (holds : {α : Type} → CheckM α → Prop) : Prop extends StepProperty near holds,
    CallProperty clean near holds where
  declareTypeParameters (nodes : List TypeParameterNode) :
    Considered clean near (constraintNameGroups nodes) (typeParameterLocations nodes) →
      holds (declareTypeParameters nodes)
  declareInterface (declaration : InterfaceDeclaration) :
    Considered clean near declaration.nameGroups declaration.locations →
      holds (declareInterface declaration)

theorem near_propertyLocation {near : Location → Prop} {properties : List PropertyAssignment}
    {location : Location} (inside : ∀ l ∈ propertyLocations properties, near l)
    (here : near location) (name : Option String) :
    near (propertyLocation properties name location) := by
  rw [propertyLocation]
  cases found : properties.find? fun p => some p.name == name with
  | none => exact here
  | some p => exact inside _ (location_mem_propertyLocations (List.mem_of_find?_eq_some found))

namespace QuietProperty

variable {near : Location → Prop} {holds : {α : Type} → CheckM α → Prop}

theorem ite {α : Type} {p : Prop} [Decidable p] {yes no : CheckM α} (one : holds yes)
    (two : holds no) : holds (if p then yes else no) := by
  split
  · exact one
  · exact two

variable (property : QuietProperty near holds)

include property

section Elementary
variable {location : Location} (here : near location)

theorem table : holds CheckM.table :=
  property.reading (fun _ => rfl) fun c => property.pure c.table

theorem display (id : TypeId) : holds (CheckM.display id) :=
  property.bind property.table fun t => property.pure (t.text id)

include here in
theorem error {message : Message} (arguments : List String)
    (other : OrdinaryCode message.code) :
    holds (CheckM.error location message arguments) :=
  property.report (Diagnostic.near_atLocation here message arguments) other

include here in
theorem reportMismatch (mismatch : Mismatch) {head : Message}
    (other : OrdinaryCode head.code) :
    holds (CheckM.reportMismatch mismatch location head) := by
  refine property.bind property.table fun table =>
    property.report (mismatch.near_report here table head) ?_
  rcases mismatch.code_report table location head with same | excess
  · exact same ▸ other
  · exact excess ▸ by decide

theorem addType {kind : TypeKind} (derived : kind.isDerived = true)
    (other : kind.flag ≠ .instantiated) : holds (addType kind) :=
  property.onTable (.add derived other)

theorem resolve (id : TypeId) : holds (CheckM.resolve id) :=
  property.onTable (derives_resolve id)

theorem assignable (source target : TypeId) (fresh : Bool) :
    holds (CheckM.assignable source target fresh) :=
  property.reading (fun _ => rfl) fun _ =>
    property.onTable (derives_assignable _ source target fresh)

theorem lookupType (name : String) : holds (CheckM.lookupType name) := by
  refine property.reading (fun _ => rfl) fun checker => ?_
  split
  · exact property.pure _
  · exact property.pure _

theorem reportUnsatisfied (c : DeferredConstraint)
    (unsatisfied : ∀ arguments, holds (CheckM.error c.location .constraintUnsatisfied arguments)) :
    holds (CheckM.reportUnsatisfied c) := by
  refine property.bind property.table fun table => ?_
  split
  · exact property.pure ()
  · refine property.bind (property.onTable (derives_substitute _ _)) fun constraint => ?_
    refine property.bind (property.assignable _ _ _) fun verdict => ?_
    cases verdict with
    | ok => exact property.pure ()
    | error mismatch =>
        refine property.bind (property.display _) fun argument => ?_
        exact property.bind (property.display _) fun shown => unsatisfied _

end Elementary

section Assignment
variable {location : Location} (here : near location)

include here in
theorem reportMissing (source target : TypeId) (s : ObjectType)
    (expected : List (String × Property)) :
    holds (StructuralTyping.reportMissing location source target s expected) := by
  induction expected with
  | nil => exact property.pure true
  | cons member rest ih =>
      refine ite (property.bind (property.display _) fun _ => ?_) ih
      refine property.bind (property.display _) fun _ => ?_
      refine property.bind (property.error here _ (by decide)) fun _ => ?_
      exact property.bind ih fun _ => property.pure false

include here in
theorem elaborateWith {walk : ObjectType → ObjectType → CheckM Bool}
    (each : ∀ s t, holds (walk s t)) (source target : TypeId) (nestedOnly : Bool) :
    holds (StructuralTyping.elaborateWith walk location source target nestedOnly) := by
  refine property.bind (property.resolve source) fun s => ?_
  refine property.bind (property.resolve target) fun t => ?_
  refine property.bind property.table fun table => ?_
  split
  · refine property.bind (each _ _) fun clean => ite (property.pure _) ?_
    exact property.bind (property.reportMissing here _ _ _ _) fun complete => property.pure _
  · exact property.pure true

mutual

theorem checkLiteralAssignment (source target : TypeId) {head : Message}
    (other : OrdinaryCode head.code) :
    ∀ literal : ObjectLiteral, (∀ l ∈ literal.locations, near l) →
      holds (StructuralTyping.checkLiteralAssignment source target head literal)
  | ⟨properties, location⟩, inside => by
      obtain ⟨here, below⟩ := List.forall_mem_cons.mp inside
      rw [StructuralTyping.checkLiteralAssignment]
      refine property.bind (property.assignable _ _ _) fun verdict => ?_
      have walks (nestedOnly : Bool) (s t : ObjectType) :=
        elaborateProperties nestedOnly s t properties below
      split
      · exact property.elaborateWith here (walks true) _ _ _
      · have near := near_propertyLocation below here
        exact property.bind (property.reportMismatch (near _) _ other) fun _ => property.pure false
      · refine property.bind (property.elaborateWith here (walks false) _ _ _) fun clean => ?_
        dsimp only
        split
        · exact property.bind (property.reportMismatch here _ other) fun _ => property.pure false
        · exact property.pure false

theorem elaborateProperties (nestedOnly : Bool) (s t : ObjectType) :
    ∀ properties : List PropertyAssignment, (∀ l ∈ propertyLocations properties, near l) →
      holds (StructuralTyping.elaborateProperties nestedOnly s t properties)
  | [], _ => property.pure true
  | ⟨name, initializer, location⟩ :: rest, inside => by
      obtain ⟨here, below⟩ := List.forall_mem_cons.mp inside
      obtain ⟨within, later⟩ := List.forall_mem_append.mp below
      have others (clean : Bool) : holds (do
          let restClean ← StructuralTyping.elaborateProperties nestedOnly s t rest
          return clean && restClean) :=
        property.bind (elaborateProperties nestedOnly s t rest later) fun _ => property.pure _
      rw [StructuralTyping.elaborateProperties]
      dsimp only
      split
      · split
        · next nested =>
            have within := Expression.locations_object nested ▸ within
            exact property.bind (checkLiteralAssignment _ _ (by decide) nested within) others
        · split
          · exact property.bind (property.pure true) others
          · refine property.bind (property.assignable _ _ _) fun verdict => ?_
            split
            · exact property.bind (property.pure true) others
            · refine property.bind (property.reportMismatch here _ (by decide)) fun _ => ?_
              exact property.bind (property.pure false) others
      · exact property.bind (property.pure true) others

end

include here in
theorem checkAssignment {expression : Expression}
    (inside : ∀ l ∈ expression.locations, near l) (source target : TypeId) {head : Message}
    (other : OrdinaryCode head.code) :
    holds (StructuralTyping.checkAssignment expression source target location head) := by
  rw [StructuralTyping.checkAssignment]
  cases expression with
  | object literal =>
      exact property.checkLiteralAssignment _ _ other _
        (Expression.locations_object literal ▸ inside)
  | _ =>
      refine property.bind (property.assignable _ _ _) fun verdict => ?_
      cases verdict with
      | ok => exact property.pure true
      | error mismatch =>
          exact property.bind (property.reportMismatch here _ other) fun _ => property.pure false

end Assignment

section Parts
variable {location : Location} (here : near location)
variable {types : FunctionTypes} (known : ∀ index, holds (types index))

include here known in
theorem checkIdentifier (name : String) :
    holds (StructuralTyping.checkIdentifier types name location) := by
  refine property.reading (fun _ => rfl) fun c => ?_
  split
  · exact property.pure _
  · split
    · exact property.pure _
    · exact known _
    · split
      · exact property.pure _
      · refine ite (property.pure _) ?_
        exact property.bind (property.error here _ (by decide)) fun _ => property.pure _

theorem contextObject (context : Option TypeId) :
    holds (StructuralTyping.contextObject context) := by
  cases context with
  | none => exact property.pure none
  | some id =>
      refine property.bind (property.resolve id) fun body => ?_
      exact property.bind property.table fun table => property.pure _

theorem contextFunction (context : Option TypeId) :
    holds (StructuralTyping.contextFunction context) := by
  cases context with
  | none => exact property.pure none
  | some id =>
      refine property.bind (property.resolve id) fun body => ?_
      exact property.bind property.table fun table => property.pure _

include here in
theorem checkPropertyOf (object : TypeId) (name : String) :
    holds (StructuralTyping.checkPropertyOf object name location) := by
  refine property.bind (property.resolve object) fun body => ?_
  refine property.bind property.table fun table => ite (property.pure _) ?_
  split
  · exact property.pure _
  · refine property.bind (property.display _) fun shown => ?_
    exact property.bind (property.error here _ (by decide)) fun _ => property.pure _

include here in
theorem checkOperator (operator : BinaryOperator) (left right : TypeId) :
    holds (StructuralTyping.checkOperator operator left right location) := by
  refine property.bind property.table fun table => ?_
  split
  · exact property.pure _
  · refine property.bind (property.display _) fun _ => ?_
    refine property.bind (property.display _) fun _ => ?_
    exact property.bind (property.error here _ (by decide)) fun _ => property.pure _

include here in
theorem checkArgumentCount (signature : FunctionType) (count : Nat) :
    holds (StructuralTyping.checkArgumentCount signature count location) :=
  ite (property.error here _ (by decide)) (property.pure _)

include here in
theorem reportInferenceError (cause : InferenceError) :
    holds (StructuralTyping.reportInferenceError location cause) := by
  cases cause with
  | inconsistent parameter first second =>
      refine property.bind (property.display _) fun _ => ?_
      refine property.bind (property.display _) fun _ => ?_
      exact property.bind (property.display _) fun _ => property.error here _ (by decide)
  | typeArgumentCount expected found => exact property.error here _ (by decide)
  | notAFunction callee =>
      exact property.bind (property.display _) fun _ => property.error here _ (by decide)

include here in
theorem reportUnresolved (parameters : List TypeId) :
    holds (StructuralTyping.reportUnresolved location parameters) := by
  induction parameters with
  | nil => exact property.pure ()
  | cons parameter rest ih =>
      rw [reportUnresolved_cons]
      exact property.bind (property.reportOpen parameter here) fun _ => ih

end Parts

end QuietProperty

namespace StepProperty

variable {near : Location → Prop} {holds : {α : Type} → CheckM α → Prop}
  (property : StepProperty near holds)

include property

theorem pushScope : holds (CheckM.pushScope .empty) := by
  refine property.modifyScopes (f := fun scopes => .empty :: scopes) fun _ scope member => ?_
  rcases List.mem_cons.mp member with rfl | before
  · exact .inl rfl
  · exact .inr ⟨scope, before, rfl⟩

theorem popScope : holds CheckM.popScope :=
  property.modifyScopes fun _ scope member => .inr ⟨scope, List.mem_of_mem_tail member, rfl⟩

theorem bindValue (name : String) (id : TypeId) : holds (CheckM.bindValue name id) := by
  rw [CheckM.bindValue, updateScope_eq]
  refine property.modifyScopes fun scopes scope member => .inr ?_
  cases scopes with
  | nil => exact absurd member List.not_mem_nil
  | cons innermost outer =>
      rcases List.mem_cons.mp member with rfl | before
      · exact ⟨innermost, List.mem_cons_self, rfl⟩
      · exact ⟨scope, List.mem_cons_of_mem _ before, rfl⟩

section Entering
variable {location : Location} (here : near location)

include here in
theorem declareValue (name : String) (id : TypeId) :
    holds (CheckM.declareValue name id location) := by
  rw [declareValue_eq]
  refine property.reading (fun _ => rfl) fun checker => ?_
  split
  · refine property.bind (property.bindValue name id) fun _ => ?_
    exact QuietProperty.ite (property.error here _ (by decide)) (property.pure _)
  · refine property.bind (property.bindGlobal name id) fun _ => ?_
    exact QuietProperty.ite (property.error here _ (by decide)) (property.pure _)

theorem noteReturn (id : TypeId) : holds (noteReturn id) := by
  rw [noteReturn_eq]
  exact property.modifyReturns fun returns => returns.modifyHead _

theorem declareParameters {nodes : List ParameterNode}
    (inside : ∀ l ∈ parameterLocations nodes, near l) (parameters : List Parameter) :
    holds (StructuralTyping.declareParameters (nodes.zip parameters)) := by
  have each : ∀ entered ∈ nodes.zip parameters, near entered.1.location := fun _ member =>
    inside _ (location_mem_parameterLocations (List.of_mem_zip member).1)
  generalize nodes.zip parameters = entered at each
  induction entered with
  | nil => exact property.pure ()
  | cons parameter rest ih =>
      obtain ⟨here, later⟩ := List.forall_mem_cons.mp each
      exact property.bind (property.declareValue here _ _) fun _ => ih later

include here in
/-- The statements are checked between entering and leaving the body. -/
theorem checkBodyWith {statements : CheckM Unit} (body : holds statements)
    (declared : Option TypeId) :
    holds (StructuralTyping.checkBodyWith statements declared location) := by
  rw [checkBodyWith_eq]
  refine property.bind (property.modifyReturns _) fun _ => property.bind body fun _ => ?_
  refine property.reading (fun _ => rfl) fun checker => ?_
  refine property.bind (property.modifyReturns List.tail) fun _ => ?_
  cases declared with
  | none => exact property.pure _
  | some id =>
      refine property.bind property.table fun table => ?_
      dsimp only
      split
      · exact property.bind (property.error here _ (by decide)) fun _ => property.pure _
      · exact property.pure _

end Entering

end StepProperty

/-- Another property, which may be weaker and survives sequencing as well. It is about steps in
a block, which may enter names there. -/
structure Weaker (holds inBlock : {α : Type} → CheckM α → Prop) : Prop where
  within {α : Type} {m : CheckM α} : holds m → inBlock m
  next {α β : Type} {m : CheckM α} {k : α → CheckM β} :
    inBlock m → (∀ a, inBlock (k a)) → inBlock (m >>= k)
  readingWithin {α : Type} {k : Checker → CheckM α} :
    (∀ c, k c.bare = k c) → (∀ c, inBlock (k c)) → inBlock (get >>= k)

/-- The first property holds of the steps that leave alone what is around them. -/
structure WithinProperty (near : Location → Prop)
    (holds inBlock : {α : Type} → CheckM α → Prop) : Prop extends QuietProperty near holds,
    Weaker holds inBlock

namespace WithinProperty

variable {near : Location → Prop} {holds inBlock : {α : Type} → CheckM α → Prop}
  (property : WithinProperty near holds inBlock) {types : FunctionTypes} {location : Location}
  (here : near location)

include property here

theorem declareVariable {name : String} {id : TypeId}
    (declared : inBlock (CheckM.declareValue name id location)) :
    inBlock (StructuralTyping.declareVariable name id location) := by
  refine property.readingWithin (fun _ => rfl) fun c => ?_
  split
  · exact property.within (property.error here _ (by decide))
  · exact declared

/-- An initializer is checked before its variable is entered. -/
theorem checkVariable {name : String} {initializer : Expression} {declared : Option TypeId}
    (inside : ∀ l ∈ initializer.locations, near l)
    (checked : holds (checkExpression types declared initializer))
    (entered : ∀ id, inBlock (StructuralTyping.declareVariable name id location)) :
    inBlock (StructuralTyping.checkVariable types name declared location (some initializer)) := by
  rw [StructuralTyping.checkVariable]
  refine property.next (property.within checked) fun id => ?_
  cases declared with
  | none => exact entered id
  | some target =>
      refine property.next (property.within ?_) fun _ => entered target
      exact property.checkAssignment here inside _ _ (by decide)

theorem checkReturn_none : inBlock (checkReturn types location none) := by
  rw [checkReturn]
  refine property.within (property.reading (fun _ => rfl) fun c => ?_)
  exact QuietProperty.ite (property.error here _ (by decide)) (property.pure ())

/-- A value is checked before it is noted that it is returned. -/
theorem checkReturn_some {expression : Expression} (inside : ∀ l ∈ expression.locations, near l)
    (checked : ∀ context, holds (checkExpression types context expression))
    (noted : ∀ id, inBlock (noteReturn id)) :
    inBlock (checkReturn types location (some expression)) := by
  rw [checkReturn]
  refine property.readingWithin (fun _ => rfl) fun c => ?_
  split
  · refine property.within (property.bind (property.error here _ (by decide)) fun _ => ?_)
    exact property.bind (checked none) fun _ => property.pure _
  · refine property.next (property.within (checked _)) fun id => ?_
    dsimp only
    split
    · refine property.next (property.within ?_) fun _ => noted id
      exact property.checkAssignment (inside _ expression.location_mem) inside _ _ (by decide)
    · exact noted id

end WithinProperty

/-- A type may be entered in the innermost scope. -/
structure NamingProperty (near : Location → Prop) (holds inScope : {α : Type} → CheckM α → Prop) :
    Prop extends WithinProperty near holds inScope where
  bindType (name : String) (id : TypeId) : inScope (bindType name id)

namespace NamingProperty

variable {near : Location → Prop} {holds inScope : {α : Type} → CheckM α → Prop}
  (property : NamingProperty near holds inScope)

include property

theorem bindTypeParameterNames (reportDuplicates : Bool)
    (parameters : List (TypeParameterNode × TypeId))
    (inside : ∀ parameter ∈ parameters, near parameter.1.location) :
    inScope (CheckM.bindTypeParameterNames reportDuplicates parameters) := by
  induction parameters with
  | nil => exact property.within (property.pure ())
  | cons parameter rest ih =>
      obtain ⟨here, later⟩ := List.forall_mem_cons.mp inside
      refine property.readingWithin (fun _ => rfl) fun checker => ?_
      split
      · exact property.within (property.pure ())
      · refine property.next (property.bindType _ _) fun _ => ?_
        dsimp only
        split
        · exact property.next (property.within (property.error here _ (by decide))) fun _ =>
            ih later
        · exact ih later

/-- The names of a list of type parameters are bound together with what is made of it. -/
theorem bindTypeParameters (reportDuplicates : Bool) {nodes : List TypeParameterNode}
    (inside : ∀ location ∈ typeParameterLocations nodes, near location) (ids : List TypeId) :
    inScope (CheckM.bindTypeParameterNames reportDuplicates (nodes.zip ids)) :=
  property.bindTypeParameterNames _ _ fun _ member =>
    inside _ (location_mem_typeParameterLocations (List.of_mem_zip member).1)

end NamingProperty

namespace ScopeProperty

variable {near : Location → Prop} {holds : {α : Type} → CheckM α → Prop}
  (property : ScopeProperty near holds)

include property

theorem bindType (name : String) (id : TypeId) : holds (CheckM.bindType name id) := by
  rw [CheckM.bindType, updateScope_eq]
  exact property.changeScopes fun scopes => scopes.modifyHead _

/-- A property that does not depend on the scopes does not depend on the block either. -/
theorem naming : NamingProperty near holds holds where
  toQuietProperty := property.toQuietProperty
  within := id
  next := property.bind
  readingWithin := property.reading
  bindType := property.bindType

theorem bindTypeParameterNames (reportDuplicates : Bool)
    (parameters : List (TypeParameterNode × TypeId))
    (inside : ∀ parameter ∈ parameters, near parameter.1.location) :
    holds (CheckM.bindTypeParameterNames reportDuplicates parameters) :=
  property.naming.bindTypeParameterNames reportDuplicates parameters inside

end ScopeProperty

section Written
variable {clean : Bool} {near : Location → Prop} {holds : {α : Type} → CheckM α → Prop}

namespace CallProperty

variable (property : CallProperty clean near holds)

include property

theorem resolveTypes (nodes : List TypeNode)
    (considered : Considered clean near (typeNameGroups nodes) (typeLocations nodes)) :
    holds (StructuralTyping.resolveTypes nodes) := by
  induction nodes with
  | nil => exact property.pure []
  | cons node rest ih =>
      obtain ⟨here, later⟩ := considered.append
      rw [StructuralTyping.resolveTypes]
      refine property.bind (property.resolveType node here) fun id => ?_
      exact property.bind (ih later) fun ids => property.pure _

theorem resolveParameters (context : Option FunctionType) (index : Nat)
    (parameters : List ParameterNode)
    (considered : Considered clean near (parameterNameGroups parameters)
      (parameterLocations parameters)) :
    holds (StructuralTyping.resolveParameters context index parameters) := by
  induction parameters generalizing index with
  | nil => exact property.pure []
  | cons parameter rest ih =>
      obtain ⟨name, optional, declaredType, location⟩ := parameter
      cases declaredType with
      | none =>
          obtain ⟨-, later⟩ := considered.node
          rw [StructuralTyping.resolveParameters]
          exact property.bind (property.pure _) fun type =>
            property.bind (ih _ later) fun parameters => property.pure _
      | some node =>
          obtain ⟨-, below⟩ := considered.node
          obtain ⟨here, later⟩ := below.append
          rw [StructuralTyping.resolveParameters]
          exact property.bind (property.resolveType node here) fun type =>
            property.bind (ih _ later) fun parameters => property.pure _

theorem resolveOptionalType (node : Option TypeNode)
    (considered : Considered clean near (optionalTypeNameGroups node)
      (optionalTypeLocations node)) :
    holds (StructuralTyping.resolveOptionalType node) := by
  cases node with
  | none => exact property.pure none
  | some node =>
      exact property.bind (property.resolveType node considered) fun id => property.pure _

theorem checkBindings (bindings : Bindings) {location : Location} (here : near location)
    (parameters : List TypeId) {locations : List Location} (inside : ∀ l ∈ locations, near l) :
    holds (StructuralTyping.checkBindings bindings location parameters locations) := by
  induction parameters generalizing locations with
  | nil => exact property.pure ()
  | cons parameter rest ih =>
      have later : ∀ l ∈ locations.tail, near l := fun l member =>
        inside l (List.mem_of_mem_tail member)
      have first : near (locations.head?.getD location) := by
        cases locations with
        | nil => exact here
        | cons l others => exact inside l List.mem_cons_self
      rw [StructuralTyping.checkBindings]
      dsimp only
      split
      · exact property.bind (property.checkConstraint _ _ _ first) fun _ => ih later
      · exact ih later

end CallProperty

end Written

section Calls
variable {clean : Bool} {near : Location → Prop} {holds : {α : Type} → CheckM α → Prop}

/-- The property holds of each way to go through the arguments. -/
structure ArgumentChecks.All (holds : {α : Type} → CheckM α → Prop) (checks : ArgumentChecks) :
    Prop where
  infer : ∀ sensitive parameters inference known,
    holds (checks.infer sensitive parameters inference known)
  check : ∀ parameters known, holds (checks.check parameters known)
  loose : ∀ known, holds (checks.loose known)

namespace CallProperty

variable (property : CallProperty clean near holds) {checks : ArgumentChecks}
  (each : checks.All holds) {location : Location} (here : near location)

include property each here

theorem checkInstantiatedCall (signature : FunctionType) (instantiated : InstantiatedSignature)
    (known : List (Option TypeId)) {typeArguments : List TypeNode}
    (inside : ∀ l ∈ typeLocations typeArguments, near l) :
    holds (StructuralTyping.checkInstantiatedCall checks signature instantiated known typeArguments
      location) := by
  have written : ∀ l ∈ typeArguments.map TypeNode.location, near l :=
    List.forall_mem_map.mpr fun node member => inside _ (location_mem_typeLocations member)
  refine property.bind (property.reportUnresolved here _) fun _ => ?_
  refine property.bind (property.checkBindings _ here _ written) fun _ => ?_
  exact property.bind (each.check _ _) fun _ => property.pure _

theorem checkInferredCall (signature : FunctionType) (unknown : List (Option TypeId)) :
    holds (StructuralTyping.checkInferredCall checks signature unknown location) := by
  have resumed (pass : InferencePass) : holds (do
      if pass.failed then
        checks.loose pass.known
        return TypeId.unknown
      else
        let instantiated ← CheckM.onTable (pass.inference.finish.apply signature)
        StructuralTyping.checkInstantiatedCall checks signature instantiated pass.known []
          location) := by
    refine QuietProperty.ite (property.bind (each.loose _) fun _ => property.pure _) ?_
    refine property.bind (property.onTable (Instantiation.derives_apply _ _)) fun instantiated => ?_
    exact property.checkInstantiatedCall each here _ _ _ (List.forall_mem_nil _)
  refine property.bind (each.infer _ _ _ _) fun first => ?_
  dsimp only
  split
  · exact property.bind (property.pure first) resumed
  · exact property.bind (each.infer _ _ _ _) resumed

theorem checkExplicitCall (callee : TypeId) (signature : FunctionType)
    (unknown : List (Option TypeId)) {typeArguments : List TypeNode}
    (considered : Considered clean near (typeNameGroups typeArguments)
      (typeLocations typeArguments)) :
    holds (StructuralTyping.checkExplicitCall checks callee signature unknown typeArguments
      location) := by
  refine property.bind (property.resolveTypes typeArguments considered) fun explicit => ?_
  refine property.bind (property.onTable (derives_instantiate _ _ _)) fun outcome => ?_
  cases outcome with
  | ok instantiated => exact property.checkInstantiatedCall each here _ _ _ considered.near
  | error cause =>
      refine property.bind (property.reportInferenceError here _) fun _ => ?_
      exact property.bind (each.loose unknown) fun _ => property.pure _

theorem checkCallOf (callee : TypeId) {typeArguments : List TypeNode}
    (considered : Considered clean near (typeNameGroups typeArguments)
      (typeLocations typeArguments)) (count : Nat) :
    holds (StructuralTyping.checkCallOf checks callee typeArguments count location) := by
  have loose : holds (do
      checks.loose (.replicate count none)
      return TypeId.unknown) :=
    property.bind (each.loose _) fun _ => property.pure _
  refine property.bind (property.resolve callee) fun body => ?_
  refine property.bind property.table fun table => QuietProperty.ite loose ?_
  split
  · refine property.bind (property.display _) fun shown => ?_
    exact property.bind (property.error here _ (by decide)) fun _ => loose
  · next signature _ =>
      refine property.bind (property.checkArgumentCount here _ _) fun _ => ?_
      have checked : holds (do
          checks.check (signature.parameters.map fun p => p.type) (.replicate count none)
          return signature.returnType) :=
        property.bind (each.check _ _) fun _ => property.pure _
      split
      · split
        · exact property.checkInferredCall each here _ _
        · exact property.checkExplicitCall each here _ _ _ considered
      · split
        · exact property.bind (property.error here _ (by decide)) fun _ => checked
        · exact checked

end CallProperty

end Calls

section Blocks

/-- The check of a function where it stands, given how its statements are checked. -/
def checkFunctionWith (statements : CheckM Unit) (context : Option FunctionType)
    (node : FunctionNode) : CheckM TypeId := do
  pushScope .empty
  let ids ← declareTypeParameters node.typeParameters
  let resolved ← resolveParameters context 0 node.parameters
  declareParameters (node.parameters.zip resolved)
  let declared ← resolveOptionalType node.returnType
  let result ← checkBodyWith statements declared node.location
  popScope
  addType (.function ⟨ids, resolved, result⟩)

theorem checkFunction_eq (types : FunctionTypes) (context : Option FunctionType)
    (node : FunctionNode) : checkFunction types context node =
      checkFunctionWith (checkStatements types node.body) context node := by
  cases node
  rw [checkFunction, checkFunctionWith]

/-- The property holds of the steps that are done outside of blocks, and another one, which may
be weaker, of those that enter names in the block around them. Of a whole function the first
one holds again. -/
structure BlockProperty (clean : Bool) (near : Location → Prop)
    (holds inBlock : {α : Type} → CheckM α → Prop) : Prop extends
    CallProperty clean near holds, WithinProperty near holds inBlock where
  declareValue (name : String) (id : TypeId) {location : Location} :
    near location → inBlock (declareValue name id location)
  bindValue (name : String) (id : TypeId) : inBlock (bindValue name id)
  noteReturn (id : TypeId) : inBlock (noteReturn id)
  declareInterface (declaration : InterfaceDeclaration) :
    Considered clean near declaration.nameGroups declaration.locations →
      inBlock (declareInterface declaration)
  checkFunctionWith {statements : CheckM Unit} (context : Option FunctionType)
    {node : FunctionNode} : Considered clean near node.nameGroups node.locations →
      inBlock statements → holds (checkFunctionWith statements context node)

/-- A property of all elementary steps does not depend on the block. -/
theorem TreeProperty.block {clean : Bool} {near : Location → Prop}
    {holds : {α : Type} → CheckM α → Prop} (property : TreeProperty clean near holds) :
    BlockProperty clean near holds holds where
  toCallProperty := property.toCallProperty
  within := id
  next := property.bind
  readingWithin := property.reading
  declareValue name id _ here := property.declareValue here name id
  bindValue := property.bindValue
  noteReturn := property.noteReturn
  declareInterface := property.declareInterface
  checkFunctionWith context node considered statements := by
    obtain ⟨typeParameters, parameters, returnType, body, location⟩ := node
    obtain ⟨here, below⟩ := considered.node
    obtain ⟨signature, -⟩ := below.append
    obtain ⟨constraints, rest⟩ := signature.append
    obtain ⟨inside, result⟩ := rest.append
    refine property.bind property.pushScope fun _ => ?_
    refine property.bind (property.declareTypeParameters _ constraints) fun ids => ?_
    refine property.bind (property.resolveParameters _ _ _ inside) fun resolved => ?_
    refine property.bind (property.declareParameters inside.near _) fun _ => ?_
    refine property.bind (property.resolveOptionalType _ result) fun declared => ?_
    refine property.bind (property.checkBodyWith here statements _) fun _ => ?_
    exact property.bind property.popScope fun _ => property.addType rfl nofun

end Blocks

namespace BlockProperty

section Trees
set_option linter.unusedSectionVars false

variable {clean : Bool} {near : Location → Prop} {holds inBlock : {α : Type} → CheckM α → Prop}
  (property : BlockProperty clean near holds inBlock) {types : FunctionTypes}
  (known : ∀ index, holds (types index)) {location : Location} (here : near location)

include property

include here in
theorem enterVariable (name : String) (id : TypeId) :
    inBlock (StructuralTyping.declareVariable name id location) :=
  property.declareVariable here (property.declareValue name id here)

include known

mutual

theorem checkExpression (context : Option TypeId) :
    ∀ expression : Expression,
      Considered clean near expression.nameGroups expression.locations →
      holds (StructuralTyping.checkExpression types context expression)
  | .identifier name location, considered => by
      rw [StructuralTyping.checkExpression]
      exact property.checkIdentifier considered.node.1 known name
  | .string _ _, _ => property.pure _
  | .number _ _, _ => property.pure _
  | .boolean _ _, _ => property.pure _
  | .object ⟨properties, _⟩, considered => by
      obtain ⟨-, below⟩ := considered.node
      obtain ⟨distinct, inside⟩ := below.cons
      rw [StructuralTyping.checkExpression]
      refine property.bind (property.contextObject _) fun expected => ?_
      refine property.bind (checkProperties expected [] properties ?_ inside) fun given => ?_
      · exact fun isClean => ⟨distinct isClean, fun _ _ => List.not_mem_nil⟩
      · exact property.addType rfl nofun
  | .call callee typeArguments arguments location, considered => by
      obtain ⟨here, below⟩ := considered.node
      obtain ⟨inCallee, rest⟩ := below.append
      obtain ⟨inTypes, inArguments⟩ := rest.append
      rw [StructuralTyping.checkExpression]
      refine property.bind (checkExpression none callee inCallee) fun id => ?_
      refine property.checkCallOf ⟨?_, ?_, ?_⟩ here id inTypes _
      · exact fun sensitive parameters inference known =>
          inferArguments sensitive inference arguments parameters known inArguments
      · exact fun parameters known => checkArguments arguments parameters known inArguments
      · exact fun known => checkLoose arguments known inArguments
  | .property object name location, considered => by
      obtain ⟨here, below⟩ := considered.node
      rw [StructuralTyping.checkExpression]
      exact property.bind (checkExpression none object below) fun id =>
        property.checkPropertyOf here id name
  | .function node, considered => by
      rw [StructuralTyping.checkExpression]
      exact property.bind (property.contextFunction _) fun expected =>
        checkFunction expected node considered
  | .binary operator left right location, considered => by
      obtain ⟨here, below⟩ := considered.node
      obtain ⟨inLeft, inRight⟩ := below.append
      rw [StructuralTyping.checkExpression]
      refine property.bind (checkExpression none left inLeft) fun l => ?_
      exact property.bind (checkExpression none right inRight) fun r =>
        property.checkOperator here operator l r

theorem checkProperties (context : Option ObjectType) (seen : List String) :
    ∀ properties : List PropertyAssignment,
      (clean = true → (properties.map PropertyAssignment.name).Nodup ∧
        ∀ name ∈ properties.map PropertyAssignment.name, name ∉ seen) →
      Considered clean near (propertyNameGroups properties) (propertyLocations properties) →
      holds (StructuralTyping.checkProperties types context seen properties)
  | [], _, _ => property.pure _
  | ⟨name, initializer, location⟩ :: rest, distinct, considered => by
      obtain ⟨-, inside⟩ := considered.node
      obtain ⟨here, below⟩ := inside.append
      have later (isClean : clean = true) :
          (rest.map PropertyAssignment.name).Nodup ∧
            ∀ other ∈ rest.map PropertyAssignment.name, other ∉ name :: seen := by
        obtain ⟨nodup, unseen⟩ := distinct isClean
        obtain ⟨absent, nodup⟩ := List.nodup_cons.mp nodup
        refine ⟨nodup, fun other member seenBefore => ?_⟩
        rcases List.mem_cons.mp seenBefore with rfl | before
        · exact absent member
        · exact unseen other (List.mem_cons_of_mem _ member) before
      have checked : holds (do
          let expected := (context.bind fun o => o.property? name).map fun p => p.type
          let id ← StructuralTyping.checkExpression types expected initializer
          let properties ← StructuralTyping.checkProperties types context (name :: seen) rest
          return (name, (⟨id, false⟩ : Property)) :: properties) := by
        refine property.bind (checkExpression _ initializer here) fun id => ?_
        exact property.bind (checkProperties context (name :: seen) rest later below) fun _ =>
          property.pure _
      rw [StructuralTyping.checkProperties]
      split
      · next repeated =>
          have unclean : clean = false := by
            refine Bool.eq_false_iff.mpr fun isClean => ?_
            exact (distinct isClean).2 name List.mem_cons_self (by simpa using repeated)
          exact property.bind (property.fail _ _ unclean) fun _ => checked
      · exact checked

theorem inferArguments (sensitive : Bool) (inference : Inference) :
    ∀ (arguments : List Expression) (parameters : List Parameter) (known : List (Option TypeId)),
      Considered clean near (argumentNameGroups arguments) (argumentLocations arguments) →
      holds (StructuralTyping.inferArguments types sensitive inference arguments parameters known)
  | [], _, _, _ => by
      rw [StructuralTyping.inferArguments]
      · exact property.pure _
      · simp
  | _ :: _, [], _, _ => by
      rw [StructuralTyping.inferArguments]
      · exact property.pure _
      · simp
  | _ :: _, _ :: _, [], _ => by
      rw [StructuralTyping.inferArguments]
      · exact property.pure _
      · simp
  | argument :: arguments, parameter :: parameters, known :: rest, considered => by
      obtain ⟨here, below⟩ := considered.append
      rw [StructuralTyping.inferArguments]
      refine QuietProperty.ite ?_ ?_
      · exact property.bind (inferArguments sensitive inference arguments parameters rest below)
          fun pass => property.pure _
      · refine property.bind (property.onTable (Inference.derives_contextualType _ _))
          fun context => ?_
        refine property.bind (checkExpression _ argument here) fun id => ?_
        refine property.bind (property.onTable (Inference.derives_infer _ _ _)) ?_
        rintro ⟨outcome, after⟩
        cases outcome with
        | error cause =>
            have located := here.near _ argument.location_mem
            exact property.bind (property.reportInferenceError located _) fun _ => property.pure _
        | ok =>
            exact property.bind (inferArguments sensitive after arguments parameters rest below)
              fun pass => property.pure _

theorem checkArguments :
    ∀ (arguments : List Expression) (parameters : List TypeId) (known : List (Option TypeId)),
      Considered clean near (argumentNameGroups arguments) (argumentLocations arguments) →
      holds (StructuralTyping.checkArguments types arguments parameters known)
  | [], _, _, _ => property.pure _
  | argument :: arguments, parameters, known, considered => by
      obtain ⟨here, below⟩ := considered.append
      have checked (id : TypeId) : holds (do
          match parameters.head? with
          | some target =>
              let _ ← StructuralTyping.checkAssignment argument id target argument.location
                .argumentNotAssignable
          | none => Pure.pure ()
          StructuralTyping.checkArguments types arguments parameters.tail known.tail) := by
        have located := here.near _ argument.location_mem
        dsimp only
        split
        · exact property.bind (property.checkAssignment located here.near _ _ (by decide)) fun _ =>
            checkArguments arguments _ _ below
        · exact checkArguments arguments _ _ below
      rw [StructuralTyping.checkArguments]
      cases known.head?.join with
      | some id => exact checked id
      | none => exact property.bind (checkExpression _ argument here) checked

theorem checkLoose :
    ∀ (arguments : List Expression) (known : List (Option TypeId)),
      Considered clean near (argumentNameGroups arguments) (argumentLocations arguments) →
      holds (StructuralTyping.checkLoose types arguments known)
  | [], _, _ => property.pure _
  | argument :: arguments, known, considered => by
      obtain ⟨here, below⟩ := considered.append
      rw [StructuralTyping.checkLoose]
      split
      · exact property.bind (checkExpression none argument here) fun _ =>
          checkLoose arguments _ below
      · exact checkLoose arguments _ below

theorem checkFunction (context : Option FunctionType) :
    ∀ node : FunctionNode, Considered clean near node.nameGroups node.locations →
      holds (StructuralTyping.checkFunction types context node)
  | ⟨typeParameters, parameters, returnType, body, location⟩, considered => by
      have inBody := considered.node.2.append.2
      rw [checkFunction_eq]
      exact property.checkFunctionWith context considered (checkStatements body inBody)

theorem checkVariable (name : String) (declared : Option TypeId) {location : Location}
    (here : near location) :
    ∀ initializer : Option Expression,
      (∀ expression, initializer = some expression →
        Considered clean near expression.nameGroups expression.locations) →
      inBlock (StructuralTyping.checkVariable types name declared location initializer)
  | none, _ => by
      rw [StructuralTyping.checkVariable]
      exact property.enterVariable here _ _
  | some initializer, considered => by
      have inside := considered _ rfl
      exact property.toWithinProperty.checkVariable here inside.near
        (checkExpression declared initializer inside) (property.enterVariable here name)

theorem checkReturn {location : Location} (here : near location) :
    ∀ expression : Option Expression,
      (∀ returned, expression = some returned →
        Considered clean near returned.nameGroups returned.locations) →
      inBlock (StructuralTyping.checkReturn types location expression)
  | none, _ => property.checkReturn_none here
  | some expression, considered => by
      have inside := considered _ rfl
      exact property.checkReturn_some here inside.near
        (fun context => checkExpression context expression inside) property.noteReturn

theorem checkStatement :
    ∀ statement : Statement,
      Considered clean near statement.nameGroups statement.locations →
      inBlock (StructuralTyping.checkStatement types statement)
  | .interface declaration, considered => by
      rw [StructuralTyping.checkStatement]
      exact property.declareInterface declaration considered
  | .function name node, considered => by
      rw [StructuralTyping.checkStatement]
      have here := considered.near _ node.location_mem
      refine property.next (property.declareValue name _ here) fun _ => ?_
      exact property.next (property.within (checkFunction none node considered)) fun id =>
        property.bindValue name id
  | .variable name declaredType none location, considered => by
      obtain ⟨here, inType⟩ := considered.node
      rw [StructuralTyping.checkStatement]
      have resolved := property.resolveOptionalType declaredType inType
      refine property.next (property.within resolved) fun declared => ?_
      exact checkVariable name declared here none fun _ absent => nomatch absent
  | .variable name declaredType (some initializer) location, considered => by
      obtain ⟨here, below⟩ := considered.node
      obtain ⟨inType, inside⟩ := below.append
      rw [StructuralTyping.checkStatement]
      have resolved := property.resolveOptionalType declaredType inType
      refine property.next (property.within resolved) fun declared => ?_
      refine checkVariable name declared here (some initializer) ?_
      exact fun expression same => Option.some.inj same ▸ inside
  | .expression expression _, considered => by
      obtain ⟨-, inside⟩ := considered.node
      rw [StructuralTyping.checkStatement]
      refine property.within (property.bind (checkExpression none expression inside) fun _ => ?_)
      exact property.pure ()
  | .returning none location, considered => by
      rw [StructuralTyping.checkStatement]
      exact checkReturn considered.node.1 none fun _ absent => nomatch absent
  | .returning (some expression) location, considered => by
      obtain ⟨here, inside⟩ := considered.node
      rw [StructuralTyping.checkStatement]
      refine checkReturn here (some expression) ?_
      exact fun returned same => Option.some.inj same ▸ inside

theorem checkStatements :
    ∀ statements : List Statement,
      Considered clean near (statementNameGroups statements) (statementLocations statements) →
      inBlock (StructuralTyping.checkStatements types statements)
  | [], _ => property.within (property.pure _)
  | statement :: rest, considered => by
      obtain ⟨here, below⟩ := considered.append
      rw [StructuralTyping.checkStatements]
      exact property.next (checkStatement statement here) fun _ => checkStatements rest below

end

end Trees

end BlockProperty

end StructuralTyping
