import StructuralTyping.Checker.Declaring
import StructuralTyping.Proofs.StepProperties

/-! Properties that do not depend on what is in the table of types. If such a property
holds of every change to the table and of entering a declared name, it holds of the steps
that make entries of what is written: of written types, of type parameters and of
interfaces. If it holds as well of entering functions and variables, it holds of what is
done with the statements of a file while declaring. -/
namespace StructuralTyping

open CheckM

/-- The property holds of the elementary steps and of every change to the table. -/
structure WrittenProperty (near : Location → Prop) (holds : {α : Type} → CheckM α → Prop) :
    Prop extends ScopeProperty near holds where
  changeTable {α : Type} (action : TableM α) : holds (CheckM.onTable action)
  declareType (name : String) (id : TypeId) :
    holds (modify fun checker =>
      { checker with declaredTypes := checker.declaredTypes.insert name id } : CheckM PUnit)
  checkConstraint (parameter argument : TypeId) (bindings : Bindings) {location : Location} :
    near location → holds (checkConstraint parameter argument bindings location)
  fail {α : Type} (cause : ConstructionError) (location : Location) :
    holds (fail cause location : CheckM α)

/-- Enter the name of an interface and reserve its body, which may be in any file. -/
def reserveInterface (declaration : InterfaceDeclaration) :
    CheckM (Option (TypeId × List TypeId)) := do
  let checker ← get
  let taken :=
    match checker.scopes with
    | scope :: _ => scope.types.contains declaration.name
    | [] => checker.declaredTypes.contains declaration.name
  if taken then
    error declaration.location .duplicateIdentifier [declaration.name]
    return none
  else
    let typeParameters ← freshTypeParameters declaration.typeParameters
    let body ← addType .pending
    let declared ←
      if typeParameters.isEmpty then pure body
      else addType (.generic ⟨declaration.name, typeParameters, body⟩)
    if checker.scopes.isEmpty then
      modify fun checker =>
        { checker with
          declaredTypes := checker.declaredTypes.insert declaration.name declared }
    else bindType declaration.name declared
    return some (body, typeParameters)

/-- What is kept of an interface besides what was reserved for it is the file it is in. -/
theorem beginInterface_eq (declaration : InterfaceDeclaration) :
    beginInterface declaration = (do
      let file := (← get).currentFile
      let reserved ← reserveInterface declaration
      return reserved.map fun entered => ⟨declaration, entered.1, entered.2, file⟩) := by
  refine Checker.step_ext fun c => ?_
  rw [beginInterface, reserveInterface, Checker.step_bind, Checker.step_bind, Checker.step_get]
  dsimp only
  rw [bind_assoc, Checker.step_bind, Checker.step_get]
  dsimp only
  rcases c.scopes with _ | ⟨scope, outer⟩ <;> dsimp only
  all_goals
    split
    · simp only [bind_assoc, pure_bind, Option.map_none]
    · simp only [bind_assoc, pure_bind]
      split
      all_goals
        refine congrArg c.step ?_
        refine bind_congr fun typeParameters => bind_congr fun body => ?_
        split <;> simp only [bind_assoc, pure_bind, Option.map_some]

/-- Steps in a scope of their own. -/
def inNewScope {α : Type} (m : CheckM α) : CheckM α := do
  pushScope .empty
  let a ← m
  popScope
  return a

/-- The members of an interface are built in a scope with its type parameters. -/
theorem completeInterface_eq_inNewScope (pending : PendingInterface) :
    completeInterface pending = (do
      let o ← inNewScope (do
        bindTypeParameterNames false
          (pending.declaration.typeParameters.zip pending.typeParameters)
        buildObjectType (some pending.declaration.name) pending.declaration.members)
      match (← CheckM.table).define pending.body (.object o) with
      | .ok table => modify fun checker => { checker with table := table }
      | .error cause => fail cause pending.declaration.location) := by
  simp only [completeInterface, inNewScope, bind_assoc, pure_bind] <;> rfl

/-- The property holds of the steps that leave the scopes as they are, and another one, which
may be weaker, of those that enter types in the innermost scope. Of what is done in a scope of
its own the first one holds again. -/
structure ScopedProperty (near : Location → Prop) (holds inScope : {α : Type} → CheckM α → Prop) :
    Prop extends NamingProperty near holds inScope where
  inNewScope {α : Type} {m : CheckM α} : inScope m → holds (inNewScope m)
  changeTable {α : Type} (action : TableM α) : holds (CheckM.onTable action)
  checkConstraint (parameter argument : TypeId) (bindings : Bindings) {location : Location} :
    near location → holds (checkConstraint parameter argument bindings location)
  fail {α : Type} (cause : ConstructionError) (location : Location) :
    holds (fail cause location : CheckM α)

namespace ScopedProperty

variable {near : Location → Prop} {holds inScope : {α : Type} → CheckM α → Prop}
  (property : ScopedProperty near holds inScope)

include property

theorem addEntry (kind : TypeKind) : holds (addType kind) := property.changeTable _

theorem modifyTable (f : TypeTable → TypeTable) :
    holds (modify fun checker => { checker with table := f checker.table } : CheckM PUnit) :=
  property.changeTable (modify f : TableM PUnit)

theorem freshTypeParameters (nodes : List TypeParameterNode) :
    holds (freshTypeParameters nodes) := by
  induction nodes with
  | nil => exact property.pure []
  | cons node rest ih =>
      rw [StructuralTyping.CheckM.freshTypeParameters, List.mapM_cons]
      refine property.bind (property.addEntry _) fun id => ?_
      exact property.bind ih fun ids => property.pure _

theorem checkConstraints (bindings : Bindings) (pairs : List ((TypeId × TypeId) × Location))
    (inside : ∀ pair ∈ pairs, near pair.2) : holds (checkConstraints bindings pairs) := by
  induction pairs with
  | nil => exact property.pure ()
  | cons pair rest ih =>
      obtain ⟨here, later⟩ := List.forall_mem_cons.mp inside
      exact property.bind (property.checkConstraint _ _ _ here) fun _ => ih later

theorem instantiateReference (declared : TypeId) (g : GenericType) (ids : List TypeId)
    {arguments : List TypeNode} (inside : ∀ l ∈ typeLocations arguments, near l)
    (location : Location) :
    holds (instantiateReference declared g ids (arguments.map TypeNode.location) location) := by
  have each : ∀ pair ∈ (g.typeParameters.zip ids).zip (arguments.map TypeNode.location),
      near pair.2 := by
    intro pair member
    obtain ⟨node, listed, same⟩ := List.mem_map.mp (List.of_mem_zip member).2
    exact same ▸ inside _ (location_mem_typeLocations listed)
  refine property.bind (property.checkConstraints _ _ each) fun _ => ?_
  refine property.bind property.table fun table => ?_
  dsimp only
  split
  · next id t _ =>
      exact property.bind (property.modifyTable fun _ => t) fun _ => property.pure id
  · exact property.fail _ _

mutual

theorem resolveType : ∀ node : TypeNode, (∀ l ∈ node.locations, near l) →
    holds (StructuralTyping.resolveType node)
  | .keyword _ _, _ => property.pure _
  | .reference name arguments location, inside => by
      obtain ⟨here, below⟩ := List.forall_mem_cons.mp inside
      rw [StructuralTyping.resolveType]
      refine property.bind (property.lookupType name) fun found => ?_
      cases found with
      | none => exact property.bind (property.error here _ (by decide)) fun _ => property.pure _
      | some declared =>
          refine property.bind property.table fun t => ?_
          split
          · split
            · exact property.bind (property.error here _ (by decide)) fun _ => property.pure _
            · exact property.bind (resolveTypes arguments below) fun ids =>
                property.instantiateReference _ _ _ below _
          · dsimp only
            split
            · refine property.bind (property.display _) fun text => ?_
              exact property.bind (property.error here _ (by decide)) fun _ => property.pure _
            · exact property.pure _
  | .literal members _, inside => by
      obtain ⟨-, below⟩ := List.forall_mem_cons.mp inside
      rw [StructuralTyping.resolveType]
      refine property.bind (resolveMembers [] members below) fun properties => ?_
      split
      · exact property.addEntry _
      · exact property.fail _ _
  | .function typeParameters parameters returnType _, inside => by
      obtain ⟨-, below⟩ := List.forall_mem_cons.mp inside
      obtain ⟨first, rest⟩ := List.forall_mem_append.mp below
      obtain ⟨second, third⟩ := List.forall_mem_append.mp rest
      rw [StructuralTyping.resolveType]
      have signature : holds (StructuralTyping.inNewScope do
          let ids ← CheckM.freshTypeParameters typeParameters
          CheckM.bindTypeParameterNames true (typeParameters.zip ids)
          StructuralTyping.resolveConstraints typeParameters ids
          let resolved ← StructuralTyping.resolveParameters none 0 parameters
          let result ← StructuralTyping.resolveType returnType
          return (⟨ids, resolved, result⟩ : FunctionType)) := by
        refine property.inNewScope ?_
        refine property.next (property.within (property.freshTypeParameters _)) fun ids => ?_
        refine property.next (property.bindTypeParameters _ first _) fun _ => property.within ?_
        refine property.bind (resolveConstraints typeParameters ids first) fun _ => ?_
        refine property.bind (resolveParameters none 0 parameters second) fun resolved => ?_
        exact property.bind (resolveType returnType third) fun result => property.pure _
      have added := property.bind signature fun f => property.addEntry (.function f)
      simpa only [StructuralTyping.inNewScope, bind_assoc, pure_bind] using added

theorem resolveTypes : ∀ nodes : List TypeNode, (∀ l ∈ typeLocations nodes, near l) →
    holds (StructuralTyping.resolveTypes nodes)
  | [], _ => property.pure _
  | node :: rest, inside => by
      obtain ⟨here, later⟩ := List.forall_mem_append.mp inside
      rw [StructuralTyping.resolveTypes]
      refine property.bind (resolveType node here) fun id => ?_
      exact property.bind (resolveTypes rest later) fun ids => property.pure _

theorem resolveMembers (seen : List String) :
    ∀ members : List PropertySignature, (∀ l ∈ memberLocations members, near l) →
      holds (StructuralTyping.resolveMembers seen members)
  | [], _ => property.pure _
  | ⟨name, optional, declaredType, location⟩ :: rest, inside => by
      obtain ⟨-, below⟩ := List.forall_mem_cons.mp inside
      obtain ⟨here, later⟩ := List.forall_mem_append.mp below
      have resolved : holds (do
          let type ← StructuralTyping.resolveType declaredType
          let properties ← StructuralTyping.resolveMembers (name :: seen) rest
          return (name, (⟨type, optional⟩ : Property)) :: properties) := by
        refine property.bind (resolveType declaredType here) fun id => ?_
        exact property.bind (resolveMembers (name :: seen) rest later) fun _ => property.pure _
      rw [StructuralTyping.resolveMembers]
      split
      · exact property.bind (property.fail _ _) fun _ => resolved
      · exact resolved

theorem resolveConstraints :
    ∀ (nodes : List TypeParameterNode) (ids : List TypeId),
      (∀ l ∈ typeParameterLocations nodes, near l) →
      holds (StructuralTyping.resolveConstraints nodes ids)
  | [], _, _ => by
      rw [StructuralTyping.resolveConstraints]
      · exact property.pure _
      · simp
  | _ :: _, [], _ => by
      rw [StructuralTyping.resolveConstraints]
      · exact property.pure _
      · simp
  | ⟨_, none, _⟩ :: nodes, _ :: ids, inside => by
      rw [StructuralTyping.resolveConstraints]
      exact resolveConstraints nodes ids (List.forall_mem_cons.mp inside).2
  | ⟨_, some node, _⟩ :: nodes, id :: ids, inside => by
      obtain ⟨-, below⟩ := List.forall_mem_cons.mp inside
      obtain ⟨here, later⟩ := List.forall_mem_append.mp below
      rw [StructuralTyping.resolveConstraints]
      refine property.bind (resolveType node here) fun bound => ?_
      refine property.bind (property.modifyTable fun t => t.setConstraint id bound) fun _ => ?_
      exact resolveConstraints nodes ids later

theorem resolveParameters (context : Option FunctionType) (index : Nat) :
    ∀ parameters : List ParameterNode, (∀ l ∈ parameterLocations parameters, near l) →
      holds (StructuralTyping.resolveParameters context index parameters)
  | [], _ => property.pure _
  | ⟨_, _, none, _⟩ :: rest, inside => by
      have later := (List.forall_mem_cons.mp inside).2
      rw [StructuralTyping.resolveParameters]
      refine property.bind (property.pure _) fun _ => ?_
      exact property.bind (resolveParameters context (index + 1) rest later) fun _ =>
        property.pure _
  | ⟨_, _, some node, _⟩ :: rest, inside => by
      obtain ⟨-, below⟩ := List.forall_mem_cons.mp inside
      obtain ⟨here, later⟩ := List.forall_mem_append.mp below
      rw [StructuralTyping.resolveParameters]
      refine property.bind (resolveType node here) fun _ => ?_
      exact property.bind (resolveParameters context (index + 1) rest later) fun _ =>
        property.pure _

end

theorem declareTypeParameters (nodes : List TypeParameterNode)
    (inside : ∀ l ∈ typeParameterLocations nodes, near l) :
    inScope (declareTypeParameters nodes) := by
  refine property.next (property.within (property.freshTypeParameters nodes)) fun ids => ?_
  refine property.next (property.bindTypeParameters _ inside _) fun _ => property.within ?_
  exact property.bind (property.resolveConstraints nodes ids inside) fun _ => property.pure _

section Interfaces
variable {declaration : InterfaceDeclaration} (inside : ∀ l ∈ declaration.locations, near l)

include inside

variable (body : TypeId) (ids : List TypeId) (file : Option String)

theorem constrainInterface : holds (constrainInterface ⟨declaration, body, ids, file⟩) := by
  obtain ⟨-, below⟩ := List.forall_mem_cons.mp inside
  obtain ⟨parameters, -⟩ := List.forall_mem_append.mp below
  have whole : StructuralTyping.constrainInterface ⟨declaration, body, ids, file⟩ =
      StructuralTyping.inNewScope (do
        CheckM.bindTypeParameterNames true (declaration.typeParameters.zip ids)
        StructuralTyping.resolveConstraints declaration.typeParameters ids) := by
    have left (done : Unit) : (do popScope; Pure.pure done) = popScope := bind_pure _
    simp only [StructuralTyping.constrainInterface, StructuralTyping.inNewScope, bind_assoc, left]
  rw [whole]
  refine property.inNewScope (property.next (property.bindTypeParameters _ parameters _) ?_)
  exact fun _ => property.within (property.resolveConstraints _ _ parameters)

theorem completeInterface : holds (completeInterface ⟨declaration, body, ids, file⟩) := by
  obtain ⟨-, below⟩ := List.forall_mem_cons.mp inside
  obtain ⟨parameters, members⟩ := List.forall_mem_append.mp below
  have built : holds (buildObjectType (some declaration.name) declaration.members) := by
    refine property.bind (property.resolveMembers [] _ members) fun properties => ?_
    split
    · exact property.pure _
    · exact property.fail _ _
  rw [completeInterface_eq_inNewScope]
  refine property.bind (property.inNewScope ?_) fun o => ?_
  · exact property.next (property.bindTypeParameters _ parameters _) fun _ => property.within built
  refine property.bind property.table fun table => ?_
  split
  · next t _ => exact property.modifyTable fun _ => t
  · exact property.fail _ _

/-- An interface in a block is built at once, and its file does not matter. -/
theorem declareInterface (reserved : inScope (StructuralTyping.reserveInterface declaration)) :
    inScope (StructuralTyping.declareInterface declaration) := by
  have whole : StructuralTyping.declareInterface declaration = (do
      match ← StructuralTyping.reserveInterface declaration with
      | some (body, ids) => do
          StructuralTyping.constrainInterface ⟨declaration, body, ids, none⟩
          StructuralTyping.completeInterface ⟨declaration, body, ids, none⟩
      | none => return ()) := by
    refine Checker.step_ext fun c => ?_
    rw [StructuralTyping.declareInterface, beginInterface_eq, bind_assoc, Checker.step_bind,
      Checker.step_get]
    dsimp only
    rw [bind_assoc]
    refine congrArg (fun next => c.step (StructuralTyping.reserveInterface declaration >>= next)) ?_
    funext reserved
    cases reserved <;> rfl
  rw [whole]
  refine property.next reserved fun entered => property.within ?_
  cases entered with
  | none => exact property.pure ()
  | some entered =>
      exact property.bind (property.constrainInterface inside _ _ _) fun _ =>
        property.completeInterface inside _ _ _

end Interfaces

end ScopedProperty

namespace WrittenProperty

variable {near : Location → Prop} {holds : {α : Type} → CheckM α → Prop}
  (property : WrittenProperty near holds)

include property

/-- A property that does not depend on the scopes does not depend on where a type is written. -/
theorem scopedProperty : ScopedProperty near holds holds where
  toNamingProperty := property.naming
  inNewScope inside := property.bind property.pushScope fun _ => property.bind inside fun _ =>
    property.bind property.popScope fun _ => property.pure _
  changeTable := property.changeTable
  checkConstraint := property.checkConstraint
  fail := property.fail

theorem addEntry (kind : TypeKind) : holds (addType kind) := property.scopedProperty.addEntry kind

section Interfaces
variable {declaration : InterfaceDeclaration} (inside : ∀ l ∈ declaration.locations, near l)

include inside

theorem reserveInterface : holds (reserveInterface declaration) := by
  have here := inside _ List.mem_cons_self
  refine property.reading (fun _ => rfl) fun c => ?_
  refine QuietProperty.ite ?_ ?_
  · exact property.bind (property.error here _ (by decide)) fun _ => property.pure _
  refine property.bind (property.scopedProperty.freshTypeParameters _) fun ids => ?_
  refine property.bind (property.addEntry .pending) fun body => ?_
  have entered (declared : TypeId) : holds (do
      if c.scopes.isEmpty then
        modify fun checker =>
          { checker with
            declaredTypes := checker.declaredTypes.insert declaration.name declared }
      else bindType declaration.name declared
      return some (body, ids)) := by
    dsimp only
    split
    · exact property.bind (property.declareType _ _) fun _ => property.pure _
    · exact property.bind (property.bindType _ _) fun _ => property.pure _
  dsimp only
  split
  · exact property.bind (property.pure _) entered
  · exact property.bind (property.addEntry _) entered

end Interfaces

theorem treeProperty : TreeProperty false near holds where
  toStepProperty := property.toStepProperty
  checkConstraint := property.checkConstraint
  resolveType node considered := property.scopedProperty.resolveType node considered.near
  declareTypeParameters nodes considered :=
    property.scopedProperty.declareTypeParameters nodes considered.near
  declareInterface _ considered :=
    property.scopedProperty.declareInterface considered.near
      (property.reserveInterface considered.near)
  fail cause location _ := property.fail cause location

end WrittenProperty

/-- Enter a function whose signature is built, as part of the current file. -/
def enterFunction (name : String) (f : DeclaredFunction) : CheckM Unit := do
  let checker ← get
  set { checker with
    functions := checker.functions.push { f with file := checker.currentFile } }
  if checker.globals.contains name then error f.node.location .duplicateIdentifier [name]
  else
    modify fun c => { c with globals := c.globals.insert name (.function checker.functions.size) }

theorem enterFunction_eq (name : String) (f : DeclaredFunction) : enterFunction name f = (do
    let checker ← get
    modify fun c =>
      { c with functions := c.functions.push { f with file := checker.currentFile } }
    if checker.globals.contains name then error f.node.location .duplicateIdentifier [name]
    else
      modify fun c =>
        { c with globals := c.globals.insert name (.function checker.functions.size) }) :=
  Checker.step_ext fun _ => rfl

/-- Keep the written type of a top-level variable. -/
def enterHoisted (name : String) (declared : Option TypeId) : CheckM Unit :=
  modify fun checker =>
    { checker with
      variableTypes := checker.variableTypes.push declared
      hoisted :=
        if checker.hoisted.contains name then checker.hoisted
        else checker.hoisted.insert name (declared.getD TypeId.unknown) }

theorem declareFunction_eq (name : String) (node : FunctionNode) :
    declareFunction name node = (do
      pushScope .empty
      let typeParameters ← declareTypeParameters node.typeParameters
      let parameters ← resolveParameters none 0 node.parameters
      let returnType ← resolveOptionalType node.returnType
      popScope
      let type ←
        match returnType with
        | some result => do
            let id ← addType (.function ⟨typeParameters, parameters, result⟩)
            pure (some id)
        | none => pure none
      enterFunction name ⟨node, none, typeParameters, parameters, returnType, type, .unchecked⟩) :=
  rfl

/-- The property holds as well of entering functions and variables. -/
structure DeclaringProperty (near : Location → Prop) (holds : {α : Type} → CheckM α → Prop) :
    Prop extends WrittenProperty near holds where
  enterFunction (name : String) {f : DeclaredFunction} :
    (∀ location ∈ f.node.locations, near location) → holds (enterFunction name f)
  enterHoisted (name : String) (declared : Option TypeId) : holds (enterHoisted name declared)

namespace DeclaringProperty

variable {near : Location → Prop} {holds : {α : Type} → CheckM α → Prop}
  (property : DeclaringProperty near holds)

include property

theorem resolveOptionalType (node : Option TypeNode)
    (inside : ∀ l ∈ optionalTypeLocations node, near l) : holds (resolveOptionalType node) :=
  property.treeProperty.resolveOptionalType node ⟨nofun, inside⟩

theorem declareFunction (name : String) (node : FunctionNode)
    (inside : ∀ l ∈ node.locations, near l) : holds (declareFunction name node) := by
  have entered (ids : List TypeId) (resolved : List Parameter) (result type : Option TypeId) :=
    property.enterFunction (f := ⟨node, none, ids, resolved, result, type, .unchecked⟩) name inside
  obtain ⟨typeParameters, parameters, returnType, body, location⟩ := node
  obtain ⟨signature, -⟩ := List.forall_mem_append.mp (List.forall_mem_cons.mp inside).2
  obtain ⟨first, rest⟩ := List.forall_mem_append.mp signature
  obtain ⟨second, third⟩ := List.forall_mem_append.mp rest
  rw [declareFunction_eq]
  refine property.bind property.pushScope fun _ => ?_
  have written := property.scopedProperty
  refine property.bind (written.declareTypeParameters _ first) fun ids => ?_
  refine property.bind (written.resolveParameters none 0 _ second) fun resolved => ?_
  refine property.bind (property.resolveOptionalType _ third) fun result => ?_
  refine property.bind property.popScope fun _ => ?_
  cases result with
  | none => exact property.bind (property.pure none) fun _ => entered _ _ _ _
  | some result =>
      refine property.bind (property.addEntry _) fun id => ?_
      exact property.bind (property.pure _) fun _ => entered _ _ _ _

theorem declareStatements : ∀ statements : List Statement,
    (∀ l ∈ statementLocations statements, near l) → holds (declareStatements statements)
  | [], _ => property.pure ()
  | .function name node :: rest, inside => by
      obtain ⟨here, later⟩ := List.forall_mem_append.mp inside
      exact property.bind (property.declareFunction name node here) fun _ =>
        declareStatements rest later
  | .variable name declaredType initializer location :: rest, inside => by
      obtain ⟨here, later⟩ := List.forall_mem_append.mp inside
      have written : ∀ l ∈ optionalTypeLocations declaredType, near l := by
        cases initializer with
        | none => exact (List.forall_mem_cons.mp here).2
        | some initializer => exact (List.forall_mem_append.mp (List.forall_mem_cons.mp here).2).1
      refine property.bind ?_ fun _ => declareStatements rest later
      refine property.bind (property.resolveOptionalType _ written) fun declared => ?_
      exact property.enterHoisted name declared
  | .interface _ :: rest, inside
  | .expression _ _ :: rest, inside
  | .returning _ _ :: rest, inside =>
      declareStatements rest (List.forall_mem_append.mp inside).2

end DeclaringProperty

end StructuralTyping
