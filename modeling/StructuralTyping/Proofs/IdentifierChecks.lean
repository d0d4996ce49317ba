import StructuralTyping.Proofs.IdentifierAccount

/-! Steps that build types, compare them or enter names check no identifiers.
Building a type reports the type names that are not found, which says nothing
about a name that is never used as one. -/
namespace StructuralTyping

open CheckM

variable {name : String}

namespace CheckM

theorem accounts_onTable {α : Type} (action : TableM α) : Accounts name 0 (onTable action) :=
  .of_keeps fun c c' a unbound done => by
    rw [Checker.step_onTable] at done
    obtain ⟨-, rfl⟩ := Prod.mk.inj done
    exact ⟨unbound.congr rfl rfl rfl rfl, rfl, rfl, rfl⟩

theorem accounts_addType (kind : TypeKind) : Accounts name 0 (addType kind) :=
  accounts_onTable _

theorem accounts_resolve (id : TypeId) : Accounts name 0 (CheckM.resolve id) :=
  accounts_onTable _

theorem accounts_table : Accounts name 0 table :=
  Accounts.get.quietly fun c => .pure c.table

theorem accounts_display (id : TypeId) : Accounts name 0 (display id) :=
  accounts_table.quietly fun t => .pure (t.text id)

theorem accounts_assignable (source target : TypeId) (fresh : Bool) :
    Accounts name 0 (assignable source target fresh) :=
  Accounts.get.quietly fun _ => accounts_onTable _

theorem accounts_setFile (file : Option String) : Accounts name 0 (setFile file) :=
  .modify (fun _ unbound => unbound.congr rfl rfl rfl rfl) fun _ => ⟨rfl, rfl, rfl⟩

theorem accounts_fail {α : Type} {n : Nat} (cause : ConstructionError) (location : Location) :
    Accounts name n (fail cause location : CheckM α) :=
  .throw _

/-- The step changes the table and nothing else that the account looks at. -/
theorem accounts_modifyTable (f : Checker → TypeTable) :
    Accounts name 0 (modify fun checker => { checker with table := f checker } : CheckM PUnit) :=
  .modify (fun _ unbound => unbound.congr rfl rfl rfl rfl) fun _ => ⟨rfl, rfl, rfl⟩

theorem accounts_report (d : Diagnostic) :
    Accounts name (if d.misses name then 1 else 0) (report d) := by
  intro c unbound c' a done
  obtain ⟨e, same, rfl⟩ : ∃ e : Diagnostic, e.misses name = d.misses name ∧
      c' = { c with diagnostics := c.diagnostics.add e } := by
    simp only [report, Checker.step_modify, Prod.mk.injEq] at done
    refine ⟨_, ?_, done.2.symm⟩
    split
    · split <;> simp
    · rfl
  refine ⟨_, rfl, ?_, unbound.congr rfl rfl rfl rfl, by simp, fun _ entered => entered, rfl⟩
  by_cases misses : d.misses name <;>
    simp [Checker.balance, Checker.missCount, List.countP_append, same, misses]
  omega

/-- A diagnostic with another number says nothing about missing names. -/
theorem accounts_report_of_code_ne (d : Diagnostic) (other : d.code ≠ 2304) :
    Accounts name 0 (report d) := by
  have accounts : Accounts name (if d.misses name then 1 else 0) (report d) := accounts_report d
  simpa [Diagnostic.misses_of_code_ne other] using accounts

theorem accounts_error (location : Location) {message : Message} (arguments : List String)
    (other : message.code ≠ 2304) : Accounts name 0 (error location message arguments) :=
  accounts_report_of_code_ne _ other

theorem accounts_missing (location : Location) (other : String) :
    Accounts name (if other = name then 1 else 0) (error location .cannotFindName [other]) := by
  have accounts := @accounts_report name (.atLocation location .cannotFindName [other])
  simpa [Diagnostic.misses_atLocation, error] using accounts

theorem code_report (table : TypeTable) (location : Location) {head : Message}
    (other : head.code ≠ 2304) (mismatch : Mismatch) :
    (mismatch.report table location head).code ≠ 2304 := by
  rcases mismatch.code_report table location head with same | excess
  · exact same ▸ other
  · exact excess ▸ by decide

theorem accounts_reportMismatch (mismatch : Mismatch) (location : Location) {head : Message}
    (other : head.code ≠ 2304) : Accounts name 0 (reportMismatch mismatch location head) := by
  refine accounts_table.quietly fun t => ?_
  exact accounts_report_of_code_ne _ (code_report t location other mismatch)

theorem accounts_pushScope (scope : Scope) (absent : scope.values.find? name = none) :
    Accounts name 0 (pushScope scope) :=
  .modify
    (fun _ unbound =>
      unbound.withScopes (List.forall_mem_cons.mpr ⟨absent, unbound.scopes⟩) rfl rfl rfl)
    fun _ => ⟨rfl, rfl, rfl⟩

theorem accounts_pushEmpty : Accounts name 0 (pushScope .empty) :=
  accounts_pushScope _ rfl

theorem accounts_popScope : Accounts name 0 popScope :=
  .modify
    (fun _ unbound =>
      unbound.withScopes (fun scope inner => unbound.scopes scope (List.mem_of_mem_tail inner))
        rfl rfl rfl)
    fun _ => ⟨rfl, rfl, rfl⟩

theorem accounts_updateScope {f : Scope → Scope}
    (absent : ∀ scope : Scope, scope.values.find? name = none →
      (f scope).values.find? name = none) : Accounts name 0 (updateScope f) := by
  refine .modify (fun c unbound => ?_) fun c => ?_
  · cases scopes : c.scopes with
    | nil => exact unbound
    | cons scope outer =>
        have before := unbound.scopes
        rw [scopes, List.forall_mem_cons] at before
        exact unbound.withScopes
          (List.forall_mem_cons.mpr ⟨absent scope before.1, before.2⟩) rfl rfl rfl
  · cases c.scopes <;> exact ⟨rfl, rfl, rfl⟩

theorem accounts_bindType (other : String) (id : TypeId) : Accounts name 0 (bindType other id) :=
  accounts_updateScope fun _ absent => absent

theorem accounts_bindValue {other : String} (id : TypeId) (apart : name ≠ other) :
    Accounts name 0 (bindValue other id) :=
  accounts_updateScope fun _ absent => by simp [apart.symm, absent]

theorem accounts_declareValue {other : String} (id : TypeId) (location : Location)
    (apart : name ≠ other) : Accounts name 0 (declareValue other id location) := by
  refine .get_bind fun c unbound => ?_
  cases c.scopes with
  | nil =>
      have absent : (c.globals.insert other (.variable id)).find? name = none := by
        simp [apart.symm, unbound.globals]
      refine AccountsFrom.quietly (.set ?_ ⟨rfl, rfl, rfl⟩) fun _ => ?_
      · exact ⟨List.forall_mem_nil _, absent, unbound.hoisted, unbound.functions⟩
      · exact Accounts.ite (accounts_error location _ (by decide)) (.pure _)
  | cons scope outer =>
      refine Accounts.quietly (accounts_bindValue id apart) (fun _ => ?_) c unbound
      exact Accounts.ite (accounts_error location _ (by decide)) (.pure _)

theorem accounts_reportUnsatisfied (check : DeferredConstraint) :
    Accounts name 0 (reportUnsatisfied check) := by
  refine accounts_table.quietly fun t => ?_
  split
  · exact .pure ()
  · refine (accounts_onTable _).quietly fun constraint => ?_
    refine (accounts_assignable _ _ _).quietly fun verdict => ?_
    cases verdict with
    | ok => exact .pure ()
    | error mismatch =>
        refine (accounts_display _).quietly fun shown => ?_
        refine (accounts_display _).quietly fun expected => ?_
        exact accounts_error _ _ (by decide)

theorem accounts_checkConstraint (parameter argument : TypeId) (bindings : Bindings)
    (location : Location) :
    Accounts name 0 (checkConstraint parameter argument bindings location) := by
  refine .get_bind fun c unbound => ?_
  dsimp only
  split
  · exact .set (unbound.congr rfl rfl rfl rfl) ⟨rfl, rfl, rfl⟩
  · exact accounts_reportUnsatisfied _ c unbound

theorem accounts_lookupType (other : String) : Accounts name 0 (lookupType other) := by
  refine Accounts.get.quietly fun c => ?_
  split <;> exact .pure _

theorem accounts_bindTypeParameterNames (reportDuplicates : Bool)
    (parameters : List (TypeParameterNode × TypeId)) :
    Accounts name 0 (bindTypeParameterNames reportDuplicates parameters) := by
  induction parameters with
  | nil => exact .pure ()
  | cons parameter rest ih =>
      refine Accounts.get.quietly fun c => ?_
      split
      · exact .pure ()
      · refine (accounts_bindType _ _).quietly fun _ => ?_
        split
        · exact (accounts_error _ _ (by decide)).quietly fun _ => ih
        · exact ih

theorem accounts_mapM {α β : Type} {f : α → CheckM β} (quiet : ∀ a, Accounts name 0 (f a))
    (items : List α) : Accounts name 0 (items.mapM f) := by
  induction items with
  | nil => exact .pure []
  | cons item rest ih =>
      rw [List.mapM_cons]
      exact (quiet item).quietly fun b => ih.quietly fun bs => .pure (b :: bs)

theorem accounts_freshTypeParameters (nodes : List TypeParameterNode) :
    Accounts name 0 (freshTypeParameters nodes) :=
  accounts_mapM (fun _ => accounts_addType _) nodes

theorem accounts_checkConstraints (bindings : Bindings)
    (pairs : List ((TypeId × TypeId) × Location)) :
    Accounts name 0 (checkConstraints bindings pairs) := by
  induction pairs with
  | nil => exact .pure ()
  | cons pair rest ih => exact (accounts_checkConstraint _ _ _ _).quietly fun _ => ih

theorem accounts_instantiateReference (declared : TypeId) (g : GenericType)
    (arguments : List TypeId) (locations : List Location) (location : Location) :
    Accounts name 0 (instantiateReference declared g arguments locations location) := by
  refine (accounts_checkConstraints _ _).quietly fun _ => accounts_table.quietly fun t => ?_
  dsimp only
  split
  · exact (accounts_modifyTable _).quietly fun _ => .pure _
  · exact accounts_fail _ _

end CheckM

mutual

theorem accounts_resolveType :
    ∀ node : TypeNode, name ∉ node.names → Accounts name 0 (resolveType node)
  | .keyword keyword _, _ => .pure _
  | .reference other arguments location, absent => by
      obtain ⟨apart, absent⟩ : ¬ name = other ∧ name ∉ typeNames arguments := by
        simpa [TypeNode.names] using absent
      rw [resolveType]
      refine (accounts_lookupType _).quietly fun declared => ?_
      cases declared with
      | none =>
          have missing : Accounts name _ _ := accounts_missing location other
          rw [if_neg fun same => apart same.symm] at missing
          exact missing.quietly fun _ => .pure _
      | some declared =>
          refine accounts_table.quietly fun t => ?_
          dsimp only
          split
          · split
            · exact (accounts_error _ _ (by decide)).quietly fun _ => .pure _
            · exact (accounts_resolveTypes arguments absent).quietly fun ids =>
                accounts_instantiateReference _ _ _ _ _
          · split
            · refine (accounts_display _).quietly fun shown => ?_
              exact (accounts_error _ _ (by decide)).quietly fun _ => .pure _
            · exact .pure _
  | .literal members _, absent => by
      rw [resolveType]
      refine (accounts_resolveMembers [] members (by simpa [TypeNode.names] using absent)).quietly
        fun properties => ?_
      split
      · exact accounts_addType _
      · exact accounts_fail _ _
  | .function typeParameters parameters returnType _, absent => by
      obtain ⟨constraints, inside, result⟩ :
          name ∉ constraintNames typeParameters ∧ name ∉ parameterTypeNames parameters ∧
            name ∉ returnType.names := by
        simpa [TypeNode.names] using absent
      rw [resolveType]
      refine accounts_pushEmpty.quietly fun _ => ?_
      refine (accounts_freshTypeParameters _).quietly fun ids => ?_
      refine (accounts_bindTypeParameterNames _ _).quietly fun _ => ?_
      refine (accounts_resolveConstraints typeParameters ids constraints).quietly fun _ => ?_
      refine (accounts_resolveParameters none 0 parameters inside).quietly fun resolved => ?_
      refine (accounts_resolveType returnType result).quietly fun resolvedReturn => ?_
      exact accounts_popScope.quietly fun _ => accounts_addType _

theorem accounts_resolveTypes :
    ∀ nodes : List TypeNode, name ∉ typeNames nodes → Accounts name 0 (resolveTypes nodes)
  | [], _ => .pure []
  | node :: rest, absent => by
      obtain ⟨here, below⟩ : name ∉ node.names ∧ name ∉ typeNames rest := by
        simpa [typeNames] using absent
      rw [resolveTypes]
      refine (accounts_resolveType node here).quietly fun id => ?_
      exact (accounts_resolveTypes rest below).quietly fun ids => .pure _

theorem accounts_resolveMembers (seen : List String) :
    ∀ members : List PropertySignature, name ∉ memberTypeNames members →
      Accounts name 0 (resolveMembers seen members)
  | [], _ => .pure []
  | ⟨member, optional, declaredType, location⟩ :: rest, absent => by
      obtain ⟨here, below⟩ : name ∉ declaredType.names ∧ name ∉ memberTypeNames rest := by
        simpa [memberTypeNames] using absent
      have members : Accounts name 0 (do
          let type ← resolveType declaredType
          let properties ← resolveMembers (member :: seen) rest
          return (member, ⟨type, optional⟩) :: properties) :=
        (accounts_resolveType declaredType here).quietly fun _ =>
          (accounts_resolveMembers (member :: seen) rest below).quietly fun _ => .pure _
      rw [resolveMembers]
      split
      · exact (accounts_fail _ _).quietly fun _ => members
      · exact members

theorem accounts_resolveConstraints :
    ∀ (nodes : List TypeParameterNode) (ids : List TypeId), name ∉ constraintNames nodes →
      Accounts name 0 (resolveConstraints nodes ids)
  | [], _, _ => by
      rw [resolveConstraints]
      · exact .pure ()
      · simp
  | ⟨_, constraint, _⟩ :: rest, [], _ => by
      rw [resolveConstraints]
      · exact .pure ()
      · simp
  | ⟨_, none, _⟩ :: rest, id :: ids, absent => by
      rw [resolveConstraints]
      exact accounts_resolveConstraints rest ids (by simpa [constraintNames] using absent)
  | ⟨_, some node, _⟩ :: rest, id :: ids, absent => by
      obtain ⟨here, below⟩ : name ∉ node.names ∧ name ∉ constraintNames rest := by
        simpa [constraintNames] using absent
      rw [resolveConstraints]
      refine (accounts_resolveType node here).quietly fun bound => ?_
      exact (accounts_modifyTable _).quietly fun _ => accounts_resolveConstraints rest ids below

theorem accounts_resolveParameters (context : Option FunctionType) (index : Nat) :
    ∀ parameters : List ParameterNode, name ∉ parameterTypeNames parameters →
      Accounts name 0 (resolveParameters context index parameters)
  | [], _ => .pure []
  | ⟨_, _, none, _⟩ :: rest, absent => by
      rw [resolveParameters]
      exact (Accounts.pure _).quietly fun _ =>
        (accounts_resolveParameters context (index + 1) rest
          (by simpa [parameterTypeNames] using absent)).quietly fun _ => .pure _
  | ⟨_, _, some node, _⟩ :: rest, absent => by
      obtain ⟨here, below⟩ : name ∉ node.names ∧ name ∉ parameterTypeNames rest := by
        simpa [parameterTypeNames] using absent
      rw [resolveParameters]
      exact (accounts_resolveType node here).quietly fun _ =>
        (accounts_resolveParameters context (index + 1) rest below).quietly fun _ => .pure _

end

theorem accounts_resolveOptionalType :
    ∀ node : Option TypeNode, name ∉ optionalTypeNames node →
      Accounts name 0 (resolveOptionalType node)
  | none, _ => .pure none
  | some node, absent => (accounts_resolveType node absent).quietly fun id => .pure (some id)

theorem accounts_declareTypeParameters (nodes : List TypeParameterNode)
    (absent : name ∉ constraintNames nodes) : Accounts name 0 (declareTypeParameters nodes) := by
  refine (accounts_freshTypeParameters nodes).quietly fun ids => ?_
  refine (accounts_bindTypeParameterNames true _).quietly fun _ => ?_
  exact (accounts_resolveConstraints nodes ids absent).quietly fun _ => .pure ids

theorem accounts_buildObjectType (interfaceName : Option String)
    (members : List PropertySignature) (absent : name ∉ memberTypeNames members) :
    Accounts name 0 (buildObjectType interfaceName members) := by
  refine (accounts_resolveMembers [] members absent).quietly fun properties => ?_
  split
  · exact .pure _
  · exact accounts_fail _ _

theorem accounts_beginInterface (declaration : InterfaceDeclaration) :
    AccountsFor name (beginInterface declaration) fun begun found =>
      found = 0 ∧ ∀ pending ∈ begun, pending.declaration = declaration := by
  have entered : ∀ (c : Checker) (ids : List TypeId) (body declared : TypeId), AccountsFor name (do
      if c.scopes.isEmpty then
        modify fun checker =>
          { checker with
            declaredTypes := checker.declaredTypes.insert declaration.name declared }
      else bindType declaration.name declared
      return some (⟨declaration, body, ids, c.currentFile⟩ : PendingInterface))
        fun begun found => found = 0 ∧ ∀ pending ∈ begun, pending.declaration = declaration := by
    intro c ids body declared
    dsimp only
    split
    · refine .after (.modify ?_ fun _ => ⟨rfl, rfl, rfl⟩) fun _ => .pure ⟨rfl, by simp⟩
      exact fun _ unbound => unbound.congr rfl rfl rfl rfl
    · exact .after (accounts_bindType _ _) fun _ => .pure ⟨rfl, by simp⟩
  refine .after .get fun c => ?_
  refine .ite (.after (accounts_error _ _ (by decide)) fun _ => .pure ⟨rfl, by simp⟩) ?_
  refine .after (accounts_freshTypeParameters _) fun ids => ?_
  refine .after (accounts_addType _) fun body => ?_
  dsimp only
  split
  · exact .after (.pure body) fun declared => entered c ids body declared
  · exact .after (accounts_addType _) fun declared => entered c ids body declared

section Interfaces
variable {pending : PendingInterface}
  (absent : Undeclared name pending.declaration.occurrences)

include absent

theorem accounts_constrainInterface : Accounts name 0 (constrainInterface pending) := by
  have constraints : name ∉ constraintNames pending.declaration.typeParameters := by
    simp_all [InterfaceDeclaration.occurrences]
  refine accounts_pushEmpty.quietly fun _ => ?_
  refine (accounts_bindTypeParameterNames _ _).quietly fun _ => ?_
  exact (accounts_resolveConstraints _ _ constraints).quietly fun _ => accounts_popScope

theorem accounts_completeInterface : Accounts name 0 (completeInterface pending) := by
  have members : name ∉ memberTypeNames pending.declaration.members := by
    simp_all [InterfaceDeclaration.occurrences]
  refine accounts_pushEmpty.quietly fun _ => ?_
  refine (accounts_bindTypeParameterNames _ _).quietly fun _ => ?_
  refine (accounts_buildObjectType _ _ members).quietly fun o => ?_
  refine accounts_popScope.quietly fun _ => accounts_table.quietly fun t => ?_
  split
  · exact accounts_modifyTable _
  · exact accounts_fail _ _

end Interfaces

end StructuralTyping
