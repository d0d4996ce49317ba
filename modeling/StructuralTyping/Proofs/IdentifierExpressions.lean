import StructuralTyping.Checker.Expressions
import StructuralTyping.Proofs.IdentifierChecks

/-! An expression or a statement checks the identifiers in it, each once. The
arguments of a call are reached in several ways: by inference in one of two
passes, against the parameters, or against nothing. What the ways share is the
list of the arguments that have a type already, and each way checks exactly the
arguments that have none. -/
namespace StructuralTyping

open CheckM

variable {name : String}

section Assignment

theorem accounts_reportMissing (location : Location) (source target : TypeId) (s : ObjectType)
    (expected : List (String × Property)) :
    Accounts name 0 (reportMissing location source target s expected) := by
  induction expected with
  | nil => exact .pure true
  | cons property rest ih =>
      refine Accounts.ite ?_ ih
      refine (accounts_display _).quietly fun _ => (accounts_display _).quietly fun _ => ?_
      exact (accounts_error _ _ (by decide)).quietly fun _ => ih.quietly fun _ => .pure false

theorem accounts_elaborateWith {walk : ObjectType → ObjectType → CheckM Bool}
    (quiet : ∀ s t, Accounts name 0 (walk s t)) (location : Location) (source target : TypeId)
    (nestedOnly : Bool) :
    Accounts name 0 (elaborateWith walk location source target nestedOnly) := by
  refine (accounts_resolve _).quietly fun s => (accounts_resolve _).quietly fun t => ?_
  refine accounts_table.quietly fun table => ?_
  split
  · refine (quiet _ _).quietly fun clean => Accounts.ite (.pure _) ?_
    exact (accounts_reportMissing _ _ _ _ _).quietly fun complete => .pure _
  · exact .pure true

mutual

theorem accounts_checkLiteralAssignment (source target : TypeId) {head : Message}
    (other : head.code ≠ 2304) :
    ∀ literal : ObjectLiteral, Accounts name 0 (checkLiteralAssignment source target head literal)
  | ⟨properties, location⟩ => by
      rw [checkLiteralAssignment]
      refine (accounts_assignable _ _ _).quietly fun verdict => ?_
      have walks (nestedOnly : Bool) (s t : ObjectType) :=
        accounts_elaborateProperties nestedOnly s t properties
      split
      · exact accounts_elaborateWith (walks true) _ _ _ _
      · exact (accounts_reportMismatch _ _ other).quietly fun _ => .pure false
      · refine (accounts_elaborateWith (walks false) _ _ _ _).quietly fun clean => ?_
        dsimp only
        split
        · exact (accounts_reportMismatch _ _ other).quietly fun _ => .pure false
        · exact .pure false

theorem accounts_elaborateProperties (nestedOnly : Bool) (s t : ObjectType) :
    ∀ properties : List PropertyAssignment,
      Accounts name 0 (elaborateProperties nestedOnly s t properties)
  | [] => .pure true
  | ⟨property, initializer, location⟩ :: rest => by
      have others : ∀ clean : Bool, Accounts name 0 (do
          let restClean ← elaborateProperties nestedOnly s t rest
          return clean && restClean) := fun clean =>
        (accounts_elaborateProperties nestedOnly s t rest).quietly fun _ => .pure _
      rw [elaborateProperties]
      dsimp only
      split
      · split
        · exact (accounts_checkLiteralAssignment _ _ (by decide) _).quietly others
        · split
          · exact (Accounts.pure true).quietly others
          · refine (accounts_assignable _ _ _).quietly fun verdict => ?_
            split
            · exact (Accounts.pure true).quietly others
            · refine (accounts_reportMismatch _ _ (by decide)).quietly fun _ => ?_
              exact (Accounts.pure false).quietly others
      · exact (Accounts.pure true).quietly others

end

theorem accounts_checkAssignment (expression : Expression) (source target : TypeId)
    (location : Location) {head : Message} (other : head.code ≠ 2304) :
    Accounts name 0 (checkAssignment expression source target location head) := by
  rw [checkAssignment]
  split
  · exact accounts_checkLiteralAssignment _ _ other _
  · refine (accounts_assignable _ _ _).quietly fun verdict => ?_
    cases verdict with
    | ok => exact .pure true
    | error mismatch => exact (accounts_reportMismatch _ _ other).quietly fun _ => .pure false

end Assignment

section Parts
variable {types : FunctionTypes}

theorem findValue?_eq_none {scopes : List Scope}
    (absent : ∀ scope ∈ scopes, scope.values.find? name = none) :
    findValue? name scopes = none := by
  induction scopes with
  | nil => rfl
  | cons scope outer ih =>
      obtain ⟨here, below⟩ := List.forall_mem_cons.mp absent
      simp [findValue?, here, ih below]

/-- An identifier of the name is reported, and only that. -/
theorem accounts_checkIdentifier (quiet : ∀ index, Accounts name 0 (types index))
    (plain : name ≠ "undefined") (other : String) (location : Location) :
    Accounts name (if other = name then 1 else 0) (checkIdentifier types other location) := by
  refine .get_bind fun c unbound => ?_
  have report : Accounts name (if other = name then 1 else 0) (do
      error location .cannotFindName [other]
      return TypeId.unknown) := (accounts_missing location other).followed fun _ => .pure _
  by_cases same : other = name
  · subst same
    have unseen : (if c.returns.isEmpty then none else c.hoisted.find? other) = none := by
      split
      · rfl
      · exact unbound.hoisted
    simp only [findValue?_eq_none unbound.scopes, unbound.globals, unseen, if_neg plain]
    simpa using report c unbound
  · simp only [if_neg same] at report ⊢
    split
    · exact Accounts.pure _ c unbound
    · split
      · exact Accounts.pure _ c unbound
      · exact quiet _ c unbound
      · split
        · exact Accounts.pure _ c unbound
        · exact Accounts.ite (.pure _) report c unbound

theorem accounts_contextObject (context : Option TypeId) :
    Accounts name 0 (contextObject context) := by
  cases context with
  | none => exact .pure none
  | some id => exact (accounts_resolve id).quietly fun _ => accounts_table.quietly fun _ => .pure _

theorem accounts_contextFunction (context : Option TypeId) :
    Accounts name 0 (contextFunction context) := by
  cases context with
  | none => exact .pure none
  | some id => exact (accounts_resolve id).quietly fun _ => accounts_table.quietly fun _ => .pure _

theorem accounts_checkPropertyOf (object : TypeId) (property : String) (location : Location) :
    Accounts name 0 (checkPropertyOf object property location) := by
  refine (accounts_resolve object).quietly fun body => accounts_table.quietly fun t => ?_
  refine .ite (.pure _) ?_
  split
  · exact .pure _
  · refine (accounts_display _).quietly fun _ => ?_
    exact (accounts_error _ _ (by decide)).quietly fun _ => .pure _

theorem accounts_checkOperator (operator : BinaryOperator) (left right : TypeId)
    (location : Location) : Accounts name 0 (checkOperator operator left right location) := by
  refine accounts_table.quietly fun t => ?_
  split
  · exact .pure _
  · refine (accounts_display _).quietly fun _ => (accounts_display _).quietly fun _ => ?_
    exact (accounts_error _ _ (by decide)).quietly fun _ => .pure _

theorem accounts_checkArgumentCount (signature : FunctionType) (count : Nat)
    (location : Location) : Accounts name 0 (checkArgumentCount signature count location) :=
  .ite (accounts_error _ _ (by decide)) (.pure _)

theorem accounts_reportInferenceError (location : Location) (cause : InferenceError) :
    Accounts name 0 (reportInferenceError location cause) := by
  cases cause with
  | inconsistent parameter first second =>
      refine (accounts_display _).quietly fun _ => (accounts_display _).quietly fun _ => ?_
      exact (accounts_display _).quietly fun _ => accounts_error _ _ (by decide)
  | typeArgumentCount expected found => exact accounts_error _ _ (by decide)
  | notAFunction callee => exact (accounts_display _).quietly fun _ => accounts_error _ _ (by decide)

theorem accounts_reportUnresolved (location : Location) (parameters : List TypeId) :
    Accounts name 0 (reportUnresolved location parameters) := by
  induction parameters with
  | nil => exact .pure ()
  | cons parameter rest ih =>
      refine Accounts.get.quietly fun c => ?_
      split
      · next severity _ =>
          refine (accounts_display _).quietly fun shown => ?_
          have other : Message.unresolvedTypeParameter.code ≠ 2304 := by decide
          exact (accounts_report_of_code_ne _ other).quietly fun _ => ih
      · exact ih

theorem accounts_checkBindings (bindings : Bindings) (location : Location)
    (parameters : List TypeId) (locations : List Location) :
    Accounts name 0 (checkBindings bindings location parameters locations) := by
  induction parameters generalizing locations with
  | nil => exact .pure ()
  | cons parameter rest ih =>
      rw [checkBindings]
      dsimp only
      split
      · exact (accounts_checkConstraint _ _ _ _).quietly fun _ => ih _
      · exact ih _

theorem accounts_declareParameters (parameters : List (ParameterNode × Parameter))
    (absent : ∀ parameter ∈ parameters, name ≠ parameter.1.name) :
    Accounts name 0 (declareParameters parameters) := by
  induction parameters with
  | nil => exact .pure ()
  | cons parameter rest ih =>
      obtain ⟨here, below⟩ := List.forall_mem_cons.mp absent
      exact (accounts_declareValue _ _ here).quietly fun _ => ih below

theorem accounts_checkBodyWith {count : Nat} {statements : CheckM Unit}
    (accounts : Accounts name count statements) (declared : Option TypeId) (location : Location) :
    Accounts name count (checkBodyWith statements declared location) := by
  refine Accounts.quietly (.modify ?_ fun _ => ⟨rfl, rfl, rfl⟩) fun _ => ?_
  · exact fun _ unbound => unbound.congr rfl rfl rfl rfl
  refine accounts.followed fun _ => .get_bind fun c unbound => ?_
  refine AccountsFrom.quietly (.set (unbound.congr rfl rfl rfl rfl) ⟨rfl, rfl, rfl⟩) fun _ => ?_
  cases declared with
  | none => exact .pure _
  | some id =>
      refine accounts_table.quietly fun t => ?_
      dsimp only
      split
      · exact (accounts_error _ _ (by decide)).quietly fun _ => .pure _
      · exact .pure _

theorem accounts_declareVariable {other : String} (id : TypeId) (location : Location)
    (apart : name ≠ other) : Accounts name 0 (declareVariable other id location) :=
  Accounts.get.quietly fun _ =>
    .ite (accounts_error _ _ (by decide)) (accounts_declareValue id location apart)

theorem accounts_noteReturn (id : TypeId) : Accounts name 0 (noteReturn id) := by
  refine .modify (fun c unbound => unbound.congr ?_ ?_ ?_ ?_) fun c => ⟨?_, ?_, ?_⟩
  all_goals cases c.returns <;> rfl

end Parts

section Calls

/-- The identifiers of the name in the arguments that have no type yet. -/
def remaining (name : String) : List Expression → List (Option TypeId) → Nat
  | [], _ => 0
  | argument :: arguments, known =>
      (if known.head?.join.isNone then identifierCount name argument.occurrences else 0) +
        remaining name arguments known.tail

@[simp] theorem remaining_none (argument : Expression) (arguments : List Expression)
    (known : List (Option TypeId)) :
    remaining name (argument :: arguments) (none :: known) =
      identifierCount name argument.occurrences + remaining name arguments known := by
  simp [remaining]

@[simp] theorem remaining_some (argument : Expression) (arguments : List Expression) (id : TypeId)
    (known : List (Option TypeId)) :
    remaining name (argument :: arguments) (some id :: known) =
      remaining name arguments known := by
  simp [remaining]

/-- The arguments that one pass of inference is about have no types yet. -/
def Untyped (sensitive : Bool) : List Expression → List (Option TypeId) → Prop
  | argument :: arguments, known :: rest =>
      (argument.isContextSensitive = sensitive → known = none) ∧ Untyped sensitive arguments rest
  | _, _ => True

/-- What a pass of inference leaves to be checked is what was there less what it
checked itself, and it keeps to its own arguments. -/
def PassAccounts (name : String) (sensitive : Bool) (arguments : List Expression)
    (known : List (Option TypeId)) (pass : InferencePass) (count : Nat) : Prop :=
  count + remaining name arguments pass.known = remaining name arguments known ∧
    (Untyped (!sensitive) arguments known → Untyped (!sensitive) arguments pass.known)

theorem untyped_replicate (sensitive : Bool) (arguments : List Expression) (count : Nat) :
    Untyped sensitive arguments (List.replicate count none) := by
  induction arguments generalizing count with
  | nil => trivial
  | cons argument arguments ih =>
      cases count with
      | zero => trivial
      | succ count => exact ⟨fun _ => rfl, ih count⟩

theorem remaining_replicate (arguments : List Expression) (count : Nat) :
    remaining name arguments (List.replicate count none) =
      identifierCount name (argumentOccurrences arguments) := by
  induction arguments generalizing count with
  | nil => rfl
  | cons argument arguments ih =>
      cases count with
      | zero => simpa [remaining, argumentOccurrences] using ih 0
      | succ count => simpa [remaining, argumentOccurrences, List.replicate_succ] using ih count

/-- Each way to go through the arguments checks those without a type. -/
structure ArgumentChecks.Accounts (name : String) (arguments : List Expression)
    (checks : ArgumentChecks) : Prop where
  infer : ∀ sensitive parameters inference known, Untyped sensitive arguments known →
    AccountsFor name (checks.infer sensitive parameters inference known)
      (PassAccounts name sensitive arguments known)
  check : ∀ parameters known,
    StructuralTyping.Accounts name (remaining name arguments known) (checks.check parameters known)
  loose : ∀ known,
    StructuralTyping.Accounts name (remaining name arguments known) (checks.loose known)

variable {arguments : List Expression} {checks : ArgumentChecks}
  (accounts : checks.Accounts name arguments)

include accounts

theorem accounts_checkInstantiatedCall (signature : FunctionType)
    (instantiated : InstantiatedSignature) (known : List (Option TypeId))
    (typeArguments : List TypeNode) (location : Location) :
    Accounts name (remaining name arguments known)
      (checkInstantiatedCall checks signature instantiated known typeArguments location) := by
  refine (accounts_reportUnresolved _ _).quietly fun _ => ?_
  refine (accounts_checkBindings _ _ _ _).quietly fun _ => ?_
  exact (accounts.check _ _).followed fun _ => .pure _

theorem accounts_checkInferredCall (signature : FunctionType) (count : Nat)
    (location : Location) :
    Accounts name (identifierCount name (argumentOccurrences arguments))
      (checkInferredCall checks signature (.replicate count none) location) := by
  rw [← remaining_replicate arguments count]
  have untyped (sensitive : Bool) := untyped_replicate sensitive arguments count
  refine AccountsFor.bind (accounts.infer false _ _ _ (untyped false)) ?_
  rintro first found ⟨left, kept⟩
  have resumed : ∀ pass : InferencePass, Accounts name (remaining name arguments pass.known) (do
      if pass.failed then
        checks.loose pass.known
        return TypeId.unknown
      else
        let instantiated ← onTable (pass.inference.finish.apply signature)
        checkInstantiatedCall checks signature instantiated pass.known [] location) := by
    intro pass
    refine .ite ((accounts.loose _).followed fun _ => .pure _) ?_
    exact (accounts_onTable _).quietly fun _ => accounts_checkInstantiatedCall accounts _ _ _ _ _
  dsimp only
  split
  · exact (resumed first).weaken fun _ rest equal => by rw [equal, left]
  · refine AccountsFor.bind (accounts.infer true _ _ _ (kept (untyped true))) ?_
    rintro pass more ⟨leftOver, -⟩
    exact (resumed pass).weaken fun _ rest equal => by omega

theorem accounts_checkExplicitCall (callee : TypeId) (signature : FunctionType)
    (unknown : List (Option TypeId)) (typeArguments : List TypeNode)
    (absent : name ∉ typeNames typeArguments) (location : Location) :
    Accounts name (remaining name arguments unknown)
      (checkExplicitCall checks callee signature unknown typeArguments location) := by
  refine (accounts_resolveTypes typeArguments absent).quietly fun explicit => ?_
  refine (accounts_onTable _).quietly fun outcome => ?_
  cases outcome with
  | ok instantiated => exact accounts_checkInstantiatedCall accounts _ _ _ _ _
  | error cause =>
      refine (accounts_reportInferenceError _ _).quietly fun _ => ?_
      exact (accounts.loose unknown).followed fun _ => .pure _

/-- Whatever the callee turns out to be, every argument is checked. -/
theorem accounts_checkCallOf (callee : TypeId) (typeArguments : List TypeNode)
    (absent : name ∉ typeNames typeArguments) (count : Nat) (location : Location) :
    Accounts name (identifierCount name (argumentOccurrences arguments))
      (checkCallOf checks callee typeArguments count location) := by
  have unchecked := @remaining_replicate name arguments count
  refine (accounts_resolve callee).quietly fun body => accounts_table.quietly fun t => ?_
  dsimp only
  split
  · exact unchecked ▸ (accounts.loose _).followed fun _ => .pure _
  · split
    · refine (accounts_display _).quietly fun _ => ?_
      refine (accounts_error _ _ (by decide)).quietly fun _ => ?_
      exact unchecked ▸ (accounts.loose _).followed fun _ => .pure _
    · next signature _ =>
        refine (accounts_checkArgumentCount _ _ _).quietly fun _ => ?_
        split
        · split
          · exact accounts_checkInferredCall accounts signature count location
          · exact unchecked ▸ accounts_checkExplicitCall accounts _ _ _ _ absent _
        · have checked : Accounts name (identifierCount name (argumentOccurrences arguments)) (do
              checks.check (signature.parameters.map fun p => p.type) (.replicate count none)
              return signature.returnType) :=
            unchecked ▸ (accounts.check _ _).followed fun _ => .pure _
          split
          · exact (accounts_error _ _ (by decide)).quietly fun _ => checked
          · exact checked

end Calls

section Trees
set_option linter.unusedSectionVars false

/-- A signature without the name has it in no constraint, no parameter and no
return type. -/
theorem undeclared_signature {typeParameters : List TypeParameterNode}
    {parameters : List ParameterNode} {returnType : Option TypeNode}
    (absent : Undeclared name (signatureOccurrences typeParameters parameters returnType)) :
    name ∉ constraintNames typeParameters ∧ name ∉ parameterTypeNames parameters ∧
      name ∉ optionalTypeNames returnType ∧ ∀ parameter ∈ parameters, name ≠ parameter.name := by
  obtain ⟨inTypes, inValues⟩ := (Undeclared.append_iff _ _).mp absent
  obtain ⟨constraints, inside, result⟩ :
      name ∉ constraintNames typeParameters ∧ name ∉ parameterTypeNames parameters ∧
        name ∉ optionalTypeNames returnType := by
    simpa using inTypes
  refine ⟨constraints, inside, result, ?_⟩
  rintro parameter member rfl
  exact inValues.value (List.mem_map_of_mem member)

variable {types : FunctionTypes} (quiet : ∀ index, Accounts name 0 (types index))
  (plain : name ≠ "undefined")

include quiet plain

mutual

theorem accounts_checkExpression (context : Option TypeId) :
    ∀ expression : Expression, Undeclared name expression.occurrences →
      Accounts name (identifierCount name expression.occurrences)
        (checkExpression types context expression)
  | .identifier other location, _ => by
      have count : identifierCount name (Expression.identifier other location).occurrences =
          if other = name then 1 else 0 := by
        by_cases same : other = name <;> simp [Expression.occurrences, identifierCount, same]
      rw [checkExpression, count]
      exact accounts_checkIdentifier quiet plain other location
  | .string _ _, _ => .pure _
  | .number _ _, _ => .pure _
  | .boolean _ _, _ => .pure _
  | .object ⟨properties, _⟩, absent => by
      rw [checkExpression]
      refine (accounts_contextObject _).quietly fun expected => ?_
      exact (accounts_checkProperties expected [] properties absent).followed fun _ =>
        accounts_addType _
  | .call callee typeArguments arguments location, absent => by
      obtain ⟨inCallee, inTypes, inArguments⟩ : Undeclared name callee.occurrences ∧
          name ∉ typeNames typeArguments ∧ Undeclared name (argumentOccurrences arguments) := by
        simpa [Expression.occurrences] using absent
      have count : identifierCount name
          (Expression.call callee typeArguments arguments location).occurrences =
          identifierCount name callee.occurrences +
            identifierCount name (argumentOccurrences arguments) := by
        simp [Expression.occurrences]
      rw [checkExpression, count]
      refine (accounts_checkExpression none callee inCallee).bind fun id => ?_
      refine accounts_checkCallOf ⟨?_, ?_, ?_⟩ id typeArguments inTypes _ _
      · exact fun sensitive parameters inference known untyped =>
          accounts_inferArguments sensitive inference arguments parameters known inArguments untyped
      · exact fun parameters known => accounts_checkArguments arguments parameters known inArguments
      · exact fun known => accounts_checkLoose arguments known inArguments
  | .property object property location, absent => by
      rw [checkExpression]
      exact (accounts_checkExpression none object absent).followed fun id =>
        accounts_checkPropertyOf id property location
  | .function node, absent => by
      rw [checkExpression]
      exact (accounts_contextFunction _).quietly fun expected =>
        accounts_checkFunction expected node absent
  | .binary operator left right location, absent => by
      obtain ⟨inLeft, inRight⟩ : Undeclared name left.occurrences ∧
          Undeclared name right.occurrences := by
        simpa [Expression.occurrences] using absent
      rw [checkExpression, Expression.occurrences, identifierCount_append]
      refine (accounts_checkExpression none left inLeft).bind fun l => ?_
      exact (accounts_checkExpression none right inRight).followed fun r =>
        accounts_checkOperator operator l r location

theorem accounts_checkProperties (context : Option ObjectType) (seen : List String) :
    ∀ properties : List PropertyAssignment, Undeclared name (propertyOccurrences properties) →
      Accounts name (identifierCount name (propertyOccurrences properties))
        (checkProperties types context seen properties)
  | [], _ => .pure _
  | ⟨property, initializer, location⟩ :: rest, absent => by
      obtain ⟨here, below⟩ : Undeclared name initializer.occurrences ∧
          Undeclared name (propertyOccurrences rest) := by
        simpa [propertyOccurrences] using absent
      rw [checkProperties, propertyOccurrences, identifierCount_append]
      have checked : Accounts name (identifierCount name initializer.occurrences +
          identifierCount name (propertyOccurrences rest)) (do
            let expected := (context.bind fun o => o.property? property).map fun p => p.type
            let id ← checkExpression types expected initializer
            let properties ← checkProperties types context (property :: seen) rest
            return (property, (⟨id, false⟩ : Property)) :: properties) := by
        refine (accounts_checkExpression _ initializer here).bind fun id => ?_
        exact (accounts_checkProperties context (property :: seen) rest below).followed fun _ =>
          .pure _
      split
      · exact (accounts_fail _ _).quietly fun _ => checked
      · exact checked

theorem accounts_inferArguments (sensitive : Bool) (inference : Inference) :
    ∀ (arguments : List Expression) (parameters : List Parameter) (known : List (Option TypeId)),
      Undeclared name (argumentOccurrences arguments) → Untyped sensitive arguments known →
      AccountsFor name (inferArguments types sensitive inference arguments parameters known)
        (PassAccounts name sensitive arguments known)
  | [], _, _, _, _ => by
      rw [inferArguments]
      · exact .pure ⟨Nat.zero_add _, id⟩
      · simp
  | _ :: _, [], _, _, _ => by
      rw [inferArguments]
      · exact .pure ⟨Nat.zero_add _, id⟩
      · simp
  | _ :: _, _ :: _, [], _, _ => by
      rw [inferArguments]
      · exact .pure ⟨Nat.zero_add _, id⟩
      · simp
  | argument :: arguments, parameter :: parameters, known :: rest, absent, untyped => by
      obtain ⟨here, below⟩ : Undeclared name argument.occurrences ∧
          Undeclared name (argumentOccurrences arguments) := by
        simpa [argumentOccurrences] using absent
      obtain ⟨ours, untyped⟩ := untyped
      rw [inferArguments]
      dsimp only
      split
      · next others =>
          refine (accounts_inferArguments sensitive inference arguments parameters rest below
            untyped).bind fun pass count ⟨left, kept⟩ => .pure ⟨?_, ?_⟩
          · cases known with
            | none => rw [remaining_none, remaining_none]; omega
            | some id => rw [remaining_some, remaining_some]; omega
          · exact fun ⟨first, later⟩ => ⟨first, kept later⟩
      · next same =>
          have sensitivity : argument.isContextSensitive = sensitive := by simpa using same
          obtain rfl := ours sensitivity
          have apart : ¬ argument.isContextSensitive = !sensitive := by simp [sensitivity]
          refine .after (accounts_onTable _) fun context => ?_
          refine AccountsFor.bind (accounts_checkExpression _ argument here) ?_
          rintro id _ rfl
          refine .after (accounts_onTable _) ?_
          rintro ⟨outcome, after⟩
          cases outcome with
          | error cause =>
              refine .after (accounts_reportInferenceError _ _) fun _ => .pure ⟨?_, ?_⟩
              · rw [remaining_some, remaining_none]; omega
              · exact fun ⟨_, later⟩ => ⟨fun theirs => absurd theirs apart, later⟩
          | ok =>
              refine (accounts_inferArguments sensitive after arguments parameters rest below
                untyped).bind fun pass count ⟨left, kept⟩ => .pure ⟨?_, ?_⟩
              · rw [remaining_some, remaining_none]; omega
              · exact fun ⟨_, later⟩ => ⟨fun theirs => absurd theirs apart, kept later⟩

theorem accounts_checkArguments :
    ∀ (arguments : List Expression) (parameters : List TypeId) (known : List (Option TypeId)),
      Undeclared name (argumentOccurrences arguments) →
      Accounts name (remaining name arguments known)
        (checkArguments types arguments parameters known)
  | [], _, _, _ => .pure _
  | argument :: arguments, parameters, known, absent => by
      obtain ⟨here, below⟩ : Undeclared name argument.occurrences ∧
          Undeclared name (argumentOccurrences arguments) := by
        simpa [argumentOccurrences] using absent
      have checked : ∀ id : TypeId, Accounts name (remaining name arguments known.tail) (do
          match parameters.head? with
          | some target =>
              let _ ← checkAssignment argument id target argument.location .argumentNotAssignable
          | none => pure ()
          checkArguments types arguments parameters.tail known.tail) := by
        intro id
        dsimp only
        split
        · exact (accounts_checkAssignment _ _ _ _ (by decide)).quietly fun _ =>
            accounts_checkArguments arguments _ _ below
        · exact accounts_checkArguments arguments _ _ below
      rw [checkArguments, remaining]
      cases known.head?.join with
      | some id =>
          rw [Option.isNone_some, if_neg Bool.false_ne_true, Nat.zero_add]
          exact checked id
      | none =>
          rw [Option.isNone_none, if_pos rfl]
          exact (accounts_checkExpression _ argument here).bind checked

theorem accounts_checkLoose :
    ∀ (arguments : List Expression) (known : List (Option TypeId)),
      Undeclared name (argumentOccurrences arguments) →
      Accounts name (remaining name arguments known) (checkLoose types arguments known)
  | [], _, _ => .pure _
  | argument :: arguments, known, absent => by
      obtain ⟨here, below⟩ : Undeclared name argument.occurrences ∧
          Undeclared name (argumentOccurrences arguments) := by
        simpa [argumentOccurrences] using absent
      rw [checkLoose, remaining]
      split
      · exact (accounts_checkExpression none argument here).bind fun _ =>
          accounts_checkLoose arguments _ below
      · rw [Nat.zero_add]
        exact accounts_checkLoose arguments _ below

theorem accounts_checkFunction (context : Option FunctionType) :
    ∀ node : FunctionNode, Undeclared name node.occurrences →
      Accounts name (identifierCount name node.occurrences) (checkFunction types context node)
  | ⟨typeParameters, parameters, returnType, body, location⟩, absent => by
      obtain ⟨signature, inBody⟩ := (Undeclared.append_iff _ _).mp absent
      obtain ⟨constraints, inside, result, declared⟩ := undeclared_signature signature
      rw [checkFunction, FunctionNode.occurrences, identifierCount_append,
        identifierCount_signature, Nat.zero_add]
      refine accounts_pushEmpty.quietly fun _ => ?_
      refine (accounts_declareTypeParameters typeParameters constraints).quietly fun ids => ?_
      refine (accounts_resolveParameters context 0 parameters inside).quietly fun resolved => ?_
      refine (accounts_declareParameters _ ?_).quietly fun _ => ?_
      · exact fun parameter member => declared _ (List.of_mem_zip member).1
      refine (accounts_resolveOptionalType returnType result).quietly fun declaredReturn => ?_
      refine (accounts_checkBodyWith (accounts_checkStatements body inBody) _ _).followed fun _ => ?_
      exact accounts_popScope.quietly fun _ => accounts_addType _

theorem accounts_checkVariable {other : String} (declaredType : Option TypeNode)
    (declared : Option TypeId) (location : Location) :
    ∀ initializer : Option Expression,
      Undeclared name (Statement.variable other declaredType initializer location).occurrences →
      Accounts name
        (identifierCount name
          (Statement.variable other declaredType initializer location).occurrences)
        (checkVariable types other declared location initializer)
  | none, absent => by
      obtain ⟨apart, -⟩ := (Undeclared.cons_declaration_iff _ _).mp absent
      simp only [Statement.occurrences, identifierCount_cons_declaration,
        identifierCount_asTypeNames]
      exact accounts_declareVariable _ _ apart
  | some initializer, absent => by
      obtain ⟨apart, absent⟩ := (Undeclared.cons_declaration_iff _ _).mp absent
      obtain ⟨-, inside⟩ := (Undeclared.append_iff _ _).mp absent
      simp only [Statement.occurrences, identifierCount_cons_declaration, identifierCount_append,
        identifierCount_asTypeNames, Nat.zero_add]
      rw [checkVariable]
      refine (accounts_checkExpression declared initializer inside).followed fun id => ?_
      cases declared with
      | none => exact accounts_declareVariable _ _ apart
      | some target =>
          exact (accounts_checkAssignment _ _ _ _ (by decide)).quietly fun _ =>
            accounts_declareVariable _ _ apart

theorem accounts_checkReturn (location : Location) :
    ∀ expression : Option Expression,
      Undeclared name (Statement.returning expression location).occurrences →
      Accounts name (identifierCount name (Statement.returning expression location).occurrences)
        (checkReturn types location expression)
  | none, _ => by
      rw [checkReturn]
      exact Accounts.get.quietly fun c => .ite (accounts_error _ _ (by decide)) (.pure ())
  | some expression, absent => by
      rw [checkReturn]
      refine Accounts.get.quietly fun c => ?_
      split
      · refine (accounts_error _ _ (by decide)).quietly fun _ => ?_
        exact (accounts_checkExpression none expression absent).followed fun _ => .pure _
      · refine (accounts_checkExpression _ expression absent).followed fun id => ?_
        dsimp only
        split
        · exact (accounts_checkAssignment _ _ _ _ (by decide)).quietly fun _ =>
            accounts_noteReturn id
        · exact accounts_noteReturn id

theorem accounts_checkStatement :
    ∀ statement : Statement, Undeclared name statement.occurrences →
      Accounts name (identifierCount name statement.occurrences) (checkStatement types statement)
  | .interface declaration, absent => by
      have count : identifierCount name (Statement.interface declaration).occurrences = 0 :=
        identifierCount_asTypeNames _ _
      rw [checkStatement, count]
      refine AccountsFor.bind (accounts_beginInterface declaration) ?_
      rintro begun _ ⟨rfl, ours⟩
      cases begun with
      | none => exact .pure rfl
      | some pending =>
          have inside : Undeclared name pending.declaration.occurrences :=
            ours pending rfl ▸ absent
          refine .after (accounts_constrainInterface inside) fun _ => ?_
          exact (accounts_completeInterface inside).weaken fun _ found equal => by rw [equal]
  | .function other node, absent => by
      obtain ⟨apart, inside⟩ := (Undeclared.cons_declaration_iff _ _).mp absent
      rw [checkStatement, Statement.occurrences, identifierCount_cons_declaration]
      refine (accounts_declareValue _ _ apart).quietly fun _ => ?_
      exact (accounts_checkFunction none node inside).followed fun id => accounts_bindValue id apart
  | .variable other declaredType initializer location, absent => by
      have inType : name ∉ optionalTypeNames declaredType := by
        cases initializer <;> simp_all [Statement.occurrences]
      rw [checkStatement]
      exact (accounts_resolveOptionalType declaredType inType).quietly fun declared =>
        accounts_checkVariable declaredType declared location initializer absent
  | .expression expression _, absent => by
      rw [checkStatement]
      exact (accounts_checkExpression none expression absent).followed fun _ => .pure ()
  | .returning expression location, absent => by
      rw [checkStatement]
      exact accounts_checkReturn location expression absent

theorem accounts_checkStatements :
    ∀ statements : List Statement, Undeclared name (statementOccurrences statements) →
      Accounts name (identifierCount name (statementOccurrences statements))
        (checkStatements types statements)
  | [], _ => .pure _
  | statement :: rest, absent => by
      obtain ⟨here, below⟩ := (Undeclared.append_iff _ _).mp absent
      rw [checkStatements, statementOccurrences, identifierCount_append]
      exact (accounts_checkStatement statement here).bind fun _ =>
        accounts_checkStatements rest below

end

end Trees

end StructuralTyping
