import StructuralTyping.Proofs.DeclaredLookups

/-! What is looked up while expressions and statements are checked. The types that are
passed on are those of entries: of what was checked before, of what the context expects,
and of what inference has found. -/
namespace StructuralTyping

open CheckM
open TypeTable

section Assignment
variable {c : Checker} (inside : c.Inside)

include inside

/-- The properties of an entry are entries. -/
theorem properties_known {id : TypeId} {o : ObjectType} (isObject : c.table.asObject? id = some o) :
    PropertiesKnown o.properties.pairs c := fun p member =>
  inside.table.property (kind_of_asObject? isObject) p.2 (List.mem_map_of_mem member)

omit inside in
theorem property_known {o : ObjectType} (known : PropertiesKnown o.properties.pairs c)
    {name : String} {p : Property} (found : o.property? name = some p) : p.type < c.table.size :=
  known (name, p) (Dictionary.mem_of_find? found)

theorem stays_reportMissing {source target : TypeId} (left : source < c.table.size)
    (right : target < c.table.size) (location : Location) (s : ObjectType)
    (expected : List (String × Property)) :
    StaysFrom c (reportMissing location source target s expected) Whatever := by
  induction expected generalizing c with
  | nil => exact .done inside
  | cons property rest ih =>
      refine .ite ?_ (ih inside left right)
      refine (inside.display left).bind fun _ c₁ one _ => ?_
      refine (one.inside.display (one.known right)).bind fun _ c₂ two _ => ?_
      refine (two.inside.error _ _ _).bind fun _ c₃ three _ => ?_
      have since := (one.trans two).trans three
      refine (ih three.inside (since.known left) (since.known right)).bind fun _ _ leads _ => ?_
      exact .done leads.inside

/-- Walking through two objects whose properties are entries. -/
def WalksFrom (c : Checker) (walk : ObjectType → ObjectType → CheckM Bool) : Prop :=
  ∀ (c' : Checker) (s t : ObjectType), c.Leads c' → PropertiesKnown s.properties.pairs c' →
    PropertiesKnown t.properties.pairs c' → StaysFrom c' (walk s t) Whatever

theorem stays_elaborateWith {walk : ObjectType → ObjectType → CheckM Bool}
    (walks : WalksFrom c walk) {source target : TypeId} (left : source < c.table.size)
    (right : target < c.table.size) (location : Location) (nestedOnly : Bool) :
    StaysFrom c (elaborateWith walk location source target nestedOnly) Whatever := by
  refine (inside.resolve left).bind fun s c₁ one leftBody => ?_
  refine (one.inside.resolve (one.known right)).bind fun t c₂ two rightBody => ?_
  have leftBody := two.known leftBody
  refine .readTable (fun u extended => ?_) ?_
  · rw [extended.asObject? leftBody, extended.asObject? rightBody]
  have since := one.trans two
  split
  · next given expected isSource isTarget =>
      have each := walks c₂ given expected since (properties_known two.inside isSource)
        (properties_known two.inside isTarget)
      refine each.bind fun _ c₃ three _ => .ite (.done three.inside) ?_
      have since := since.trans three
      refine (stays_reportMissing three.inside (since.known left) (since.known right) _ _ _).bind ?_
      exact fun _ _ leads _ => .done leads.inside
  · exact .done two.inside

omit inside

mutual

theorem stays_checkLiteralAssignment {source target : TypeId} (head : Message) :
    ∀ (literal : ObjectLiteral) {c : Checker}, c.Inside → source < c.table.size →
      target < c.table.size →
      StaysFrom c (checkLiteralAssignment source target head literal) Whatever
  | ⟨properties, location⟩, c, inside, left, right => by
      rw [checkLiteralAssignment]
      refine (inside.assignable left right true).bind fun verdict c₁ one founded => ?_
      have left := one.known left
      have right := one.known right
      have walks (nestedOnly : Bool) :
          WalksFrom c₁ fun s t => elaborateProperties nestedOnly s t properties :=
        fun c' s t leads given expected =>
          stays_elaborateProperties nestedOnly s t properties leads.inside given expected
      split
      · exact stays_elaborateWith one.inside (walks true) left right _ _
      · exact (one.inside.reportMismatch (founded _ rfl) _ _).bind fun _ _ leads _ =>
          .done leads.inside
      · next mismatch _ =>
          refine (stays_elaborateWith one.inside (walks false) left right _ _).bind ?_
          intro clean c₂ two _
          dsimp only
          split
          · have within : mismatch.Within c₂.table := two.each (founded _ rfl)
            exact (two.inside.reportMismatch within _ _).bind fun _ _ leads _ =>
              .done leads.inside
          · exact .done two.inside

theorem stays_elaborateProperties (nestedOnly : Bool) (s t : ObjectType) :
    ∀ (properties : List PropertyAssignment) {c : Checker}, c.Inside →
      PropertiesKnown s.properties.pairs c → PropertiesKnown t.properties.pairs c →
      StaysFrom c (elaborateProperties nestedOnly s t properties) Whatever
  | [], _, inside, _, _ => .done inside
  | ⟨name, initializer, location⟩ :: rest, c, inside, given, expected => by
      have others {c' : Checker} (leads : c.Leads c') (clean : Bool) : StaysFrom c' (do
          let restClean ← elaborateProperties nestedOnly s t rest
          return clean && restClean) Whatever :=
        (stays_elaborateProperties nestedOnly s t rest leads.inside
          (PropertiesKnown.leads given leads) (PropertiesKnown.leads expected leads)).bind
          fun _ _ later _ =>
            .done later.inside
      have kept (clean : Bool) : StaysFrom c (do
          let clean ← pure clean
          let restClean ← elaborateProperties nestedOnly s t rest
          return clean && restClean) Whatever :=
        (StaysFrom.done inside).bind fun _ _ leads _ => others leads _
      rw [elaborateProperties]
      dsimp only
      split
      · next p q isGiven isExpected =>
          have left := property_known given isGiven
          have right := property_known expected isExpected
          split
          · next nested =>
              exact (stays_checkLiteralAssignment .notAssignable nested inside left right).bind
                fun clean _ leads _ => others leads clean
          · split
            · exact kept true
            · refine (inside.assignable left right false).bind fun verdict c₁ one founded => ?_
              split
              · exact (StaysFrom.done one.inside).bind
                  fun _ _ leads _ => others (one.trans leads) _
              · next mismatch =>
                  refine (one.inside.reportMismatch (founded mismatch rfl) _ _).bind ?_
                  intro _ c₂ two _
                  exact (StaysFrom.done two.inside).bind
                    fun _ _ leads _ => others ((one.trans two).trans leads) _
      · exact kept true

end

include inside

theorem stays_checkAssignment (expression : Expression) {source target : TypeId}
    (left : source < c.table.size) (right : target < c.table.size) (location : Location)
    (head : Message) :
    StaysFrom c (checkAssignment expression source target location head) Whatever := by
  rw [checkAssignment]
  split
  · next literal _ => exact stays_checkLiteralAssignment head literal inside left right
  · refine (inside.assignable left right false).bind fun verdict c₁ one founded => ?_
    cases verdict with
    | ok => exact .done one.inside
    | error mismatch =>
        exact (one.inside.reportMismatch (founded mismatch rfl) _ _).bind fun _ _ leads _ =>
          .done leads.inside

end Assignment

/-- Asked for a declared function, the step looks inside and gives an entry. -/
def FunctionTypes.Stay (types : FunctionTypes) : Prop :=
  ∀ (c : Checker) (index : Nat), c.Inside → index < c.functions.size →
    StaysFrom c (types index) Known

/-- A signature whose parts are entries. -/
abbrev SignatureKnown (f : FunctionType) (c : Checker) : Prop := f.Within c.table

/-- Types that have been found for some of the arguments. -/
abbrev ArgumentsKnown (known : List (Option TypeId)) (c : Checker) : Prop :=
  ∀ declared ∈ known, OptionKnown declared c

/-- What is looked for and what has been found are entries. -/
structure InferenceKnown (i : Inference) (c : Checker) : Prop where
  typeParameters : AllKnown i.typeParameters c
  bindings : i.Within c.table

section Parts
variable {c c' : Checker}

theorem SignatureKnown.leads {f : FunctionType} (known : SignatureKnown f c)
    (leads : c.Leads c') : SignatureKnown f c' :=
  ⟨leads.each known.typeParameters, fun p member => leads.known (known.parameters p member),
    leads.known known.returnType⟩

theorem ArgumentsKnown.leads {types : List (Option TypeId)} (known : ArgumentsKnown types c)
    (leads : c.Leads c') : ArgumentsKnown types c' :=
  fun declared member => leads.optional (known declared member)

theorem InferenceKnown.leads {i : Inference} (known : InferenceKnown i c) (leads : c.Leads c') :
    InferenceKnown i c' :=
  ⟨leads.each known.typeParameters, leads.each known.bindings⟩

theorem findValue?_known (name : String) {size : Nat} (scopes : List Scope)
    (within : ∀ scope ∈ scopes, scope.Within size) : ∀ id ∈ findValue? name scopes, id < size := by
  induction scopes with
  | nil => exact nofun
  | cons scope outer ih =>
      obtain ⟨here, others⟩ := List.forall_mem_cons.mp within
      rw [findValue?]
      split
      · next id found =>
          rintro _ ⟨⟩
          exact here.values id (List.mem_map_of_mem (Dictionary.mem_of_find? found))
      · exact ih others

variable (inside : c.Inside)

include inside

theorem stays_unknown (location : Location) (message : Message) (arguments : List String) :
    StaysFrom c (do
      error location message arguments
      return TypeId.unknown) Known :=
  (inside.error _ _ _).bind fun _ _ leads _ => .entry leads.inside (leads.inside.basic (Nat.le_refl _))

theorem stays_checkIdentifier {types : FunctionTypes} (answers : types.Stay) (name : String)
    (location : Location) : StaysFrom c (checkIdentifier types name location) Known := by
  refine .read (.of_same fun _ => rfl) ?_
  have bound := findValue?_known name c.scopes inside.scopes
  split
  · next id found => exact .entry inside (bound id found)
  · split
    · next id found =>
        have symbol := inside.globals _ (List.mem_map_of_mem (Dictionary.mem_of_find? found))
        exact .entry inside symbol
    · next index found =>
        have symbol := inside.globals _ (List.mem_map_of_mem (Dictionary.mem_of_find? found))
        exact answers c index inside symbol
    · split
      · next id found =>
          refine .entry inside ?_
          split at found
          · simp at found
          · exact inside.hoisted id (List.mem_map_of_mem (Dictionary.mem_of_find? found))
      · exact .ite (.entry inside (inside.basic (by decide))) (stays_unknown inside _ _ _)

theorem stays_contextObject {context : Option TypeId} (known : OptionKnown context c) :
    StaysFrom c (contextObject context) fun o c' =>
      ∀ expected ∈ o, PropertiesKnown expected.properties.pairs c' := by
  cases context with
  | none => exact .pure inside nofun
  | some id =>
      refine (inside.resolve (known id rfl)).bind fun body c' leads entry => ?_
      refine .readTable (fun t extended => by rw [extended.asObject? entry]) ?_
      exact .pure leads.inside fun _ isObject => properties_known leads.inside isObject

theorem stays_contextFunction {context : Option TypeId} (known : OptionKnown context c) :
    StaysFrom c (contextFunction context) fun f c' =>
      ∀ expected ∈ f, ParametersKnown expected.parameters c' := by
  cases context with
  | none => exact .pure inside (by simp)
  | some id =>
      refine (inside.resolve (known id rfl)).bind fun body c' leads entry => ?_
      refine .readTable (fun t extended => by rw [extended.asFunction? entry]) ?_
      exact .pure leads.inside fun _ isFunction =>
        leads.inside.table.parameter (kind_of_asFunction? isFunction)

theorem stays_checkPropertyOf {object : TypeId} (known : object < c.table.size) (name : String)
    (location : Location) : StaysFrom c (checkPropertyOf object name location) Known := by
  refine (inside.resolve known).bind fun body c' leads entry => ?_
  refine .readTable (fun t extended => ?_) ?_
  · rw [extended.isWildcard entry, extended.asObject? entry]
  refine .ite (.entry leads.inside (leads.inside.basic (Nat.le_refl _))) ?_
  split
  · next p found =>
      obtain ⟨o, isObject, found⟩ := Option.bind_eq_some_iff.mp found
      exact .entry leads.inside (property_known (properties_known leads.inside isObject) found)
  · exact (leads.inside.display (leads.known known)).bind fun _ _ later _ =>
      stays_unknown later.inside _ _ _

omit inside in
theorem operatorResult_basic {t : TypeTable} {operator : BinaryOperator} {left right id : TypeId}
    (result : operatorResult t operator left right = some id) : id ≤ TypeId.unknown := by
  unfold operatorResult at result
  dsimp only at result
  repeat' split at result
  · exact Option.some.inj result ▸ by decide
  · exact Option.some.inj result ▸ by decide
  · exact Option.some.inj result ▸ by decide
  · simp at result

theorem stays_checkOperator (operator : BinaryOperator) {left right : TypeId}
    (one : left < c.table.size) (two : right < c.table.size) (location : Location) :
    StaysFrom c (checkOperator operator left right location) Known := by
  refine .readTable (fun t extended => ?_) ?_
  · rw [operatorResult, operatorResult]
    simp only [extended.isPrimitive one, extended.isPrimitive two, extended.isWildcard one,
      extended.isWildcard two]
  split
  · next id found => exact .entry inside (inside.basic (operatorResult_basic found))
  · refine (inside.display one).bind fun _ c₁ first _ => ?_
    exact (first.inside.display (first.known two)).bind fun _ _ later _ =>
      stays_unknown later.inside _ _ _

theorem stays_checkArgumentCount (signature : FunctionType) (count : Nat) (location : Location) :
    StaysFrom c (checkArgumentCount signature count location) Whatever :=
  .ite (inside.error _ _ _) (.done inside)

theorem stays_reportInferenceError {cause : InferenceError} (within : cause.Within c.table)
    (location : Location) : StaysFrom c (reportInferenceError location cause) Whatever := by
  cases cause with
  | inconsistent parameter first second =>
      obtain ⟨known, rest⟩ := List.forall_mem_cons.mp within
      obtain ⟨left, rest⟩ := List.forall_mem_cons.mp rest
      have right := rest second List.mem_cons_self
      refine (inside.display known).bind fun _ c₁ one _ => ?_
      refine (one.inside.display (one.known left)).bind fun _ c₂ two _ => ?_
      refine (two.inside.display (two.known (one.known right))).bind fun _ c₃ three _ => ?_
      exact three.inside.error _ _ _
  | typeArgumentCount expected found => exact inside.error _ _ _
  | notAFunction callee =>
      exact (inside.display (within callee List.mem_cons_self)).bind fun _ _ leads _ =>
        leads.inside.error _ _ _

theorem stays_reportOpen {parameter : TypeId} (known : parameter < c.table.size)
    (location : Location) : StaysFrom c (reportOpen location parameter) Whatever := by
  refine .read (.of_same fun b => ?_) ?_
  · have text : (c.followedBy b).table.text parameter = c.table.text parameter :=
      text_extends inside.table.toClosed (.followedBy _ b.entries) known
    rw [Checker.unresolvedReport?, Checker.unresolvedReport?, text]
    rfl
  · split
    · exact inside.report _
    · exact .done inside

theorem stays_reportUnresolved (parameters : List TypeId) (known : AllKnown parameters c)
    (location : Location) : StaysFrom c (reportUnresolved location parameters) Whatever := by
  induction parameters generalizing c with
  | nil => exact .done inside
  | cons parameter rest ih =>
      obtain ⟨here, later⟩ := List.forall_mem_cons.mp known
      rw [reportUnresolved_cons]
      exact (stays_reportOpen inside here location).bind fun _ _ leads _ =>
        ih leads.inside (leads.each later)

theorem stays_checkBindings {bindings : Bindings} (bound : ∀ b ∈ bindings.values, b < c.table.size)
    (location : Location) (parameters : List TypeId) (locations : List Location)
    (known : AllKnown parameters c) :
    StaysFrom c (checkBindings bindings location parameters locations) Whatever := by
  induction parameters generalizing c locations with
  | nil => exact .done inside
  | cons parameter rest ih =>
      obtain ⟨here, later⟩ := List.forall_mem_cons.mp known
      rw [checkBindings]
      dsimp only
      split
      · next argument found =>
          have given := bound argument (List.mem_map_of_mem (Dictionary.mem_of_find? found))
          exact (stays_checkConstraint inside here given bound _).bind fun _ _ leads _ =>
            ih leads.inside (leads.each bound) _ (leads.each later)
      · exact ih inside bound _ later

theorem stays_declareParameters (parameters : List (ParameterNode × Parameter))
    (known : ∀ p ∈ parameters, p.2.type < c.table.size) :
    StaysFrom c (declareParameters parameters) Whatever := by
  induction parameters generalizing c with
  | nil => exact .done inside
  | cons parameter rest ih =>
      obtain ⟨here, later⟩ := List.forall_mem_cons.mp known
      exact (inside.declareValue _ here _).bind fun _ _ leads _ =>
        ih leads.inside fun other member => leads.known (later other member)

/-- The statements are checked between entering and leaving the body. -/
theorem stays_checkBodyWith {statements : CheckM Unit} {declared : Option TypeId}
    (known : OptionKnown declared c)
    (body : ∀ c', c.Leads c' → StaysFrom c' statements Whatever) (location : Location) :
    StaysFrom c (checkBodyWith statements declared location) Known := by
  rw [checkBodyWith_eq]
  have entered := inside.withReturns (⟨declared, none, false⟩ :: c.returns)
    (List.forall_mem_cons.mpr ⟨⟨known, nofun⟩, inside.returns⟩)
  refine (StaysFrom.change (fun _ => rfl) (.of_eq entered rfl rfl rfl)).bind fun _ c₁ one _ => ?_
  refine (body c₁ one).bind fun _ c₂ two _ => ?_
  have since := one.trans two
  refine .read (.of_same fun _ => rfl) ?_
  have left := two.inside.withReturns c₂.returns.tail fun context member =>
    two.inside.returns context (List.mem_of_mem_tail member)
  have context : (c₂.returns.head?.getD ⟨declared, none, false⟩).Within c₂.table.size := by
    have within := two.inside.returns
    cases returns : c₂.returns with
    | nil => exact ⟨since.optional known, nofun⟩
    | cons context outer => exact within context (returns ▸ List.mem_cons_self)
  refine (StaysFrom.change (fun _ => rfl) (.of_eq left rfl rfl rfl)).bind fun _ c₃ three _ => ?_
  cases declared with
  | none =>
      refine .pure three.inside ?_
      cases inferred : (c₂.returns.head?.getD ⟨none, none, false⟩).inferred with
      | none => exact three.inside.basic (by decide)
      | some id => exact three.known (context.inferred id inferred)
  | some id =>
      have known := (since.trans three).known (known id rfl)
      refine .readTable (fun t extended => ?_) ?_
      · rw [mayOmitValue, mayOmitValue, extended.isWildcard known, extended.isPrimitive known,
          extended.isPrimitive known]
      dsimp only
      split
      · exact (three.inside.error _ _ _).bind fun _ _ leads _ =>
          .pure leads.inside (leads.known known)
      · exact .pure three.inside known

end Parts

section Calls

/-- What a pass of inference has come to are entries. -/
structure PassKnown (pass : InferencePass) (c : Checker) : Prop where
  inference : InferenceKnown pass.inference c
  known : ArgumentsKnown pass.known c

/-- Every way to go through the arguments looks inside. -/
structure ArgumentChecks.Stay (checks : ArgumentChecks) : Prop where
  infer {c : Checker} (sensitive : Bool) {parameters : List Parameter} {i : Inference}
      {known : List (Option TypeId)} : c.Inside → ParametersKnown parameters c →
    InferenceKnown i c → ArgumentsKnown known c →
      StaysFrom c (checks.infer sensitive parameters i known) PassKnown
  check {c : Checker} {parameters : List TypeId} {known : List (Option TypeId)} : c.Inside →
    AllKnown parameters c → ArgumentsKnown known c →
      StaysFrom c (checks.check parameters known) Whatever
  loose {c : Checker} {known : List (Option TypeId)} : c.Inside → ArgumentsKnown known c →
    StaysFrom c (checks.loose known) Whatever

theorem argumentsKnown_replicate (count : Nat) (c : Checker) :
    ArgumentsKnown (.replicate count none) c := fun declared member => by
  rw [List.eq_of_mem_replicate member]
  exact optionKnown_none c

variable {c : Checker} (inside : c.Inside) {checks : ArgumentChecks} (each : checks.Stay)

include inside

theorem stays_contextualType {i : Inference} (found : InferenceKnown i c) {pattern : TypeId}
    (known : pattern < c.table.size) : StaysFrom c (onTable (i.contextualType pattern)) Known := by
  refine inside.substitute known ?_
  refine List.foldlRecOn (motive := fun bindings : Bindings =>
    ∀ b ∈ bindings.values, b < c.table.size) i.typeParameters _ found.bindings
    fun bindings bound p _ => ?_
  split
  · exact bound
  · exact fun b member => (Dictionary.mem_values_insertIn member).elim
      (· ▸ inside.basic (Nat.le_refl _)) (bound b)

include each

theorem stays_looseCall {known : List (Option TypeId)} (given : ArgumentsKnown known c) :
    StaysFrom c (do
      checks.loose known
      return TypeId.unknown) Known :=
  (each.loose inside given).bind fun _ _ leads _ =>
    .entry leads.inside (leads.inside.basic (Nat.le_refl _))

theorem stays_checkInstantiatedCall {signature : FunctionType}
    (declared : AllKnown signature.typeParameters c) {instantiated : InstantiatedSignature}
    (within : instantiated.Within c.table) {known : List (Option TypeId)}
    (given : ArgumentsKnown known c) (typeArguments : List TypeNode) (location : Location) :
    StaysFrom c (checkInstantiatedCall checks signature instantiated known typeArguments location)
      Known := by
  refine (stays_reportUnresolved inside _ within.unresolved location).bind fun _ c₁ one _ => ?_
  refine (stays_checkBindings one.inside (one.each within.bindings) location _ _
    (one.each declared)).bind fun _ c₂ two _ => ?_
  have since := one.trans two
  refine (each.check two.inside (since.each within.parameters) (given.leads since)).bind ?_
  exact fun _ _ leads _ => .entry leads.inside ((since.trans leads).known within.returnType)

theorem stays_checkInferredCall {signature : FunctionType} (within : SignatureKnown signature c)
    {unknown : List (Option TypeId)} (given : ArgumentsKnown unknown c) (location : Location) :
    StaysFrom c (checkInferredCall checks signature unknown location) Known := by
  have resumed {c' : Checker} (leads : c.Leads c') {pass : InferencePass}
      (found : PassKnown pass c') : StaysFrom c' (do
      if pass.failed then
        checks.loose pass.known
        return TypeId.unknown
      else
        let instantiated ← onTable (pass.inference.finish.apply signature)
        checkInstantiatedCall checks signature instantiated pass.known [] location) Known := by
    refine .ite (stays_looseCall leads.inside each found.known) ?_
    have declared := found.inference.typeParameters
    have bound := Inference.within_finish found.inference.bindings leads.inside.table.unknown
    have applied := Instantiation.advances_apply queryInvariant_grounded leads.inside.table bound
      (fun p member => declared p (pass.inference.mem_of_unresolved p member)) (within.leads leads)
    refine (StaysFrom.onTable leads.inside applied).bind fun instantiated c'' later result => ?_
    exact stays_checkInstantiatedCall later.inside each
      ((leads.trans later).each within.typeParameters) result (found.known.leads later) [] location
  have nothing : InferenceKnown (.ofTypeParameters signature.typeParameters) c :=
    ⟨within.typeParameters, fun b member => nomatch member⟩
  refine (each.infer false inside within.parameters nothing given).bind fun first c₁ one found => ?_
  dsimp only
  split
  · exact (StaysFrom.pure one.inside found).bind fun _ _ leads found =>
      resumed (one.trans leads) found
  · refine (each.infer true one.inside (fun p member => one.known (within.parameters p member))
      found.inference found.known).bind fun _ _ leads found => resumed (one.trans leads) found

theorem stays_checkExplicitCall {callee : TypeId} (known : callee < c.table.size)
    {signature : FunctionType} (within : SignatureKnown signature c)
    {unknown : List (Option TypeId)} (given : ArgumentsKnown unknown c)
    (typeArguments : List TypeNode) (location : Location) :
    StaysFrom c (checkExplicitCall checks callee signature unknown typeArguments location) Known := by
  refine (stays_resolveTypes typeArguments inside).bind fun explicit c₁ one written => ?_
  have instantiated : TableM.Asks (instantiate callee [] (some explicit)) c₁.table _ :=
    advances_instantiate queryInvariant_grounded one.inside.table (one.known known)
      (List.forall_mem_nil _) fun ids same => Option.some.inj same ▸ written
  refine (StaysFrom.onTable one.inside instantiated).bind fun outcome c₂ two ⟨right, wrong⟩ => ?_
  have since := one.trans two
  cases outcome with
  | ok signature =>
      exact stays_checkInstantiatedCall two.inside each (since.each within.typeParameters)
        (right signature rfl) (given.leads since) _ _
  | error cause =>
      refine (stays_reportInferenceError two.inside (wrong cause rfl) _).bind fun _ c₃ three _ => ?_
      exact stays_looseCall three.inside each (given.leads (since.trans three))

theorem stays_checkCallOf {callee : TypeId} (known : callee < c.table.size)
    (typeArguments : List TypeNode) (count : Nat) (location : Location) :
    StaysFrom c (checkCallOf checks callee typeArguments count location) Known := by
  have given (c' : Checker) := argumentsKnown_replicate count c'
  refine (inside.resolve known).bind fun body c₁ one entry => ?_
  refine .readTable (fun t extended => ?_) ?_
  · rw [extended.isWildcard entry, extended.asFunction? entry]
  refine .ite (stays_looseCall one.inside each (given c₁)) ?_
  split
  · refine (one.inside.display (one.known known)).bind fun _ c₂ two _ => ?_
    refine (two.inside.error _ _ _).bind fun _ c₃ three _ => ?_
    exact stays_looseCall three.inside each (given c₃)
  · next signature isFunction =>
      have within : SignatureKnown signature c₁ :=
        one.inside.table.signature (kind_of_asFunction? isFunction)
      refine (stays_checkArgumentCount one.inside signature count location).bind ?_
      intro _ c₂ two _
      have within := within.leads two
      have checked {c₃ : Checker} (leads : c₂.Leads c₃) : StaysFrom c₃ (do
          checks.check (signature.parameters.map fun p => p.type) (.replicate count none)
          return signature.returnType) Known := by
        have parameters : AllKnown (signature.parameters.map fun p => p.type) c₃ :=
          List.forall_mem_map.mpr fun p member => leads.known (within.parameters p member)
        exact (each.check leads.inside parameters (given c₃)).bind fun _ _ later _ =>
          .entry later.inside ((leads.trans later).known within.returnType)
      split
      · split
        · exact stays_checkInferredCall two.inside each within (given c₂) location
        · exact stays_checkExplicitCall two.inside each (two.known entry) within (given c₂) _ _
      · split
        · exact (two.inside.error _ _ _).bind fun _ _ leads _ => checked leads
        · exact checked (.refl two.inside)

end Calls

section Trees
set_option linter.unusedSectionVars false

variable {types : FunctionTypes} (answers : types.Stay)

include answers

mutual

theorem stays_checkExpression : ∀ (expression : Expression) {context : Option TypeId} {c : Checker},
    c.Inside → OptionKnown context c → StaysFrom c (checkExpression types context expression) Known
  | .identifier name location, _, c, inside, _ => by
      rw [checkExpression]
      exact stays_checkIdentifier inside answers name location
  | .string _ _, _, c, inside, _ => by
      rw [checkExpression]
      exact .entry inside (inside.basic (by decide))
  | .number _ _, _, c, inside, _ => by
      rw [checkExpression]
      exact .entry inside (inside.basic (by decide))
  | .boolean _ _, _, c, inside, _ => by
      rw [checkExpression]
      exact .entry inside (inside.basic (by decide))
  | .object ⟨properties, _⟩, context, c, inside, known => by
      rw [checkExpression]
      refine (stays_contextObject inside known).bind fun expected c₁ one given => ?_
      refine (stays_checkProperties expected [] properties one.inside given).bind ?_
      exact fun _ _ leads found => stays_addObject leads.inside found
  | .call callee typeArguments arguments location, _, c, inside, _ => by
      rw [checkExpression]
      refine (stays_checkExpression callee inside (optionKnown_none c)).bind fun id c₁ one known => ?_
      refine stays_checkCallOf one.inside ⟨?_, ?_, ?_⟩ known typeArguments _ location
      · exact fun sensitive => stays_inferArguments sensitive arguments
      · exact fun inside parameters known => stays_checkArguments arguments inside parameters known
      · exact fun inside known => stays_checkLoose arguments inside known
  | .property object name location, _, c, inside, _ => by
      rw [checkExpression]
      exact (stays_checkExpression object inside (optionKnown_none c)).bind fun _ _ leads known =>
        stays_checkPropertyOf leads.inside known name location
  | .function node, _, c, inside, known => by
      rw [checkExpression]
      exact (stays_contextFunction inside known).bind fun _ _ leads expected =>
        stays_checkFunction node leads.inside expected
  | .binary operator left right location, _, c, inside, _ => by
      rw [checkExpression]
      refine (stays_checkExpression left inside (optionKnown_none c)).bind fun l c₁ one known => ?_
      refine (stays_checkExpression right one.inside (optionKnown_none c₁)).bind ?_
      exact fun r c₂ two other =>
        stays_checkOperator two.inside operator (two.known known) other location

theorem stays_checkProperties (context : Option ObjectType) (seen : List String) :
    ∀ (properties : List PropertyAssignment) {c : Checker}, c.Inside →
      (∀ o ∈ context, PropertiesKnown o.properties.pairs c) →
        StaysFrom c (checkProperties types context seen properties) PropertiesKnown
  | [], _, inside, _ => by
      rw [checkProperties]
      exact .pure inside (List.forall_mem_nil _)
  | ⟨name, initializer, location⟩ :: rest, c, inside, given => by
      have checked {c' : Checker} (leads : c.Leads c') : StaysFrom c' (do
          let expected := (context.bind fun o => o.property? name).map fun p => p.type
          let id ← checkExpression types expected initializer
          let properties ← checkProperties types context (name :: seen) rest
          return (name, (⟨id, false⟩ : Property)) :: properties) PropertiesKnown := by
        have expected : OptionKnown
            ((context.bind fun o => o.property? name).map fun p => p.type) c' := by
          intro id found
          obtain ⟨p, located, rfl⟩ := Option.map_eq_some_iff.mp found
          obtain ⟨o, present, located⟩ := Option.bind_eq_some_iff.mp located
          exact leads.known (property_known (given o present) located)
        refine (stays_checkExpression initializer leads.inside expected).bind ?_
        intro id c₁ one known
        have given : ∀ o ∈ context, PropertiesKnown o.properties.pairs c₁ := fun o present =>
          PropertiesKnown.leads (given o present) (leads.trans one)
        refine (stays_checkProperties context (name :: seen) rest one.inside given).bind ?_
        exact fun _ _ later others =>
          .pure later.inside (List.forall_mem_cons.mpr ⟨later.known known, others⟩)
      rw [checkProperties]
      split
      · have failed : StaysFrom c (fail (.duplicateProperty name) location : CheckM PUnit) Whatever :=
          .fail
        exact failed.bind fun _ _ leads _ => checked leads
      · exact checked (.refl inside)

theorem stays_inferArguments (sensitive : Bool) :
    ∀ (arguments : List Expression) {parameters : List Parameter} {i : Inference}
      {known : List (Option TypeId)} {c : Checker}, c.Inside → ParametersKnown parameters c →
      InferenceKnown i c → ArgumentsKnown known c →
        StaysFrom c (inferArguments types sensitive i arguments parameters known) PassKnown
  | [], _, _, _, _, inside, _, found, given => by
      rw [inferArguments]
      · exact .pure inside ⟨found, given⟩
      · simp
  | _ :: _, [], _, _, _, inside, _, found, given => by
      rw [inferArguments]
      · exact .pure inside ⟨found, given⟩
      · simp
  | _ :: _, _ :: _, _, [], _, inside, _, found, given => by
      rw [inferArguments]
      · exact .pure inside ⟨found, given⟩
      · simp
  | argument :: arguments, parameter :: parameters, i, known :: rest, c, inside, declared, found,
      given => by
      obtain ⟨here, later⟩ := List.forall_mem_cons.mp declared
      obtain ⟨before, others⟩ := List.forall_mem_cons.mp given
      rw [inferArguments]
      refine .ite ?_ ?_
      · refine (stays_inferArguments sensitive arguments inside later found others).bind ?_
        exact fun pass c₁ one came => .pure one.inside
          ⟨came.inference, List.forall_mem_cons.mpr ⟨one.optional before, came.known⟩⟩
      refine (stays_contextualType inside found here).bind fun context c₁ one expected => ?_
      refine (stays_checkExpression argument one.inside (optionKnown_some expected)).bind ?_
      intro id c₂ two entry
      have since := one.trans two
      have found := found.leads since
      have matched := Inference.advances_infer queryInvariant_grounded two.inside.table
        found.bindings (since.known here) entry
      refine (StaysFrom.onTable two.inside matched).bind ?_
      rintro ⟨outcome, i'⟩ c₃ three ⟨bound, continues, conflict⟩
      have entry := three.known entry
      have since := since.trans three
      have found : InferenceKnown i' c₃ :=
        ⟨continues.typeParameters ▸ three.each found.typeParameters, bound⟩
      have others : ArgumentsKnown rest c₃ := ArgumentsKnown.leads others since
      cases outcome with
      | error cause =>
          refine (stays_reportInferenceError three.inside (conflict cause rfl) _).bind ?_
          exact fun _ c₄ four _ => .pure four.inside ⟨found.leads four, List.forall_mem_cons.mpr
            ⟨optionKnown_some (four.known entry), others.leads four⟩⟩
      | ok =>
          have later : ParametersKnown parameters c₃ := ParametersKnown.leads later since
          refine (stays_inferArguments sensitive arguments three.inside later found others).bind ?_
          exact fun pass c₄ four came => .pure four.inside ⟨came.inference,
            List.forall_mem_cons.mpr ⟨optionKnown_some (four.known entry), came.known⟩⟩

theorem stays_checkArguments :
    ∀ (arguments : List Expression) {parameters : List TypeId} {known : List (Option TypeId)}
      {c : Checker}, c.Inside → AllKnown parameters c → ArgumentsKnown known c →
        StaysFrom c (checkArguments types arguments parameters known) Whatever
  | [], _, _, _, inside, _, _ => by
      rw [checkArguments]
      exact .done inside
  | argument :: arguments, parameters, known, c, inside, declared, given => by
      have expected : OptionKnown parameters.head? c := fun id first =>
        declared id (List.mem_of_head? first)
      have checked {c' : Checker} (leads : c.Leads c') {id : TypeId} (entry : id < c'.table.size) :
          StaysFrom c' (do
            match parameters.head? with
            | some target =>
                let _ ← checkAssignment argument id target argument.location .argumentNotAssignable
            | none => Pure.pure ()
            checkArguments types arguments parameters.tail known.tail) Whatever := by
        have others {c'' : Checker} (later : c.Leads c'') :
            StaysFrom c'' (checkArguments types arguments parameters.tail known.tail) Whatever :=
          stays_checkArguments arguments later.inside
            (fun id member => later.known (declared id (List.mem_of_mem_tail member)))
            fun other member => later.optional (given other (List.mem_of_mem_tail member))
        dsimp only
        split
        · next target first =>
            have right := leads.known (expected target first)
            exact (stays_checkAssignment leads.inside argument entry right _ _).bind
              fun _ _ later _ => others (leads.trans later)
        · exact others leads
      rw [checkArguments]
      cases found : known.head?.join with
      | some id =>
          have entry : id < c.table.size := by
            cases known with
            | nil => simp at found
            | cons first rest => exact given first List.mem_cons_self id (by simpa using found)
          exact (StaysFrom.entry inside entry).bind fun _ _ leads entry => checked leads entry
      | none =>
          exact (stays_checkExpression argument inside expected).bind fun _ _ leads entry =>
            checked leads entry

theorem stays_checkLoose :
    ∀ (arguments : List Expression) {known : List (Option TypeId)} {c : Checker}, c.Inside →
      ArgumentsKnown known c → StaysFrom c (checkLoose types arguments known) Whatever
  | [], _, _, inside, _ => by
      rw [checkLoose]
      exact .done inside
  | argument :: arguments, known, c, inside, given => by
      have others {c' : Checker} (leads : c.Leads c') :
          StaysFrom c' (checkLoose types arguments known.tail) Whatever :=
        stays_checkLoose arguments leads.inside fun other member =>
          leads.optional (given other (List.mem_of_mem_tail member))
      rw [checkLoose]
      split
      · exact (stays_checkExpression argument inside (optionKnown_none c)).bind
          fun _ _ leads _ => others leads
      · exact others (.refl inside)

theorem stays_checkFunction {context : Option FunctionType} :
    ∀ (node : FunctionNode) {c : Checker}, c.Inside →
      (∀ f ∈ context, ParametersKnown f.parameters c) →
        StaysFrom c (checkFunction types context node) Known
  | ⟨typeParameters, parameters, returnType, body, location⟩, c, inside, given => by
      rw [checkFunction]
      refine (inside.pushScope (.empty _)).bind fun _ c₁ one _ => ?_
      refine (stays_declareTypeParameters one.inside _).bind fun ids c₂ two known => ?_
      have given : ∀ f ∈ context, ParametersKnown f.parameters c₂ := fun f present =>
        ParametersKnown.leads (given f present) (one.trans two)
      refine (stays_resolveParameters context 0 parameters two.inside given).bind ?_
      intro resolved c₃ three entered
      refine (stays_declareParameters three.inside _ fun p member =>
        entered _ (List.of_mem_zip member).2).bind fun _ c₄ four _ => ?_
      refine (stays_resolveOptionalType four.inside _).bind fun declared c₅ five returned => ?_
      refine (stays_checkBodyWith five.inside returned (fun _ leads =>
        stays_checkStatements body leads.inside) location).bind fun result c₆ six entry => ?_
      refine six.inside.popScope.bind fun _ c₇ seven _ => ?_
      have since := (four.trans five).trans (six.trans seven)
      exact stays_addFunction seven.inside ((three.trans since).each known)
        (ParametersKnown.leads entered since) (seven.known entry)

theorem stays_checkVariable (name : String) {declared : Option TypeId} (location : Location) :
    ∀ (initializer : Option Expression) {c : Checker}, c.Inside → OptionKnown declared c →
      StaysFrom c (checkVariable types name declared location initializer) Whatever
  | none, c, inside, known => by
      rw [checkVariable]
      refine inside.declareVariable name ?_ location
      cases declared with
      | none => exact inside.basic (Nat.le_refl _)
      | some id => exact known id rfl
  | some initializer, c, inside, known => by
      rw [checkVariable]
      refine (stays_checkExpression initializer inside known).bind fun id c₁ one entry => ?_
      cases declared with
      | none => exact one.inside.declareVariable name entry location
      | some target =>
          have right := one.known (known target rfl)
          exact (stays_checkAssignment one.inside initializer entry right _ _).bind
            fun _ _ leads _ => leads.inside.declareVariable name (leads.known right) location

theorem stays_checkReturn (location : Location) :
    ∀ (expression : Option Expression) {c : Checker}, c.Inside →
      StaysFrom c (checkReturn types location expression) Whatever
  | none, c, inside => by
      rw [checkReturn]
      exact .read (.of_same fun _ => rfl) (.ite (inside.error _ _ _) (.done inside))
  | some expression, c, inside => by
      rw [checkReturn]
      refine .read (.of_same fun _ => rfl) ?_
      split
      · refine (inside.error _ _ _).bind fun _ c₁ one _ => ?_
        exact (stays_checkExpression expression one.inside (optionKnown_none c₁)).bind
          fun _ _ leads _ => .done leads.inside
      · next context outer returns =>
          have within := inside.returns context (returns ▸ List.mem_cons_self)
          have expected : OptionKnown (context.declared <|> context.inferred) c := by
            have written := within.declared
            cases declared : context.declared with
            | none => exact within.inferred
            | some id =>
                rw [declared] at written
                exact written
          refine (stays_checkExpression expression inside expected).bind fun id c₁ one entry => ?_
          dsimp only
          split
          · next target found =>
              have right := one.known (expected target found)
              exact (stays_checkAssignment one.inside expression entry right _ _).bind
                fun _ _ leads _ => leads.inside.noteReturn (leads.known entry)
          · exact one.inside.noteReturn entry

theorem stays_checkStatement : ∀ (statement : Statement) {c : Checker}, c.Inside →
    StaysFrom c (checkStatement types statement) Whatever
  | .interface declaration, c, inside => by
      rw [checkStatement]
      exact stays_declareInterface inside declaration
  | .function name node, c, inside => by
      rw [checkStatement]
      have unknown := inside.basic (Nat.le_refl TypeId.unknown)
      refine (inside.declareValue name unknown _).bind fun _ c₁ one _ => ?_
      have noContext : ∀ f ∈ (none : Option FunctionType), ParametersKnown f.parameters c₁ := nofun
      exact (stays_checkFunction node one.inside noContext).bind fun _ _ leads entry =>
        leads.inside.bindValue name entry
  | .variable name declaredType initializer location, c, inside => by
      rw [checkStatement]
      exact (stays_resolveOptionalType inside declaredType).bind fun _ _ leads known =>
        stays_checkVariable name location initializer leads.inside known
  | .expression expression _, c, inside => by
      rw [checkStatement]
      exact (stays_checkExpression expression inside (optionKnown_none c)).bind fun _ _ leads _ =>
        .done leads.inside
  | .returning expression location, c, inside => by
      rw [checkStatement]
      exact stays_checkReturn location expression inside

theorem stays_checkStatements : ∀ (statements : List Statement) {c : Checker}, c.Inside →
    StaysFrom c (checkStatements types statements) Whatever
  | [], _, inside => by
      rw [checkStatements]
      exact .done inside
  | statement :: rest, _, inside => by
      rw [checkStatements]
      exact (stays_checkStatement statement inside).bind fun _ _ leads _ =>
        stays_checkStatements rest leads.inside

end

end Trees

end StructuralTyping
