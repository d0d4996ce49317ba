import StructuralTyping.Checker.Declaring
import StructuralTyping.Proofs.CheckerLookups

/-! What is looked up while written types become entries. Type parameters and reserved
bodies are set in place, and the entries that are set are those made for them before. -/
namespace StructuralTyping

open CheckM
open TypeTable

section Constraints
variable {c : Checker} (inside : c.Inside)

include inside

theorem stays_reportUnsatisfied {check : DeferredConstraint} (within : check.Within c.table.size) :
    StaysFrom c (reportUnsatisfied check) Whatever := by
  have wellFormed := inside.table.toWellFormed
  refine .readTable (fun t extended => ?_) ?_
  · rw [constraint?, constraint?, extended.kind _ within.parameter]
  cases constrained : c.table.constraint? check.parameter with
  | none => exact .done inside
  | some bound =>
      have known : bound < c.table.size := by
        unfold constraint? at constrained
        split at constrained
        · next name constraint entry => exact wellFormed.constraint (constrained ▸ entry)
        · simp at constrained
      refine (inside.substitute known within.bindings).bind fun target c' leads here => ?_
      have argument := leads.known within.argument
      refine (leads.inside.assignable argument here false).bind fun verdict c'' later _ => ?_
      cases verdict with
      | ok => exact .done later.inside
      | error =>
          refine (later.inside.display (later.known argument)).bind fun _ c₃ more _ => ?_
          refine (more.inside.display (more.known (later.known here))).bind fun _ c₄ last _ => ?_
          exact last.inside.error _ _ _

theorem stays_checkConstraint {parameter argument : TypeId} {bindings : Bindings}
    (known : parameter < c.table.size) (given : argument < c.table.size)
    (bound : ∀ b ∈ bindings.values, b < c.table.size) (location : Location) :
    StaysFrom c (checkConstraint parameter argument bindings location) Whatever := by
  rw [checkConstraint_eq]
  refine .read (.of_same fun _ => rfl) ?_
  have within : DeferredConstraint.Within
      ⟨parameter, argument, bindings, location, c.currentFile⟩ c.table.size :=
    ⟨known, given, bound⟩
  refine .ite ?_ (stays_reportUnsatisfied inside within)
  have held : ({ c with deferred := c.deferred ++
      [⟨parameter, argument, bindings, location, c.currentFile⟩] } : Checker).Inside :=
    { inside with
      deferred :=
        List.forall_mem_append.mpr ⟨inside.deferred, List.forall_mem_singleton.mpr within⟩ }
  exact (StaysFrom.change (fun _ => rfl) (.of_eq held rfl rfl rfl)).weaken fun _ _ _ _ => trivial

theorem stays_checkConstraints {bindings : Bindings}
    (pairs : List ((TypeId × TypeId) × Location))
    (known : ∀ pair ∈ pairs, pair.1.1 < c.table.size ∧ pair.1.2 < c.table.size)
    (bound : ∀ b ∈ bindings.values, b < c.table.size) :
    StaysFrom c (checkConstraints bindings pairs) Whatever := by
  induction pairs generalizing c with
  | nil => exact .done inside
  | cons pair rest ih =>
      obtain ⟨⟨here, given⟩, later⟩ := List.forall_mem_cons.mp known
      refine (stays_checkConstraint inside here given bound _).bind fun _ c' leads _ => ?_
      exact ih leads.inside
        (fun other member => ⟨leads.known (later other member).1, leads.known (later other member).2⟩)
        (leads.each bound)

end Constraints

section Names
variable {c : Checker} (inside : c.Inside)

theorem lookupTypeIn_known (name : String) {size : Nat} (scopes : List Scope)
    (within : ∀ scope ∈ scopes, scope.Within size) :
    ∀ id ∈ lookupTypeIn name scopes, id < size := by
  induction scopes with
  | nil => exact nofun
  | cons scope outer ih =>
      obtain ⟨here, others⟩ := List.forall_mem_cons.mp within
      rw [lookupTypeIn]
      split
      · next id found =>
          rintro _ ⟨⟩
          exact here.types id (List.mem_map_of_mem (Dictionary.mem_of_find? found))
      · exact ih others

include inside

theorem stays_lookupType (name : String) : StaysFrom c (lookupType name) OptionKnown := by
  refine .read (.of_same fun _ => rfl) ?_
  have local? := lookupTypeIn_known name c.scopes inside.scopes
  split
  · next id found => exact .pure inside fun other same => local? other (found ▸ same)
  · refine .pure inside fun id found => ?_
    exact inside.declaredTypes id (List.mem_map_of_mem (Dictionary.mem_of_find? found))

theorem stays_bindTypeParameterNames (reportDuplicates : Bool)
    (parameters : List (TypeParameterNode × TypeId))
    (known : ∀ parameter ∈ parameters, parameter.2 < c.table.size) :
    StaysFrom c (bindTypeParameterNames reportDuplicates parameters) Whatever := by
  induction parameters generalizing c with
  | nil => exact .done inside
  | cons parameter rest ih =>
      obtain ⟨node, id⟩ := parameter
      obtain ⟨here, later⟩ := List.forall_mem_cons.mp known
      refine .read (.of_same fun _ => rfl) ?_
      split
      · exact .done inside
      · refine (inside.bindType _ here).bind fun _ c' leads _ => ?_
        have others {c'' : Checker} (more : c.Leads c'') :=
          ih more.inside fun other member => more.known (later other member)
        dsimp only
        split
        · exact (leads.inside.error _ _ _).bind fun _ _ more _ => others (leads.trans more)
        · exact others leads

theorem stays_freshTypeParameters (nodes : List TypeParameterNode) :
    StaysFrom c (freshTypeParameters nodes) AllKnown := by
  induction nodes generalizing c with
  | nil => exact .pure inside (List.forall_mem_nil _)
  | cons node rest ih =>
      rw [freshTypeParameters, List.mapM_cons]
      have added : StaysFrom c (addType (.typeParameter node.name none)) Known :=
        inside.addType (List.forall_mem_nil _) fun _ => nofun
      refine added.bind fun id c' leads here => ?_
      refine (ih leads.inside).bind fun ids c'' more others => ?_
      exact .pure more.inside (List.forall_mem_cons.mpr ⟨more.known here, others⟩)

end Names

section References

/-- The instance that a generic interface has for given bindings. -/
def TypeTable.instanceOf (t : TypeTable) (origin : TypeId) (bindings : List (String × TypeId)) :
    Except ConstructionError InstantiatedType :=
  match t.kind origin with
  | .generic g =>
      (orderBindings g.name (g.typeParameters.map t.typeParameterName) (.ofList bindings)).map
        fun ordered => ⟨origin, ordered⟩
  | _ => .error (.notGeneric origin)

theorem TypeTable.addInstantiated_eq_map (t : TypeTable) (origin : TypeId)
    (bindings : List (String × TypeId)) :
    t.addInstantiated origin bindings =
      (t.instanceOf origin bindings).map fun i => t.add (.instantiated i) := by
  unfold addInstantiated instanceOf
  cases t.kind origin with
  | generic g =>
      dsimp only
      cases orderBindings g.name (g.typeParameters.map t.typeParameterName) (.ofList bindings) <;>
        rfl
  | _ => rfl

/-- The arguments under the names of the parameters at their places. -/
def TypeTable.nameArguments (t : TypeTable) (pairs : List (TypeId × TypeId)) :
    List (String × TypeId) :=
  pairs.filterMap fun (parameter, argument) =>
    match t.kind parameter with
    | .typeParameter name _ => some (name, argument)
    | _ => none

theorem instantiateReference_eq (declared : TypeId) (g : GenericType) (arguments : List TypeId)
    (locations : List Location) (location : Location) :
    instantiateReference declared g arguments locations location = (do
      let pairs := g.typeParameters.zip arguments
      checkConstraints (.ofList pairs) (pairs.zip locations)
      let table ← CheckM.table
      match table.instanceOf declared (table.nameArguments pairs) with
      | .ok i => addType (.instantiated i)
      | .error cause => fail cause location) := by
  refine congrArg (_ >>= ·) (funext fun _ => Checker.step_ext fun c => ?_)
  rw [Checker.step_bind, Checker.step_bind, Checker.step_table]
  dsimp only
  rw [TypeTable.addInstantiated_eq_map]
  unfold TypeTable.nameArguments
  cases c.table.instanceOf declared _ <;> rfl

variable {t u : TypeTable}

theorem TypeTable.WellFormed.instanceOf_extends (wellFormed : t.WellFormed)
    (extended : t.Extends u) {origin : TypeId} (inside : origin < t.size)
    (bindings : List (String × TypeId)) : u.instanceOf origin bindings = t.instanceOf origin bindings := by
  unfold instanceOf
  rw [extended.kind origin inside]
  split
  · next g generic =>
      have names : g.typeParameters.map u.typeParameterName =
          g.typeParameters.map t.typeParameterName :=
        List.map_congr_left fun p member => by
          have known := wellFormed.mentions origin inside p
            (by simp [generic, TypeKind.mentions, member])
          rw [typeParameterName, typeParameterName, extended.kind p known]
      rw [names]
  · rfl

theorem TypeTable.Extends.nameArguments (extended : t.Extends u) {pairs : List (TypeId × TypeId)}
    (inside : ∀ pair ∈ pairs, pair.1 < t.size) : u.nameArguments pairs = t.nameArguments pairs :=
  List.filterMap_congr fun (parameter, argument) member => by
    dsimp only
    rw [extended.kind parameter (inside _ member)]

/-- An instance is one of a generic interface, and its arguments are among those supplied. -/
theorem TypeTable.instanceOf_ok {origin : TypeId} {bindings : List (String × TypeId)}
    {i : InstantiatedType} (built : t.instanceOf origin bindings = .ok i) :
    i.origin = origin ∧ (∃ g, t.kind origin = .generic g) ∧
      ∀ a ∈ i.bindings.values, a ∈ bindings.map Prod.snd := by
  unfold instanceOf at built
  split at built
  · next g generic =>
      cases accepted : orderBindings g.name (g.typeParameters.map t.typeParameterName)
          (.ofList bindings) with
      | error cause => simp [accepted, Except.map] at built
      | ok ordered =>
          rw [accepted] at built
          obtain rfl := Except.ok.inj built
          exact ⟨rfl, ⟨g, generic⟩, fun a member =>
            Dictionary.mem_values_ofList (values_orderBindings accepted member)⟩
  · simp at built

theorem stays_instantiateReference {c : Checker} (inside : c.Inside) {declared : TypeId}
    {g : GenericType} (known : declared < c.table.size)
    (parameters : ∀ p ∈ g.typeParameters, p < c.table.size) {arguments : List TypeId}
    (given : ∀ a ∈ arguments, a < c.table.size) (locations : List Location) (location : Location) :
    StaysFrom c (instantiateReference declared g arguments locations location) Known := by
  rw [instantiateReference_eq]
  dsimp only
  have pairs : ∀ pair ∈ g.typeParameters.zip arguments,
      pair.1 < c.table.size ∧ pair.2 < c.table.size := fun pair member =>
    have ⟨left, right⟩ := List.of_mem_zip member
    ⟨parameters _ left, given _ right⟩
  refine (stays_checkConstraints inside _ (fun pair member => pairs _ (List.of_mem_zip member).1)
    fun b member => ?_).bind fun _ c' leads _ => ?_
  · obtain ⟨pair, listed, rfl⟩ := List.mem_map.mp (Dictionary.mem_values_ofList member)
    exact (pairs pair listed).2
  have named : ∀ pair ∈ g.typeParameters.zip arguments, pair.1 < c'.table.size :=
    fun pair member => leads.known (pairs pair member).1
  refine .readTable (fun t extended => ?_) ?_
  · rw [leads.inside.table.toWellFormed.instanceOf_extends extended (leads.known known),
      extended.nameArguments named]
  cases built : c'.table.instanceOf declared (c'.table.nameArguments (g.typeParameters.zip arguments)) with
  | error cause => exact .fail
  | ok i =>
      obtain ⟨rfl, generic, supplied⟩ := instanceOf_ok built
      refine leads.inside.addType (fun m mentioned => ?_) ?_
      · rcases List.mem_cons.mp mentioned with rfl | listed
        · exact leads.known known
        · obtain ⟨⟨name, argument⟩, member, rfl⟩ := List.mem_map.mp (supplied m listed)
          obtain ⟨⟨parameter, original⟩, zipped, named⟩ := List.mem_filterMap.mp member
          dsimp only at named
          split at named
          · obtain ⟨-, rfl⟩ := Prod.mk.inj (Option.some.inj named)
            exact leads.known (pairs _ zipped).2
          · simp at named
      · rintro _ ⟨⟩
        exact generic

end References

section Settling

namespace TypeTable

variable {t : TypeTable} {id : TypeId} (inside : id < t.size)

include inside

/-- A change to an entry leaves alone what stands behind the end. -/
theorem setKind_followedBy (kind : TypeKind) (more : Array TypeKind) :
    (t.followedBy more).setKind id kind = (t.setKind id kind).followedBy more := by
  have within : id < t.entries.size := inside
  simp [setKind, followedBy, within]

theorem setConstraint_followedBy (constraint : TypeId) (more : Array TypeKind) :
    (t.followedBy more).setConstraint id constraint =
      (t.setConstraint id constraint).followedBy more := by
  unfold setConstraint
  rw [(Extends.followedBy t more).kind id inside]
  split
  · exact setKind_followedBy inside _ more
  · rfl

/-- An entry that settles a declaration keeps the table grounded. -/
theorem Grounded.setKind (grounded : t.Grounded) {kind : TypeKind}
    (settles : (t.kind id).Settles kind) (mentions : ∀ m ∈ kind.mentions, m < t.size) :
    (t.setKind id kind).Grounded where
  toWellFormed := by
    refine grounded.toWellFormed.settle (size_setKind t id kind) rfl fun other => ?_
    rw [kind_setKind inside]
    split
    · next same => exact .inr ⟨same ▸ settles, mentions⟩
    · exact .inl rfl
  unknown := by
    rw [size_setKind]
    exact grounded.unknown

theorem Grounded.setConstraint (grounded : t.Grounded) {constraint : TypeId}
    (known : constraint < t.size) : (t.setConstraint id constraint).Grounded := by
  unfold TypeTable.setConstraint
  split
  · next name before entry =>
      refine grounded.setKind inside (entry ▸ .constraint name before _) ?_
      exact List.forall_mem_singleton.mpr known
  · exact grounded

end TypeTable

variable {c : Checker} (inside : c.Inside)

include inside

/-- What changes entries alone leaves everything inside. -/
theorem stays_settle {f : TypeTable → TypeTable}
    (apart : ∀ more, f (c.table.followedBy more) = (f c.table).followedBy more)
    (grounded : (f c.table).Grounded) (size : (f c.table).size = c.table.size) :
    StaysFrom c (modify fun checker => { checker with table := f checker.table } : CheckM PUnit)
      Whatever := by
  have larger := Nat.le_of_eq size.symm
  refine (StaysFrom.change (fun b => ?_) ⟨inside.of_table grounded larger, larger, Nat.le_refl _,
    Nat.le_refl _⟩).weaken fun _ _ _ _ => trivial
  exact congrArg (fun t => ({ c with
    table := t, functions := c.functions ++ b.functions,
    variableTypes := c.variableTypes ++ b.variableTypes } : Checker)) (apart b.entries)

theorem stays_setConstraint {id constraint : TypeId} (known : id < c.table.size)
    (bound : constraint < c.table.size) :
    StaysFrom c (modify fun checker =>
      { checker with table := checker.table.setConstraint id constraint } : CheckM PUnit)
      Whatever :=
  stays_settle inside (f := fun t => t.setConstraint id constraint)
    (setConstraint_followedBy known constraint)
    (inside.table.setConstraint known bound) (size_setConstraint _ _ _)

end Settling

section Types

/-- Properties whose types are entries. -/
abbrev PropertiesKnown (properties : List (String × Property)) (c : Checker) : Prop :=
  ∀ p ∈ properties, p.2.type < c.table.size

/-- Parameters whose types are entries. -/
abbrev ParametersKnown (parameters : List Parameter) (c : Checker) : Prop :=
  ∀ p ∈ parameters, p.type < c.table.size

theorem PropertiesKnown.leads {c c' : Checker} {properties : List (String × Property)}
    (known : PropertiesKnown properties c) (leads : c.Leads c') : PropertiesKnown properties c' :=
  fun p member => leads.known (known p member)

theorem ParametersKnown.leads {c c' : Checker} {parameters : List Parameter}
    (known : ParametersKnown parameters c) (leads : c.Leads c') : ParametersKnown parameters c' :=
  fun p member => leads.known (known p member)

theorem contextParameter_known {c : Checker} (inside : c.Inside) {context : Option FunctionType}
    (given : ∀ f ∈ context, ParametersKnown f.parameters c) (index : Nat) :
    contextParameter context index < c.table.size := by
  unfold contextParameter
  cases found : (context.bind fun f => f.parameters[index]?).map fun p => p.type with
  | none => exact inside.basic (Nat.le_refl _)
  | some id =>
      obtain ⟨p, located, rfl⟩ := Option.map_eq_some_iff.mp found
      obtain ⟨f, present, located⟩ := Option.bind_eq_some_iff.mp located
      exact given f present p (List.mem_of_getElem? located)

theorem stays_addObject {c : Checker} (inside : c.Inside) {o : ObjectType}
    (properties : PropertiesKnown o.properties.pairs c) : StaysFrom c (addType (.object o)) Known := by
  refine inside.addType (fun m mentioned => ?_) fun _ => nofun
  obtain ⟨p, listed, rfl⟩ := List.mem_map.mp mentioned
  obtain ⟨pair, member, rfl⟩ := List.mem_map.mp listed
  exact properties pair member

theorem stays_addFunction {c : Checker} (inside : c.Inside) {f : FunctionType}
    (typeParameters : AllKnown f.typeParameters c) (parameters : ParametersKnown f.parameters c)
    (result : f.returnType < c.table.size) : StaysFrom c (addType (.function f)) Known := by
  refine inside.addType (fun m mentioned => ?_) fun _ => nofun
  simp only [TypeKind.mentions, List.mem_append, List.mem_map, List.mem_singleton] at mentioned
  obtain own | ⟨p, member, rfl⟩ | rfl := mentioned
  · exact typeParameters m own
  · exact parameters p member
  · exact result

mutual

theorem stays_resolveType : ∀ (node : TypeNode) {c : Checker}, c.Inside →
    StaysFrom c (resolveType node) Known
  | .keyword keyword _, c, inside => .pure inside (inside.keyword keyword)
  | .reference name arguments location, c, inside => by
      have unknown {c' : Checker} (inside : c'.Inside) (message : Message) (shown : List String) :
          StaysFrom c' (do
            error location message shown
            return TypeId.unknown) Known :=
        (inside.error _ _ _).bind fun _ _ leads _ =>
          .pure leads.inside (leads.inside.basic (Nat.le_refl _))
      rw [resolveType]
      refine (stays_lookupType inside name).bind fun found c' leads known => ?_
      cases found with
      | none => exact unknown leads.inside _ _
      | some declared =>
          have known := known declared rfl
          refine .readTable (fun t extended => by rw [extended.kind declared known]) ?_
          split
          · next g generic =>
              refine .ite (unknown leads.inside _ _) ?_
              have parameters : AllKnown g.typeParameters c' := fun p member =>
                leads.inside.table.mentions declared known p
                  (by simp [generic, TypeKind.mentions, member])
              refine (stays_resolveTypes arguments leads.inside).bind fun ids c'' later given => ?_
              exact stays_instantiateReference later.inside (later.known known)
                (later.each parameters) given _ _
          · dsimp only
            split
            · refine (leads.inside.display known).bind fun _ c'' later _ => ?_
              refine (later.inside.error _ _ _).bind fun _ c₃ more _ => ?_
              exact .pure more.inside (more.known (later.known known))
            · exact .pure leads.inside known
  | .literal members _, c, inside => by
      rw [resolveType]
      refine (stays_resolveMembers [] members inside).bind fun properties c' leads known => ?_
      unfold ObjectType.ofProperties
      cases ObjectType.firstRepeated [] properties with
      | some repeated => exact .fail
      | none => exact stays_addObject leads.inside known
  | .function typeParameters parameters returnType _, c, inside => by
      rw [resolveType]
      refine (inside.pushScope (.empty _)).bind fun _ c₁ one _ => ?_
      refine (stays_freshTypeParameters one.inside typeParameters).bind fun ids c₂ two known => ?_
      refine (stays_bindTypeParameterNames two.inside _ _ fun parameter member =>
        known _ (List.of_mem_zip member).2).bind fun _ c₃ three _ => ?_
      have known := three.each known
      refine (stays_resolveConstraints typeParameters ids three.inside known).bind ?_
      intro _ c₄ four _
      refine (stays_resolveParameters none 0 parameters four.inside nofun).bind ?_
      intro resolved c₅ five given
      refine (stays_resolveType returnType five.inside).bind fun result c₆ six returned => ?_
      refine six.inside.popScope.bind fun _ c₇ seven _ => ?_
      have since := (four.trans five).trans (six.trans seven)
      exact stays_addFunction seven.inside (since.each known)
        (ParametersKnown.leads given (six.trans seven)) (seven.known returned)

theorem stays_resolveTypes : ∀ (nodes : List TypeNode) {c : Checker}, c.Inside →
    StaysFrom c (resolveTypes nodes) AllKnown
  | [], c, inside => .pure inside (List.forall_mem_nil _)
  | node :: rest, c, inside => by
      rw [resolveTypes]
      refine (stays_resolveType node inside).bind fun id c' leads known => ?_
      refine (stays_resolveTypes rest leads.inside).bind fun ids c'' later others => ?_
      exact .pure later.inside (List.forall_mem_cons.mpr ⟨later.known known, others⟩)

theorem stays_resolveMembers (seen : List String) :
    ∀ (members : List PropertySignature) {c : Checker}, c.Inside →
      StaysFrom c (resolveMembers seen members) PropertiesKnown
  | [], c, inside => .pure inside (List.forall_mem_nil _)
  | ⟨name, optional, declaredType, location⟩ :: rest, c, inside => by
      have resolved {c' : Checker} (inside : c'.Inside) : StaysFrom c' (do
          let type ← resolveType declaredType
          let properties ← resolveMembers (name :: seen) rest
          return (name, (⟨type, optional⟩ : Property)) :: properties) PropertiesKnown := by
        refine (stays_resolveType declaredType inside).bind fun id c'' leads known => ?_
        refine (stays_resolveMembers (name :: seen) rest leads.inside).bind ?_
        intro properties c₃ later others
        exact .pure later.inside (List.forall_mem_cons.mpr ⟨later.known known, others⟩)
      rw [resolveMembers]
      split
      · have failed : StaysFrom c (fail (.duplicateProperty name) location : CheckM PUnit) Whatever :=
          .fail
        exact failed.bind fun _ _ leads _ => resolved leads.inside
      · exact resolved inside

theorem stays_resolveConstraints :
    ∀ (nodes : List TypeParameterNode) (ids : List TypeId) {c : Checker}, c.Inside →
      AllKnown ids c → StaysFrom c (resolveConstraints nodes ids) Whatever
  | [], _, c, inside, _ => by
      rw [resolveConstraints]
      · exact .done inside
      · simp
  | _ :: _, [], c, inside, _ => by
      rw [resolveConstraints]
      · exact .done inside
      · simp
  | ⟨_, none, _⟩ :: nodes, _ :: ids, c, inside, known => by
      rw [resolveConstraints]
      exact stays_resolveConstraints nodes ids inside (List.forall_mem_cons.mp known).2
  | ⟨_, some node, _⟩ :: nodes, id :: ids, c, inside, known => by
      obtain ⟨here, later⟩ := List.forall_mem_cons.mp known
      rw [resolveConstraints]
      refine (stays_resolveType node inside).bind fun bound c' leads written => ?_
      refine (stays_setConstraint leads.inside (leads.known here) written).bind ?_
      intro _ c'' set _
      exact stays_resolveConstraints nodes ids set.inside ((leads.trans set).each later)

theorem stays_resolveParameters (context : Option FunctionType) (index : Nat) :
    ∀ (parameters : List ParameterNode) {c : Checker}, c.Inside →
      (∀ f ∈ context, ParametersKnown f.parameters c) →
        StaysFrom c (resolveParameters context index parameters) ParametersKnown
  | [], c, inside, _ => .pure inside (List.forall_mem_nil _)
  | ⟨name, optional, annotation, _⟩ :: rest, c, inside, given => by
      have others {c' : Checker} (leads : c.Leads c') {id : TypeId} (known : id < c'.table.size) :
          StaysFrom c' (do
            let parameters ← resolveParameters context (index + 1) rest
            return (⟨name, id, optional⟩ : Parameter) :: parameters) ParametersKnown := by
        have given : ∀ f ∈ context, ParametersKnown f.parameters c' := fun f present =>
          ParametersKnown.leads (given f present) leads
        refine (stays_resolveParameters context (index + 1) rest leads.inside given).bind ?_
        intro parameters c'' later resolved
        exact .pure later.inside (List.forall_mem_cons.mpr ⟨later.known known, resolved⟩)
      match annotation with
      | none =>
          have known := contextParameter_known inside given index
          rw [resolveParameters]
          exact (StaysFrom.entry inside known).bind fun _ _ leads => others leads
      | some node =>
          rw [resolveParameters]
          exact (stays_resolveType node inside).bind fun _ _ leads => others leads

end

end Types

end StructuralTyping
