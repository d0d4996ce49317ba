import StructuralTyping.Proofs.WrittenLookups
import StructuralTyping.Proofs.WrittenProperties

/-! What is looked up while the declarations are entered. -/
namespace StructuralTyping

open CheckM
open TypeTable

section Interfaces
variable {c : Checker} (inside : c.Inside)

include inside

theorem stays_resolveOptionalType (node : Option TypeNode) :
    StaysFrom c (resolveOptionalType node) OptionKnown := by
  cases node with
  | none => exact .pure inside (optionKnown_none c)
  | some node =>
      exact (stays_resolveType node inside).bind fun _ _ leads known =>
        .pure leads.inside (optionKnown_some known)

/-- The parameters of a list are bound, and then their constraints are set. -/
theorem stays_bindTypeParameters (reportDuplicates : Bool) (nodes : List TypeParameterNode)
    {ids : List TypeId} (known : AllKnown ids c) :
    StaysFrom c (bindTypeParameterNames reportDuplicates (nodes.zip ids)) Whatever :=
  stays_bindTypeParameterNames inside _ _ fun _ member => known _ (List.of_mem_zip member).2

theorem stays_declareTypeParameters (nodes : List TypeParameterNode) :
    StaysFrom c (declareTypeParameters nodes) AllKnown := by
  refine (stays_freshTypeParameters inside nodes).bind fun ids c₁ one known => ?_
  refine (stays_bindTypeParameters one.inside true nodes known).bind fun _ c₂ two _ => ?_
  have known := two.each known
  refine (stays_resolveConstraints nodes ids two.inside known).bind fun _ c₃ three _ => ?_
  exact .pure three.inside (three.each known)

/-- An object type is built from properties with different names. -/
theorem stays_buildObjectType (name : Option String) (members : List PropertySignature) :
    StaysFrom c (buildObjectType name members) fun o c' =>
      o.properties.Distinct ∧ PropertiesKnown o.properties.pairs c' := by
  refine (stays_resolveMembers [] members inside).bind fun properties c' leads known => ?_
  cases built : ObjectType.ofProperties name properties with
  | error cause => exact .fail
  | ok o =>
      obtain ⟨distinct, rfl⟩ := (ObjectType.ofProperties_eq_ok_iff name properties o).mp built
      exact .pure leads.inside ⟨distinct, known⟩

/-- What is kept of an interface are entries. -/
structure PendingInterface.Within (pending : PendingInterface) (size : Nat) : Prop where
  body : pending.body < size
  typeParameters : ∀ id ∈ pending.typeParameters, id < size

omit inside in
theorem PendingInterface.Within.mono {pending : PendingInterface} {size size' : Nat}
    (within : pending.Within size) (larger : size ≤ size') : pending.Within size' :=
  ⟨Nat.lt_of_lt_of_le within.body larger,
    fun id member => Nat.lt_of_lt_of_le (within.typeParameters id member) larger⟩

theorem stays_beginInterface (declaration : InterfaceDeclaration) :
    StaysFrom c (beginInterface declaration) fun begun c' =>
      ∀ pending ∈ begun, pending.Within c'.table.size := by
  refine .read (.of_same fun _ => rfl) (.ite ?_ ?_)
  · exact (inside.error _ _ _).bind fun _ _ leads _ => .pure leads.inside nofun
  refine (stays_freshTypeParameters inside _).bind fun ids c₁ one known => ?_
  have reserved : StaysFrom c₁ (addType .pending) Known :=
    one.inside.addType (List.forall_mem_nil _) fun _ => nofun
  refine reserved.bind fun body c₂ two here => ?_
  have entered {c' : Checker} (leads : c₂.Leads c') (declared : TypeId)
      (entry : declared < c'.table.size) : StaysFrom c' (do
      if c.scopes.isEmpty then
        modify fun checker =>
          { checker with
            declaredTypes := checker.declaredTypes.insert declaration.name declared }
      else bindType declaration.name declared
      return some (⟨declaration, body, ids, c.currentFile⟩ : PendingInterface))
      fun begun c'' => ∀ pending ∈ begun, pending.Within c''.table.size := by
    have finish {c'' : Checker} (later : c'.Leads c'') : StaysFrom c''
        (pure (some (⟨declaration, body, ids, c.currentFile⟩ : PendingInterface)))
        fun begun c₃ => ∀ pending ∈ begun, pending.Within c₃.table.size := by
      refine .pure later.inside ?_
      rintro _ ⟨⟩
      have since := leads.trans later
      exact ⟨since.known here, since.each (two.each known)⟩
    dsimp only
    split
    · have held : ({ c' with
          declaredTypes := c'.declaredTypes.insert declaration.name declared } : Checker).Inside :=
        { leads.inside with
          declaredTypes := fun other member => (Dictionary.mem_values_insertIn member).elim
            (· ▸ entry) (leads.inside.declaredTypes other) }
      exact (StaysFrom.change (fun _ => rfl) (.of_eq held rfl rfl rfl)).bind
        fun _ _ later _ => finish later
    · exact (leads.inside.bindType _ entry).bind fun _ _ later _ => finish later
  dsimp only
  split
  · exact (StaysFrom.entry two.inside here).bind fun _ _ leads entry =>
      entered leads _ entry
  · have generic : StaysFrom c₂ (addType (.generic ⟨declaration.name, ids, body⟩)) Known := by
      refine two.inside.addType (fun m mentioned => ?_) fun _ => nofun
      rcases List.mem_append.mp mentioned with own | last
      · exact two.each known m own
      · exact List.mem_singleton.mp last ▸ here
    exact generic.bind fun _ _ leads entry => entered leads _ entry

theorem stays_constrainInterface {pending : PendingInterface}
    (within : pending.Within c.table.size) : StaysFrom c (constrainInterface pending) Whatever := by
  refine (inside.pushScope (.empty _)).bind fun _ c₁ one _ => ?_
  have known := one.each within.typeParameters
  refine (stays_bindTypeParameters one.inside true _ known).bind fun _ c₂ two _ => ?_
  refine (stays_resolveConstraints _ _ two.inside (two.each known)).bind fun _ c₃ three _ => ?_
  exact three.inside.popScope

omit inside in
theorem completeInterface_eq (pending : PendingInterface) : completeInterface pending = (do
    pushScope .empty
    bindTypeParameterNames false
      (pending.declaration.typeParameters.zip pending.typeParameters)
    let o ← buildObjectType (some pending.declaration.name) pending.declaration.members
    popScope
    let table ← CheckM.table
    if table.kind pending.body = .pending then
      modify fun checker =>
        { checker with table := checker.table.setKind pending.body (.object o) }
    else fail (.alreadyDefined pending.body) pending.declaration.location) := by
  unfold completeInterface
  refine bind_congr fun _ => bind_congr fun _ => bind_congr fun o => bind_congr fun _ =>
    Checker.step_ext fun c => ?_
  rw [Checker.step_bind, Checker.step_bind, Checker.step_table]
  dsimp only
  by_cases reserved : c.table.kind pending.body = .pending
  · rw [TypeTable.define, if_pos reserved, if_pos reserved]
    rfl
  · rw [TypeTable.define, if_neg reserved, if_neg reserved]

theorem stays_completeInterface {pending : PendingInterface}
    (within : pending.Within c.table.size) : StaysFrom c (completeInterface pending) Whatever := by
  rw [completeInterface_eq]
  refine (inside.pushScope (.empty _)).bind fun _ c₁ one _ => ?_
  refine (stays_bindTypeParameters one.inside false _ (one.each within.typeParameters)).bind ?_
  intro _ c₂ two _
  refine (stays_buildObjectType two.inside _ _).bind fun o c₃ three ⟨distinct, properties⟩ => ?_
  refine three.inside.popScope.bind fun _ c₄ four _ => ?_
  have known := ((one.trans two).trans (three.trans four)).known within.body
  refine .readTable (fun t extended => by rw [extended.kind _ known]) ?_
  split
  · next reserved =>
      have mentions : ∀ m ∈ (TypeKind.object o).mentions, m < c₄.table.size := fun m mentioned => by
        obtain ⟨p, listed, rfl⟩ := List.mem_map.mp mentioned
        obtain ⟨pair, member, rfl⟩ := List.mem_map.mp listed
        exact four.known (properties pair member)
      exact stays_settle four.inside (f := fun t => t.setKind pending.body (.object o))
        (setKind_followedBy known _)
        (four.inside.table.setKind known (reserved ▸ .body distinct) mentions) (size_setKind _ _ _)
  · exact .fail

/-- An interface in a block is built at once. -/
theorem stays_declareInterface (declaration : InterfaceDeclaration) :
    StaysFrom c (declareInterface declaration) Whatever := by
  refine (stays_beginInterface inside declaration).bind fun begun c' leads within => ?_
  cases begun with
  | none => exact .done leads.inside
  | some pending =>
      have within := within pending rfl
      refine (stays_constrainInterface leads.inside within).bind fun _ c'' later _ => ?_
      exact stays_completeInterface later.inside (within.mono later.table)

end Interfaces

section Declaring
variable {c : Checker} (inside : c.Inside)

theorem enterHoisted_eq (name : String) (declared : Option TypeId) :
    enterHoisted name declared = (do
      modify fun checker => { checker with variableTypes := checker.variableTypes.push declared }
      modify fun checker =>
        { checker with
          hoisted :=
            if checker.hoisted.contains name then checker.hoisted
            else checker.hoisted.insert name (declared.getD TypeId.unknown) }) :=
  Checker.step_ext fun _ => rfl

include inside

/-- A new function stands behind those that were declared, and its name stands for it. -/
theorem stays_enterFunction (name : String) {f : DeclaredFunction}
    (within : f.Within c.table.size) : StaysFrom c (enterFunction name f) Whatever := by
  rw [enterFunction_eq]
  refine .read (fun b b' as => ?_) ?_
  · have size : (c.followedBy b).functions.size = (c.followedBy b').functions.size := by
      simp [Checker.followedBy, as.functions]
    rw [size]
    rfl
  have pushed : StaysFrom c (modify fun c' =>
      { c' with functions := c'.functions.push { f with file := c.currentFile } } : CheckM PUnit)
      fun _ c' => c.functions.size < c'.functions.size := by
    refine ⟨.appendFunction _ c, ?_, fun _ => nofun⟩
    rintro _ _ ⟨⟩
    have size : c.functions.size < (c.functions.push { f with file := c.currentFile }).size := by
      simp
    refine ⟨⟨{ inside with globals := fun symbol member => ?_, functions := fun g member => ?_ },
      Nat.le_refl _, Nat.le_of_lt size, Nat.le_refl _⟩, size⟩
    · exact (inside.globals symbol member).mono (Nat.le_refl _) (Nat.le_of_lt size)
    · rcases Array.mem_push.mp member with old | rfl
      · exact inside.functions g old
      · exact ⟨within.typeParameters, within.parameters, within.returnType, within.type⟩
  refine pushed.bind fun _ c' leads declared => .ite (leads.inside.error _ _ _) ?_
  exact leads.inside.bindGlobal name (.function c.functions.size) declared

theorem stays_enterHoisted (name : String) {declared : Option TypeId}
    (known : OptionKnown declared c) : StaysFrom c (enterHoisted name declared) Whatever := by
  rw [enterHoisted_eq]
  have pushed : StaysFrom c (modify fun c' =>
      { c' with variableTypes := c'.variableTypes.push declared } : CheckM PUnit) Whatever := by
    refine ⟨.appendVariable _ c, ?_, fun _ => nofun⟩
    rintro _ _ ⟨⟩
    refine ⟨⟨{ inside with variableTypes := fun other member => ?_ }, Nat.le_refl _,
      Nat.le_refl _, ?_⟩, trivial⟩
    · rcases Array.mem_push.mp member with old | rfl
      · exact inside.variableTypes other old
      · exact known
    · simp
  refine pushed.bind fun _ c' leads _ => ?_
  have type : declared.getD TypeId.unknown < c'.table.size := by
    cases declared with
    | none => exact leads.inside.basic (Nat.le_refl _)
    | some id => exact leads.known (known id rfl)
  have held : ({ c' with
      hoisted :=
        if c'.hoisted.contains name then c'.hoisted
        else c'.hoisted.insert name (declared.getD TypeId.unknown) } : Checker).Inside := by
    refine { leads.inside with hoisted := fun id member => ?_ }
    split at member
    · exact leads.inside.hoisted id member
    · exact (Dictionary.mem_values_insertIn member).elim (· ▸ type) (leads.inside.hoisted id)
  exact (StaysFrom.change (fun _ => rfl) (.of_eq held rfl rfl rfl)).weaken fun _ _ _ _ => trivial

theorem stays_declareFunction (name : String) (node : FunctionNode) :
    StaysFrom c (declareFunction name node) Whatever := by
  rw [declareFunction_eq]
  refine (inside.pushScope (.empty _)).bind fun _ c₁ one _ => ?_
  refine (stays_declareTypeParameters one.inside _).bind fun ids c₂ two known => ?_
  refine (stays_resolveParameters none 0 node.parameters two.inside (by simp)).bind ?_
  intro resolved c₃ three given
  refine (stays_resolveOptionalType three.inside _).bind fun result c₄ four returned => ?_
  refine four.inside.popScope.bind fun _ c₅ five _ => ?_
  have known := ((three.trans four).trans five).each known
  have given : ParametersKnown resolved c₅ := ParametersKnown.leads given (four.trans five)
  have returned := five.optional returned
  have entered {c' : Checker} (leads : c₅.Leads c') (type : Option TypeId)
      (entry : OptionKnown type c') :
      StaysFrom c' (enterFunction name ⟨node, none, ids, resolved, result, type, .unchecked⟩)
        Whatever :=
    stays_enterFunction leads.inside name
      ⟨leads.each known, ParametersKnown.leads given leads, leads.optional returned, entry⟩
  cases result with
  | none =>
      have absent : StaysFrom c₅ (pure none) OptionKnown := .pure five.inside (optionKnown_none _)
      exact absent.bind fun _ _ leads entry => entered leads _ entry
  | some result =>
      refine (stays_addFunction five.inside known given (returned result rfl)).bind ?_
      intro id c₆ six entry
      have present : StaysFrom c₆ (pure (some id)) OptionKnown :=
        .pure six.inside (optionKnown_some entry)
      exact present.bind fun _ _ leads entry => entered (six.trans leads) _ entry

theorem stays_declareHoisted (name : String) (declaredType : Option TypeNode) :
    StaysFrom c (declareHoisted name declaredType) Whatever :=
  (stays_resolveOptionalType inside declaredType).bind fun _ _ leads known =>
    stays_enterHoisted leads.inside name known

omit inside in
theorem stays_declareStatements : ∀ (statements : List Statement) {c : Checker}, c.Inside →
    StaysFrom c (declareStatements statements) Whatever
  | [], _, inside => .done inside
  | .function name node :: rest, _, inside =>
      (stays_declareFunction inside name node).bind fun _ _ leads _ =>
        stays_declareStatements rest leads.inside
  | .variable name declaredType _ _ :: rest, _, inside =>
      (stays_declareHoisted inside name declaredType).bind fun _ _ leads _ =>
        stays_declareStatements rest leads.inside
  | .interface _ :: rest, _, inside
  | .expression _ _ :: rest, _, inside
  | .returning _ _ :: rest, _, inside => stays_declareStatements rest inside

theorem stays_declareFiles (files : List SourceFile) :
    StaysFrom c (declareFiles files) Whatever := by
  induction files generalizing c with
  | nil => exact .done inside
  | cons file rest ih =>
      refine (inside.setFile _).bind fun _ c₁ one _ => ?_
      exact (stays_declareStatements _ one.inside).bind fun _ _ leads _ => ih leads.inside

/-- What is kept of each interface are entries. -/
abbrev PendingKnown (pending : List PendingInterface) (c : Checker) : Prop :=
  ∀ p ∈ pending, p.Within c.table.size

omit inside in
theorem stays_beginInterfaces : ∀ (statements : List Statement) {c : Checker}, c.Inside →
    StaysFrom c (beginInterfaces statements) PendingKnown
  | [], _, inside => .pure inside (List.forall_mem_nil _)
  | .interface declaration :: rest, c, inside => by
      refine (stays_beginInterface inside declaration).bind fun begun c₁ one here => ?_
      refine (stays_beginInterfaces rest one.inside).bind fun others c₂ two later => ?_
      refine .pure two.inside (List.forall_mem_append.mpr ⟨fun p member => ?_, later⟩)
      exact (here p (Option.mem_toList.mp member)).mono two.table
  | .function _ _ :: rest, _, inside
  | .variable _ _ _ _ :: rest, _, inside
  | .expression _ _ :: rest, _, inside
  | .returning _ _ :: rest, _, inside => stays_beginInterfaces rest inside

theorem stays_beginFiles (files : List SourceFile) :
    StaysFrom c (beginFiles files) PendingKnown := by
  induction files generalizing c with
  | nil => exact .pure inside (List.forall_mem_nil _)
  | cons file rest ih =>
      refine (inside.setFile _).bind fun _ c₁ one _ => ?_
      refine (stays_beginInterfaces _ one.inside).bind fun pending c₂ two here => ?_
      refine (ih two.inside).bind fun others c₃ three later => .pure three.inside ?_
      exact List.forall_mem_append.mpr ⟨fun p member => (here p member).mono three.table, later⟩

theorem stays_forInterfaces {step : PendingInterface → CheckM Unit}
    (each : ∀ (c' : Checker) (p : PendingInterface), c'.Inside → p.Within c'.table.size →
      StaysFrom c' (step p) Whatever)
    (pending : List PendingInterface) (known : PendingKnown pending c) :
    StaysFrom c (forInterfaces step pending) Whatever := by
  induction pending generalizing c with
  | nil => exact .done inside
  | cons p rest ih =>
      obtain ⟨here, later⟩ := List.forall_mem_cons.mp known
      refine (inside.setFile _).bind fun _ c₁ one _ => ?_
      refine (each c₁ p one.inside (here.mono one.table)).bind fun _ c₂ two _ => ?_
      exact ih two.inside fun other member =>
        (later other member).mono (Nat.le_trans one.table two.table)

theorem stays_runDeferred (checks : List DeferredConstraint)
    (known : ∀ check ∈ checks, check.Within c.table.size) :
    StaysFrom c (runDeferred checks) Whatever := by
  induction checks generalizing c with
  | nil => exact .done inside
  | cons check rest ih =>
      obtain ⟨here, later⟩ := List.forall_mem_cons.mp known
      refine (inside.setFile _).bind fun _ c₁ one _ => ?_
      refine (stays_reportUnsatisfied one.inside (here.mono one.table)).bind fun _ c₂ two _ => ?_
      exact ih two.inside fun other member =>
        (later other member).mono (Nat.le_trans one.table two.table)

theorem stays_declareAll : StaysFrom c declareAll Whatever := by
  refine .read (.of_same fun _ => rfl) ?_
  refine (stays_beginFiles inside _).bind fun pending c₁ one known => ?_
  refine (stays_forInterfaces one.inside (fun _ _ held within =>
    stays_constrainInterface held within) pending known).bind fun _ c₂ two _ => ?_
  refine (stays_forInterfaces two.inside (fun _ _ held within =>
    stays_completeInterface held within) pending fun p member =>
      (known p member).mono two.table).bind fun _ c₃ three _ => ?_
  refine (stays_declareFiles three.inside _).bind fun _ c₄ four _ => ?_
  refine .read (.of_same fun _ => rfl) ?_
  have emptied : ({ c₄ with deferred := [] } : Checker).Inside :=
    { four.inside with deferred := List.forall_mem_nil _ }
  refine (StaysFrom.change (fun _ => rfl) (.of_eq emptied rfl rfl rfl)).bind fun _ c₅ five _ => ?_
  refine (stays_runDeferred five.inside _ fun check member =>
    (four.inside.deferred check member).mono five.table).bind fun _ c₆ six _ => ?_
  exact six.inside.setFile none

end Declaring

end StructuralTyping
