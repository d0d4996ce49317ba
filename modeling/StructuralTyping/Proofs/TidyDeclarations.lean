import StructuralTyping.Proofs.DeclaredLookups
import StructuralTyping.Proofs.TidySteps

/-! Tables stay tidy while interfaces, functions and variables are declared. A generic
interface is entered together with its type parameters and its body, before anything
mentions them. Its body is filled later, with members that see its type parameters besides
the types that are apart from every interface. -/
namespace StructuralTyping

open CheckM
open TypeTable

variable {c c' : Checker}

section Parameters
variable {own : TypeId → Prop} (tidy : c.Tidy own)

include tidy

theorem tidy_declareTypeParameters (nodes : List TypeParameterNode) :
    TidyFrom own c (declareTypeParameters nodes) fun ids c' =>
      c'.scopes.tail = c.scopes.tail ∧ ∀ id ∈ ids, c'.table.Apart id := by
  refine .bind (tidy_freshTypeParameters nodes tidy) ?_
  rintro ids c₁ one - ⟨same, fresh⟩
  have apart := fresh.apart tidy.table
  refine .bind (tidy_bindTypeParameterNames true _ one fun parameter listed =>
    .apart (apart _ (List.of_mem_zip listed).2)) fun _ c₂ two matures tail => ?_
  refine TidyFrom.bind (tidy_resolveConstraints nodes ids two) fun _ c₃ three further kept => ?_
  refine .pure three ⟨?_, fun id listed => (matures.trans further).apart (apart id listed)⟩
  rw [kept.1, tail, same]

theorem tidy_resolveOptionalType (node : Option TypeNode) :
    TidyWithin own c (resolveOptionalType node) fun found t => ∀ id ∈ found, t.Written own id := by
  cases node with
  | none =>
      refine .pure tidy ?_
      rintro _ ⟨⟩
  | some node =>
      refine .bind (tidy_resolveType node tidy) fun id c₁ one _ written => .pure one ?_
      rintro _ ⟨⟩
      exact written

end Parameters

section Interfaces

/-- The interface has its entries, which wait for the body. -/
inductive TypeTable.Announces (t : TypeTable) (p : PendingInterface) : Prop where
  | generic {origin : TypeId} {name : String}
      (entry : t.kind origin = .generic ⟨name, p.typeParameters, p.body⟩)
  | plain (none : p.typeParameters = []) (isOpen : t.Open p.body)

theorem TypeTable.Announces.matures {t t' : TypeTable} {p : PendingInterface}
    (announces : t.Announces p) (matures : t.Matures t') : t'.Announces p := by
  cases announces with
  | generic entry => exact .generic (matures.generic entry)
  | plain none isOpen => exact .plain none (matures.open isOpen)

theorem TypeTable.Announces.parameters {t : TypeTable} {p : PendingInterface}
    (announces : t.Announces p) (tidy : t.Tidy) :
    ∀ id ∈ p.typeParameters, t.Written (· ∈ p.typeParameters) id := by
  intro id listed
  cases announces with
  | generic entry => exact .parameter listed ((tidy.generics _ _ entry).parameters id listed)
  | plain none =>
      rw [none] at listed
      cases listed

/-- The entries of an interface: its type parameters, its body and, if it is generic, the
interface itself, which the name stands for. -/
def enterInterface (declaration : InterfaceDeclaration) (file : Option String) :
    CheckM (TypeId × PendingInterface) := do
  let typeParameters ← freshTypeParameters declaration.typeParameters
  let body ← addType .pending
  if typeParameters.isEmpty then return (body, ⟨declaration, body, typeParameters, file⟩)
  else
    let declared ← addType (.generic ⟨declaration.name, typeParameters, body⟩)
    return (declared, ⟨declaration, body, typeParameters, file⟩)

/-- An interface is entered, and then its name. -/
theorem beginInterface_entered (declaration : InterfaceDeclaration) :
    beginInterface declaration = (do
      let checker ← get
      let taken :=
        match checker.scopes with
        | scope :: _ => scope.types.contains declaration.name
        | [] => checker.declaredTypes.contains declaration.name
      if taken then
        error declaration.location .duplicateIdentifier [declaration.name]
        return none
      else
        let entered ← enterInterface declaration checker.currentFile
        if checker.scopes.isEmpty then
          modify fun checker =>
            { checker with
              declaredTypes := checker.declaredTypes.insert declaration.name entered.1 }
        else bindType declaration.name entered.1
        return some entered.2) := by
  refine congrArg (get >>= ·) (funext fun c => ?_)
  rcases c.scopes with _ | ⟨scope, outer⟩ <;> dsimp only
  all_goals
    split
    · rfl
    · simp only [enterInterface, bind_assoc]
      refine bind_congr fun ids => bind_congr fun body => ?_
      split <;> simp only [bind_assoc, pure_bind]

/-- A generic interface is entered as a whole: once it is there, its type parameters and its
body belong to it. -/
theorem tidy_enterInterface {own : TypeId → Prop} (tidy : c.Tidy own)
    (declaration : InterfaceDeclaration) (file : Option String) :
    TidyWithin own c (enterInterface declaration file) fun entered t =>
      t.Apart entered.1 ∧ t.Announces entered.2 := by
  have prepared : TidyFrom own c (do
      let typeParameters ← freshTypeParameters declaration.typeParameters
      let body ← addType .pending
      return (typeParameters, body)) fun made c' =>
        c' = { c with table := c'.table } ∧ c.table.Prepares c'.table ∧
          (∀ p ∈ made.1, c.table.size ≤ p ∧ c'.table.flag p = .typeParameter) ∧ made.1.Nodup ∧
          c.table.size ≤ made.2 ∧ c'.table.kind made.2 = .pending := by
    refine .bind (tidy_freshTypeParameters _ tidy) ?_
    rintro ids c₁ one - ⟨same, fresh⟩
    have enters := one.table.enters_add .pending (by simp) (by simp)
    refine .bind (TidyFrom.addType one enters) ?_
    rintro _ _ two matures ⟨rfl, rfl⟩
    refine .pure two ⟨?_, fresh.prepares.trans (.add _ (.inr rfl)), fun p listed => ?_,
      fresh.distinct, fresh.prepares.extended.size, kind_add_size _ _⟩
    · rw [same]
    · exact ⟨(fresh.new p listed).1, matures.leaf (fresh.new p listed).2⟩
  have whole : enterInterface declaration file = (do
      let made ← (do
        let typeParameters ← freshTypeParameters declaration.typeParameters
        let body ← addType .pending
        return (typeParameters, body))
      if made.1.isEmpty then return (made.2, ⟨declaration, made.2, made.1, file⟩)
      else
        let declared ← addType (.generic ⟨declaration.name, made.1, made.2⟩)
        return (declared, ⟨declaration, made.2, made.1, file⟩)) := by
    simp only [enterInterface, bind_assoc, pure_bind]
  rw [whole]
  refine prepared.bind_since ?_
  rintro ⟨ids, body⟩ c₁ one matures ⟨same, prepares, parameters, distinct, new, pending⟩
  dsimp only at parameters distinct new pending ⊢
  split
  · next empty =>
      refine ⟨.pure _ _, ?_, nofun⟩
      rintro _ _ ⟨⟩
      have apart := prepares.apart_of_new tidy.table new (lt_size_of_kind pending (by simp))
      exact ⟨one, matures, by rw [same], apart, .plain (List.isEmpty_iff.mp empty) apart.itself⟩
  · let g : GenericType := ⟨declaration.name, ids, body⟩
    have enters : c.table.Enters (c₁.table.add (.generic g)).2 (some g) :=
      prepares.enters parameters pending distinct new
    have apart : (c₁.table.add (.generic g)).2.Apart c₁.table.size :=
      prepares.apart_generic parameters pending tidy.table
    have held := tidy.table.enters enters
    refine ⟨.bind (.onTable (Passes.single (.add _) held)) fun _ _ _ => .pure _ _, ?_, nofun⟩
    rintro _ _ ⟨⟩
    refine ⟨?_, enters.matures, by rw [same], apart, .generic (kind_add_size _ _)⟩
    rw [same]
    exact tidy.withTable held enters.matures

/-- The type names that a checker knows outside of the declarations of interfaces. -/
theorem Checker.Tidy.declareType (tidy : c.Tidy Outside) (name : String) {id : TypeId}
    (apart : c.table.Apart id) :
    ({ c with declaredTypes := c.declaredTypes.insert name id } : Checker).Tidy Outside :=
  { tidy with
    declaredTypes := fun other listed =>
      (Dictionary.mem_values_insertIn listed).elim (· ▸ apart) (tidy.declaredTypes other) }

section Bodies
variable (tidy : c.Tidy Outside)

include tidy

theorem tidy_beginInterface (declaration : InterfaceDeclaration) :
    TidyFrom Outside c (beginInterface declaration) fun begun c' =>
      ∀ p ∈ begun, c'.table.Announces p := by
  rw [beginInterface_entered]
  refine .read (.ite ?_ ?_)
  · refine TidyFrom.bind (tidy_error tidy _ _ _) fun _ c₁ one _ _ => .pure one ?_
    rintro _ ⟨⟩
  · refine TidyFrom.bind (tidy_enterInterface tidy declaration c.currentFile) ?_
    rintro ⟨declared, p⟩ c₁ one - ⟨-, apart, announces⟩
    have finish {c₂ : Checker} (two : c₂.Tidy Outside) (table : c₂.table = c₁.table) :
        TidyFrom Outside c₂ (pure (some p)) fun begun c' => ∀ p ∈ begun, c'.table.Announces p := by
      refine .pure two ?_
      rintro _ ⟨⟩
      exact table ▸ announces
    dsimp only
    split
    · refine .bind (.change rfl (one.declareType _ apart)) ?_
      rintro _ _ two - rfl
      exact finish two rfl
    · refine .bind (tidy_bindType one _ (.apart apart)) ?_
      rintro _ c₂ two - ⟨table, -⟩
      exact finish two table

variable {p : PendingInterface} (announces : c.table.Announces p)

include announces

/-- The names of the type parameters are known in a scope of their own. -/
theorem tidy_enterParameters (reportDuplicates : Bool) :
    TidyFrom (· ∈ p.typeParameters) c (do
      pushScope .empty
      bindTypeParameterNames reportDuplicates
        (p.declaration.typeParameters.zip p.typeParameters)) fun _ c' =>
      c'.scopes.tail = c.scopes := by
  have within : c.Tidy (· ∈ p.typeParameters) := tidy.mono fun _ => False.elim
  refine .bind (tidy_pushScope within) ?_
  rintro _ c₁ one - ⟨table, scopes⟩
  refine (tidy_bindTypeParameterNames _ _ one fun parameter listed => ?_).weaken
    fun _ _ _ _ tail => tail.trans (congrArg List.tail scopes)
  rw [table]
  exact announces.parameters tidy.table _ (List.of_mem_zip listed).2

omit announces in
/-- Back outside, the type names in scope are those from before. -/
theorem tidy_leaveParameters {c' : Checker} {own : TypeId → Prop} (inner : c'.Tidy own)
    (matures : c.table.Matures c'.table) (outer : c'.scopes.tail = c.scopes) :
    TidyFrom Outside c' popScope fun _ c'' => c''.table = c'.table := by
  refine (tidy_popScope inner ?_).weaken fun _ _ _ _ popped => popped.1
  rw [outer]
  exact fun scope member id listed => matures.written (tidy.scopes scope member id listed)

theorem tidy_constrainInterface : TidyFrom Outside c (constrainInterface p) fun _ _ => True := by
  rw [constrainInterface, ← bind_assoc]
  refine .bind (tidy_enterParameters tidy announces true) fun _ c₁ one matures tail => ?_
  refine TidyFrom.bind (tidy_resolveConstraints _ _ one) fun _ c₂ two further kept => ?_
  exact (tidy_leaveParameters tidy two (matures.trans further)
    ((congrArg List.tail kept.1).trans tail)).weaken fun _ _ _ _ _ => trivial

end Bodies

theorem tidy_buildObjectType {own : TypeId → Prop} (tidy : c.Tidy own) (name : Option String)
    (members : List PropertySignature) :
    TidyWithin own c (buildObjectType name members) fun o t =>
      ∀ m ∈ (TypeKind.object o).parts, t.Written own m := by
  refine .bind (tidy_resolveMembers [] members tidy) fun properties c₁ one _ written => ?_
  unfold ObjectType.ofProperties
  cases ObjectType.firstRepeated [] properties with
  | some repeated => exact .fail
  | none => exact .pure one (TypeKind.forall_parts_object written)

/-- The body of an interface mentions its type parameters and types that are apart, and it is
filled once. -/
theorem tidy_completeInterface {p : PendingInterface} (tidy : c.Tidy Outside)
    (announces : c.table.Announces p) :
    TidyFrom Outside c (completeInterface p) fun _ _ => True := by
  rw [completeInterface_eq, ← bind_assoc]
  refine .bind (tidy_enterParameters tidy announces false) fun _ c₁ one matures tail => ?_
  refine TidyFrom.bind (tidy_buildObjectType one _ _) fun o c₂ two further kept => ?_
  have since := matures.trans further
  refine .bind (tidy_leaveParameters tidy two since ((congrArg List.tail kept.1).trans tail)) ?_
  intro _ c₃ three _ table
  have members := kept.2
  have announces := announces.matures since
  rw [← table] at members announces
  refine .readTable ?_
  split
  · next pending =>
      refine (TidyFrom.changeTable (f := fun t => t.setKind p.body (.object o)) three
        (.fill pending o) (enters_fill pending ?_ ?_)).weaken fun _ _ _ _ _ => trivial
      · intro origin g generic same
        cases announces with
        | generic entry =>
            rw [three.table.bodies _ g _ _ generic entry same]
            exact members
        | plain _ isOpen => exact absurd ⟨origin, g, generic, .inl same.symm⟩ isOpen.2
      · intro isOpen m part
        cases announces with
        | generic entry => exact absurd ⟨_, _, entry, .inl rfl⟩ isOpen.2
        | plain none =>
            refine (members m part).apart_of_none fun q listed => ?_
            rw [none] at listed
            cases listed
  · exact .fail

/-- An interface in a block is built at once. -/
theorem tidy_declareInterface (tidy : c.Tidy Outside) (declaration : InterfaceDeclaration) :
    TidyFrom Outside c (declareInterface declaration) fun _ _ => True := by
  refine .bind (tidy_beginInterface tidy declaration) fun begun c₁ one _ announced => ?_
  cases begun with
  | none => exact .pure one trivial
  | some p =>
      have announces := announced p rfl
      refine .bind (tidy_constrainInterface one announces) fun _ c₂ two matures _ => ?_
      exact tidy_completeInterface two (announces.matures matures)

end Interfaces

section Declaring

/-- A function declares type parameters that belong to no interface. -/
theorem tidy_enterFunction (tidy : c.Tidy Outside) (name : String) {f : DeclaredFunction}
    (apart : ∀ id ∈ f.typeParameters, c.table.Apart id) :
    TidyFrom Outside c (enterFunction name f) fun _ _ => True := by
  rw [enterFunction_eq]
  refine .read ?_
  have pushed : ({ c with
      functions := c.functions.push { f with file := c.currentFile } } : Checker).Tidy Outside := by
    refine { tidy with functions := fun g member => ?_ }
    rcases Array.mem_push.mp member with old | rfl
    · exact tidy.functions g old
    · exact apart
  refine .bind (.change rfl pushed) ?_
  rintro _ _ one - rfl
  refine .ite ((tidy_error one _ _ _).weaken fun _ _ _ _ _ => trivial) ?_
  exact (TidyFrom.change rfl { one with }).weaken fun _ _ _ _ _ => trivial

theorem tidy_declareFunction (tidy : c.Tidy Outside) (name : String) (node : FunctionNode) :
    TidyFrom Outside c (declareFunction name node) fun _ _ => True := by
  rw [declareFunction_eq]
  refine .bind (tidy_pushScope tidy) fun _ c₁ one _ _ => ?_
  refine .bind (tidy_declareTypeParameters one _) ?_
  rintro ids c₂ two - ⟨-, apart⟩
  refine TidyFrom.bind (tidy_resolveParameters 0 node.parameters two) ?_
  rintro resolved c₃ three matures₃ ⟨-, given⟩
  refine TidyFrom.bind (tidy_resolveOptionalType three _) ?_
  rintro result c₄ four matures₄ ⟨-, returned⟩
  refine .bind (tidy_popScope four fun scope member =>
    four.scopes scope (List.mem_of_mem_tail member)) ?_
  rintro _ c₅ five - ⟨table, -⟩
  have apart : ∀ id ∈ ids, c₅.table.Apart id := by
    rw [table]
    exact fun id listed => matures₄.apart (matures₃.apart (apart id listed))
  have entered {c' : Checker} (tidy : c'.Tidy Outside) (matures : c₅.table.Matures c'.table)
      (type : Option TypeId) : TidyFrom Outside c' (do
        let type ← pure type
        enterFunction name ⟨node, none, ids, resolved, result, type, .unchecked⟩)
        fun _ _ => True := by
    have given : TidyFrom Outside c' (pure type) fun _ _ => True := .pure tidy trivial
    refine given.bind fun type c₆ six further _ => tidy_enterFunction six name fun id listed => ?_
    exact (matures.trans further).apart (apart id listed)
  cases result with
  | none => exact entered five (.refl _) none
  | some result =>
      have added : TidyWithin Outside c₅ (addType (.function ⟨ids, resolved, result⟩)) fun id t =>
          t.Written Outside id := by
        refine tidy_addFunction five apart ?_ ?_
        · rw [table]
          exact fun p listed => matures₄.written (given p listed)
        · rw [table]
          exact returned result rfl
      exact TidyFrom.bind added fun id c₆ six matures _ => entered six matures (some id)

theorem tidy_declareHoisted (tidy : c.Tidy Outside) (name : String)
    (declaredType : Option TypeNode) :
    TidyFrom Outside c (declareHoisted name declaredType) fun _ _ => True :=
  .bind (tidy_resolveOptionalType tidy declaredType) fun _ _ one _ _ =>
    (TidyFrom.change rfl { one with }).weaken fun _ _ _ _ _ => trivial

theorem tidy_declareStatements : ∀ (statements : List Statement) {c : Checker}, c.Tidy Outside →
    TidyFrom Outside c (declareStatements statements) fun _ _ => True
  | [], _, tidy => .pure tidy trivial
  | .function name node :: rest, _, tidy =>
      .bind (tidy_declareFunction tidy name node) fun _ _ one _ _ => tidy_declareStatements rest one
  | .variable name declaredType _ _ :: rest, _, tidy =>
      .bind (tidy_declareHoisted tidy name declaredType) fun _ _ one _ _ =>
        tidy_declareStatements rest one
  | .interface _ :: rest, _, tidy
  | .expression _ _ :: rest, _, tidy
  | .returning _ _ :: rest, _, tidy => tidy_declareStatements rest tidy

theorem tidy_setFile (tidy : c.Tidy Outside) (file : Option String) :
    TidyFrom Outside c (setFile file) fun _ _ => True :=
  (TidyFrom.change rfl { tidy with }).weaken fun _ _ _ _ _ => trivial

theorem tidy_declareFiles : ∀ (files : List SourceFile) {c : Checker}, c.Tidy Outside →
    TidyFrom Outside c (declareFiles files) fun _ _ => True
  | [], _, tidy => .pure tidy trivial
  | file :: rest, _, tidy =>
      .bind (tidy_setFile tidy _) fun _ _ one _ _ =>
        .bind (tidy_declareStatements file.statements one) fun _ _ two _ _ =>
          tidy_declareFiles rest two

theorem tidy_beginInterfaces : ∀ (statements : List Statement) {c : Checker}, c.Tidy Outside →
    TidyFrom Outside c (beginInterfaces statements) fun pending c' =>
      ∀ p ∈ pending, c'.table.Announces p
  | [], _, tidy => .pure tidy (List.forall_mem_nil _)
  | .interface declaration :: rest, _, tidy => by
      refine .bind (tidy_beginInterface tidy declaration) fun begun c₁ one _ here => ?_
      refine .bind (tidy_beginInterfaces rest one) fun others c₂ two matures later => .pure two ?_
      refine List.forall_mem_append.mpr ⟨fun p listed => ?_, later⟩
      exact (here p (Option.mem_toList.mp listed)).matures matures
  | .function _ _ :: rest, _, tidy
  | .variable _ _ _ _ :: rest, _, tidy
  | .expression _ _ :: rest, _, tidy
  | .returning _ _ :: rest, _, tidy => tidy_beginInterfaces rest tidy

theorem tidy_beginFiles : ∀ (files : List SourceFile) {c : Checker}, c.Tidy Outside →
    TidyFrom Outside c (beginFiles files) fun pending c' => ∀ p ∈ pending, c'.table.Announces p
  | [], _, tidy => .pure tidy (List.forall_mem_nil _)
  | file :: rest, _, tidy => by
      refine .bind (tidy_setFile tidy _) fun _ c₁ one _ _ => ?_
      refine .bind (tidy_beginInterfaces file.statements one) fun pending c₂ two _ here => ?_
      refine .bind (tidy_beginFiles rest two) fun others c₃ three matures later => .pure three ?_
      exact List.forall_mem_append.mpr ⟨fun p listed => (here p listed).matures matures, later⟩

theorem tidy_forInterfaces {step : PendingInterface → CheckM Unit}
    (each : ∀ (c : Checker) (p : PendingInterface), c.Tidy Outside → c.table.Announces p →
      TidyFrom Outside c (step p) fun _ _ => True) :
    ∀ (pending : List PendingInterface) {c : Checker}, c.Tidy Outside →
      (∀ p ∈ pending, c.table.Announces p) →
        TidyFrom Outside c (forInterfaces step pending) fun _ _ => True
  | [], _, tidy, _ => .pure tidy trivial
  | p :: rest, _, tidy, announced => by
      obtain ⟨here, later⟩ := List.forall_mem_cons.mp announced
      refine .bind (tidy_setFile tidy _) fun _ c₁ one matures _ => ?_
      refine .bind (each c₁ p one (here.matures matures)) fun _ c₂ two further _ => ?_
      exact tidy_forInterfaces each rest two fun q listed =>
        (later q listed).matures (matures.trans further)

theorem tidy_runDeferred : ∀ (checks : List DeferredConstraint) {c : Checker}, c.Tidy Outside →
    TidyFrom Outside c (runDeferred checks) fun _ _ => True
  | [], _, tidy => .pure tidy trivial
  | check :: rest, _, tidy =>
      .bind (tidy_setFile tidy _) fun _ _ one _ _ =>
        .bind (tidy_reportUnsatisfied one check) fun _ _ two _ _ => tidy_runDeferred rest two

theorem tidy_declareAll (tidy : c.Tidy Outside) :
    TidyFrom Outside c declareAll fun _ _ => True := by
  refine .read ?_
  refine .bind (tidy_beginFiles c.files tidy) fun pending c₁ one _ announced => ?_
  refine .bind (tidy_forInterfaces (fun _ _ held announces =>
    tidy_constrainInterface held announces) pending one announced) fun _ c₂ two matures _ => ?_
  refine .bind (tidy_forInterfaces (fun _ _ held announces =>
    tidy_completeInterface held announces) pending two fun p listed =>
      (announced p listed).matures matures) fun _ c₃ three _ _ => ?_
  refine .bind (tidy_declareFiles c.files three) fun _ c₄ four _ _ => .read ?_
  refine .bind (.change rfl { four with }) fun _ c₅ five _ _ => ?_
  exact .bind (tidy_runDeferred _ five) fun _ c₆ six _ _ => tidy_setFile six none

end Declaring

end StructuralTyping
