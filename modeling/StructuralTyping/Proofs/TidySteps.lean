import StructuralTyping.Proofs.TidyTables
import StructuralTyping.Proofs.WrittenLookups

/-! What the steps of a run make of the table. Every elementary step takes a tidy table to a
tidy one. The type names in scope stand for types that are written with the type parameters
of the interface that is being built, if there is one, so that the types which are made of
what is written there are written with them as well. -/
namespace StructuralTyping

open CheckM
open Inference (Anything)
open TypeTable

/-- Each elementary step takes the checker from one state to a next one. -/
inductive CheckM.StepsBy (next : Checker → Checker → Prop) :
    {α : Type} → CheckM α → Checker → Prop where
  | pure {α : Type} (a : α) (c : Checker) : StepsBy next (pure a) c
  | throw {α : Type} (cause : CheckError) (c : Checker) : StepsBy next (throw cause : CheckM α) c
  | bind {α β : Type} {m : CheckM α} {k : α → CheckM β} {c : Checker} : StepsBy next m c →
      (∀ a c', c.step m = (.ok a, c') → StepsBy next (k a) c') → StepsBy next (m >>= k) c
  | read {α : Type} {k : Checker → CheckM α} {c : Checker} :
      StepsBy next (k c) c → StepsBy next (get >>= k) c
  | change {f : Checker → Checker} {c : Checker} :
      next c (f c) → StepsBy next (modify f : CheckM PUnit) c
  | onTable {α : Type} {action : TableM α} {c : Checker} :
      next c (c.step (onTable action)).2 → StepsBy next (onTable action) c

namespace CheckM.StepsBy

variable {next next' : Checker → Checker → Prop} {α : Type} {m : CheckM α} {c : Checker}

theorem mono (steps : m.StepsBy next c) (weaker : ∀ a b, next a b → next' a b) :
    m.StepsBy next' c := by
  induction steps with
  | pure a c => exact .pure a c
  | throw cause c => exact .throw cause c
  | bind _ _ first later => exact .bind first later
  | read _ step => exact .read step
  | change step => exact .change (weaker _ _ step)
  | onTable step => exact .onTable (weaker _ _ step)

/-- What holds from one state to the next holds from the first to the last. -/
theorem after (steps : m.StepsBy next c) (refl : ∀ c, next c c)
    (trans : ∀ a b c, next a b → next b c → next a c) : next c (c.step m).2 := by
  induction steps with
  | pure _ c => exact refl c
  | throw _ c => exact refl c
  | @bind _ _ m k c _ _ first later =>
      rw [Checker.step_bind]
      match done : c.step m, first with
      | (.ok a, between), first => exact trans _ _ _ first (later a between done)
      | (.error cause, between), first => exact first
  | read _ step => exact step
  | change step => exact step
  | onTable step => exact step

end CheckM.StepsBy

/-- From one checker to the next the table changes bit by bit, and it resolves instances all the
time. -/
def Checker.Continues (c c' : Checker) : Prop := c.table.Passes c'.table

/-- The table is tidy, and the type names that are known stand for types that are written with
the given type parameters. Those of enclosing declarations stand for types that are apart. -/
structure Checker.Tidy (own : TypeId → Prop) (c : Checker) : Prop where
  table : c.table.Tidy
  scopes : ∀ scope ∈ c.scopes, ∀ id ∈ scope.types.values, c.table.Written own id
  declaredTypes : ∀ id ∈ c.declaredTypes.values, c.table.Apart id
  functions : ∀ f ∈ c.functions, ∀ id ∈ f.typeParameters, c.table.Apart id

/-- Outside of the declarations of interfaces, no type parameter is one of an interface. -/
abbrev Outside (_ : TypeId) : Prop := False

/-- From this checker, each elementary step keeps the table tidy, and where the step succeeds
everything is tidy again. Where it fails, at least the table is. -/
structure TidyFrom {α : Type} (own : TypeId → Prop) (c : Checker) (m : CheckM α)
    (post : α → Checker → Prop) : Prop where
  steps : m.StepsBy Checker.Continues c
  ends : ∀ a c', c.step m = (.ok a, c') → c'.Tidy own ∧ c.table.Matures c'.table ∧ post a c'
  stops : c.table.Tidy → ∀ cause c', c.step m = (.error cause, c') → c'.table.Tidy

/-- Besides, the step leaves the scopes as they are. -/
def TidyWithin {α : Type} (own : TypeId → Prop) (c : Checker) (m : CheckM α)
    (post : α → TypeTable → Prop) : Prop :=
  TidyFrom own c m fun a c' => c'.scopes = c.scopes ∧ post a c'.table

variable {α β : Type} {own own' : TypeId → Prop} {c c' : Checker}

namespace Checker.Tidy

theorem mono (tidy : c.Tidy own) (wider : ∀ p, own p → own' p) : c.Tidy own' :=
  { tidy with
    scopes := fun scope member id listed => (tidy.scopes scope member id listed).mono wider }

/-- Types that were written stay written when the table grows. -/
theorem withTable (tidy : c.Tidy own) {t : TypeTable} (table : t.Tidy)
    (matures : c.table.Matures t) : ({ c with table := t } : Checker).Tidy own where
  table := table
  scopes scope member id listed := matures.written (tidy.scopes scope member id listed)
  declaredTypes id listed := matures.apart (tidy.declaredTypes id listed)
  functions f member id listed := matures.apart (tidy.functions f member id listed)

end Checker.Tidy

namespace TidyFrom

variable {post : β → Checker → Prop}

theorem pure {b : β} (tidy : c.Tidy own) (holds : post b c) : TidyFrom own c (pure b) post where
  steps := .pure b c
  ends := by
    rintro _ _ ⟨⟩
    exact ⟨tidy, .refl _, holds⟩
  stops _ := nofun

theorem throw {cause : CheckError} : TidyFrom own c (throw cause : CheckM β) post where
  steps := .throw cause c
  ends := by rintro _ _ ⟨⟩
  stops tidy := by
    rintro _ _ ⟨⟩
    exact tidy

theorem fail {cause : ConstructionError} {location : Location} :
    TidyFrom own c (fail cause location : CheckM β) post := throw

/-- What follows is measured by the table before both steps. -/
theorem bind_since {m : CheckM α} {k : α → CheckM β} {middle : α → Checker → Prop}
    (first : TidyFrom own c m middle)
    (next : ∀ a c', c'.Tidy own → c.table.Matures c'.table → middle a c' →
      (k a).StepsBy Checker.Continues c' ∧
      (∀ b c'', c'.step (k a) = (.ok b, c'') →
        c''.Tidy own' ∧ c.table.Matures c''.table ∧ post b c'') ∧
      ∀ cause c'', c'.step (k a) = (.error cause, c'') → c''.table.Tidy) :
    TidyFrom own' c (m >>= k) post where
  steps := by
    refine .bind first.steps fun a c' done => ?_
    obtain ⟨tidy, matures, holds⟩ := first.ends a c' done
    exact (next a c' tidy matures holds).1
  ends b c'' done := by
    obtain ⟨a, c', one, two⟩ := Checker.step_bind_ok done
    obtain ⟨tidy, matures, holds⟩ := first.ends a c' one
    exact (next a c' tidy matures holds).2.1 b c'' two
  stops tidy cause c'' done := by
    rcases Checker.step_bind_error done with one | ⟨a, c', one, two⟩
    · exact first.stops tidy cause c'' one
    · obtain ⟨between, matures, holds⟩ := first.ends a c' one
      exact (next a c' between matures holds).2.2 cause c'' two

theorem bind {m : CheckM α} {k : α → CheckM β} {middle : α → Checker → Prop}
    (first : TidyFrom own c m middle)
    (next : ∀ a c', c'.Tidy own → c.table.Matures c'.table → middle a c' →
      TidyFrom own' c' (k a) post) : TidyFrom own' c (m >>= k) post := by
  refine first.bind_since fun a c' tidy matures holds => ?_
  have later := next a c' tidy matures holds
  refine ⟨later.steps, fun b c'' done => ?_, later.stops tidy.table⟩
  obtain ⟨tidy', further, result⟩ := later.ends b c'' done
  exact ⟨tidy', matures.trans further, result⟩

theorem weaken {m : CheckM β} {strong : β → Checker → Prop} (from' : TidyFrom own c m strong)
    (implies : ∀ b c', c'.Tidy own → c.table.Matures c'.table → strong b c' → post b c') :
    TidyFrom own c m post where
  steps := from'.steps
  ends b c' done := by
    obtain ⟨tidy, matures, holds⟩ := from'.ends b c' done
    exact ⟨tidy, matures, implies b c' tidy matures holds⟩
  stops := from'.stops

theorem ite {p : Prop} [Decidable p] {yes no : CheckM β} (one : TidyFrom own c yes post)
    (two : TidyFrom own c no post) : TidyFrom own c (if p then yes else no) post := by
  split
  · exact one
  · exact two

theorem read {k : Checker → CheckM β} (next : TidyFrom own c (k c) post) :
    TidyFrom own c (get >>= k) post :=
  ⟨.read next.steps, next.ends, next.stops⟩

theorem readTable {k : TypeTable → CheckM β} (next : TidyFrom own c (k c.table) post) :
    TidyFrom own c (CheckM.table >>= k) post :=
  read (k := fun c => k c.table) next

/-- A change that leaves the table alone. -/
theorem change {f : Checker → Checker} (table : (f c).table = c.table) (tidy : (f c).Tidy own) :
    TidyFrom own c (modify f : CheckM PUnit) fun _ c' => c' = f c where
  steps := by
    refine .change ?_
    rw [Checker.Continues, table]
    exact .refl _
  ends := by
    rintro _ _ ⟨⟩
    exact ⟨tidy, table ▸ .refl _, rfl⟩
  stops _ := nofun

/-- A change to the table. -/
theorem changeTable {f : TypeTable → TypeTable} (tidy : c.Tidy own)
    (changes : c.table.Changes (f c.table)) {new : Option GenericType}
    (enters : c.table.Enters (f c.table) new) :
    TidyFrom own c (modify fun checker => { checker with table := f checker.table } : CheckM PUnit)
      fun _ c' => c' = { c with table := f c.table } where
  steps := .change (Passes.single changes (tidy.table.enters enters))
  ends := by
    rintro _ _ ⟨⟩
    exact ⟨tidy.withTable (tidy.table.enters enters) enters.matures, enters.matures, rfl⟩
  stops _ := nofun

theorem addType {kind : TypeKind} (tidy : c.Tidy own) {new : Option GenericType}
    (enters : c.table.Enters (c.table.add kind).2 new) :
    TidyFrom own c (addType kind) fun id c' =>
      id = c.table.size ∧ c' = { c with table := (c.table.add kind).2 } where
  steps := .onTable (Passes.single (.add kind) (tidy.table.enters enters))
  ends := by
    rintro _ _ ⟨⟩
    exact ⟨tidy.withTable (tidy.table.enters enters) enters.matures, enters.matures, rfl, rfl⟩
  stops _ := nofun

end TidyFrom

namespace TidyWithin

variable {post : β → TypeTable → Prop}

theorem pure {b : β} (tidy : c.Tidy own) (holds : post b c.table) :
    TidyWithin own c (pure b) post :=
  TidyFrom.pure tidy ⟨rfl, holds⟩

/-- A result that does not matter. -/
theorem done {b : β} (tidy : c.Tidy own) : TidyWithin own c (Pure.pure b) Anything :=
  pure tidy trivial

theorem fail {cause : ConstructionError} {location : Location} :
    TidyWithin own c (CheckM.fail cause location : CheckM β) post := TidyFrom.fail

theorem ite {p : Prop} [Decidable p] {yes no : CheckM β} (one : TidyWithin own c yes post)
    (two : TidyWithin own c no post) : TidyWithin own c (if p then yes else no) post :=
  TidyFrom.ite one two

theorem read {k : Checker → CheckM β} (next : TidyWithin own c (k c) post) :
    TidyWithin own c (get >>= k) post := TidyFrom.read next

theorem readTable {k : TypeTable → CheckM β} (next : TidyWithin own c (k c.table) post) :
    TidyWithin own c (CheckM.table >>= k) post := TidyFrom.readTable next

theorem bind {m : CheckM α} {k : α → CheckM β} {middle : α → TypeTable → Prop}
    (first : TidyWithin own c m middle)
    (next : ∀ a c', c'.Tidy own → c.table.Matures c'.table → middle a c'.table →
      TidyWithin own c' (k a) post) : TidyWithin own c (m >>= k) post := by
  refine TidyFrom.bind first fun a c' tidy matures kept => ?_
  refine TidyFrom.weaken (next a c' tidy matures kept.2) fun b c'' _ _ later => ?_
  exact ⟨later.1.trans kept.1, later.2⟩

/-- A question about types. -/
theorem onTable {action : TableM α} (tidy : c.Tidy own) (derives : action.Derives) :
    TidyWithin own c (onTable action) Anything where
  steps := .onTable ((derives c.table).passes tidy.table)
  ends := by
    rintro _ _ ⟨⟩
    have develops := derives c.table
    have matures := develops.toDerives.matures
    exact ⟨tidy.withTable (develops.tidy tidy.table) matures, matures, rfl, trivial⟩
  stops _ := nofun

end TidyWithin

section Steps
variable (tidy : c.Tidy own)

include tidy

theorem tidy_report (d : Diagnostic) : TidyWithin own c (report d) Anything :=
  (TidyFrom.change rfl { tidy with }).weaken fun _ _ _ _ same => ⟨same ▸ rfl, trivial⟩

theorem tidy_error (location : Location) (message : Message) (arguments : List String) :
    TidyWithin own c (error location message arguments) Anything :=
  tidy_report tidy _

theorem tidy_display (id : TypeId) : TidyWithin own c (display id) Anything :=
  .readTable (.done tidy)

theorem tidy_assignable (source target : TypeId) (fresh : Bool) :
    TidyWithin own c (CheckM.assignable source target fresh) Anything :=
  .read (.onTable tidy (derives_assignable _ source target fresh))

theorem tidy_reportUnsatisfied (check : DeferredConstraint) :
    TidyWithin own c (reportUnsatisfied check) Anything := by
  refine .readTable ?_
  cases c.table.constraint? check.parameter with
  | none => exact .done tidy
  | some bound =>
      refine .bind (.onTable tidy (derives_substitute _ _)) fun target c₁ one _ _ => ?_
      refine .bind (tidy_assignable one _ _ _) fun verdict c₂ two _ _ => ?_
      cases verdict with
      | ok => exact .done two
      | error =>
          refine .bind (tidy_display two _) fun _ c₃ three _ _ => ?_
          exact .bind (tidy_display three _) fun _ c₄ four _ _ => tidy_error four _ _ _

theorem tidy_checkConstraint (parameter argument : TypeId) (bindings : Bindings)
    (location : Location) :
    TidyWithin own c (checkConstraint parameter argument bindings location) Anything := by
  rw [checkConstraint_eq]
  refine .read (.ite ?_ (tidy_reportUnsatisfied tidy _))
  exact (TidyFrom.change rfl { tidy with }).weaken fun _ _ _ _ same => ⟨same ▸ rfl, trivial⟩

omit tidy in
theorem tidy_checkConstraints (bindings : Bindings) :
    ∀ (pairs : List ((TypeId × TypeId) × Location)) {c : Checker}, c.Tidy own →
      TidyWithin own c (checkConstraints bindings pairs) Anything
  | [], _, tidy => .done tidy
  | ((parameter, argument), location) :: rest, _, tidy =>
      .bind (tidy_checkConstraint tidy parameter argument bindings location)
        fun _ _ one _ _ => tidy_checkConstraints bindings rest one

/-- What a type name stands for is written. -/
theorem tidy_lookupType (name : String) :
    TidyWithin own c (lookupType name) fun found t => ∀ id ∈ found, t.Written own id := by
  refine .read ?_
  have inScope : ∀ scopes : List Scope,
      (∀ scope ∈ scopes, ∀ id ∈ scope.types.values, c.table.Written own id) →
        ∀ id ∈ lookupTypeIn name scopes, c.table.Written own id := by
    intro scopes
    induction scopes with
    | nil => rintro - id ⟨⟩
    | cons scope outer ih =>
        intro written
        obtain ⟨here, others⟩ := List.forall_mem_cons.mp written
        rw [lookupTypeIn]
        split
        · next found =>
            rintro _ ⟨⟩
            exact here _ (List.mem_map_of_mem (Dictionary.mem_of_find? found))
        · exact ih others
  have local? := inScope c.scopes tidy.scopes
  split
  · next found => exact .pure tidy fun id same => local? id (found ▸ same)
  · refine .pure tidy fun id found => .apart ?_
    exact tidy.declaredTypes id (List.mem_map_of_mem (Dictionary.mem_of_find? found))

theorem tidy_pushScope :
    TidyFrom own c (pushScope .empty) fun _ c' => c'.table = c.table ∧
      c'.scopes = .empty :: c.scopes := by
  have held : ({ c with scopes := .empty :: c.scopes } : Checker).Tidy own :=
    { tidy with scopes := List.forall_mem_cons.mpr ⟨List.forall_mem_nil _, tidy.scopes⟩ }
  exact (TidyFrom.change rfl held).weaken fun _ _ _ _ same => same ▸ ⟨rfl, rfl⟩

/-- Leave a scope; outside of it the type parameters may be others. -/
theorem tidy_popScope
    (outer : ∀ scope ∈ c.scopes.tail, ∀ id ∈ scope.types.values, c.table.Written own' id) :
    TidyFrom own' c popScope fun _ c' => c'.table = c.table ∧ c'.scopes = c.scopes.tail := by
  have held : ({ c with scopes := c.scopes.tail } : Checker).Tidy own' :=
    { tidy with scopes := outer }
  exact (TidyFrom.change rfl held).weaken fun _ _ _ _ same => same ▸ ⟨rfl, rfl⟩

theorem tidy_bindType (name : String) {id : TypeId} (written : c.table.Written own id) :
    TidyFrom own c (bindType name id) fun _ c' => c'.table = c.table ∧
      c'.scopes.tail = c.scopes.tail := by
  rw [bindType, updateScope_eq]
  have held : ({ c with scopes := c.scopes.modifyHead fun scope =>
      { scope with types := scope.types.insert name id } } : Checker).Tidy own := by
    refine { tidy with scopes := ?_ }
    have before := tidy.scopes
    cases scopes : c.scopes with
    | nil => exact List.forall_mem_nil _
    | cons scope outer =>
        rw [scopes] at before
        obtain ⟨here, others⟩ := List.forall_mem_cons.mp before
        refine List.forall_mem_cons.mpr ⟨fun other listed => ?_, others⟩
        exact (Dictionary.mem_values_insertIn listed).elim (· ▸ written) (here other)
  refine (TidyFrom.change rfl held).weaken fun _ _ _ _ same => same ▸ ⟨rfl, ?_⟩
  cases c.scopes <;> rfl

omit tidy in
theorem tidy_bindTypeParameterNames (reportDuplicates : Bool) :
    ∀ (parameters : List (TypeParameterNode × TypeId)) {c : Checker}, c.Tidy own →
      (∀ parameter ∈ parameters, c.table.Written own parameter.2) →
        TidyFrom own c (bindTypeParameterNames reportDuplicates parameters) fun _ c' =>
          c'.scopes.tail = c.scopes.tail
  | [], _, tidy, _ => .pure tidy rfl
  | (node, id) :: rest, c, tidy, written => by
      obtain ⟨here, later⟩ := List.forall_mem_cons.mp written
      refine .read ?_
      split
      · exact .pure tidy rfl
      refine .bind (tidy_bindType tidy _ here) ?_
      rintro _ c₁ one matures ⟨table, tail⟩
      have others {c₂ : Checker} (two : c₂.Tidy own) (matures : c.table.Matures c₂.table)
          (tail : c₂.scopes.tail = c.scopes.tail) :
          TidyFrom own c₂ (bindTypeParameterNames reportDuplicates rest) fun _ c' =>
            c'.scopes.tail = c.scopes.tail :=
        (tidy_bindTypeParameterNames reportDuplicates rest two
          fun parameter listed => matures.written (later parameter listed)).weaken
            fun _ _ _ _ same => same.trans tail
      dsimp only
      split
      · refine TidyFrom.bind (tidy_error one _ _ _) fun _ c₂ two further kept => ?_
        exact others two (matures.trans further) (by rw [kept.1, tail])
      · exact others one matures tail

/-- A type that is made of written types is written. -/
theorem tidy_addDerived {kind : TypeKind} (derived : kind.isDerived = true)
    (origin : ∀ i, kind = .instantiated i → ∃ g, c.table.InstanceOf i g)
    (binders : ∀ p ∈ kind.binders, c.table.Open p)
    (parts : ∀ m ∈ kind.parts, c.table.Written own m) :
    TidyWithin own c (addType kind) fun id t => t.Written own id := by
  have plain : ∀ g, kind ≠ .generic g := by
    rintro g rfl
    cases derived
  refine (TidyFrom.addType tidy (tidy.table.enters_add kind plain origin)).weaken ?_
  rintro _ _ - matures ⟨rfl, rfl⟩
  refine ⟨rfl, .composed (tidy.table.open_of_new (fun origin g generic => ?_) (Nat.le_refl _) ?_) ?_
    ?_ ?_⟩
  · exact (entry_add generic (by simp)).resolve_right (plain g)
  · simp
  · rwa [kind_add_size]
  · rw [kind_add_size]
    exact fun p declared => matures.open (binders p declared)
  · rw [kind_add_size]
    exact fun m part => matures.written (parts m part)

theorem tidy_addFunction {f : FunctionType}
    (typeParameters : ∀ p ∈ f.typeParameters, c.table.Apart p)
    (parameters : ∀ p ∈ f.parameters, c.table.Written own p.type)
    (result : c.table.Written own f.returnType) :
    TidyWithin own c (addType (.function f)) fun id t => t.Written own id := by
  have binders : ∀ p ∈ f.typeParameters, c.table.Open p := fun p declared =>
    (typeParameters p declared).itself
  refine tidy_addDerived tidy rfl (by simp) binders fun m part => ?_
  rcases List.mem_append.mp part with listed | last
  · obtain ⟨p, member, rfl⟩ := List.mem_map.mp listed
    exact parameters p member
  · exact List.mem_singleton.mp last ▸ result

omit tidy in
theorem TypeKind.forall_parts_object {o : ObjectType} {holds : TypeId → Prop}
    (properties : ∀ p ∈ o.properties.pairs, holds p.2.type) :
    ∀ m ∈ (TypeKind.object o).parts, holds m :=
  List.forall_mem_map.mpr (List.forall_mem_map.mpr properties)

theorem tidy_addObject {o : ObjectType}
    (properties : ∀ p ∈ o.properties.pairs, c.table.Written own p.2.type) :
    TidyWithin own c (addType (.object o)) fun id t => t.Written own id :=
  tidy_addDerived tidy rfl (by simp) (List.forall_mem_nil _)
    (TypeKind.forall_parts_object properties)

omit tidy in
/-- An instance has an argument for each type parameter, in their order. -/
theorem TypeTable.InOrder.instanceOf {t : TypeTable} {declared : TypeId} {g : GenericType}
    {arguments : List TypeId} {i : InstantiatedType} (inOrder : t.InOrder g)
    (generic : t.kind declared = .generic g) (count : arguments.length = g.typeParameters.length)
    (built : t.instanceOf declared (t.nameArguments (g.typeParameters.zip arguments)) = .ok i) :
    t.InstanceOf i g ∧ i.bindings.values = arguments := by
  have typed : ∀ p ∈ g.typeParameters, ∃ name constraint,
      t.kind p = .typeParameter name constraint := by
    intro p listed
    have leaf := inOrder.parameters p listed
    unfold flag at leaf
    revert leaf
    cases t.kind p <;> simp [TypeKind.flag]
  have named : t.nameArguments (g.typeParameters.zip arguments) =
      (g.typeParameters.map t.typeParameterName).zip arguments :=
    filterMap_typeParameter typed arguments
  rw [named, TypeTable.instanceOf, generic] at built
  dsimp only at built
  cases accepted : orderBindings g.name (g.typeParameters.map t.typeParameterName)
      (.ofList ((g.typeParameters.map t.typeParameterName).zip arguments)) with
  | error cause => simp [accepted, Except.map] at built
  | ok ordered =>
      rw [accepted] at built
      obtain rfl := Except.ok.inj built
      have pairs := orderBindings_zip (by simp [count]) accepted
      refine ⟨⟨generic, ?_⟩, ?_⟩
      · rw [Dictionary.keys, pairs]
        exact List.map_fst_zip (by simp [count])
      · rw [Dictionary.values, pairs]
        exact List.map_snd_zip (by simp [count])

theorem tidy_instantiateReference {declared : TypeId} {g : GenericType} {arguments : List TypeId}
    (generic : c.table.kind declared = .generic g)
    (count : arguments.length = g.typeParameters.length)
    (written : ∀ a ∈ arguments, c.table.Written own a) (locations : List Location)
    (location : Location) :
    TidyWithin own c (instantiateReference declared g arguments locations location) fun id t =>
      t.Written own id := by
  rw [instantiateReference_eq]
  refine .bind (tidy_checkConstraints _ _ tidy) fun _ c₁ one matures _ => .readTable ?_
  have generic := matures.generic generic
  cases built : c₁.table.instanceOf declared
      (c₁.table.nameArguments (g.typeParameters.zip arguments)) with
  | error cause => exact .fail
  | ok i =>
      obtain ⟨instance', values⟩ :=
        (one.table.generics declared g generic).instanceOf generic count built
      refine tidy_addDerived one rfl ?_ (List.forall_mem_nil _) fun m part => ?_
      · rintro _ ⟨⟩
        exact ⟨g, instance'⟩
      · exact matures.written (written m (values ▸ part))

end Steps

section Parameters

/-- These type parameters have just been made. -/
structure TypeTable.Fresh (t t' : TypeTable) (ids : List TypeId) : Prop where
  prepares : t.Prepares t'
  new : ∀ id ∈ ids, t.size ≤ id ∧ t'.flag id = .typeParameter
  distinct : ids.Nodup

theorem TypeTable.Fresh.apart {t t' : TypeTable} {ids : List TypeId} (fresh : t.Fresh t' ids)
    (tidy : t.Tidy) : ∀ id ∈ ids, t'.Apart id := by
  intro id listed
  obtain ⟨new, leaf⟩ := fresh.new id listed
  exact fresh.prepares.apart_of_new tidy new (lt_size_of_flag (by simp [leaf]))

theorem tidy_freshTypeParameters : ∀ (nodes : List TypeParameterNode) {c : Checker}, c.Tidy own →
    TidyFrom own c (freshTypeParameters nodes) fun ids c' =>
      c' = { c with table := c'.table } ∧ c.table.Fresh c'.table ids
  | [], c, tidy => .pure tidy ⟨rfl, .refl _, List.forall_mem_nil _, List.nodup_nil⟩
  | node :: rest, c, tidy => by
      rw [freshTypeParameters, List.mapM_cons]
      have leaf : (TypeKind.typeParameter node.name none).flag = .typeParameter := rfl
      have enters := tidy.table.enters_add (.typeParameter node.name none) (by simp) (by simp)
      refine .bind (TidyFrom.addType tidy enters) ?_
      rintro _ _ one - ⟨rfl, rfl⟩
      refine .bind (tidy_freshTypeParameters rest one) ?_
      rintro ids c₂ two - ⟨same, fresh⟩
      have prepares := (Prepares.add c.table (.inl leaf)).trans fresh.prepares
      refine .pure two ⟨same, prepares, ?_, ?_⟩
      · refine List.forall_mem_cons.mpr ⟨⟨Nat.le_refl _, ?_⟩, fun id listed => ?_⟩
        · rw [flag, fresh.prepares.extended.kind _ (by simp), kind_add_size]
          rfl
        · obtain ⟨new, leaf⟩ := fresh.new id listed
          rw [size_add] at new
          exact ⟨Nat.le_of_succ_le new, leaf⟩
      · refine List.nodup_cons.mpr ⟨fun listed => ?_, fresh.distinct⟩
        have new := (fresh.new _ listed).1
        rw [size_add] at new
        exact Nat.not_succ_le_self _ new

theorem tidy_setConstraint (tidy : c.Tidy own) (id bound : TypeId) :
    TidyWithin own c (modify fun checker =>
      { checker with table := checker.table.setConstraint id bound } : CheckM PUnit) Anything :=
  (TidyFrom.changeTable (f := fun t => t.setConstraint id bound) tidy (.constrain id bound)
    (enters_setConstraint _ id bound)).weaken fun _ _ _ _ same => ⟨same ▸ rfl, trivial⟩

end Parameters

section Types

theorem Checker.Tidy.basic (tidy : c.Tidy own) {id : TypeId} (early : id ≤ TypeId.unknown) :
    c.table.Written own id :=
  .apart (tidy.table.basic id early)

mutual

theorem tidy_resolveType : ∀ (node : TypeNode) {c : Checker}, c.Tidy own →
    TidyWithin own c (resolveType node) fun id t => t.Written own id
  | .keyword keyword _, c, tidy => .pure tidy (tidy.basic (by cases keyword <;> decide))
  | .reference name arguments location, c, tidy => by
      have unknown {c' : Checker} (tidy : c'.Tidy own) (message : Message) (shown : List String) :
          TidyWithin own c' (do
            error location message shown
            return TypeId.unknown) fun id t => t.Written own id :=
        .bind (tidy_error tidy _ _ _) fun _ _ later _ _ => .pure later (later.basic (Nat.le_refl _))
      rw [resolveType]
      refine .bind (tidy_lookupType tidy name) fun found c₁ one _ written => ?_
      cases found with
      | none => exact unknown one _ _
      | some declared =>
          have written := written declared rfl
          refine .readTable ?_
          split
          · next g generic =>
              split
              · exact unknown one _ _
              · next count =>
                  refine .bind (tidy_resolveTypes arguments one) ?_
                  rintro ids c₂ two matures ⟨length, given⟩
                  exact tidy_instantiateReference two (matures.generic generic)
                    (length.trans (not_not.mp count)) given _ _
          · dsimp only
            split
            · refine .bind (tidy_display one _) fun _ c₂ two matures _ => ?_
              refine .bind (tidy_error two _ _ _) fun _ c₃ three further _ => ?_
              exact .pure three (further.written (matures.written written))
            · exact .pure one written
  | .literal members _, c, tidy => by
      rw [resolveType]
      refine .bind (tidy_resolveMembers [] members tidy) fun properties c₁ one _ written => ?_
      unfold ObjectType.ofProperties
      cases ObjectType.firstRepeated [] properties with
      | some repeated => exact .fail
      | none => exact tidy_addObject one written
  | .function typeParameters parameters returnType _, c, tidy => by
      rw [resolveType]
      refine TidyFrom.bind (tidy_pushScope tidy) ?_
      rintro _ c₁ one - ⟨table, scopes⟩
      refine TidyFrom.bind (tidy_freshTypeParameters typeParameters one) ?_
      rintro ids c₂ two - ⟨same, fresh⟩
      have apart := fresh.apart one.table
      refine TidyFrom.bind (tidy_bindTypeParameterNames true _ two fun parameter listed =>
        .apart (apart _ (List.of_mem_zip listed).2)) fun _ c₃ three matures tail => ?_
      refine TidyFrom.bind (tidy_resolveConstraints typeParameters ids three) ?_
      rintro _ c₄ four set ⟨scopes₄, -⟩
      refine TidyFrom.bind (tidy_resolveParameters 0 parameters four) ?_
      rintro resolved c₅ five later ⟨scopes₅, given⟩
      refine TidyFrom.bind (tidy_resolveType returnType five) ?_
      rintro result c₆ six last ⟨scopes₆, returned⟩
      have outer : c₆.scopes.tail = c.scopes := by
        rw [scopes₆, scopes₅, scopes₄, tail, same]
        exact congrArg List.tail scopes
      have around : ∀ scope ∈ c₆.scopes.tail, ∀ id ∈ scope.types.values, c₆.table.Written own id :=
        fun scope member => six.scopes scope (List.mem_of_mem_tail member)
      refine TidyFrom.bind (tidy_popScope six around) ?_
      rintro _ c₇ seven - ⟨table, popped⟩
      have since := matures.trans (set.trans (later.trans last))
      refine TidyFrom.weaken (tidy_addFunction seven ?_ ?_ ?_) fun id c' _ _ kept =>
        ⟨kept.1.trans (popped.trans outer), kept.2⟩
      · rw [table]
        exact fun id listed => since.apart (apart id listed)
      · rw [table]
        exact fun p listed => last.written (given p listed)
      · rw [table]
        exact returned

theorem tidy_resolveTypes : ∀ (nodes : List TypeNode) {c : Checker}, c.Tidy own →
    TidyWithin own c (resolveTypes nodes) fun ids t =>
      ids.length = nodes.length ∧ ∀ id ∈ ids, t.Written own id
  | [], c, tidy => .pure tidy ⟨rfl, List.forall_mem_nil _⟩
  | node :: rest, c, tidy => by
      rw [resolveTypes]
      refine .bind (tidy_resolveType node tidy) fun id c₁ one _ here => ?_
      refine .bind (tidy_resolveTypes rest one) ?_
      rintro ids c₂ two matures ⟨length, others⟩
      exact .pure two ⟨congrArg (· + 1) length,
        List.forall_mem_cons.mpr ⟨matures.written here, others⟩⟩

theorem tidy_resolveMembers (seen : List String) :
    ∀ (members : List PropertySignature) {c : Checker}, c.Tidy own →
      TidyWithin own c (resolveMembers seen members) fun properties t =>
        ∀ p ∈ properties, t.Written own p.2.type
  | [], c, tidy => .pure tidy (List.forall_mem_nil _)
  | ⟨name, optional, declaredType, location⟩ :: rest, c, tidy => by
      have resolved {c' : Checker} (tidy : c'.Tidy own) : TidyWithin own c' (do
          let type ← resolveType declaredType
          let properties ← resolveMembers (name :: seen) rest
          return (name, (⟨type, optional⟩ : Property)) :: properties) fun properties t =>
            ∀ p ∈ properties, t.Written own p.2.type := by
        refine .bind (tidy_resolveType declaredType tidy) fun id c₁ one _ here => ?_
        refine .bind (tidy_resolveMembers (name :: seen) rest one) ?_
        intro properties c₂ two matures others
        exact .pure two (List.forall_mem_cons.mpr ⟨matures.written here, others⟩)
      rw [resolveMembers]
      split
      · have failed : TidyWithin own c (fail (.duplicateProperty name) location : CheckM PUnit)
            Anything := .fail
        exact .bind failed fun _ _ one _ _ => resolved one
      · exact resolved tidy

theorem tidy_resolveConstraints :
    ∀ (nodes : List TypeParameterNode) (ids : List TypeId) {c : Checker}, c.Tidy own →
      TidyWithin own c (resolveConstraints nodes ids) Anything
  | [], _, c, tidy => by
      rw [resolveConstraints]
      · exact .done tidy
      · simp
  | _ :: _, [], c, tidy => by
      rw [resolveConstraints]
      · exact .done tidy
      · simp
  | ⟨_, none, _⟩ :: nodes, _ :: ids, c, tidy => by
      rw [resolveConstraints]
      exact tidy_resolveConstraints nodes ids tidy
  | ⟨_, some node, _⟩ :: nodes, id :: ids, c, tidy => by
      rw [resolveConstraints]
      refine .bind (tidy_resolveType node tidy) fun bound c₁ one _ _ => ?_
      refine .bind (tidy_setConstraint one id bound) fun _ c₂ two _ _ => ?_
      exact tidy_resolveConstraints nodes ids two

theorem tidy_resolveParameters (index : Nat) :
    ∀ (parameters : List ParameterNode) {c : Checker}, c.Tidy own →
      TidyWithin own c (resolveParameters none index parameters) fun resolved t =>
        ∀ p ∈ resolved, t.Written own p.type
  | [], c, tidy => .pure tidy (List.forall_mem_nil _)
  | ⟨name, optional, annotation, _⟩ :: rest, c, tidy => by
      have others {c' : Checker} (tidy : c'.Tidy own) {id : TypeId}
          (written : c'.table.Written own id) : TidyWithin own c' (do
            let parameters ← resolveParameters none (index + 1) rest
            return (⟨name, id, optional⟩ : Parameter) :: parameters) fun resolved t =>
              ∀ p ∈ resolved, t.Written own p.type := by
        refine .bind (tidy_resolveParameters (index + 1) rest tidy) ?_
        intro parameters c₁ one matures resolved
        exact .pure one (List.forall_mem_cons.mpr ⟨matures.written written, resolved⟩)
      match annotation with
      | none =>
          rw [resolveParameters]
          exact others tidy (tidy.basic (Nat.le_refl _))
      | some node =>
          rw [resolveParameters]
          exact .bind (tidy_resolveType node tidy) fun _ _ one _ written => others one written

end

end Types

end StructuralTyping
