import StructuralTyping.Proofs.Constructors
import StructuralTyping.Proofs.IdentifierRun
import StructuralTyping.Proofs.StepProperties
import StructuralTyping.Tree.Build

/-! Runs that come to their end. A run is aborted by a repeated property, by bindings
that do not fit a generic interface, or by an entry that is defined twice. The first is
excluded by the tree. The second needs a generic interface whose type parameters share
a name, for a reference passes as many arguments as there are parameters. The third
does not happen: the body of an interface is reserved when its name is entered and
stays reserved until that very interface is completed. Every other mistake is reported,
and the run goes on. -/
namespace StructuralTyping

open CheckM

namespace TypeKind

/-- The entry without what its declaration may still set. -/
def bare : TypeKind → TypeKind
  | typeParameter name _ => typeParameter name none
  | kind => kind

theorem eq_of_bare {kind kind' : TypeKind} (same : kind.bare = kind'.bare)
    (other : ∀ name constraint, kind' ≠ .typeParameter name constraint) : kind = kind' := by
  cases kind <;> cases kind' <;> simp_all [bare]

theorem exists_of_bare {kind : TypeKind} {name : String} {constraint : Option TypeId}
    (same : kind.bare = (typeParameter name constraint).bare) :
    ∃ constraint', kind = .typeParameter name constraint' := by
  cases kind <;> simp_all [bare]

end TypeKind

namespace TypeTable

/-- The entries stay what they are but for the constraints of type parameters, and for
reserved entries that are filled. -/
structure Keeps (filled : List TypeId) (t t' : TypeTable) : Prop where
  size : t.size ≤ t'.size
  kind : ∀ id < t.size, (t'.kind id).bare = (t.kind id).bare ∨ id ∈ filled ∧ t.kind id = .pending

/-- References to the generic interfaces can be built. -/
def Instantiable (t : TypeTable) : Prop := ∀ id g, t.kind id = .generic g → t.Headed g

namespace Keeps

variable {filled filled' : List TypeId} {t t' t'' : TypeTable}

theorem setConstraint (t : TypeTable) (id constraint : TypeId) :
    t.Keeps [] (t.setConstraint id constraint) where
  size := by simp
  kind other _ := by
    rcases kind_setConstraint t id constraint other with same | ⟨name, before, entry, set⟩
    · exact .inl (congrArg TypeKind.bare same)
    · exact .inl (by simp [entry, set, TypeKind.bare])

theorem of_extends (extended : t.Extends t') : t.Keeps [] t' :=
  ⟨extended.size, fun id inside => .inl (congrArg TypeKind.bare (extended.kind id inside))⟩

theorem trans (one : t.Keeps filled t') (two : t'.Keeps filled' t'') :
    t.Keeps (filled ++ filled') t'' where
  size := Nat.le_trans one.size two.size
  kind id inside := by
    rcases one.kind id inside with same | ⟨member, pending⟩
    · rcases two.kind id (Nat.lt_of_lt_of_le inside one.size) with later | ⟨member, pending⟩
      · exact .inl (later.trans same)
      · have before : t.kind id = .pending :=
          TypeKind.eq_of_bare (same.symm.trans (congrArg TypeKind.bare pending)) (by simp)
        exact .inr ⟨List.mem_append_right _ member, before⟩
    · exact .inr ⟨List.mem_append_left _ member, pending⟩

/-- What is filled behind the end of the first table was no entry of it. -/
theorem behind (keeps : t.Keeps filled t') (outside : ∀ id ∈ filled, t.size ≤ id) :
    t.Keeps [] t' where
  size := keeps.size
  kind id inside := by
    rcases keeps.kind id inside with same | ⟨member, -⟩
    · exact .inl same
    · exact absurd inside (Nat.not_lt.mpr (outside id member))

/-- Any entry but a type parameter is the same later if it is not filled. -/
theorem entry {id : TypeId} {kind : TypeKind} (keeps : t.Keeps filled t')
    (entry : t.kind id = kind) (known : kind ≠ .unknown) (unfilled : id ∉ filled)
    (other : ∀ name constraint, kind ≠ .typeParameter name constraint) : t'.kind id = kind := by
  rcases keeps.kind id (lt_size_of_kind entry known) with same | ⟨member, -⟩
  · exact TypeKind.eq_of_bare (entry ▸ same) other
  · exact absurd member unfilled

theorem typeParameter {id : TypeId} {name : String} {constraint : Option TypeId}
    (keeps : t.Keeps filled t') (entry : t.kind id = .typeParameter name constraint) :
    ∃ constraint', t'.kind id = .typeParameter name constraint' := by
  rcases keeps.kind id (lt_size_of_kind entry (by simp)) with same | ⟨-, pending⟩
  · exact TypeKind.exists_of_bare (entry ▸ same)
  · simp [entry] at pending

theorem headed {g : GenericType} (keeps : t.Keeps filled t') (headed : t.Headed g) :
    t'.Headed g := by
  refine headed.congr fun p member => ?_
  obtain ⟨name, constraint, entry⟩ := headed.parameters p member
  rw [typeParameterName, entry]
  exact keeps.typeParameter entry

/-- The generic interfaces that were there can be instantiated as before. -/
theorem instantiable (keeps : t.Keeps filled t') (ready : t.Instantiable)
    (new : ∀ id g, t'.kind id = .generic g → t.kind id = .generic g ∨ t'.Headed g) :
    t'.Instantiable := by
  intro id g generic
  rcases new id g generic with old | proper
  · exact keeps.headed (ready id g old)
  · exact proper

end Keeps

end TypeTable

namespace Checker

/-- References can be built, and neither the files nor the bodies that wait repeat a
name. -/
structure Ready (c : Checker) : Prop where
  table : c.table.Instantiable
  functions : ∀ f ∈ c.functions, Unrepeated f.node.nameGroups
  files : Unrepeated (programNameGroups c.files)

/-- A checker that is ready again, with the entries of the first. -/
structure Reaches (filled : List TypeId) (c c' : Checker) : Prop where
  ready : c'.Ready
  keeps : c.table.Keeps filled c'.table

namespace Reaches

variable {filled filled' : List TypeId} {c c' c'' : Checker}

/-- Changes outside the table, the functions and the files do not matter. -/
theorem of_eq (ready : c.Ready) (table : c'.table = c.table)
    (functions : c'.functions = c.functions) (files : c'.files = c.files) : c.Reaches [] c' where
  ready := ⟨table ▸ ready.table, functions ▸ ready.functions, files ▸ ready.files⟩
  keeps := table ▸ .of_extends (.refl _)

theorem trans (one : c.Reaches filled c') (two : c'.Reaches filled' c'') :
    c.Reaches (filled ++ filled') c'' :=
  ⟨two.ready, one.keeps.trans two.keeps⟩

/-- A new table with the entries of the old one, in which generic interfaces are
proper. -/
theorem of_table {t : TypeTable} (ready : c.Ready) (keeps : c.table.Keeps filled t)
    (new : ∀ id g, t.kind id = .generic g → c.table.kind id = .generic g ∨ t.Headed g) :
    c.Reaches filled { c with table := t } :=
  ⟨⟨keeps.instantiable ready.table new, ready.functions, ready.files⟩, keeps⟩

end Reaches

end Checker

/-- The step succeeds from this checker. -/
def CompletesFrom {α : Type} (c : Checker) (m : CheckM α) (post : α → Checker → Prop) : Prop :=
  ∃ a c', c.step m = (.ok a, c') ∧ post a c'

/-- The step succeeds from every checker that is ready. -/
def CompletesWith {α : Type} (m : CheckM α) (post : α → Prop) : Prop :=
  ∀ c : Checker, c.Ready → CompletesFrom c m fun a c' => post a ∧ c.Reaches [] c'

abbrev Completes {α : Type} (m : CheckM α) : Prop := CompletesWith m fun _ => True

section Completion
variable {α β : Type}

namespace CompletesFrom

variable {c : Checker} {post : β → Checker → Prop}

theorem pure {b : β} (holds : post b c) : CompletesFrom c (pure b) post := ⟨b, c, rfl, holds⟩

theorem bind {m : CheckM α} {k : α → CheckM β} {middle : α → Checker → Prop}
    (first : CompletesFrom c m middle)
    (next : ∀ a c', middle a c' → CompletesFrom c' (k a) post) :
    CompletesFrom c (m >>= k) post := by
  obtain ⟨a, between, one, reached⟩ := first
  obtain ⟨b, c', two, holds⟩ := next a between reached
  refine ⟨b, c', ?_, holds⟩
  rw [Checker.step_bind, one]
  exact two

theorem get_bind {k : Checker → CheckM β} (next : CompletesFrom c (k c) post) :
    CompletesFrom c (get >>= k) post := next

theorem table_bind {k : TypeTable → CheckM β} (next : CompletesFrom c (k c.table) post) :
    CompletesFrom c (CheckM.table >>= k) post := next

theorem ite {p : Prop} [Decidable p] {yes no : CheckM β} (one : CompletesFrom c yes post)
    (two : CompletesFrom c no post) : CompletesFrom c (if p then yes else no) post := by
  split
  · exact one
  · exact two

theorem weaken {m : CheckM β} {strong : β → Checker → Prop} (completes : CompletesFrom c m strong)
    (implies : ∀ b c', strong b c' → post b c') : CompletesFrom c m post := by
  obtain ⟨b, c', done, holds⟩ := completes
  exact ⟨b, c', done, implies b c' holds⟩

theorem and {m : CheckM β} {other : β → Checker → Prop} (one : CompletesFrom c m post)
    (two : CompletesFrom c m other) : CompletesFrom c m fun b c' => post b c' ∧ other b c' := by
  obtain ⟨b, c', done, holds⟩ := one
  obtain ⟨_, _, done', holds'⟩ := two
  obtain ⟨⟨⟩, rfl⟩ := Prod.mk.inj (done.symm.trans done')
  exact ⟨b, c', done, holds, holds'⟩

end CompletesFrom

namespace CompletesWith

theorem pure {post : β → Prop} {b : β} (holds : post b) : CompletesWith (pure b) post :=
  fun _ ready => .pure ⟨holds, .of_eq ready rfl rfl rfl⟩

theorem bind {m : CheckM α} {k : α → CheckM β} {middle : α → Prop} {post : β → Prop}
    (first : CompletesWith m middle) (next : ∀ a, middle a → CompletesWith (k a) post) :
    CompletesWith (m >>= k) post :=
  fun c ready => (first c ready).bind fun a c' ⟨holds, reached⟩ =>
    (next a holds c' reached.ready).weaken fun _ _ ⟨result, later⟩ => ⟨result, reached.trans later⟩

/-- What the first step gives does not matter. -/
theorem after {m : CheckM α} {k : α → CheckM β} {post : β → Prop} (first : Completes m)
    (next : ∀ a, CompletesWith (k a) post) : CompletesWith (m >>= k) post :=
  first.bind fun a _ => next a

theorem get_bind {k : Checker → CheckM β} {post : β → Prop}
    (next : ∀ c : Checker, c.Ready → CompletesFrom c (k c) fun b c' => post b ∧ c.Reaches [] c') :
    CompletesWith (get >>= k) post := next

end CompletesWith

end Completion

section Steps

theorem completes_modify {f : Checker → Checker}
    (same : ∀ c, (f c).table = c.table ∧ (f c).functions = c.functions ∧ (f c).files = c.files) :
    Completes (modify f : CheckM PUnit) :=
  fun c ready => ⟨(), f c, rfl, trivial, .of_eq ready (same c).1 (same c).2.1 (same c).2.2⟩

theorem completes_onTable {α : Type} {action : TableM α} (derives : action.Derives) :
    Completes (onTable action) := by
  intro c ready
  have derived := (derives c.table).toDerives
  refine ⟨_, _, c.step_onTable action, trivial, ?_⟩
  refine .of_table ready (.of_extends derived.extended) fun id g generic => .inl ?_
  exact derived.kind_of_not_derived generic (by simp) rfl

theorem completes_report (d : Diagnostic) : Completes (report d) :=
  completes_modify fun _ => ⟨rfl, rfl, rfl⟩

theorem completes_get : Completes (get : CheckM Checker) :=
  fun _ ready => ⟨_, _, rfl, trivial, .of_eq ready rfl rfl rfl⟩

theorem scopeProperty_completes : ScopeProperty (fun _ => True) Completes where
  pure _ := .pure trivial
  bind := .after
  reading _ := completes_get.after
  onTable := completes_onTable
  report _ _ := completes_report _
  reportOpen parameter here :=
    reportOpen_of (fun _ => True) (fun _ => completes_get.after) (fun _ _ => completes_report _)
      (.pure trivial) here parameter
  modifyScopes _ := completes_modify fun _ => ⟨rfl, rfl, rfl⟩
  changeScopes _ := completes_modify fun _ => ⟨rfl, rfl, rfl⟩
  modifyReturns _ := completes_modify fun _ => ⟨rfl, rfl, rfl⟩
  bindGlobal _ _ := completes_modify fun _ => ⟨rfl, rfl, rfl⟩

theorem completes_setFile (file : Option String) : Completes (setFile file) :=
  completes_modify fun _ => ⟨rfl, rfl, rfl⟩

/-- Anything but a generic interface can be added. -/
theorem completesFrom_addType {c : Checker} {kind : TypeKind} (ready : c.Ready)
    (other : ∀ g, kind ≠ .generic g) :
    CompletesFrom c (addType kind) fun id c' =>
      (id = c.table.size ∧ c'.table.kind id = kind) ∧ c.Reaches [] c' := by
  refine ⟨_, _, c.step_onTable (TableM.add kind), ⟨rfl, TypeTable.kind_add_size _ _⟩, ?_⟩
  have extended := TypeTable.Extends.add c.table kind
  refine .of_table ready (.of_extends extended) fun id g generic => .inl ?_
  exact (TypeTable.entry_add generic (by simp)).resolve_right (other g)

theorem completes_reportUnsatisfied (check : DeferredConstraint) :
    Completes (reportUnsatisfied check) :=
  scopeProperty_completes.reportUnsatisfied check fun _ => completes_report _

theorem completes_checkConstraint (parameter argument : TypeId) (bindings : Bindings)
    (location : Location) : Completes (checkConstraint parameter argument bindings location) := by
  refine .get_bind fun c ready => ?_
  dsimp only
  split
  · exact ⟨_, _, c.step_set _, trivial, .of_eq ready rfl rfl rfl⟩
  · exact completes_reportUnsatisfied _ c ready

theorem completes_checkConstraints (bindings : Bindings)
    (pairs : List ((TypeId × TypeId) × Location)) :
    Completes (checkConstraints bindings pairs) := by
  induction pairs with
  | nil => exact .pure trivial
  | cons pair rest ih => exact .after (completes_checkConstraint _ _ _ _) fun _ => ih

theorem completes_setConstraint (id bound : TypeId) :
    Completes (modify fun checker =>
      { checker with table := checker.table.setConstraint id bound } : CheckM PUnit) := by
  intro c ready
  refine ⟨_, _, c.step_modify _, trivial, .of_table ready (.setConstraint c.table id bound) ?_⟩
  exact fun other g generic => .inl (TypeTable.generic_setConstraint generic)

end Steps

section References

/-- A reference with as many arguments as there are parameters can be built. -/
theorem completesFrom_instantiateReference {c : Checker} (ready : c.Ready) {declared : TypeId}
    {g : GenericType} (generic : c.table.kind declared = .generic g) {arguments : List TypeId}
    (count : arguments.length = g.typeParameters.length) (locations : List Location)
    (location : Location) :
    CompletesFrom c (instantiateReference declared g arguments locations location)
      fun _ c' => c.Reaches [] c' := by
  refine (completes_checkConstraints _ _ c ready).bind fun _ between ⟨_, checked⟩ => ?_
  have still : between.table.kind declared = .generic g :=
    checked.keeps.entry generic (by simp) List.not_mem_nil (by simp)
  have headed := checked.ready.table declared g still
  have named := TypeTable.filterMap_typeParameter headed.parameters arguments
  obtain ⟨ordered, accepted⟩ := TypeTable.addInstantiated_accepts still headed
    ((congrArg (List.map Prod.fst) named).trans
      (List.map_fst_zip (by simp [count])))
  refine .table_bind ?_
  dsimp only
  split
  · next id t built =>
      obtain ⟨rfl, rfl⟩ := Prod.mk.inj (Except.ok.inj (accepted.symm.trans built))
      have extended := TypeTable.Extends.add between.table (.instantiated ⟨declared, ordered⟩)
      refine ⟨_, _, rfl, checked.trans (.of_table checked.ready (.of_extends extended) ?_)⟩
      exact fun other g' generic' =>
        .inl ((TypeTable.entry_add generic' (by simp)).resolve_right (by simp))
  · next cause refused => exact nomatch accepted.symm.trans refused

end References

section WrittenTypes

theorem completes_freshTypeParameters (nodes : List TypeParameterNode) :
    Completes (freshTypeParameters nodes) := by
  induction nodes with
  | nil => exact .pure trivial
  | cons node rest ih =>
      rw [freshTypeParameters, List.mapM_cons]
      have added : Completes (addType (.typeParameter node.name none)) := fun c ready =>
        (completesFrom_addType ready (by simp)).weaken fun _ _ ⟨_, reached⟩ => ⟨trivial, reached⟩
      exact .after added fun id => .after ih fun ids => .pure trivial

theorem completes_addType {kind : TypeKind} (derived : kind.isDerived = true)
    (other : kind.flag ≠ .instantiated) : Completes (addType kind) :=
  scopeProperty_completes.addType derived other

mutual

theorem completes_resolveType :
    ∀ node : TypeNode, Unrepeated node.nameGroups → Completes (resolveType node)
  | .keyword _ _, _ => .pure trivial
  | .reference name arguments location, unrepeated => by
      rw [resolveType]
      refine .after (scopeProperty_completes.lookupType name) fun found => ?_
      cases found with
      | none =>
          exact .after (scopeProperty_completes.error trivial _ (by decide)) fun _ => .pure trivial
      | some declared =>
          intro c ready
          refine .table_bind ?_
          dsimp only
          split
          · next g generic =>
              split
              · have reported : Completes (do
                    error location .genericRequiresArguments
                      [name, toString g.typeParameters.length]
                    return TypeId.unknown) :=
                  .after (scopeProperty_completes.error trivial _ (by decide)) fun _ => .pure trivial
                exact reported c ready
              · next fitting =>
                  refine (completes_resolveTypes arguments unrepeated c ready).bind ?_
                  intro ids between ⟨count, resolved⟩
                  have still : between.table.kind declared = .generic g :=
                    resolved.keeps.entry generic (by simp) List.not_mem_nil (by simp)
                  refine (completesFrom_instantiateReference resolved.ready still ?_ _ _).weaken ?_
                  · rw [count]
                    exact not_not.mp fitting
                  · exact fun _ _ reached => ⟨trivial, resolved.trans reached⟩
          · have shown : Completes (do
                if !arguments.isEmpty then error location .notGeneric [← display declared]
                return declared) := by
              dsimp only
              split
              · refine .after (scopeProperty_completes.display _) fun text => ?_
                exact .after (scopeProperty_completes.error trivial _ (by decide)) fun _ =>
                  .pure trivial
              · exact .pure trivial
            exact shown c ready
  | .literal members location, unrepeated => by
      obtain ⟨distinct, inside⟩ := (Unrepeated.cons_iff _ _).mp unrepeated
      rw [resolveType]
      refine (completes_resolveMembers [] members distinct (by simp) inside).bind ?_
      intro properties names
      have accepted := (ObjectType.ofProperties_eq_ok_iff none properties _).mpr
        ⟨names ▸ distinct, rfl⟩
      rw [accepted]
      exact completes_addType rfl nofun
  | .function typeParameters parameters returnType _, unrepeated => by
      obtain ⟨constraints, rest⟩ := (Unrepeated.append_iff _ _).mp unrepeated
      obtain ⟨inside, result⟩ := (Unrepeated.append_iff _ _).mp rest
      rw [resolveType]
      refine .after scopeProperty_completes.pushScope fun _ => ?_
      refine .after (completes_freshTypeParameters typeParameters) fun ids => ?_
      refine .after (scopeProperty_completes.bindTypeParameterNames _ _ fun _ _ => trivial)
        fun _ => ?_
      refine .after (completes_resolveConstraints typeParameters ids constraints) fun _ => ?_
      refine .after (completes_resolveParameters none 0 parameters inside) fun resolved => ?_
      refine .after (completes_resolveType returnType result) fun returned => ?_
      refine .after scopeProperty_completes.popScope fun _ => ?_
      exact completes_addType rfl nofun

theorem completes_resolveTypes :
    ∀ nodes : List TypeNode, Unrepeated (typeNameGroups nodes) →
      CompletesWith (resolveTypes nodes) fun ids => ids.length = nodes.length
  | [], _ => .pure rfl
  | node :: rest, unrepeated => by
      obtain ⟨here, later⟩ := (Unrepeated.append_iff _ _).mp unrepeated
      rw [resolveTypes]
      refine .after (completes_resolveType node here) fun id => ?_
      refine (completes_resolveTypes rest later).bind fun ids count => .pure ?_
      rw [List.length_cons, List.length_cons, count]

/-- The members keep their names. -/
theorem completes_resolveMembers (seen : List String) :
    ∀ members : List PropertySignature, (members.map PropertySignature.name).Nodup →
      (∀ name ∈ members.map PropertySignature.name, name ∉ seen) →
      Unrepeated (memberNameGroups members) →
      CompletesWith (resolveMembers seen members) fun properties =>
        properties.map Prod.fst = members.map PropertySignature.name
  | [], _, _, _ => .pure rfl
  | ⟨name, optional, declaredType, location⟩ :: rest, distinct, unseen, unrepeated => by
      obtain ⟨absent, distinct⟩ := List.nodup_cons.mp distinct
      obtain ⟨new, unseen⟩ := List.forall_mem_cons.mp unseen
      obtain ⟨here, later⟩ := (Unrepeated.append_iff _ _).mp unrepeated
      have apart : ∀ other ∈ rest.map PropertySignature.name, other ∉ name :: seen := by
        intro other member before
        rcases List.mem_cons.mp before with rfl | before
        · exact absent member
        · exact unseen other member before
      have unknown : seen.contains name = false := by simpa using new
      rw [resolveMembers, unknown]
      dsimp only
      refine .after (completes_resolveType declaredType here) fun id => ?_
      refine (completes_resolveMembers (name :: seen) rest distinct apart later).bind ?_
      intro properties names
      exact .pure (congrArg (name :: ·) names)

theorem completes_resolveConstraints :
    ∀ (nodes : List TypeParameterNode) (ids : List TypeId),
      Unrepeated (constraintNameGroups nodes) → Completes (resolveConstraints nodes ids)
  | [], _, _ => by
      rw [resolveConstraints]
      · exact .pure trivial
      · simp
  | _ :: _, [], _ => by
      rw [resolveConstraints]
      · exact .pure trivial
      · simp
  | ⟨_, none, _⟩ :: nodes, _ :: ids, unrepeated => by
      rw [resolveConstraints]
      exact completes_resolveConstraints nodes ids unrepeated
  | ⟨_, some node, _⟩ :: nodes, id :: ids, unrepeated => by
      obtain ⟨here, later⟩ := (Unrepeated.append_iff _ _).mp unrepeated
      rw [resolveConstraints]
      refine .after (completes_resolveType node here) fun bound => ?_
      refine .after (completes_setConstraint id bound) fun _ => ?_
      exact completes_resolveConstraints nodes ids later

theorem completes_resolveParameters (context : Option FunctionType) (index : Nat) :
    ∀ parameters : List ParameterNode, Unrepeated (parameterNameGroups parameters) →
      Completes (resolveParameters context index parameters)
  | [], _ => .pure trivial
  | ⟨_, _, none, _⟩ :: rest, unrepeated => by
      rw [resolveParameters]
      refine .after (.pure trivial) fun _ => ?_
      exact .after (completes_resolveParameters context (index + 1) rest unrepeated) fun _ =>
        .pure trivial
  | ⟨_, _, some node, _⟩ :: rest, unrepeated => by
      obtain ⟨here, later⟩ := (Unrepeated.append_iff _ _).mp unrepeated
      rw [resolveParameters]
      refine .after (completes_resolveType node here) fun _ => ?_
      exact .after (completes_resolveParameters context (index + 1) rest later) fun _ =>
        .pure trivial

end

theorem completes_declareTypeParameters (nodes : List TypeParameterNode)
    (unrepeated : Unrepeated (constraintNameGroups nodes)) :
    Completes (declareTypeParameters nodes) := by
  refine .after (completes_freshTypeParameters nodes) fun ids => ?_
  refine .after (scopeProperty_completes.bindTypeParameterNames _ _ fun _ _ => trivial) fun _ => ?_
  exact .after (completes_resolveConstraints nodes ids unrepeated) fun _ => .pure trivial

end WrittenTypes

section Interfaces

/-- The new type parameters have the written names. -/
theorem completesFrom_freshTypeParameters (nodes : List TypeParameterNode) {c : Checker}
    (ready : c.Ready) :
    CompletesFrom c (freshTypeParameters nodes) fun ids c' =>
      c.Reaches [] c' ∧ List.Forall₂ (fun (node : TypeParameterNode) id =>
        ∃ constraint, c'.table.kind id = .typeParameter node.name constraint) nodes ids := by
  induction nodes generalizing c with
  | nil => exact .pure ⟨.of_eq ready rfl rfl rfl, .nil⟩
  | cons node rest ih =>
      rw [freshTypeParameters, List.mapM_cons]
      refine (completesFrom_addType ready (by simp)).bind fun id between ⟨⟨_, entry⟩, added⟩ => ?_
      refine (ih added.ready).bind fun ids c' ⟨others, named⟩ => .pure ⟨added.trans others, ?_⟩
      exact .cons (others.keeps.typeParameter entry) named

theorem headed_of_named {t : TypeTable} {nodes : List TypeParameterNode} {ids : List TypeId}
    (named : List.Forall₂ (fun (node : TypeParameterNode) id =>
      ∃ constraint, t.kind id = .typeParameter node.name constraint) nodes ids)
    (distinct : (nodes.map TypeParameterNode.name).Nodup) (name : String) (body : TypeId) :
    t.Headed ⟨name, ids, body⟩ where
  parameters :=
    forall₂_right (fun node _ ⟨constraint, entry⟩ => ⟨node.name, constraint, entry⟩) named
  distinct := by
    have names : ids.map t.typeParameterName = nodes.map TypeParameterNode.name := by
      clear distinct
      induction named with
      | nil => rfl
      | cons one _ ih =>
          obtain ⟨constraint, entry⟩ := one
          rw [List.map_cons, List.map_cons, ih, TypeTable.typeParameterName, entry]
    exact names ▸ distinct

theorem completesFrom_addGeneric {c : Checker} {g : GenericType} (ready : c.Ready)
    (headed : c.table.Headed g) :
    CompletesFrom c (addType (.generic g)) fun _ c' => c.Reaches [] c' := by
  have keeps : c.table.Keeps [] (c.table.add (.generic g)).2 :=
    .of_extends (.add c.table (.generic g))
  refine ⟨_, _, c.step_onTable _, .of_table ready keeps fun id g' generic => ?_⟩
  rcases TypeTable.entry_add (t := c.table) generic (by simp) with old | same
  · exact .inl old
  · obtain rfl := TypeKind.generic.inj same
    exact .inr (keeps.headed headed)

/-- The body of an interface is reserved behind the entries that were there. -/
structure Checker.Reserves (c c' : Checker) (declaration : InterfaceDeclaration)
    (p : PendingInterface) : Prop where
  declaration : p.declaration = declaration
  behind : c.table.size ≤ p.body
  pending : c'.table.kind p.body = .pending

theorem completesFrom_beginInterface {c : Checker} (ready : c.Ready)
    {declaration : InterfaceDeclaration} (unrepeated : Unrepeated declaration.nameGroups) :
    CompletesFrom c (beginInterface declaration) fun begun c' =>
      c.Reaches [] c' ∧ ∀ p, begun = some p → c.Reserves c' declaration p := by
  have distinct := ((Unrepeated.cons_iff _ _).mp unrepeated).1
  have entered (ids : List TypeId) (body declared : TypeId) : CompletesWith (do
      if c.scopes.isEmpty then
        modify fun checker =>
          { checker with
            declaredTypes := checker.declaredTypes.insert declaration.name declared }
      else bindType declaration.name declared
      return some (⟨declaration, body, ids, c.currentFile⟩ : PendingInterface))
      fun begun => begun = some ⟨declaration, body, ids, c.currentFile⟩ := by
    dsimp only
    split
    · exact .after (completes_modify fun _ => ⟨rfl, rfl, rfl⟩) fun _ => .pure rfl
    · exact .after (scopeProperty_completes.bindType _ _) fun _ => .pure rfl
  refine .get_bind (.ite ?_ ?_)
  · refine (scopeProperty_completes.error trivial _ (by decide) c ready).bind ?_
    exact fun _ _ ⟨_, reported⟩ => .pure ⟨reported, nofun⟩
  refine (completesFrom_freshTypeParameters _ ready).bind fun ids one ⟨first, named⟩ => ?_
  refine (completesFrom_addType first.ready (by simp)).bind ?_
  rintro body two ⟨⟨rfl, reserved⟩, second⟩
  have finish {three : Checker} (third : two.Reaches [] three) (begun : Option PendingInterface)
      (c' : Checker) (entry : begun = some ⟨declaration, one.table.size, ids, c.currentFile⟩ ∧
        three.Reaches [] c') :
      c.Reaches [] c' ∧ ∀ p, begun = some p → c.Reserves c' declaration p := by
    obtain ⟨rfl, fourth⟩ := entry
    have later := third.trans fourth
    refine ⟨first.trans (second.trans later), fun p same => ?_⟩
    obtain rfl := Option.some.inj same
    exact ⟨rfl, first.keeps.size, later.keeps.entry reserved (by simp) (by simp) (by simp)⟩
  dsimp only
  split
  · have bound : two.Reaches [] two := .of_eq second.ready rfl rfl rfl
    exact (entered ids _ _ two second.ready).weaken (finish bound)
  · have headed := headed_of_named named distinct declaration.name one.table.size
    refine (completesFrom_addGeneric second.ready (second.keeps.headed headed)).bind ?_
    intro declared three third
    exact (entered ids _ declared three third.ready).weaken (finish third)

/-- Setting the constraints fills nothing. -/
theorem completes_constrainInterface {p : PendingInterface}
    (unrepeated : Unrepeated p.declaration.nameGroups) : Completes (constrainInterface p) := by
  obtain ⟨-, rest⟩ := (Unrepeated.cons_iff _ _).mp unrepeated
  obtain ⟨-, rest⟩ := (Unrepeated.cons_iff _ _).mp rest
  obtain ⟨constraints, -⟩ := (Unrepeated.append_iff _ _).mp rest
  refine .after scopeProperty_completes.pushScope fun _ => ?_
  refine .after (scopeProperty_completes.bindTypeParameterNames _ _ fun _ _ => trivial) fun _ => ?_
  refine .after (completes_resolveConstraints _ _ constraints) fun _ => ?_
  exact scopeProperty_completes.popScope

theorem completes_buildObjectType (name : Option String) (members : List PropertySignature)
    (distinct : (members.map PropertySignature.name).Nodup)
    (unrepeated : Unrepeated (memberNameGroups members)) :
    Completes (buildObjectType name members) := by
  refine (completes_resolveMembers [] members distinct (by simp) unrepeated).bind ?_
  intro properties names
  have accepted := (ObjectType.ofProperties_eq_ok_iff name properties _).mpr ⟨names ▸ distinct, rfl⟩
  rw [accepted]
  exact .pure trivial

/-- A body that is reserved can be filled. -/
theorem completesFrom_completeInterface {c : Checker} (ready : c.Ready) {p : PendingInterface}
    (reserved : c.table.kind p.body = .pending)
    (unrepeated : Unrepeated p.declaration.nameGroups) :
    CompletesFrom c (completeInterface p) fun _ c' => c.Reaches [p.body] c' := by
  obtain ⟨-, rest⟩ := (Unrepeated.cons_iff _ _).mp unrepeated
  obtain ⟨distinct, rest⟩ := (Unrepeated.cons_iff _ _).mp rest
  obtain ⟨-, members⟩ := (Unrepeated.append_iff _ _).mp rest
  refine (scopeProperty_completes.pushScope c ready).bind fun _ one ⟨_, first⟩ => ?_
  have named := scopeProperty_completes.bindTypeParameterNames false
    (p.declaration.typeParameters.zip p.typeParameters) fun _ _ => trivial
  refine (named one first.ready).bind ?_
  intro _ two ⟨_, second⟩
  refine (completes_buildObjectType _ _ distinct members two second.ready).bind ?_
  intro o three ⟨_, third⟩
  refine (scopeProperty_completes.popScope three third.ready).bind ?_
  intro _ between ⟨_, fourth⟩
  have reached := first.trans (second.trans (third.trans fourth))
  refine .table_bind ?_
  have still : between.table.kind p.body = .pending :=
    reached.keeps.entry reserved (by simp) (by simp) (by simp)
  have inside : p.body < between.table.size := TypeTable.lt_size_of_kind still (by simp)
  rw [TypeTable.define, if_pos still]
  suffices filled : between.Reaches [p.body] { between with
      table := between.table.setKind p.body (.object o) } from
    ⟨_, _, Checker.step_modify _ _, reached.trans filled⟩
  refine .of_table reached.ready ⟨?_, ?_⟩ ?_
  · exact (TypeTable.size_setKind _ _ _).ge
  · intro id _
    rw [TypeTable.kind_setKind inside]
    split
    · next same => exact .inr ⟨by simp [same], same ▸ still⟩
    · exact .inl rfl
  · intro id g generic
    rw [TypeTable.kind_setKind inside] at generic
    split at generic
    · simp at generic
    · exact .inl generic

/-- An interface in a block is built at once. -/
theorem completes_declareInterface {declaration : InterfaceDeclaration}
    (unrepeated : Unrepeated declaration.nameGroups) :
    Completes (declareInterface declaration) := by
  intro c ready
  refine (completesFrom_beginInterface ready unrepeated).bind fun begun one ⟨first, ours⟩ => ?_
  cases begun with
  | none => exact .pure ⟨trivial, first⟩
  | some p =>
      obtain ⟨same, behind, pending⟩ := ours p rfl
      have unrepeated : Unrepeated p.declaration.nameGroups := same ▸ unrepeated
      refine (completes_constrainInterface unrepeated one first.ready).bind ?_
      intro _ two ⟨_, second⟩
      have still := second.keeps.entry pending (by simp) (by simp) (by simp)
      refine (completesFrom_completeInterface second.ready still unrepeated).weaken ?_
      intro _ three third
      have whole := first.trans (second.trans third)
      exact ⟨trivial, whole.ready, whole.keeps.behind (by simpa using behind)⟩

theorem treeProperty_completes : TreeProperty true (fun _ => True) Completes where
  toStepProperty := scopeProperty_completes.toStepProperty
  checkConstraint _ _ _ _ _ := completes_checkConstraint _ _ _ _
  resolveType node considered := completes_resolveType node (considered.unrepeated rfl)
  declareTypeParameters nodes considered :=
    completes_declareTypeParameters nodes (considered.unrepeated rfl)
  declareInterface _ considered := completes_declareInterface (considered.unrepeated rfl)
  fail _ _ unclean := nomatch unclean

end Interfaces

section Declaring

/-- The bodies are reserved apart from each other, and what they declare repeats no
name. -/
structure TypeTable.Reserved (t : TypeTable) (pending : List PendingInterface) : Prop where
  apart : (pending.map PendingInterface.body).Nodup
  each : ∀ p ∈ pending, t.kind p.body = .pending ∧ Unrepeated p.declaration.nameGroups

namespace TypeTable.Reserved

variable {t t' : TypeTable} {first second pending : List PendingInterface}

theorem nil (t : TypeTable) : t.Reserved [] := ⟨List.nodup_nil, List.forall_mem_nil _⟩

theorem keeps {filled : List TypeId} (reserved : t.Reserved pending) (keeps : t.Keeps filled t')
    (unfilled : ∀ p ∈ pending, p.body ∉ filled) : t'.Reserved pending where
  apart := reserved.apart
  each p member := by
    obtain ⟨kind, unrepeated⟩ := reserved.each p member
    exact ⟨keeps.entry kind (by simp) (unfilled p member) (by simp), unrepeated⟩

/-- Bodies that are reserved later are behind those that were reserved before. -/
theorem append (one : t.Reserved first) (two : t'.Reserved second) (keeps : t.Keeps [] t')
    (behind : ∀ p ∈ second, t.size ≤ p.body) : t'.Reserved (first ++ second) where
  apart := by
    rw [List.map_append, List.nodup_append]
    refine ⟨one.apart, two.apart, ?_⟩
    intro body before body' after same
    obtain ⟨p, listed, rfl⟩ := List.mem_map.mp before
    obtain ⟨q, listed', rfl⟩ := List.mem_map.mp after
    have inside : p.body < t.size := lt_size_of_kind (one.each p listed).1 (by simp)
    exact absurd (same ▸ inside) (Nat.not_lt.mpr (behind q listed'))
  each := List.forall_mem_append.mpr ⟨(one.keeps keeps (by simp)).each, two.each⟩

end TypeTable.Reserved

/-- The names of interfaces are entered and their bodies reserved. -/
def Begins (m : CheckM (List PendingInterface)) : Prop :=
  ∀ c : Checker, c.Ready → CompletesFrom c m fun begun c' =>
    c.Reaches [] c' ∧ c'.table.Reserved begun ∧ ∀ p ∈ begun, c.table.size ≤ p.body

theorem Begins.nil : Begins (pure []) := fun c ready =>
  .pure ⟨.of_eq ready rfl rfl rfl, .nil c.table, List.forall_mem_nil _⟩

theorem Begins.append {first second : CheckM (List PendingInterface)} (one : Begins first)
    (two : Begins second) :
    Begins (do
      let pending ← first
      let others ← second
      return pending ++ others) := by
  intro c ready
  refine (one c ready).bind fun pending between ⟨reached, ours, behind⟩ => ?_
  refine (two between reached.ready).bind fun others c' ⟨later, theirs, behind'⟩ => .pure ?_
  refine ⟨reached.trans later, ours.append theirs later.keeps behind', ?_⟩
  refine List.forall_mem_append.mpr ⟨behind, fun p member => ?_⟩
  exact Nat.le_trans reached.keeps.size (behind' p member)

theorem begins_beginInterfaces :
    ∀ statements : List Statement, Unrepeated (statementNameGroups statements) →
      Begins (beginInterfaces statements)
  | [], _ => .nil
  | .interface declaration :: rest, unrepeated => by
      obtain ⟨here, later⟩ := (Unrepeated.append_iff _ _).mp unrepeated
      have one : Begins (do
          let pending ← beginInterface declaration
          return pending.toList) := by
        intro c ready
        refine (completesFrom_beginInterface ready here).bind fun begun c' ⟨reached, ours⟩ => ?_
        cases begun with
        | none => exact .pure ⟨reached, .nil _, List.forall_mem_nil _⟩
        | some p =>
            obtain ⟨same, behind, pending⟩ := ours p rfl
            refine .pure ⟨reached, ⟨List.nodup_singleton _, ?_⟩, ?_⟩
            · exact List.forall_mem_singleton.mpr ⟨pending, same ▸ here⟩
            · exact List.forall_mem_singleton.mpr behind
      have whole := one.append (begins_beginInterfaces rest later)
      rw [beginInterfaces]
      simpa only [bind_assoc, pure_bind] using whole
  | .function _ _ :: rest, unrepeated =>
      begins_beginInterfaces rest ((Unrepeated.append_iff _ _).mp unrepeated).2
  | .variable _ _ _ _ :: rest, unrepeated =>
      begins_beginInterfaces rest ((Unrepeated.append_iff _ _).mp unrepeated).2
  | .expression _ _ :: rest, unrepeated =>
      begins_beginInterfaces rest ((Unrepeated.append_iff _ _).mp unrepeated).2
  | .returning _ _ :: rest, unrepeated =>
      begins_beginInterfaces rest ((Unrepeated.append_iff _ _).mp unrepeated).2

theorem begins_beginFiles (files : List SourceFile)
    (unrepeated : Unrepeated (programNameGroups files)) : Begins (beginFiles files) := by
  induction files with
  | nil => exact .nil
  | cons file rest ih =>
      obtain ⟨here, later⟩ := (Unrepeated.append_iff _ _).mp unrepeated
      have both := (begins_beginInterfaces file.statements here).append (ih later)
      intro c ready
      refine (completes_setFile (some file.name) c ready).bind fun _ between ⟨_, named⟩ => ?_
      refine (both between named.ready).weaken fun begun c' ⟨reached, reserved, behind⟩ => ?_
      refine ⟨named.trans reached, reserved, fun p member => ?_⟩
      exact Nat.le_trans named.keeps.size (behind p member)

theorem completes_constrainInterfaces (pending : List PendingInterface)
    (unrepeated : ∀ p ∈ pending, Unrepeated p.declaration.nameGroups) :
    Completes (forInterfaces constrainInterface pending) := by
  induction pending with
  | nil => exact .pure trivial
  | cons p rest ih =>
      obtain ⟨here, later⟩ := List.forall_mem_cons.mp unrepeated
      refine .after (completes_setFile _) fun _ => ?_
      exact .after (completes_constrainInterface here) fun _ => ih later

/-- Each interface fills its own body, so the others stay reserved. -/
theorem completesFrom_completeInterfaces (pending : List PendingInterface) {c : Checker}
    (ready : c.Ready) (reserved : c.table.Reserved pending) :
    CompletesFrom c (forInterfaces completeInterface pending) fun _ c' =>
      c.Reaches (pending.map PendingInterface.body) c' := by
  induction pending generalizing c with
  | nil => exact .pure (.of_eq ready rfl rfl rfl)
  | cons p rest ih =>
      obtain ⟨absent, apart⟩ := List.nodup_cons.mp reserved.apart
      obtain ⟨⟨kind, unrepeated⟩, others⟩ := List.forall_mem_cons.mp reserved.each
      refine (completes_setFile p.file c ready).bind fun _ one ⟨_, named⟩ => ?_
      have still := named.keeps.entry kind (by simp) (by simp) (by simp)
      refine (completesFrom_completeInterface named.ready still unrepeated).bind ?_
      intro _ two filled
      have rest := TypeTable.Reserved.keeps ⟨apart, others⟩ (named.trans filled).keeps
        fun q member equal => absent (List.mem_map.mpr ⟨q, member, by simpa using equal⟩)
      exact (ih filled.ready rest).weaken fun _ c' later => (named.trans filled).trans later

theorem completes_declareFunction (name : String) {node : FunctionNode}
    (unrepeated : Unrepeated node.nameGroups) : Completes (declareFunction name node) := by
  obtain ⟨typeParameters, parameters, returnType, body, location⟩ := node
  obtain ⟨signature, inBody⟩ := (Unrepeated.append_iff _ _).mp unrepeated
  obtain ⟨constraints, rest⟩ := (Unrepeated.append_iff _ _).mp signature
  obtain ⟨inside, result⟩ := (Unrepeated.append_iff _ _).mp rest
  refine .after scopeProperty_completes.pushScope fun _ => ?_
  refine .after (completes_declareTypeParameters typeParameters constraints) fun ids => ?_
  refine .after (completes_resolveParameters none 0 parameters inside) fun resolved => ?_
  refine .after (treeProperty_completes.resolveOptionalType returnType
    (.anywhere fun _ => result)) fun declared => ?_
  refine .after scopeProperty_completes.popScope fun _ => ?_
  have registered (type : Option TypeId) : Completes (do
      let checker ← get
      set { checker with
        functions := checker.functions.push
          ⟨⟨typeParameters, parameters, returnType, body, location⟩, checker.currentFile, ids,
            resolved, declared, type, .unchecked⟩ }
      if checker.globals.contains name then error location .duplicateIdentifier [name]
      else
        modify fun c =>
          { c with globals := c.globals.insert name (.function checker.functions.size) }) := by
    refine .get_bind fun c ready => ?_
    have pushed : CompletesFrom c (set { c with
        functions := c.functions.push ⟨⟨typeParameters, parameters, returnType, body, location⟩,
          c.currentFile, ids, resolved, declared, type, .unchecked⟩ } : CheckM PUnit)
        fun _ c' => c.Reaches [] c' := by
      refine ⟨_, _, Checker.step_set _ _, ⟨⟨ready.table, fun f member => ?_, ready.files⟩, ?_⟩⟩
      · rcases Array.mem_push.mp member with old | rfl
        · exact ready.functions f old
        · exact unrepeated
      · exact .of_extends (.refl _)
    refine pushed.bind fun _ between reached => ?_
    have named : Completes (if c.globals.contains name
        then error location .duplicateIdentifier [name]
        else modify fun checker => { checker with
          globals := checker.globals.insert name (.function c.functions.size) }) :=
      QuietProperty.ite (scopeProperty_completes.error trivial _ (by decide))
        (completes_modify fun _ => ⟨rfl, rfl, rfl⟩)
    exact (named between reached.ready).weaken fun _ _ ⟨_, later⟩ => ⟨trivial, reached.trans later⟩
  cases declared with
  | none => exact registered none
  | some id => exact .after (completes_addType rfl nofun) fun type => registered (some type)

theorem completes_declareHoisted (name : String) (declaredType : Option TypeNode)
    (unrepeated : Unrepeated (optionalTypeNameGroups declaredType)) :
    Completes (declareHoisted name declaredType) :=
  .after (treeProperty_completes.resolveOptionalType declaredType
      (.anywhere fun _ => unrepeated)) fun _ =>
    completes_modify fun _ => ⟨rfl, rfl, rfl⟩

theorem completes_declareStatements :
    ∀ statements : List Statement, Unrepeated (statementNameGroups statements) →
      Completes (declareStatements statements)
  | [], _ => .pure trivial
  | .interface _ :: rest, unrepeated =>
      completes_declareStatements rest ((Unrepeated.append_iff _ _).mp unrepeated).2
  | .function name node :: rest, unrepeated => by
      obtain ⟨here, later⟩ := (Unrepeated.append_iff _ _).mp unrepeated
      exact .after (completes_declareFunction name here) fun _ =>
        completes_declareStatements rest later
  | .variable name declaredType initializer location :: rest, unrepeated => by
      obtain ⟨here, later⟩ := (Unrepeated.append_iff _ _).mp unrepeated
      have inType : Unrepeated (optionalTypeNameGroups declaredType) := by
        cases initializer with
        | none => exact here
        | some expression => exact ((Unrepeated.append_iff _ _).mp here).1
      exact .after (completes_declareHoisted name declaredType inType) fun _ =>
        completes_declareStatements rest later
  | .expression _ _ :: rest, unrepeated =>
      completes_declareStatements rest ((Unrepeated.append_iff _ _).mp unrepeated).2
  | .returning _ _ :: rest, unrepeated =>
      completes_declareStatements rest ((Unrepeated.append_iff _ _).mp unrepeated).2

theorem completes_declareFiles (files : List SourceFile)
    (unrepeated : Unrepeated (programNameGroups files)) : Completes (declareFiles files) := by
  induction files with
  | nil => exact .pure trivial
  | cons file rest ih =>
      obtain ⟨here, later⟩ := (Unrepeated.append_iff _ _).mp unrepeated
      refine .after (completes_setFile _) fun _ => ?_
      exact .after (completes_declareStatements file.statements here) fun _ => ih later

theorem completes_runDeferred (checks : List DeferredConstraint) :
    Completes (runDeferred checks) := by
  induction checks with
  | nil => exact .pure trivial
  | cons check rest ih =>
      refine .after (completes_setFile _) fun _ => ?_
      exact .after (completes_reportUnsatisfied check) fun _ => ih

theorem completesFrom_declareAll {c : Checker} (ready : c.Ready) :
    CompletesFrom c declareAll fun _ c' => c'.Ready := by
  refine .get_bind ((begins_beginFiles c.files ready.files c ready).bind ?_)
  intro pending one ⟨begun, reserved, _⟩
  have constraints := completes_constrainInterfaces pending fun p member =>
    (reserved.each p member).2
  refine (constraints one begun.ready).bind fun _ two ⟨_, constrained⟩ => ?_
  have still := reserved.keeps constrained.keeps (by simp)
  refine (completesFrom_completeInterfaces pending constrained.ready still).bind ?_
  intro _ three completed
  have rest : Completes (do
      declareFiles c.files
      let deferred := (← get).deferred
      modify fun checker => { checker with deferred := [] }
      runDeferred deferred
      setFile none) := by
    refine .after (completes_declareFiles c.files ready.files) fun _ => ?_
    refine .after completes_get fun checker => ?_
    refine .after (completes_modify fun _ => ⟨rfl, rfl, rfl⟩) fun _ => ?_
    exact .after (completes_runDeferred _) fun _ => completes_setFile none
  exact (rest three completed.ready).weaken fun _ _ ⟨_, reached⟩ => reached.ready

end Declaring

section Bodies

theorem completes_updateFunction (index : Nat) {change : DeclaredFunction → DeclaredFunction}
    (keeps : ∀ f, (change f).node = f.node) : Completes (updateFunction index change) := by
  intro c ready
  refine ⟨_, _, c.step_updateFunction index change, trivial, ⟨ready.table, fun f member => ?_,
    ready.files⟩, ?_⟩
  · have node : f.node ∈ (c.withFunction index change).functions.toList.map
        DeclaredFunction.node := List.mem_map_of_mem (by simpa using member)
    rw [Checker.nodes_withFunction keeps] at node
    obtain ⟨original, known, same⟩ := List.mem_map.mp node
    exact same ▸ ready.functions original (by simpa using known)
  · exact .of_extends (.refl _)

variable {types : FunctionTypes} (known : ∀ index, Completes (types index))

include known

theorem completes_checkEntered (outside : Checker) (function : DeclaredFunction)
    (unrepeated : Unrepeated function.node.nameGroups) :
    Completes (checkEntered types outside function) := by
  obtain ⟨⟨typeParameters, parameters, returnType, body, location⟩, file, ids, declared, result,
    type, state⟩ := function
  obtain ⟨-, inBody⟩ := (Unrepeated.append_iff _ _).mp unrepeated
  refine .after (completes_modify fun _ => ⟨rfl, rfl, rfl⟩) fun _ => ?_
  refine .after (scopeProperty_completes.declareParameters (fun _ _ => trivial) _) fun _ => ?_
  have statements :=
    treeProperty_completes.block.checkStatements known body (.anywhere fun _ => inBody)
  refine .after (scopeProperty_completes.checkBodyWith trivial statements _) fun result => ?_
  refine .after (completes_modify fun _ => ⟨rfl, rfl, rfl⟩) fun _ => ?_
  cases type with
  | some id => exact .pure trivial
  | none => exact completes_addType rfl nofun

theorem completes_checkFunctionBody (index : Nat) :
    Completes (checkFunctionBody types index) := by
  rw [checkFunctionBody_eq]
  refine .get_bind fun c ready => ?_
  cases found : c.functions[index]? with
  | none => exact .pure ⟨trivial, .of_eq ready rfl rfl rfl⟩
  | some function =>
      have unrepeated := ready.functions function (Array.mem_of_getElem? found)
      have checked : Completes (do
          updateFunction index beginBody
          let type ← checkEntered types c function
          updateFunction index (endBody type)) := by
        refine .after (completes_updateFunction index node_beginBody) fun _ => ?_
        refine .after (completes_checkEntered known c function unrepeated) fun type => ?_
        exact completes_updateFunction index (node_endBody type)
      exact .ite (.pure ⟨trivial, .of_eq ready rfl rfl rfl⟩) (checked c ready)

end Bodies

theorem completes_functionTypeWithin (fuel index : Nat) :
    Completes (functionTypeWithin fuel index) := by
  induction fuel generalizing index with
  | zero => exact .pure trivial
  | succ fuel ih =>
      refine .after completes_get fun c => ?_
      split
      · exact .pure trivial
      · split
        · exact .pure trivial
        · split
          · exact .pure trivial
          · refine .after (completes_checkFunctionBody ih index) fun _ => ?_
            exact .after completes_get fun _ => .pure trivial

theorem completes_functionType (index : Nat) : Completes (functionType index) :=
  .after completes_get fun _ => completes_functionTypeWithin _ index

section Checking

theorem completes_checkTopLevelStatement (cursor : TopLevelCursor) :
    ∀ statement : Statement, Unrepeated statement.nameGroups →
      Completes (checkTopLevelStatement cursor statement)
  | .interface _, _ => .pure trivial
  | .function _ _, _ =>
      .after (completes_checkFunctionBody completes_functionType _) fun _ => .pure trivial
  | .variable name declaredType initializer location, unrepeated => by
      have inside : ∀ expression, initializer = some expression →
          Considered true (fun _ => True) expression.nameGroups expression.locations := by
        rintro expression rfl
        exact .anywhere fun _ => ((Unrepeated.append_iff _ _).mp unrepeated).2
      refine .after completes_get fun c => ?_
      exact .after (treeProperty_completes.block.checkVariable completes_functionType name _ trivial
        initializer inside) fun _ => .pure trivial
  | .expression expression location, unrepeated =>
      .after (treeProperty_completes.block.checkStatement completes_functionType
        (.expression expression location) (.anywhere fun _ => unrepeated)) fun _ => .pure trivial
  | .returning expression location, unrepeated =>
      .after (treeProperty_completes.block.checkStatement completes_functionType
        (.returning expression location) (.anywhere fun _ => unrepeated)) fun _ => .pure trivial

theorem completes_checkTopLevelStatements (statements : List Statement) (cursor : TopLevelCursor)
    (unrepeated : Unrepeated (statementNameGroups statements)) :
    Completes (checkTopLevelStatements cursor statements) := by
  induction statements generalizing cursor with
  | nil => exact .pure trivial
  | cons statement rest ih =>
      obtain ⟨here, later⟩ := (Unrepeated.append_iff _ _).mp unrepeated
      exact .after (completes_checkTopLevelStatement cursor statement here) fun next =>
        ih next later

theorem completes_checkFiles (files : List SourceFile) (cursor : TopLevelCursor)
    (unrepeated : Unrepeated (programNameGroups files)) : Completes (checkFiles cursor files) := by
  induction files generalizing cursor with
  | nil => exact .pure trivial
  | cons file rest ih =>
      obtain ⟨here, later⟩ := (Unrepeated.append_iff _ _).mp unrepeated
      refine .after (completes_setFile _) fun _ => ?_
      exact .after (completes_checkTopLevelStatements file.statements cursor here) fun next =>
        ih next later

/-- A checker that has not run comes to the end of its run. -/
theorem completesFrom_checkDeclarations {c : Checker} (ready : c.Ready)
    (declaring : c.phase = .declaring) :
    CompletesFrom c checkDeclarations fun _ c' => c'.phase = .done := by
  refine .get_bind ?_
  rw [if_neg (not_not.mpr declaring)]
  refine (completesFrom_declareAll ready).bind fun _ one declared => ?_
  have checking : Completes (modify fun checker : Checker =>
      { checker with phase := .checking } : CheckM PUnit) :=
    completes_modify fun _ => ⟨rfl, rfl, rfl⟩
  refine (checking one declared).bind fun _ two ⟨_, begun⟩ => ?_
  refine .get_bind ((completes_checkFiles two.files _ begun.ready.files two begun.ready).bind ?_)
  exact fun _ three _ => ⟨_, _, Checker.step_modify _ _, rfl⟩

/-- A program that repeats no name in a group is checked to the end. -/
theorem completesFrom_declareAndCheck {files : List SourceFile}
    (unrepeated : Unrepeated (programNameGroups files)) (options : CheckerOptions) :
    CompletesFrom (.new options) (declareAndCheck files) fun _ c => c.phase = .done := by
  rw [CompletesFrom, declareAndCheck, Checker.step_bind, step_declareSourceFiles files rfl]
  refine completesFrom_checkDeclarations ⟨fun id g generic => ?_, by simp [Checker.new], ?_⟩ rfl
  · have listed := TypeTable.mem_entries_of_kind generic (by simp)
    simp [Checker.new, TypeTable.initial] at listed
  · exact unrepeated

end Checking

/-- A name declared twice, a wrong count of arguments, and names that nothing declares. -/
def mistakenProgram : List SourceFile :=
  [⟨"", [
    .ofInterface "I" [.free "T"] [.required "x" (.named "T" [])],
    .ofInterface "I" [] [.required "x" (.named "J" [])],
    .ofVariable "x" (some (.named "I" [])) none,
    .ofVariable "x" (some (.ofMembers [.required "y" (.named "J" [])])) none,
    .ofReturn (some (.ofName "z"))]⟩]

/-- An interface that gives two parameters one name, and a reference with two arguments. -/
def repeatedParameters : List SourceFile :=
  [⟨"", [
    .ofInterface "I" [.free "T", .free "T"] [],
    .ofVariable "x" (some (.named "I" [.ofKeyword .number, .ofKeyword .string])) none]⟩]

end StructuralTyping
