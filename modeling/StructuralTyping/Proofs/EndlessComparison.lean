import StructuralTyping.Proofs.FiniteComparisons
import StructuralTyping.Proofs.PlainTypes
import StructuralTyping.Checker.Run

/-! A comparison without an end. An interface whose generic method mentions the
interface is compared with one whose method is not generic. Every time the generic
method is instantiated the interface around it is copied, the copy has a method
that is not generic, and the interface is compared with the copy: the assumptions
in progress are never about the new entries. -/
namespace StructuralTyping.Assignability

/-- The recursive interface `A`, whose method is generic and takes an `A`. -/
structure Recursive (table : TypeTable) : Prop where
  void : table.kind 3 = .primitive .void
  interface : table.kind 7 = .object ⟨some "A", ⟨[("m", ⟨10, false⟩)]⟩⟩
  method : table.kind 10 = .function ⟨[9], [⟨"x", 7, false⟩], 3⟩

/-- The method without its type parameter. -/
def plainMethod : FunctionType := ⟨[], [⟨"x", 7, false⟩], 3⟩

/-- The table with a copy of the interface in which the method is not generic. -/
def copied (table : TypeTable) : TypeTable :=
  ((table.add (.function plainMethod)).2.add (.object ⟨none, ⟨[("m", ⟨table.size, false⟩)]⟩⟩)).2

variable {table : TypeTable} {strict : Bool}

theorem Recursive.size (recursive : Recursive table) : 10 < table.size :=
  TypeTable.lt_size_of_kind recursive.method nofun

section Copy
open Substitution

/-- A type without a binding that is met for the first time is replaced by its kind. -/
theorem run_kind (id : TypeId) (table : TypeTable) :
    (TableM.kind id).run table = (pure (table.kind id, table) : Id _) := rfl

theorem run_add (kind : TypeKind) (table : TypeTable) :
    (TableM.add kind).run table = (pure (table.add kind) : Id _) := rfl

theorem run_applyWithin_method (recursive : Recursive table) (n : Nat) :
    (applyWithin ⟨[(9, 6)]⟩ (n + 2) [7] 10).run table =
      (pure (table.add (.function plainMethod)) : Id _) := by
  have again : (applyWithin ⟨[(9, 6)]⟩ (n + 1) [10, 7] 7).run table = (pure (7, table) : Id _) := by
    simp [applyWithin, Dictionary.find?, Dictionary.findIn?]
  have void : (applyWithin ⟨[(9, 6)]⟩ (n + 1) [10, 7] 3).run table = (pure (3, table) : Id _) := by
    simp [applyWithin, Dictionary.find?, Dictionary.findIn?, run_kind, recursive.void]
  rw [applyWithin]
  simp [Dictionary.find?, Dictionary.findIn?, run_kind, recursive.method, again, void, run_add, Dictionary.contains, plainMethod]

theorem run_applyWithin_interface (recursive : Recursive table) (n : Nat) :
    (applyWithin ⟨[(9, 6)]⟩ (n + 3) [] 7).run table =
      (pure (table.size + 1, copied table) : Id _) := by
  have renamed : table.size ≠ 10 := Nat.ne_of_gt recursive.size
  rw [applyWithin]
  simp [Dictionary.find?, Dictionary.findIn?, run_kind, recursive.interface,
    run_applyWithin_method recursive, renamed, run_add, Dictionary.mapValuesM, copied]
  exact congrArg pure (Prod.ext (by simp) rfl)

theorem Recursive.of_extends {table table' : TypeTable} (recursive : Recursive table)
    (extended : table.Extends table') : Recursive table' := by
  have inside := recursive.size
  refine ⟨?_, ?_, ?_⟩
  · exact (extended.kind 3 (by omega)).trans recursive.void
  · exact (extended.kind 7 (by omega)).trans recursive.interface
  · exact (extended.kind 10 inside).trans recursive.method

theorem extends_copied (table : TypeTable) : table.Extends (copied table) :=
  (TypeTable.Extends.add _ _).trans (.add _ _)

theorem kind_copied_method (table : TypeTable) :
    (copied table).kind table.size = .function plainMethod := by
  rw [copied, TypeTable.kind_add_of_lt (by simp), TypeTable.kind_add_size]

theorem kind_copied_interface (table : TypeTable) :
    (copied table).kind (table.size + 1) = .object ⟨none, ⟨[("m", ⟨table.size, false⟩)]⟩⟩ := by
  have last := TypeTable.kind_add_size (table.add (.function plainMethod)).2
    (.object ⟨none, ⟨[("m", ⟨table.size, false⟩)]⟩⟩)
  rwa [TypeTable.size_add] at last

/-- To compare the generic method with a plain one, the interface is copied. -/
theorem run_instantiateAgainst (recursive : Recursive table) :
    (instantiateAgainst ⟨[9], [⟨"x", 7, false⟩], 3⟩ plainMethod).run table =
      (pure (⟨[], [⟨"x", table.size + 1, false⟩], 3⟩, copied table) : Id _) := by
  have solid : table.isWildcard 7 = false := by
    simp [TypeTable.isWildcard, TypeTable.flag, recursive.interface, TypeKind.flag,
      TypeFlag.isWildcard]
  have inferred : (Inference.infer ⟨[9], .empty, []⟩ 7 7).run table =
      (pure ((.ok (), ⟨[9], .empty, []⟩), table) : Id _) := by
    have matched : ((Inference.matchWithin (Inference.depthLimit + 1) 7 7).run).run (table, ⟨[9], .empty, []⟩) =
        (pure (.ok (), table, ⟨[9], .empty, []⟩) : Id _) := by
      have tableRead (i : Inference) : (Inference.MatchM.table.run).run (table, i) =
          (pure (.ok table, table, i) : Id _) := rfl
      have inferenceRead (i : Inference) : (Inference.MatchM.inference.run).run (table, i) =
          (pure (.ok i, table, i) : Id _) := rfl
      simp [Inference.matchWithin_succ, ExceptT.run_bind, tableRead, inferenceRead, solid]
    rw [Inference.infer, StateT.run_bind, StateT.run_get, pure_bind, matched]
    rfl
  have interface : (substitute 7 ⟨[(9, 6)]⟩).run table =
      (pure (table.size + 1, copied table) : Id _) := by
    obtain ⟨n, size⟩ : ∃ n, table.size + 1 = n + 3 := ⟨table.size - 2, by
      have := recursive.size
      omega⟩
    simp [substitute, Dictionary.isEmpty, size, run_applyWithin_interface recursive]
  have void : (substitute 3 ⟨[(9, 6)]⟩).run (copied table) =
      (pure (3, copied table) : Id _) := by
    have kind := (recursive.of_extends (extends_copied table)).void
    simp [substitute, Dictionary.isEmpty, Substitution.applyWithin, Dictionary.find?,
      Dictionary.findIn?, run_kind, kind]
  have finished : (Inference.finish ⟨[9], .empty, []⟩).bindings = ⟨[(9, 6)]⟩ := rfl
  simp [instantiateAgainst, inferParameters, plainMethod, inferred, finished,
    Inference.ofTypeParameters, Instantiation.apply, interface, void]

end Copy

section Chase
variable {σ : Session} {related : Related}

/-- An object or a function, which is its own body. -/
def Solid (table : TypeTable) (id : TypeId) : Prop :=
  table.flag id = .object ∨ table.flag id = .function

theorem Solid.isWildcard {id : TypeId} (solid : Solid table id) : table.isWildcard id = false := by
  rcases solid with object | function
  · simp [TypeTable.isWildcard, object, TypeFlag.isWildcard]
  · simp [TypeTable.isWildcard, function, TypeFlag.isWildcard]

theorem Solid.whole {id : TypeId} (solid : Solid table id) (i : InstantiatedType) :
    table.kind id ≠ .instantiated i := by
  intro kind
  simp [Solid, TypeTable.flag, kind, TypeKind.flag] at solid

/-- Bodies that are compared without an answer leave their types without one. -/
theorem relatedWithin_none {fuel : Nat} {s t : TypeId} (apart : s ≠ t) (hs : Solid σ.table s)
    (ht : Solid σ.table t) (outside : (s, t) ∉ σ.inProgress)
    (inner : (structureRelated strict (relatedWithin strict fuel) s t s t).run
      (σ.entered s t false) = none) :
    (relatedWithin strict (fuel + 1) s t).run σ = none := by
  have enter : (RelationM.enter s t false).run σ = some ((), σ.entered s t false) := rfl
  have body {id : TypeId} (solid : Solid σ.table id) :
      (RelationM.onTable (resolve id)).run σ = some (id, σ) := by
    rw [run_onTable, run_resolve_of_ne solid.whole]
  simp [relatedWithin, apart, run_instancesRelated_of_ne hs.whole, bodiesRelated, body hs, body ht,
    hs.isWildcard, ht.isWildcard, outside, expandRelated, enter, inner]

theorem structureRelated_none_of_property {source target s t p q : TypeId} {given expected : Option String}
    (hs : σ.table.kind s = .object ⟨given, ⟨[("m", ⟨p, false⟩)]⟩⟩)
    (ht : σ.table.kind t = .object ⟨expected, ⟨[("m", ⟨q, false⟩)]⟩⟩)
    (inner : (related p q).run σ = none) :
    (structureRelated strict related source target s t).run σ = none := by
  have read : (get : RelationM Session).run σ = some (σ, σ) := rfl
  simp [structureRelated, read, hs, ht, objectRelated, ObjectType.property?, Dictionary.find?, Dictionary.findIn?, inner]

theorem structureRelated_none_of_method {source target t : TypeId} (recursive : Recursive σ.table)
    (ht : σ.table.kind t = .function plainMethod)
    (inner : (related 7 (σ.table.size + 1)).run { σ with table := copied σ.table } = none) :
    (structureRelated strict related source target 10 t).run σ = none := by
  have read : (get : RelationM Session).run σ = some (σ, σ) := rfl
  have instantiated : (RelationM.onTable (instantiateAgainst ⟨[9], [⟨"x", 7, false⟩], 3⟩ plainMethod)).run σ =
      some (⟨[], [⟨"x", σ.table.size + 1, false⟩], 3⟩, { σ with table := copied σ.table }) := by
    rw [run_onTable, run_instantiateAgainst recursive]
    rfl
  have signature : (signatureRelated strict related source target
      ⟨[], [⟨"x", σ.table.size + 1, false⟩], 3⟩ plainMethod).run
        { σ with table := copied σ.table } = none := by
    simp [signatureRelated, FunctionType.minArgumentCount, plainMethod, parametersRelated,
      parameterRelated, inner]
  simp [structureRelated, read, recursive.method, ht, functionRelated, FunctionType.isGeneric,
    instantiated, signature]

/-- The state of a comparison that goes on: what is in progress is about entries. -/
structure Pursued (σ : Session) : Prop where
  recursive : Recursive σ.table
  known : ∀ pair ∈ σ.inProgress, pair.2 < σ.table.size

theorem Pursued.entered {s t : TypeId} {expanded : Bool} (pursued : Pursued σ) (known : t < σ.table.size) :
    Pursued (σ.entered s t expanded) := by
  refine ⟨pursued.recursive, fun pair member => ?_⟩
  simp only [Session.entered, Std.ExtTreeSet.mem_insert] at member
  rcases member with same | before
  · obtain rfl := Std.LawfulEqCmp.eq_of_compare same
    exact known
  · exact pursued.known pair before

theorem not_mem_entered {s t a b : TypeId} {expanded : Bool} (outside : (a, b) ∉ σ.inProgress)
    (apart : s ≠ a) : (a, b) ∉ (σ.entered s t expanded).inProgress := by
  simp only [Session.entered, Std.ExtTreeSet.mem_insert, not_or]
  refine ⟨fun same => apart ?_, outside⟩
  exact (Prod.mk.inj (Std.LawfulEqCmp.eq_of_compare same)).1

/-- The interface against an interface whose method is plain, and the methods of the
two: each of these comparisons asks for the other with new entries. -/
theorem pursuit (fuel : Nat) : ∀ {σ : Session} {target method : TypeId}, Pursued σ →
    σ.table.kind method = .function plainMethod → (10, method) ∉ σ.inProgress →
    (relatedWithin strict fuel 10 method).run σ = none ∧
      ∀ name, σ.table.kind target = .object ⟨name, ⟨[("m", ⟨method, false⟩)]⟩⟩ →
        (7, target) ∉ σ.inProgress → (relatedWithin strict fuel 7 target).run σ = none := by
  induction fuel with
  | zero =>
      intro σ target method _ _ _
      exact ⟨rfl, fun _ _ _ => rfl⟩
  | succ fuel ih =>
      intro σ target method pursued plain outside
      have recursive := pursued.recursive
      have apart : 10 ≠ method := by
        rintro rfl
        simp [recursive.method, plainMethod] at plain
      refine ⟨?_, fun name interface outside' => ?_⟩
      · have entered : Pursued (σ.entered 10 method false) :=
          pursued.entered (TypeTable.lt_size_of_kind plain (by simp))
        refine relatedWithin_none apart (.inr ?_) (.inr ?_) outside
          (structureRelated_none_of_method recursive plain ?_)
        · simp [TypeTable.flag, recursive.method, TypeKind.flag]
        · simp [TypeTable.flag, plain, TypeKind.flag]
        · -- the copies are entries that no pair in progress is about
          have fresh : ∀ s id, σ.table.size ≤ id →
              (s, id) ∉ (σ.entered 10 method false).inProgress :=
            fun s id new member => Nat.not_lt.mpr new (entered.known (s, id) member)
          have copy : Pursued { σ.entered 10 method false with table := copied σ.table } :=
            ⟨recursive.of_extends (extends_copied _), fun pair member =>
              Nat.lt_of_lt_of_le (entered.known pair member) (extends_copied σ.table).size⟩
          exact (ih copy (kind_copied_method σ.table) (fresh 10 _ (Nat.le_refl _))).2 none
            (kind_copied_interface σ.table) (fresh 7 _ (Nat.le_succ _))
      · have entered : Pursued (σ.entered 7 target false) :=
          pursued.entered (TypeTable.lt_size_of_kind interface (by simp))
        refine relatedWithin_none ?_ (.inl ?_) (.inl ?_) outside'
          (structureRelated_none_of_property recursive.interface interface ?_)
        · rintro rfl
          have same := recursive.interface.symm.trans interface
          simp only [TypeKind.object.injEq, ObjectType.mk.injEq, Dictionary.mk.injEq] at same
          simp_all
        · simp [TypeTable.flag, recursive.interface, TypeKind.flag]
        · simp [TypeTable.flag, interface, TypeKind.flag]
        · exact (@ih _ target _ entered plain (not_mem_entered outside (by decide))).1

end Chase

/-- What the declarations of some files build. -/
def declared (files : List SourceFile) : Checker :=
  ((Checker.new .default).step (do
    for file in files do
      declareSourceFile file
    declareAll)).2

/-- `interface A { m: <T>(x: A) => void }` and `interface B { m: (x: A) => void }`. -/
def recursiveMethods : List SourceFile :=
  let method (typeParameters : List TypeParameterNode) : PropertySignature :=
    ⟨"m", false, .function typeParameters
      [⟨"x", false, some (.reference "A" [] .unknown), .unknown⟩] (.keyword .void .unknown) .unknown,
      .unknown⟩
  [⟨"", [.interface ⟨"A", [], [method [⟨"T", none, .unknown⟩]], .unknown⟩,
    .interface ⟨"B", [], [method []], .unknown⟩]⟩]

/-- The question whether an `A` may be used as a `B` has no answer. -/
theorem recursiveMethods_unanswered :
    (declared recursiveMethods).declaredType? "A" = some 7 ∧
      (declared recursiveMethods).declaredType? "B" = some 8 ∧
      ∀ strict fresh verdict after,
        ¬ Answers strict (declared recursiveMethods).table 7 8 fresh verdict after := by
  refine ⟨by decide +kernel, by decide +kernel, ?_⟩
  have recursive : Recursive (declared recursiveMethods).table :=
    ⟨by decide +kernel, by decide +kernel, by decide +kernel⟩
  have plain : (declared recursiveMethods).table.kind 11 = .function plainMethod := by
    decide +kernel
  have target : (declared recursiveMethods).table.kind 8 =
      .object ⟨some "B", ⟨[("m", ⟨11, false⟩)]⟩⟩ := by decide +kernel
  generalize (declared recursiveMethods).table = table at *
  have pursued : Pursued (.ofTable table) := ⟨recursive, fun pair member => by
    simp [Session.ofTable] at member⟩
  have unanswered (strict : Bool) (fuel : Nat) :
      (relatedWithin strict fuel 7 8).run (.ofTable table) = none :=
    (pursuit fuel pursued plain (by simp [Session.ofTable])).2 (some "B") target
      (by simp [Session.ofTable])
  rintro strict fresh verdict after ⟨fuel, σ, answered, -⟩
  cases fresh with
  | false => 
      simp [assignableWithin, unanswered] at answered
  | true =>
      have whole : ∀ i, table.kind 7 ≠ .instantiated i := by simp [recursive.interface]
      have whole' : ∀ i, table.kind 8 ≠ .instantiated i := by simp [target]
      have resolved (id : TypeId) (whole : ∀ i, table.kind id ≠ .instantiated i) :
          (resolve id).run table = (pure (id, table) : Id _) := run_resolve_of_ne whole
      have excess : (RelationM.onTable (excessProperties 7 8)).run (.ofTable table) =
          some ([], .ofTable table) := by
        have found : (excessProperties 7 8).run table = (pure ([], table) : Id _) := by
          simp [excessProperties, resolved 7 whole, resolved 8 whole', TypeTable.asObject?,
            recursive.interface, target, Dictionary.isEmpty, Dictionary.keys, Dictionary.contains,
            Dictionary.find?, Dictionary.findIn?]
        rw [run_onTable, Session.ofTable, found]
        rfl
      simp [assignableWithin, excess, unanswered] at answered

end StructuralTyping.Assignability
