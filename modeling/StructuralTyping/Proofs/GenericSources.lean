import StructuralTyping.Proofs.AcceptedPairs
import StructuralTyping.Proofs.EqualityHistory
import StructuralTyping.Proofs.InferenceScope
import StructuralTyping.Proofs.MemberConstraints

/-! What a comparison makes of a generic source. Its type parameters are bound as in a call with
arguments of the types that the parameters of the target have, up to the first conflict. A call
goes on to judge what it has bound by the constraints of the type parameters. A comparison only
looks at the signature that comes of it, so a type that was found in the target need not satisfy
its constraint, while a type parameter for which nothing was found does no harm. -/
namespace StructuralTyping

open TypeTable

/-- The signature with the types of an instantiation in the places of its own. -/
def FunctionType.replacedBy (f : FunctionType) (signature : InstantiatedSignature) :
    FunctionType where
  typeParameters := []
  parameters := (f.parameters.zip signature.parameters).map fun (p, type) => { p with type := type }
  returnType := signature.returnType

namespace Assignability

section Runs
variable {strict : Bool} {σ τ : Session} {f g : TypeId} {s e : FunctionType} {verdict : Verdict}

/-- A wildcard is accepted everywhere. -/
theorem exists_answers_of_wildcard {t : TypeTable} (inside : f < t.size)
    (wild : t.isWildcard f = true) : ∃ after, Answers strict t f g false (.ok ()) after := by
  by_cases same : f = g
  · exact ⟨t, answers_iff.mpr ⟨1, .ofTable t, by rw [relatedWithin, if_pos same]; rfl, rfl⟩⟩
  have plain : t.flag f ≠ .instantiated := fun flag => by
    rw [isWildcard, flag] at wild
    cases wild
  rcases resolved : (resolve g).run t with ⟨body, u⟩
  have extended := (develops_of_resolve resolved).extended
  refine ⟨u, answers_iff.mpr ⟨1, ⟨u, ∅, 0⟩, ?_, rfl⟩⟩
  rw [run_relatedWithin_apart _ same]
  · refine run_bodiesRelated_of_passes (run_resolve_plain plain) resolved (.inr (.inl (.inl ?_)))
    exact (extended.isWildcard inside).trans wild
  · exact fun i j entry => absurd (by rw [flag, show t.kind f = _ from entry]; rfl) plain

/-- So is `unknown` accepted by every constraint. -/
theorem satisfies_unknown {t : TypeTable} {constraint : TypeId} {bindings : Bindings}
    (inside : TypeId.unknown < t.size) (basic : t.kind TypeId.unknown = .unknown) :
    Satisfies strict t TypeId.unknown constraint bindings := by
  have extended := (derives_substitute constraint bindings t).extended
  have wild : ((substitute constraint bindings).run t).2.isWildcard TypeId.unknown = true := by
    rw [extended.isWildcard inside, isWildcard, flag, basic]
    rfl
  obtain ⟨after, answers⟩ : ∃ after, Answers strict ((substitute constraint bindings).run t).2
      TypeId.unknown ((substitute constraint bindings).run t).1 false (.ok ()) after :=
    exists_answers_of_wildcard (extended.inside inside) wild
  rw [Satisfies, answers.run_assignable]

/-- Two different functions that are not being compared yet are compared by their signatures. -/
theorem functionRelated_of_answer (entry : σ.table.kind f = .function s)
    (entry' : σ.table.kind g = .function e) (differ : f ≠ g) (apart : (f, g) ∉ σ.inProgress)
    {fuel : Nat} (done : (relatedWithin strict fuel f g).run σ = some (verdict, τ)) :
    ∃ fuel τ', (functionRelated strict (relatedWithin strict fuel) f g s e).run
      (σ.entered f g false) = some (verdict, τ') ∧ τ'.table = τ.table := by
  cases fuel with
  | zero => cases done
  | succ fuel =>
      rw [run_relatedWithin_apart (by simp [entry]) differ] at done
      have body {id : TypeId} {x : FunctionType} (entry : σ.table.kind id = .function x) :
          (resolve id).run σ.table = (id, σ.table) ∧ σ.table.isWildcard id = false := by
        refine ⟨run_resolve_plain ?_, ?_⟩ <;>
          simp [isWildcard, flag, entry, TypeKind.flag, TypeFlag.isWildcard]
      have compared : ¬σ.Passes f g f g := by
        simp [Session.Passes, Session.Limited, differ, apart, (body entry).2, (body entry').2]
      rw [run_bodiesRelated_of_not_passes (body entry).1 (body entry').1 compared] at done
      obtain ⟨⟨verdict', τ'⟩, run, same⟩ := Option.map_eq_some_iff.mp done
      obtain ⟨rfl, rfl⟩ := Prod.mk.inj same
      refine ⟨fuel, τ', ?_, rfl⟩
      rw [structureRelated, StateT.run_bind, StateT.run_get] at run
      simpa [Session.entered, entry, entry'] using run

end Runs

section Inferring

/-- Parameters are matched against parameters as they are against the arguments of a call. -/
theorem run_inferParameters (i : Inference) (pairs : List (Parameter × Parameter)) (t : TypeTable) :
    (inferParameters i pairs).run t =
      let ran := (i.inferAll (pairs.map fun p => (p.1.type, p.2.type))).run t
      (ran.1.2, ran.2) := by
  induction pairs generalizing i t with
  | nil => rfl
  | cons pair rest ih =>
      rw [inferParameters, List.map_cons, Inference.inferAll, TableM.run_bind, TableM.run_bind]
      generalize (i.infer pair.1.type pair.2.type).run t = inferred
      obtain ⟨⟨outcome, i'⟩, t'⟩ := inferred
      cases outcome with
      | error e => rfl
      | ok => exact ih i' t'

theorem sites_eq (s e : FunctionType) :
    (s.parameters.zip e.parameters).map (fun p => (p.1.type, p.2.type)) =
      (s.parameters.map Parameter.type).zip (e.parameters.map Parameter.type) := by
  rw [List.zip_map]
  rfl

/-- How a generic signature is taken against another one: the instantiation that is made of it,
and the table after that. -/
structure TakenAgainst (strict : Bool) (t : TypeTable) (f : TypeId) (s e : FunctionType)
    (signature : InstantiatedSignature) (u : TypeTable) : Prop where
  /-- No entry is changed, so the constraints are those that have been declared. -/
  develops : t.Develops u
  /-- The type parameters are bound, all of them and no others. -/
  contains : ∀ p, signature.bindings.contains p = true ↔ p ∈ s.typeParameters
  /-- A call with arguments of the types of the parameters comes to the same, if it is not
  refused for a conflict. -/
  called : ∀ signature' u', (instantiate f (e.parameters.map Parameter.type) none).run t =
    (.ok signature', u') → signature' = signature ∧ u' = u
  /-- What has been found is met in a parameter. -/
  found : ∀ p b, signature.bindings.find? p = some b → p ∉ signature.unresolved →
    MetIn (e.parameters.map Parameter.type) u b
  /-- Where nothing has been found, `unknown` is bound, which satisfies every constraint. -/
  unfound : ∀ p ∈ signature.unresolved, signature.bindings.find? p = some TypeId.unknown ∧
    ∀ constraint, Satisfies strict u TypeId.unknown constraint signature.bindings

/-- What is bound to a type parameter is assignable to its constraint under the same bindings. -/
def Conforms (strict : Bool) (u : TypeTable) (bindings : Bindings) (p : TypeId) : Prop :=
  ∀ b constraint, bindings.find? p = some b → u.constraint? p = some constraint →
    Satisfies strict u b constraint bindings

variable {strict : Bool} {t u : TypeTable} {f g : TypeId} {s e : FunctionType}
  {signature : InstantiatedSignature}

/-- Nothing but what has been found in the target can violate a constraint. -/
theorem TakenAgainst.conforms_iff (taken : TakenAgainst strict t f s e signature u) :
    (∀ p ∈ s.typeParameters, Conforms strict u signature.bindings p) ↔
      ∀ p ∈ s.typeParameters, p ∉ signature.unresolved →
        Conforms strict u signature.bindings p := by
  refine ⟨fun all p member _ => all p member, fun found p member => ?_⟩
  by_cases left : p ∈ signature.unresolved
  · intro b constraint bound _
    obtain ⟨unknown, satisfied⟩ := taken.unfound p left
    obtain rfl := Option.some.inj (unknown.symm.trans bound)
    exact satisfied constraint
  · exact found p member left

/-- A generic signature is instantiated, and what comes of it is compared in its place. -/
theorem exists_takenAgainst {σ : Session} (grounded : σ.table.Grounded)
    (basic : σ.table.kind TypeId.unknown = .unknown) (entry : σ.table.kind f = .function s)
    (target : e.Within σ.table) (generic : s.isGeneric = true) :
    ∃ signature u, TakenAgainst strict σ.table f s e signature u ∧
      ∀ related a b, (functionRelated strict related a b s e).run σ =
        (signatureRelated strict related a b (s.replacedBy signature) e).run
          { σ with table := u } := by
  have within := grounded.toWellFormed.signature entry
  rcases ran : ((Inference.ofTypeParameters s.typeParameters).inferAll
      ((s.parameters.map Parameter.type).zip (e.parameters.map Parameter.type))).run σ.table with
    ⟨⟨outcome, i⟩, w⟩
  rcases applied : (i.finish.apply s).run w with ⟨signature, u⟩
  have develops : σ.table.Develops u := by
    have inferred := Inference.derives_inferAll (.ofTypeParameters s.typeParameters)
      ((s.parameters.map Parameter.type).zip (e.parameters.map Parameter.type)) σ.table
    have replaced := i.finish.derives_apply s w
    rw [ran] at inferred
    rw [applied] at replaced
    exact inferred.trans replaced
  refine ⟨signature, u, ?_, fun related a b => ?_⟩
  · obtain ⟨continues, one, two, met⟩ := metIn_of_inferAll grounded within
      (List.forall_mem_map.mpr target.parameters) ran applied
    have holds := one.keeps grounded
    obtain ⟨bindings, unresolved⟩ : signature.bindings = i.finish.bindings ∧
        signature.unresolved = i.finish.unresolved := by
      have chosen := i.finish.run_apply s w
      rwa [applied] at chosen
    refine ⟨develops, fun p => ?_, fun signature' u' done => ?_, fun p b bound closed => ?_,
      fun p left => ?_⟩
    · rw [bindings]
      exact continues.contains_finish p
    · obtain ⟨s', i', w', entry', ran', applied'⟩ := exists_inferred done
      obtain rfl := TypeKind.function.inj (entry.symm.trans entry')
      obtain ⟨same, rfl⟩ := Prod.mk.inj (ran.symm.trans ran')
      obtain ⟨-, rfl⟩ := Prod.mk.inj same
      exact Prod.mk.inj (applied'.symm.trans applied)
    · rw [bindings] at bound
      rw [unresolved] at closed
      exact (passesOn_metIn _).advances holds two (met p b (Inference.find?_of_finish bound closed))
    · rw [unresolved] at left
      have listed := i.mem_of_unresolved p left
      rw [bindings]
      have extended := develops.extended
      refine ⟨?_, fun constraint => satisfies_unknown (extended.inside grounded.unknown) ?_⟩
      · cases found : i.bindings.find? p with
        | none => exact ((Inference.find?_finish i listed).2 found).1
        | some b => exact absurd left ((Inference.find?_finish i listed).1 b found).2
      · exact (extended.kind _ grounded.unknown).trans basic
  · have matched := run_inferParameters (.ofTypeParameters s.typeParameters)
      (s.parameters.zip e.parameters) σ.table
    rw [sites_eq, ran] at matched
    rw [functionRelated, if_pos generic, StateT.run_bind, run_onTable, instantiateAgainst,
      TableM.run_bind, matched]
    dsimp only
    rw [TableM.run_bind, applied]
    rfl

/-- A generic function type that is accepted where a function type without type parameters is
expected has been instantiated, and what came of it has been accepted. Its constraints are
satisfied just where they are by the types that were found in the target. -/
theorem accepted_takenAgainst {after : TypeTable} (grounded : t.Grounded)
    (basic : t.kind TypeId.unknown = .unknown) (entry : t.kind f = .function s)
    (entry' : t.kind g = .function e) (generic : s.isGeneric = true) (plain : e.isGeneric = false)
    (accepted : Answers strict t f g false (.ok ()) after) :
    ∃ signature u, TakenAgainst strict t f s e signature u ∧
      ((∀ p ∈ s.typeParameters, Conforms strict u signature.bindings p) ↔
        ∀ p ∈ s.typeParameters, p ∉ signature.unresolved →
          Conforms strict u signature.bindings p) ∧
      ∃ fuel σ,
        (signatureRelated strict (relatedWithin strict fuel) f g (s.replacedBy signature) e).run
          (Session.entered (.ofTable u) f g false) = some (.ok (), σ) ∧ σ.table = after := by
  have differ : f ≠ g := by
    rintro rfl
    obtain rfl := TypeKind.function.inj (entry.symm.trans entry')
    exact nomatch generic.symm.trans plain
  obtain ⟨fuel, τ, done, rfl⟩ := answers_iff.mp accepted
  obtain ⟨fuel, σ, run, table⟩ := functionRelated_of_answer (σ := .ofTable t) entry entry' differ
    (by simp [Session.ofTable]) done
  obtain ⟨signature, u, taken, compared⟩ :=
    exists_takenAgainst (σ := (Session.ofTable t).entered f g false) grounded basic entry
      (grounded.toWellFormed.signature entry') generic
  exact ⟨signature, u, taken, taken.conforms_iff, fuel, σ, (compared _ f g).symm.trans run, table⟩

end Inferring

section Programs

/-- `var f: <T, K extends string>(x: T) => K` and `var g: (x: number) => string`. -/
def unfoundParameter : List SourceFile :=
  [⟨"", [
    .ofVariable "f" (some (.ofSignature [.free "T", .bounded "K" (.ofKeyword .string)]
      [.required "x" (some (.named "T" []))] (.named "K" []))) none,
    .ofVariable "g" (some (.ofSignature [] [.required "x" (some (.ofKeyword .number))]
      (.ofKeyword .string))) none]⟩]

/-- The table after the check of `unfoundParameter`. -/
def unfoundParameterTable : TypeTable where
  entries := TypeTable.initial.entries ++
    #[.typeParameter "T" none, .typeParameter "K" (some TypeId.string),
      .function ⟨[7, 8], [⟨"x", 7, false⟩], 8⟩,
      .function ⟨[], [⟨"x", TypeId.number, false⟩], TypeId.string⟩]
  resolved := .empty

/-- Nothing is found for `K`, and `T`, for which `number` is found, has no constraint. -/
theorem unfoundParameter_taken : ∃ signature u,
    TakenAgainst true unfoundParameterTable 9 ⟨[7, 8], [⟨"x", 7, false⟩], 8⟩
      ⟨[], [⟨"x", TypeId.number, false⟩], TypeId.string⟩ signature u ∧
    signature.bindings.find? 7 = some TypeId.number ∧ signature.unresolved = [8] ∧
    ∀ p ∈ [7, 8], Conforms true u signature.bindings p := by
  have grounded : unfoundParameterTable.Grounded := by
    obtain ⟨c, run, table⟩ : ∃ c, (Checker.new .default).step (declareAndCheck unfoundParameter) =
        (.ok (), c) ∧ c.table = unfoundParameterTable :=
      Checker.exists_step (by decide +kernel) (by decide +kernel)
    exact table ▸ (coherent_declareAndCheck run).grounded
  obtain ⟨after, accepted⟩ :
      ∃ after, Answers true unfoundParameterTable 9 10 false (.ok ()) after :=
    exists_accepted (by decide +kernel : ((assignableWithin true 4 9 10 false).run
      (.ofTable unfoundParameterTable)).any (fun r => r.1.isOk) = true)
  obtain ⟨signature, u, taken, conforms, -⟩ :=
    accepted_takenAgainst grounded rfl rfl rfl rfl rfl accepted
  have call : (instantiate 9 [TypeId.number] none).run unfoundParameterTable =
      (.ok ⟨⟨[(7, TypeId.number), (8, TypeId.unknown)]⟩, [TypeId.number], TypeId.unknown, [8]⟩,
        unfoundParameterTable) := Prod.ext (by decide +kernel) (by decide +kernel)
  obtain ⟨rfl, rfl⟩ := taken.called _ _ call
  refine ⟨_, _, taken, rfl, rfl, conforms.mpr fun p member closed => ?_⟩
  have free : unfoundParameterTable.constraint? 7 = none := rfl
  obtain rfl : p = 7 := by simp_all
  intro b constraint _ bound
  cases free.symm.trans bound

/-- `var f: <K extends string>(x: K) => K` and `var g: (x: number) => number`. -/
def brokenConstraint : List SourceFile :=
  [⟨"", [
    .ofVariable "f" (some (.ofSignature [.bounded "K" (.ofKeyword .string)]
      [.required "x" (some (.named "K" []))] (.named "K" []))) none,
    .ofVariable "g" (some (.ofSignature [] [.required "x" (some (.ofKeyword .number))]
      (.ofKeyword .number))) none]⟩]

/-- The table after the check of `brokenConstraint`. -/
def brokenConstraintTable : TypeTable where
  entries := TypeTable.initial.entries ++
    #[.typeParameter "K" (some TypeId.string), .function ⟨[7], [⟨"x", 7, false⟩], 7⟩,
      .function ⟨[], [⟨"x", TypeId.number, false⟩], TypeId.number⟩]
  resolved := .empty

/-- The generic function is accepted, although `number`, which is found for its type parameter,
does not satisfy the constraint `string`. -/
theorem brokenConstraint_accepted :
    ∃ c, (Checker.new .default).step (declareAndCheck brokenConstraint) = (.ok (), c) ∧
      ∀ strict, (∃ after, Answers strict c.table 8 9 false (.ok ()) after) ∧
        ∃ signature u, TakenAgainst strict c.table 8 ⟨[7], [⟨"x", 7, false⟩], 7⟩
            ⟨[], [⟨"x", TypeId.number, false⟩], TypeId.number⟩ signature u ∧
          signature.bindings.find? 7 = some TypeId.number ∧
          u.constraint? 7 = some TypeId.string ∧
          ¬Satisfies strict u TypeId.number TypeId.string signature.bindings := by
  obtain ⟨c, run, table⟩ : ∃ c, (Checker.new .default).step (declareAndCheck brokenConstraint) =
      (.ok (), c) ∧ c.table = brokenConstraintTable :=
    Checker.exists_step (by decide +kernel) (by decide +kernel)
  refine ⟨c, run, fun strict => ?_⟩
  have grounded := (coherent_declareAndCheck run).grounded
  rw [table] at grounded ⊢
  refine ⟨exists_accepted ((by decide +kernel : ∀ strict, ((assignableWithin strict 4 8 9 false).run
      (.ofTable brokenConstraintTable)).any (fun r => r.1.isOk) = true) strict), ?_⟩
  obtain ⟨signature, u, taken, -⟩ := @exists_takenAgainst strict 8 _ _
    (.ofTable brokenConstraintTable) grounded rfl rfl
    (grounded.toWellFormed.signature (show brokenConstraintTable.kind 9 = _ from rfl)) rfl
  have call : (instantiate 8 [TypeId.number] none).run brokenConstraintTable =
      (.ok ⟨⟨[(7, TypeId.number)]⟩, [TypeId.number], TypeId.number, []⟩, brokenConstraintTable) :=
    Prod.ext (by decide +kernel) (by decide +kernel)
  obtain ⟨rfl, rfl⟩ := taken.called _ _ call
  refine ⟨_, _, taken, rfl, rfl, fun satisfied => ?_⟩
  obtain ⟨mismatch, after, refused⟩ := exists_refused ((by decide +kernel : ∀ strict,
    ((assignableWithin strict 4 TypeId.number TypeId.string false).run
      (.ofTable brokenConstraintTable)).any (fun r => !r.1.isOk) = true) strict)
  have bound : (substitute TypeId.string ⟨[(7, TypeId.number)]⟩).run brokenConstraintTable =
      (TypeId.string, brokenConstraintTable) := rfl
  rw [Satisfies, bound, refused.run_assignable] at satisfied
  cases satisfied

end Programs

end Assignability
end StructuralTyping
