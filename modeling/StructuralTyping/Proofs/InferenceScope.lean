import StructuralTyping.Proofs.ResolvedBodies

/-! Where the type arguments come from that are inferred. Whatever inference binds is met in
one of the arguments, be it a part of it or the body of an instantiated type in it. So a type
parameter that is revealed in a type argument is revealed in an argument too, unless a
function that is met there on the way declares it: matching does not tell the type
parameters that such a function declares from others. -/
namespace StructuralTyping

open TableM (Yields)
open TypeTable

namespace TypeTable

/-- The second type is met in the first one, also in the bodies that have been made. -/
def Meets (t : TypeTable) : TypeId → TypeId → Prop :=
  Relation.ReflTransGen fun id m => m ∈ (t.kind id).parts ∨
    ∃ i, t.kind id = .instantiated i ∧ t.resolved.find? (instantiationKey i) = some m

variable {t t' : TypeTable} {id m p : TypeId}

theorem Meets.advances (grounded : t.Grounded) (advances : Advances Grounded t t')
    (inside : id < t.size) (meets : t.Meets id m) : t'.Meets id m ∧ m < t.size := by
  induction meets with
  | refl => exact ⟨.refl, inside⟩
  | tail _ step ih =>
      obtain ⟨later, known⟩ := ih
      have same := advances.extended.kind _ known
      rcases step with part | ⟨i, entry, found⟩
      · exact ⟨later.tail (.inl (same ▸ part)), grounded.toWellFormed.part known part⟩
      · exact ⟨later.tail (.inr ⟨i, same.trans entry, advances.remembers _ _ found⟩),
          (grounded.remembered _ _ found).2.2⟩

/-- A type parameter that is revealed below is revealed above, unless it is declared in
between. -/
theorem Meets.reveals (meets : t.Meets id m) (reveals : Reveals p t m) :
    Reveals p t id ∨ ∃ f, t.Meets id f ∧ t.Meets f m ∧ p ∈ (t.kind f).binders := by
  induction meets using Relation.ReflTransGen.head_induction_on with
  | refl => exact .inl reveals
  | @head id n step further ih =>
      rcases ih with above | ⟨f, before, after, declared⟩
      · rcases step with part | ⟨i, entry, found⟩
        · by_cases declared : p ∈ (t.kind id).binders
          · exact .inr ⟨id, .refl, further.head (.inl part), declared⟩
          · exact .inl (.part part declared above)
        · exact .inl (.body (run_resolve_remembered entry found) above)
      · exact .inr ⟨f, before.head step, after, declared⟩

theorem parts_of_wildcard (wildcard : t.isWildcard id = true) : (t.kind id).parts = [] := by
  by_contra parts
  have real := TypeKind.not_wildcard_of_composite (.inl parts)
  cases wildcard.symm.trans real

/-- There is nothing in a wildcard. -/
theorem Reveals.eq_of_wildcard (reveals : Reveals p t id) (wildcard : t.isWildcard id = true) :
    p = id := by
  induction reveals with
  | itself => rfl
  | part part =>
      rw [parts_of_wildcard wildcard] at part
      exact absurd part List.not_mem_nil
  | @body t t' id body made _ ih =>
      have plain : t.flag id ≠ .instantiated := by
        intro instantiated
        rw [isWildcard, instantiated] at wildcard
        cases wildcard
      obtain ⟨rfl, rfl⟩ := Prod.mk.inj ((run_resolve_plain plain).symm.trans made)
      exact ih wildcard

/-- A function hides the type parameters that it declares. -/
theorem not_reveals_of_declared {f : FunctionType} (entry : t.kind id = .function f)
    (declared : p ∈ f.typeParameters) (other : p ≠ id) : ¬Reveals p t id := by
  intro reveals
  induction reveals with
  | itself => exact other rfl
  | part _ undeclared => exact undeclared (by rwa [entry])
  | @body t t' id body made _ ih =>
      have plain : t.flag id ≠ .instantiated := by simp [flag, entry, TypeKind.flag]
      obtain ⟨rfl, rfl⟩ := Prod.mk.inj ((run_resolve_plain plain).symm.trans made)
      exact ih entry other

/-- The type is a wildcard or is met in an argument. -/
def MetIn (arguments : List TypeId) (t : TypeTable) (id : TypeId) : Prop :=
  id < t.size ∧ (t.isWildcard id = true ∨ ∃ a ∈ arguments, a < t.size ∧ t.Meets a id)

theorem passesOn_metIn (arguments : List TypeId) :
    Inference.PassesOn Grounded (MetIn arguments) where
  inside known := known.1
  advances := by
    rintro t t' id grounded advances ⟨inside, known⟩
    refine ⟨advances.inside inside, known.imp (fun wildcard => ?_) ?_⟩
    · rwa [advances.extended.isWildcard inside]
    · rintro ⟨a, listed, argument, meets⟩
      exact ⟨a, listed, advances.inside argument, (meets.advances grounded advances argument).1⟩
  part := by
    rintro t id m grounded ⟨inside, known⟩ part
    refine ⟨grounded.toWellFormed.part inside part, ?_⟩
    rcases known with wildcard | ⟨a, listed, argument, meets⟩
    · rw [parts_of_wildcard wildcard] at part
      exact absurd part List.not_mem_nil
    · exact .inr ⟨a, listed, argument, meets.tail (.inl part)⟩
  body := by
    rintro t id grounded ⟨inside, known⟩
    have advances := (advances_resolve queryInvariant_grounded grounded inside).yields
    refine (advances.and (t.resolves id)).weaken ?_
    rintro body t' ⟨⟨advances, inside'⟩, resolves⟩
    refine ⟨inside', ?_⟩
    have instantiated {i : InstantiatedType} (entry : t.kind id = .instantiated i) :
        ∃ a ∈ arguments, a < t.size ∧ t.Meets a id := by
      refine known.resolve_left fun wildcard => ?_
      rw [isWildcard, flag, entry] at wildcard
      cases wildcard
    cases resolves with
    | plain => exact known
    | remembered entry found =>
        obtain ⟨a, listed, argument, meets⟩ := instantiated entry
        exact .inr ⟨a, listed, argument, meets.tail (.inr ⟨_, entry, found⟩)⟩
    | pending _ _ _ pending =>
        refine .inl ?_
        rw [isWildcard, flag, pending]
        rfl
    | @made i g body u entry =>
        obtain ⟨a, listed, argument, meets⟩ := instantiated entry
        refine .inr ⟨a, listed, advances.inside argument,
          (meets.advances grounded advances argument).1.tail (.inr ⟨i, ?_, ?_⟩)⟩
        · exact advances.extended.entry entry (by simp)
        · rw [remember, Dictionary.find?_insert, if_pos rfl]
    | stray entry _ stray =>
        obtain ⟨g, origin⟩ := grounded.origin id inside _ entry
        exact absurd origin (stray g)

end TypeTable

section Instantiating
variable {t t' : TypeTable} {id : TypeId} {argumentTypes : List TypeId}
  {signature : InstantiatedSignature}

open Inference

/-- Without type arguments there is one way to come to a signature: the inference ends well,
and what it has found, when it is closed, is applied to the signature of the function. -/
theorem exists_inferred (done : (instantiate id argumentTypes none).run t = (.ok signature, t')) :
    ∃ f i u, t.kind id = .function f ∧ ((ofTypeParameters f.typeParameters).inferAll
        ((f.parameters.map Parameter.type).zip argumentTypes)).run t = ((.ok (), i), u) ∧
      (i.finish.apply f).run u = (signature, t') := by
  suffices inferred : Yields (instantiate id argumentTypes none) t fun outcome t' =>
      ∀ signature, outcome = .ok signature → ∃ f i u, t.kind id = .function f ∧
        ((ofTypeParameters f.typeParameters).inferAll
          ((f.parameters.map Parameter.type).zip argumentTypes)).run t = ((.ok (), i), u) ∧
        (i.finish.apply f).run u = (signature, t') by
    unfold Yields at inferred
    rw [done] at inferred
    exact inferred signature rfl
  have read : Yields (get : TableM TypeTable) t fun u t' => u = t ∧ t' = t := ⟨rfl, rfl⟩
  refine read.bind ?_
  rintro _ t ⟨rfl, rfl⟩
  split
  · exact .pure (by simp)
  · next f isFunction =>
      have ran : Yields ((ofTypeParameters f.typeParameters).inferAll
          ((f.parameters.map Parameter.type).zip argumentTypes)) t fun outcome u =>
            ((ofTypeParameters f.typeParameters).inferAll
              ((f.parameters.map Parameter.type).zip argumentTypes)).run t = (outcome, u) := rfl
      refine ran.bind ?_
      rintro ⟨result, i⟩ u ran
      cases result with
      | error e => exact .pure (by simp)
      | ok =>
          rintro _ ⟨⟩
          exact ⟨f, i, u, kind_of_asFunction? isFunction, ran, rfl⟩

/-- What is found by matching the parameters of a signature against types is met in those types,
and to close the inference and to apply it only asks questions of the table. -/
theorem metIn_of_inferAll {f : FunctionType} {i : Inference} {u : TypeTable}
    {outcome : Except InferenceError Unit} (grounded : t.Grounded) (within : f.Within t)
    (arguments : ∀ a ∈ argumentTypes, a < t.size)
    (ran : ((ofTypeParameters f.typeParameters).inferAll
      ((f.parameters.map Parameter.type).zip argumentTypes)).run t = ((outcome, i), u))
    (applied : (i.finish.apply f).run u = (signature, t')) :
    (ofTypeParameters f.typeParameters).Continues i ∧ Advances Grounded t u ∧
      Advances Grounded u t' ∧ ∀ q b, i.bindings.find? q = some b → MetIn argumentTypes u b := by
  have sites : ∀ pair ∈ (f.parameters.map Parameter.type).zip argumentTypes,
      pair.1 < t.size ∧ MetIn argumentTypes t pair.2 := by
    intro pair member
    obtain ⟨inSignature, given⟩ := List.of_mem_zip member
    obtain ⟨x, declared, same⟩ := List.mem_map.mp inSignature
    have inside := arguments pair.2 given
    exact ⟨same ▸ within.parameters x declared, inside, .inr ⟨pair.2, given, inside, .refl⟩⟩
  have found := (inferAll_found queryInvariant_grounded (passesOn_metIn argumentTypes) _ grounded
    (i := ofTypeParameters f.typeParameters) (List.forall_mem_nil _) sites).yields
  unfold Yields at found
  rw [ran] at found
  obtain ⟨advances, met, continues, -⟩ := found
  have holds := advances.keeps grounded
  have same : i.typeParameters = f.typeParameters := continues.typeParameters
  refine ⟨continues, advances, ?_, fun q b found =>
    met b (List.mem_map_of_mem (Dictionary.mem_of_find? found))⟩
  have applying := (Instantiation.advances_apply queryInvariant_grounded (i := i.finish) holds
    (within_finish (fun b member => (met b member).1) holds.unknown) (fun p member => ?_)
    (within.advances advances)).yields
  · unfold Yields at applying
    rw [applied] at applying
    exact applying.1
  · exact advances.inside (within.typeParameters p (same ▸ i.mem_of_unresolved p member))

/-- A type argument that is inferred is met in an argument. So a type parameter that it
reveals is revealed in the argument, unless a function that is met in the argument on the
way to it declares the type parameter. -/
theorem instantiate_scoped (grounded : t.Grounded) (arguments : ∀ a ∈ argumentTypes, a < t.size)
    (done : (instantiate id argumentTypes none).run t = (.ok signature, t')) {q b p : TypeId}
    (bound : signature.bindings.find? q = some b) (inferred : q ∉ signature.unresolved)
    (parameter : t'.flag p = .typeParameter) (reveals : Reveals p t' b) :
    ∃ a ∈ argumentTypes, Reveals p t' a ∨
      ∃ f, t'.Meets a f ∧ t'.Meets f b ∧ p ∈ (t'.kind f).binders := by
  obtain ⟨f, i, u, entry, ran, applied⟩ := exists_inferred done
  obtain ⟨-, advances, later, met⟩ :=
    metIn_of_inferAll grounded (grounded.toWellFormed.signature entry) arguments ran applied
  have holds := advances.keeps grounded
  have chosen := i.finish.run_apply f u
  rw [applied] at chosen
  have known := met q b (find?_of_finish (chosen.1 ▸ bound) (chosen.2 ▸ inferred))
  obtain ⟨-, wildcard | ⟨a, member, -, meets⟩⟩ :=
    (passesOn_metIn argumentTypes).advances holds later known
  · rw [reveals.eq_of_wildcard wildcard] at parameter
    rw [isWildcard, parameter] at wildcard
    cases wildcard
  · exact ⟨a, member, meets.reveals reveals⟩

/-- `<T>(x: { v: T; }) => void`, a type parameter `K`, `interface Box<V> { v: V }` and
`Box<K>`. -/
def unboxingTable : TypeTable where
  entries := TypeTable.initial.entries ++
    #[.typeParameter "T" none, .object ⟨none, ⟨[("v", ⟨7, false⟩)]⟩⟩,
      .function ⟨[7], [⟨"x", 8, false⟩], TypeId.void⟩, .typeParameter "K" none,
      .typeParameter "V" none, .object ⟨none, ⟨[("v", ⟨11, false⟩)]⟩⟩, .generic ⟨"Box", [11], 12⟩,
      .instantiated ⟨13, ⟨[("V", 10)]⟩⟩]
  resolved := .empty

/-- The body of `Box<K>` tells `K`, which is revealed in the argument. -/
theorem unboxingTable_scoped :
    ∃ signature t', (instantiate 9 [14] none).run unboxingTable = (.ok signature, t') ∧
      signature.bindings.find? 7 = some 10 ∧ Reveals 10 t' 10 ∧
      ∃ a ∈ [14], Reveals 10 t' a ∨
        ∃ f, t'.Meets a f ∧ t'.Meets f 10 ∧ 10 ∈ (t'.kind f).binders := by
  have grounded : unboxingTable.Grounded := ⟨.of_fits (by decide) rfl, by decide⟩
  obtain ⟨signature, t', done, bound, inferred, parameter⟩ : ∃ signature t',
      (instantiate 9 [14] none).run unboxingTable = (.ok signature, t') ∧
        signature.bindings.find? 7 = some 10 ∧ 7 ∉ signature.unresolved ∧
        t'.flag 10 = .typeParameter := ⟨_, _, rfl, rfl, by decide, rfl⟩
  exact ⟨signature, t', done, bound, .itself,
    instantiate_scoped grounded (by decide) done bound inferred parameter .itself⟩

/-- `<T>(cb: (x: T) => T) => T` and a generic function `<K>(y: K) => K`. -/
def identityTable : TypeTable where
  entries := TypeTable.initial.entries ++
    #[.typeParameter "T" none, .function ⟨[], [⟨"x", 7, false⟩], 7⟩,
      .function ⟨[7], [⟨"cb", 8, false⟩], 7⟩, .typeParameter "K" none,
      .function ⟨[10], [⟨"y", 10, false⟩], 10⟩]
  resolved := .empty

/-- The type parameter of a generic argument is taken for a type: it is bound, although it is
not revealed in the argument. -/
theorem ownParameter_captured :
    ∃ signature t', (instantiate 9 [11] none).run identityTable = (.ok signature, t') ∧
      signature.bindings.find? 7 = some 10 ∧ 7 ∉ signature.unresolved ∧
      t'.flag 10 = .typeParameter ∧ Reveals 10 t' 10 ∧ ∀ a ∈ [11], ¬Reveals 10 t' a := by
  refine ⟨_, _, rfl, rfl, by decide, rfl, .itself, List.forall_mem_singleton.mpr ?_⟩
  exact not_reveals_of_declared (f := ⟨[10], [⟨"y", 10, false⟩], 10⟩) rfl (by decide) (by decide)

end Instantiating

end StructuralTyping
