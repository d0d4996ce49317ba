import StructuralTyping.Proofs.Constructors
import StructuralTyping.Proofs.FreeParameters
import StructuralTyping.Proofs.QueryInvariants

/-! What a call makes of a generic signature. Whether the type arguments are written or
inferred, in the end the type parameters of the signature are bound, all of them and no
others, and replaced in its parameters and its result. -/
namespace StructuralTyping

open TableM (Yields)
open TypeTable

namespace Inference

/-- Closing an inference binds the parameters that are left. -/
theorem contains_finish (i : Inference) (p : TypeId) : i.finish.bindings.contains p = true ↔
    i.bindings.contains p = true ∨ p ∈ i.typeParameters := by
  suffices grown : ∀ (parameters : List TypeId) (start : Instantiation),
      (parameters.foldl (fun result p =>
          if result.bindings.contains p then result
          else ⟨result.bindings.insert p TypeId.unknown, result.unresolved ++ [p]⟩)
          start).bindings.contains p = true ↔
        start.bindings.contains p = true ∨ p ∈ parameters from
    grown i.typeParameters ⟨i.bindings, []⟩
  intro parameters
  induction parameters with
  | nil => exact fun start => (or_iff_left List.not_mem_nil).symm
  | cons q rest ih =>
      intro start
      rw [List.foldl_cons, ih, List.mem_cons]
      split
      · next known =>
          constructor
          · exact Or.imp_right .inr
          · rintro (bound | rfl | later)
            · exact .inl bound
            · exact .inl known
            · exact .inr later
      · rw [Dictionary.contains_insert, Bool.or_eq_true, decide_eq_true_eq, eq_comm]
        tauto

/-- An inference that begins with nothing binds its type parameters and no others. -/
theorem Continues.contains_finish {typeParameters : List TypeId} {i : Inference}
    (continues : (ofTypeParameters typeParameters).Continues i) (p : TypeId) :
    i.finish.bindings.contains p = true ↔ p ∈ typeParameters := by
  rw [Inference.contains_finish, continues.typeParameters]
  have fresh : ¬(ofTypeParameters typeParameters).bindings.contains p = true := by
    simp [ofTypeParameters, Dictionary.contains, Dictionary.find?_empty]
  refine ⟨fun bound => bound.elim (fun found => ?_) fun listed => listed, .inr⟩
  exact (continues.bindings p found).resolve_left fresh

/-- One step of closing an inference. -/
def close (result : Instantiation) (p : TypeId) : Instantiation :=
  if result.bindings.contains p then result
  else ⟨result.bindings.insert p TypeId.unknown, result.unresolved ++ [p]⟩

/-- What is bound stays as it is. -/
theorem close_bound {p b : TypeId} (rest : List TypeId) (start : Instantiation)
    (found : start.bindings.find? p = some b) :
    (rest.foldl close start).bindings.find? p = some b ∧
      (p ∈ (rest.foldl close start).unresolved ↔ p ∈ start.unresolved) := by
  induction rest generalizing start with
  | nil => exact ⟨found, .rfl⟩
  | cons q rest ih =>
      rw [List.foldl_cons]
      by_cases bound : start.bindings.contains q = true
      · rw [close, if_pos bound]
        exact ih start found
      · have other : q ≠ p := by
          rintro rfl
          exact bound (Option.isSome_iff_exists.mpr ⟨b, found⟩)
        rw [close, if_neg bound]
        obtain ⟨kept, listed⟩ := ih ⟨start.bindings.insert q TypeId.unknown, start.unresolved ++ [q]⟩
          (by rw [Dictionary.find?_insert, if_neg other, found])
        refine ⟨kept, listed.trans ?_⟩
        rw [List.mem_append, List.mem_singleton, or_iff_left other.symm]

/-- What is not bound is bound to `unknown` and listed. -/
theorem close_unbound {p : TypeId} (rest : List TypeId) (start : Instantiation)
    (unbound : start.bindings.find? p = none) (listed : p ∈ rest) :
    (rest.foldl close start).bindings.find? p = some TypeId.unknown ∧
      p ∈ (rest.foldl close start).unresolved := by
  induction rest generalizing start with
  | nil => exact absurd listed List.not_mem_nil
  | cons q rest ih =>
      rw [List.foldl_cons]
      by_cases same : q = p
      · subst same
        have open' : ¬start.bindings.contains q = true := by
          rw [Dictionary.contains, unbound]
          exact Bool.false_ne_true
        rw [close, if_neg open']
        obtain ⟨kept, still⟩ := close_bound rest
          ⟨start.bindings.insert q TypeId.unknown, start.unresolved ++ [q]⟩
          (p := q) (b := TypeId.unknown) (by rw [Dictionary.find?_insert, if_pos rfl])
        exact ⟨kept, still.mpr (List.mem_append_right _ (List.mem_singleton_self q))⟩
      · have later : p ∈ rest := (List.mem_cons.mp listed).resolve_left (Ne.symm same)
        refine ih _ ?_ later
        rw [close]
        split
        · exact unbound
        · rw [Dictionary.find?_insert, if_neg same, unbound]

/-- Closing an inference keeps what has been found, and the type parameters without a type
are bound to `unknown` and listed. -/
theorem find?_finish (i : Inference) {p : TypeId} (listed : p ∈ i.typeParameters) :
    (∀ b, i.bindings.find? p = some b →
      i.finish.bindings.find? p = some b ∧ p ∉ i.finish.unresolved) ∧
    (i.bindings.find? p = none →
      i.finish.bindings.find? p = some TypeId.unknown ∧ p ∈ i.finish.unresolved) := by
  refine ⟨fun b found => ?_, fun unbound => close_unbound _ ⟨i.bindings, []⟩ unbound listed⟩
  obtain ⟨kept, same⟩ := close_bound i.typeParameters ⟨i.bindings, []⟩ found
  exact ⟨kept, fun unresolved => List.not_mem_nil (same.mp unresolved)⟩

/-- What is not left open has been found. -/
theorem find?_of_finish {i : Inference} {p b : TypeId}
    (bound : i.finish.bindings.find? p = some b) (closed : p ∉ i.finish.unresolved) :
    i.bindings.find? p = some b := by
  cases found : i.bindings.find? p with
  | some first => exact (close_bound i.typeParameters ⟨i.bindings, []⟩ found).1.symm.trans bound
  | none =>
      have listed : p ∈ i.typeParameters := by
        refine ((contains_finish i p).mp (Option.isSome_iff_exists.mpr ⟨b, bound⟩)).resolve_left ?_
        simp [Dictionary.contains, found]
      exact absurd ((find?_finish i listed).2 found).2 closed

end Inference

/-- The signature comes of a table that the first one grows to, where exactly the type
parameters of the function are bound. -/
structure Instantiates (inv : TypeTable → Prop) (t : TypeTable) (f : FunctionType)
    (signature : InstantiatedSignature) (i : Instantiation) (u t' : TypeTable) : Prop where
  advances : Advances inv t u
  run : (i.apply f).run u = (signature, t')
  contains : ∀ p, i.bindings.contains p = true ↔ p ∈ f.typeParameters
  inside : ∀ b ∈ i.bindings.values, b < u.size

section Inversion
variable {inv : TypeTable → Prop} (query : QueryInvariant inv) {t : TypeTable} {id : TypeId}
  {f : FunctionType}

include query

/-- There is one way to come to a signature. -/
theorem exists_instantiates {argumentTypes : List TypeId} {explicit : Option (List TypeId)}
    (holds : inv t) (entry : t.kind id = .function f)
    (arguments : ∀ a ∈ argumentTypes, a < t.size)
    (written : ∀ ids, explicit = some ids → ∀ a ∈ ids, a < t.size) :
    Yields (instantiate id argumentTypes explicit) t fun outcome t' =>
      ∀ signature, outcome = .ok signature → ∃ i u, Instantiates inv t f signature i u t' := by
  have read : Yields (get : TableM TypeTable) t fun u t' => u = t ∧ t' = t := ⟨rfl, rfl⟩
  refine read.bind ?_
  rintro _ t ⟨rfl, rfl⟩
  have isFunction : t.asFunction? id = some f := by rw [asFunction?, entry]
  have within := (query.closed holds).signature entry
  rw [isFunction]
  cases explicit with
  | some ids =>
      dsimp only
      split
      · exact .pure (by simp)
      · next count =>
          rintro _ ⟨⟩
          refine ⟨.explicit f.typeParameters ids, t, .refl t, rfl, fun p => ?_, fun b member => ?_⟩
          · have keys : (f.typeParameters.zip ids).map Prod.fst = f.typeParameters :=
              List.map_fst_zip (Nat.le_of_eq (not_not.mp count).symm)
            rw [Instantiation.explicit, Dictionary.contains_ofList, keys]
          · obtain ⟨pair, supplied, rfl⟩ := List.mem_map.mp (Dictionary.mem_values_ofList member)
            exact written ids rfl pair.2 (List.of_mem_zip supplied).2
  | none =>
      have nothing : (Inference.ofTypeParameters f.typeParameters).Within t :=
        List.forall_mem_nil _
      refine (Inference.advances_inferAll query _ holds nothing fun pair member => ?_).yields.bind ?_
      · obtain ⟨inSignature, given⟩ := List.of_mem_zip member
        obtain ⟨p, declared, same⟩ := List.mem_map.mp inSignature
        exact ⟨same ▸ within.parameters p declared, arguments _ given⟩
      · rintro ⟨result, inference⟩ u ⟨advances, found, continues, -⟩
        cases result with
        | error e => exact .pure (by simp)
        | ok =>
            rintro _ ⟨⟩
            have unknown := query.unknown (advances.keeps holds)
            exact ⟨inference.finish, u, advances, rfl, continues.contains_finish,
              Inference.within_finish found unknown⟩

end Inversion

/-- The types of a signature, its parameters first. -/
def InstantiatedSignature.parts (signature : InstantiatedSignature) : List TypeId :=
  signature.parameters ++ [signature.returnType]

/-- What is chosen goes into the signature. -/
theorem Instantiation.run_apply (i : Instantiation) (f : FunctionType) (t : TypeTable) :
    ((i.apply f).run t).1.bindings = i.bindings ∧
      ((i.apply f).run t).1.unresolved = i.unresolved :=
  ⟨rfl, rfl⟩

/-- To apply bindings to a signature is to replace its types one after another. -/
theorem Instantiation.yields_apply {grown : TypeTable → TypeTable → Prop} (growth : Growth grown)
    {Q : TypeId → TypeId → TypeTable → Prop}
    (stable : ∀ a b t t', grown t t' → Q a b t → Q a b t') {i : Instantiation} {f : FunctionType}
    {t : TypeTable} (step : ∀ m ∈ (TypeKind.function f).parts, ∀ t', grown t t' →
      Yields (substitute m i.bindings) t' fun m' t'' => grown t' t'' ∧ Q m m' t'') :
    Yields (i.apply f) t fun signature t' => grown t t' ∧ signature.bindings = i.bindings ∧
      List.Forall₂ (fun m m' => Q m m' t') (TypeKind.function f).parts signature.parts := by
  refine (Yields.sequential.mapM growth (Q := fun (p : Parameter) m' => Q p.type m')
    (fun p _ => stable p.type _) fun p member =>
      step p.type (List.mem_append_left _ (List.mem_map_of_mem member))).bind ?_
  intro parameters u ⟨grown, pairs⟩
  have result := step f.returnType (List.mem_append_right _ (List.mem_singleton_self _)) u grown
  refine result.bind fun returnType u' ⟨later, holds⟩ =>
    .pure ⟨growth.trans grown later, rfl, ?_⟩
  refine List.rel_append (List.forall₂_map_left_iff.mpr ?_) (.cons holds .nil)
  exact pairs.imp fun _ _ replaced => stable _ _ _ _ later replaced

section Unconcerned
variable {inv : TypeTable → Prop} {t t' u : TypeTable} {f : FunctionType}
  {signature : InstantiatedSignature} {i : Instantiation}

theorem FunctionType.Within.part {m : TypeId} (within : f.Within t)
    (part : m ∈ (TypeKind.function f).parts) : m < t.size := by
  rcases List.mem_append.mp part with parameter | result
  · obtain ⟨p, member, rfl⟩ := List.mem_map.mp parameter
    exact within.parameters p member
  · exact List.mem_singleton.mp result ▸ within.returnType

/-- A type of the signature that has nothing to do with the type parameters stays. -/
theorem Instantiates.parts_of_unconcerned (wellFormed : t.WellFormed) (within : f.Within t)
    (instantiates : Instantiates inv t f signature i u t') :
    List.Forall₂ (fun m m' => t.Unconcerned (· ∈ f.typeParameters) m → m' = m)
      (TypeKind.function f).parts signature.parts := by
  have replaced := Instantiation.yields_apply (i := i) (f := f) (t := u) Extends.growth
    (Q := fun m m' _ => t.Unconcerned (· ∈ f.typeParameters) m → m' = m)
    (fun _ _ _ _ _ same => same) fun m part w extended => by
      refine ⟨(derives_substitute m i.bindings w).extended, fun unconcerned => ?_⟩
      have later := instantiates.advances.extended.trans extended
      have unbound : w.Unconcerned (i.bindings.contains · = true) m :=
        (unconcerned.of_extends wellFormed later (within.part part)).mono
          fun p bound => (instantiates.contains p).mp bound
      rw [run_substitute_unconcerned unbound]
  have run := instantiates.run
  unfold Yields at replaced
  rw [run] at replaced
  exact replaced.2.2

/-- A recursive interface `Node` and a generic function with a `Node` for a result. -/
def nodeTable : TypeTable where
  entries := TypeTable.initial.entries ++
    #[.object ⟨some "Node", ⟨[("value", ⟨TypeId.number, false⟩), ("next", ⟨7, false⟩)]⟩⟩,
      .typeParameter "T" none, .function ⟨[8], [⟨"x", 8, false⟩], 7⟩]
  resolved := .empty

/-- An interface `A` with a generic method that gives an `A`. -/
def methodTable : TypeTable where
  entries := TypeTable.initial.entries ++
    #[.typeParameter "T" none, .object ⟨some "A", ⟨[("m", ⟨9, false⟩)]⟩⟩,
      .function ⟨[7], [⟨"x", 7, false⟩], 8⟩]
  resolved := .empty

end Unconcerned

end StructuralTyping
