import StructuralTyping.Proofs.InterchangeableTypes
import StructuralTyping.Proofs.RecoveredBindings

/-! A generic function against one that is the same up to the names of its type parameters.
Matching binds each type parameter to the one that corresponds to it, or to nothing, and
resolves no type. When the bindings replace the type parameters, what comes of the types of the
first function may stand for the types of the second one. -/
namespace StructuralTyping

open TableM (Yields)
open Equality TypeTable

namespace Inference

variable {t : TypeTable} {own : Pairs} {i : Inference} {x y : TypeId}

/-- Type parameters are bound to those that correspond to them. -/
structure BindsPartners (own : Pairs) (i : Inference) : Prop where
  typeParameters : i.typeParameters = own.map Prod.fst
  found : ∀ p b, i.bindings.find? p = some b → (p, b) ∈ own

/-- The matching ends well, it leaves the table alone, and it binds partners. -/
def Pairing (t : TypeTable) (own : Pairs) (m : MatchM Unit) (i : Inference) : Prop :=
  ∃ i', m.run.run (t, i) = (.ok (), t, i') ∧ BindsPartners own i'

theorem Pairing.bind {m k : MatchM Unit} (first : Pairing t own m i)
    (next : ∀ i', BindsPartners own i' → Pairing t own k i') :
    Pairing t own (m >>= fun _ => k) i := by
  obtain ⟨i', ran, binds⟩ := first
  obtain ⟨i'', ran', binds'⟩ := next i' binds
  refine ⟨i'', ?_, binds'⟩
  rw [ExceptT.run_bind, StateT.run_bind, ran]
  exact ran'

theorem pairing_matchAll {matchPair : TypeId → TypeId → MatchM Unit}
    (pairs : List (TypeId × TypeId))
    (each : ∀ pair ∈ pairs, ∀ i, BindsPartners own i → Pairing t own (matchPair pair.1 pair.2) i)
    (binds : BindsPartners own i) : Pairing t own (matchAll matchPair pairs) i := by
  induction pairs generalizing i with
  | nil => exact ⟨i, rfl, binds⟩
  | cons pair rest ih =>
      obtain ⟨here, later⟩ := List.forall_mem_cons.mp each
      exact (here i binds).bind fun i' binds => ih later binds

section Structure
variable {matchPair : TypeId → TypeId → MatchM Unit}

/-- Types that are made alike are matched part by part. -/
theorem pairing_parallel {Γ : Pairs} (parallel : Parallel t Γ x y)
    (each : ∀ inner m n, Beside t x y inner m n → ∀ i, BindsPartners own i →
      Pairing t own (matchPair m n) i)
    (binds : BindsPartners own i) : Pairing t own (matchStructure matchPair x y) i := by
  rw [Pairing, matchStructure, MatchM.run_table_bind]
  cases parallel with
  | @object o o' left right =>
      rw [left, right]
      refine pairing_matchAll _ (fun pair member => ?_) binds
      obtain ⟨⟨name, p⟩, listed, mapped⟩ := List.mem_filterMap.mp member
      obtain ⟨q, found, rfl⟩ := Option.map_eq_some_iff.mp mapped
      exact each _ _ _ (.property left right listed (Dictionary.mem_of_find? found))
  | @function f g left right =>
      rw [left, right]
      refine Pairing.bind (pairing_matchAll _ (fun pair member => ?_) binds) fun i' binds => ?_
      · obtain ⟨zipped, listed, rfl⟩ := List.mem_map.mp member
        exact each _ _ _ (.parameter left right listed)
      · exact each _ _ _ (.result left right) i' binds
  | @arguments j j' left right origin =>
      rw [left, right]
      dsimp only
      rw [if_pos origin]
      exact pairing_matchAll _ (fun pair listed => each _ _ _ (.argument left right origin listed))
        binds

/-- Types that have no parts in common say nothing. -/
theorem pairing_leaf (plain : ¬t.IsInstance x) (plain' : ¬t.IsInstance y)
    (objects : ¬(t.flag x = .object ∧ t.flag y = .object))
    (functions : ¬(t.flag x = .function ∧ t.flag y = .function)) (binds : BindsPartners own i) :
    Pairing t own (matchStructure matchPair x y) i := by
  rw [Pairing, matchStructure, MatchM.run_table_bind]
  have flag {id : TypeId} {kind : TypeKind} (entry : t.kind id = kind) : t.flag id = kind.flag :=
    congrArg TypeKind.flag entry
  dsimp only
  split
  · next left right => exact absurd ⟨flag left, flag right⟩ functions
  · next left _ => exact absurd ⟨_, left⟩ plain
  · next left _ => exact absurd ⟨_, left⟩ plain
  · next right _ => exact absurd ⟨_, right⟩ plain'
  · next left right => exact absurd ⟨flag left, flag right⟩ objects
  · exact ⟨i, rfl, binds⟩

/-- Types of different makes are matched by their bodies. -/
theorem pairing_bodies {m n : TypeId} (instantiated : t.IsInstance x ∨ t.IsInstance y)
    (apart : ∀ j k, t.kind x = .instantiated j → t.kind y = .instantiated k → j.origin ≠ k.origin)
    (left : body? t x = some m) (right : body? t y = some n)
    (below : ∀ i, BindsPartners own i → Pairing t own (matchPair m n) i)
    (binds : BindsPartners own i) : Pairing t own (matchStructure matchPair x y) i := by
  have byBody : Pairing t own (do
      let patternBody ← MatchM.onTable (resolve x)
      let actualBody ← MatchM.onTable (resolve y)
      if patternBody = x ∧ actualBody = y then return ()
      else matchPair patternBody actualBody) i := by
    have same : (do
        let patternBody ← MatchM.onTable (resolve x)
        let actualBody ← MatchM.onTable (resolve y)
        if patternBody = x ∧ actualBody = y then return ()
        else matchPair patternBody actualBody : MatchM Unit).run.run (t, i) =
          (if m = x ∧ n = y then return () else matchPair m n : MatchM Unit).run.run (t, i) := by
      change (let ran := (resolve x).run t
        let ran' := (resolve y).run ran.2
        (if ran.1 = x ∧ ran'.1 = y then return () else matchPair ran.1 ran'.1 :
          MatchM Unit).run.run (ran'.2, i)) = _
      rw [run_resolve_body left]
      dsimp only
      rw [run_resolve_body right]
    rw [Pairing, same]
    split
    · exact ⟨i, rfl, binds⟩
    · exact below i binds
  rw [Pairing, matchStructure, MatchM.run_table_bind]
  dsimp only
  split
  · next isLeft isRight => simp [IsInstance, isLeft, isRight] at instantiated
  · next isLeft isRight =>
      rw [if_neg (apart _ _ isLeft isRight)]
      exact byBody
  · exact byBody
  · exact byBody
  · next isLeft isRight => simp [IsInstance, isLeft, isRight] at instantiated
  · exact ⟨i, rfl, binds⟩

end Structure

/-- The type parameters that are looked for correspond to their partners alone. -/
def PartnersOnly (Γ own : Pairs) : Prop :=
  own ⊆ Γ ∧ ∀ pair ∈ Γ, pair.1 ∈ own.map Prod.fst → pair ∈ own

/-- The types are the same up to names, and the type parameters that are looked for correspond
to their partners alone, or neither type has to do with them. -/
def Faces (t : TypeTable) (own : Pairs) (x y : TypeId) : Prop :=
  ∃ Γ, Renaming t (Interchangeable t) Γ x y ∧ (Uninvolved t own x y ∨ PartnersOnly Γ own)

theorem Faces.of_interchangeable (uninvolved : Uninvolved t own x y)
    (interchangeable : Interchangeable t x y) : Faces t own x y :=
  ⟨[], .kept (uninvolved_nil t x y) interchangeable, .inl uninvolved⟩

/-- What stands beside each other in types that face each other does so, too. -/
theorem Faces.beside {Γ inner : Pairs} {m n : TypeId} (parallel : Parallel t Γ x y)
    (scope : Uninvolved t own x y ∨ PartnersOnly Γ own)
    (beside : Beside t x y inner m n)
    (renamed : Renaming t (Interchangeable t) (inner ++ Γ) m n) : Faces t own m n := by
  refine ⟨inner ++ Γ, renamed, scope.imp (fun uninvolved => ?_) fun ⟨within, only⟩ => ⟨?_, ?_⟩⟩
  · exact uninvolved.of_meets beside.meets.1 beside.meets.2
  · exact List.Subset.trans within (List.subset_append_right _ _)
  · intro pair member listed
    refine (List.mem_append.mp member).elim (fun declared => ?_) fun outer => only pair outer listed
    obtain ⟨partner, known, same⟩ := List.mem_map.mp listed
    have apart := (parallel.ownParameters beside).1.apart pair.1 (List.mem_map_of_mem declared)
    exact absurd same.symm (apart partner (within known)).1

section Matching
variable (ownParameters : OwnParameters t [] (own.map Prod.fst))

/-- A type parameter has one partner. -/
theorem eq_of_partners {p q q' : TypeId} (once : (own.map Prod.fst).Nodup) (one : (p, q) ∈ own)
    (other : (p, q') ∈ own) : q = q' :=
  congrArg Prod.snd (List.inj_on_of_nodup_map once one other rfl)

include ownParameters in
/-- A type parameter that is looked for gets its partner. -/
theorem pairing_parameter (faces : Faces t own x y) (listed : x ∈ own.map Prod.fst)
    (binds : BindsPartners own i) : Pairing t own (matchParameter x y) i := by
  obtain ⟨Γ, renamed, scope⟩ := faces
  obtain ⟨pair, member, rfl⟩ := List.mem_map.mp listed
  have concerned {Δ : Pairs} (known : pair ∈ Δ) : ¬Uninvolved t Δ pair.1 y := fun uninvolved =>
    (uninvolved pair known).1 ⟨pair.1, .refl, .inl rfl⟩
  obtain ⟨within, only⟩ := scope.resolve_left (concerned member)
  have partner : (pair.1, y) ∈ own := by
    cases renamed with
    | corresponding corresponds => exact only _ corresponds listed
    | kept uninvolved => exact absurd uninvolved (concerned (within member))
    | composite parallel => exact absurd (ownParameters.leaves _ listed) parallel.flag_ne
  rw [Pairing, run_matchParameter]
  cases before : i.bindings.find? pair.1 with
  | none =>
      refine ⟨_, rfl, binds.typeParameters, fun p b found => ?_⟩
      rw [Dictionary.find?_insert] at found
      split at found
      · next same =>
          obtain rfl := Option.some.inj found
          exact same ▸ partner
      · exact binds.found p b found
  | some first =>
      obtain rfl := eq_of_partners ownParameters.distinct (binds.found _ _ before) partner
      dsimp only
      rw [if_pos (equals_self first)]
      exact ⟨i, rfl, binds⟩

theorem pairing_structure {matchPair : TypeId → TypeId → MatchM Unit}
    (each : ∀ {m n : TypeId} {i : Inference}, Faces t own m n → BindsPartners own i →
      Pairing t own (matchPair m n) i)
    (faces : Faces t own x y) (differ : x ≠ y) (binds : BindsPartners own i) :
    Pairing t own (matchStructure matchPair x y) i := by
  have parts {Γ : Pairs} (parallel : Parallel t Γ x y)
      (scope : Uninvolved t own x y ∨ PartnersOnly Γ own)
      (below : ∀ inner m n, Beside t x y inner m n →
        Renaming t (Interchangeable t) (inner ++ Γ) m n) :
      Pairing t own (matchStructure matchPair x y) i :=
    pairing_parallel parallel (fun inner m n beside i binds =>
      each (.beside parallel scope beside (below inner m n beside)) binds) binds
  obtain ⟨Γ, renamed, scope⟩ := faces
  cases renamed with
  | corresponding _ left right =>
      refine pairing_leaf ?_ ?_ (by simp [left]) (by simp [left]) binds
      · rintro ⟨j, entry⟩
        simp [flag, entry, TypeKind.flag] at left
      · rintro ⟨j, entry⟩
        simp [flag, entry, TypeKind.flag] at right
  | composite parallel below => exact parts parallel scope below
  | kept uninvolved related =>
      have uninvolved : Uninvolved t own x y :=
        scope.elim (fun here => here) fun shared => uninvolved.mono shared.1
      have rule := related.unfold
      cases rule with
      | same equal => exact absurd equal differ
      | wildcard either plain plain' =>
          refine pairing_leaf plain plain' ?_ ?_ binds
          · rintro ⟨left, right⟩
            simp [isWildcard, left, right, TypeFlag.isWildcard] at either
          · rintro ⟨left, right⟩
            simp [isWildcard, left, right, TypeFlag.isWildcard] at either
      | primitive left right =>
          exact pairing_leaf (by simp [IsInstance, left]) (by simp [IsInstance, right])
            (by simp [flag, left, TypeKind.flag]) (by simp [flag, left, TypeKind.flag]) binds
      | composite parallel below =>
          exact parts parallel (.inl uninvolved) fun inner m n beside => by
            simpa using below inner m n beside
      | bodies instantiated apart left right _ _ related =>
          refine pairing_bodies instantiated apart left right (fun i binds => each ?_ binds) binds
          exact .of_interchangeable
            (uninvolved.of_meets (meets_body left) (meets_body right)) related

include ownParameters

theorem pairing_matchWithin (fuel : Nat) (faces : Faces t own x y) (binds : BindsPartners own i) :
    Pairing t own (matchWithin fuel x y) i := by
  induction fuel generalizing x y i with
  | zero => exact ⟨i, rfl, binds⟩
  | succ fuel ih =>
      rw [Pairing, run_matchWithin]
      split_ifs with wildcard listed visited deep
      · exact ⟨i, rfl, binds⟩
      · exact pairing_parameter ownParameters faces (binds.typeParameters ▸ listed) binds
      · exact ⟨i, rfl, binds⟩
      · exact ⟨i, rfl, binds⟩
      · have inside : BindsPartners own { i with visiting := (x, y) :: i.visiting } :=
          ⟨binds.typeParameters, binds.found⟩
        obtain ⟨i', ran, binds'⟩ := pairing_structure ih faces (not_or.mp visited).1
          inside
        rw [run_within, ran]
        exact ⟨_, rfl, binds'.typeParameters, binds'.found⟩

theorem pairing_inferParameters (pairs : List (Parameter × Parameter))
    (faces : ∀ pair ∈ pairs, Faces t own pair.1.type pair.2.type) (binds : BindsPartners own i) :
    ∃ i', (Assignability.inferParameters i pairs).run t = (i', t) ∧ BindsPartners own i' := by
  induction pairs generalizing i with
  | nil => exact ⟨i, rfl, binds⟩
  | cons pair rest ih =>
      obtain ⟨here, later⟩ := List.forall_mem_cons.mp faces
      obtain ⟨i', ran, binds'⟩ := pairing_matchWithin ownParameters (depthLimit + 1) here binds
      obtain ⟨i'', ran', binds''⟩ := ih later binds'
      have inferred : (i.infer pair.1.type pair.2.type).run t = ((.ok (), i'), t) := by
        change (let ran := (matchWithin (depthLimit + 1) pair.1.type pair.2.type).run.run (t, i)
          ((ran.1, ran.2.2), ran.2.1)) = _
        rw [ran]
      refine ⟨i'', ?_, binds''⟩
      rw [Assignability.inferParameters, TableM.run_bind, inferred]
      exact ran'

end Matching

end Inference

namespace TypeTable

theorem Reaches.meets {t : TypeTable} {x m : TypeId} (reached : t.Reaches x m) : t.Meets x m := by
  induction reached with
  | refl => exact .refl
  | tail _ part ih => exact ih.tail (.inl part)

section Below
variable {t : TypeTable} {σ : Bindings} {x x' : TypeId} (below : t.ReplacedBelow σ x x')

include below

/-- An object becomes an object with the same properties. -/
theorem ReplacedBelow.object {o : ObjectType} (entry : t.kind x = .object o) :
    ∃ o', t.kind x' = .object o' ∧
      List.Forall₂ (t.PropertyReplaced σ) o.properties.pairs o'.properties.pairs := by
  obtain ⟨shape, -, parts, -⟩ := below
  rw [entry] at shape parts
  cases made : t.kind x' with
  | object o' =>
      rw [made] at shape parts
      exact ⟨o', rfl, (forall₂_properties shape parts).imp
        fun p q same => ⟨same.1, same.2.1, same.2.2⟩⟩
  | _ => cases made ▸ congrArg TypeKind.flag shape

/-- A function becomes a function with the same parameters, which declares the type parameters
that are not bound. -/
theorem ReplacedBelow.function {f : FunctionType} (entry : t.kind x = .function f) :
    ∃ f', t.kind x' = .function f' ∧
      f'.typeParameters = (f.typeParameters.filter fun p => !σ.contains p) ∧
      f'.parameters.length = f.parameters.length ∧
      (∀ pair ∈ f.parameters.zip f'.parameters, pair.1.optional = pair.2.optional ∧
        t.Replaced σ pair.1.type pair.2.type) ∧
      t.Replaced σ f.returnType f'.returnType := by
  obtain ⟨shape, binders, parts, -⟩ := below
  rw [entry] at shape binders parts
  cases made : t.kind x' with
  | function f' =>
      rw [made] at shape binders parts
      have erased := congrArg FunctionType.parameters (TypeKind.function.inj shape)
      have counted : f'.parameters.length = f.parameters.length := by
        simpa using congrArg List.length erased
      rw [TypeKind.zip_parts_function counted.symm] at parts
      refine ⟨f', rfl, binders, counted, fun pair listed => ⟨?_, ?_⟩, ?_⟩
      · exact (Parameter.mk.inj (eq_of_mem_zip erased.symm pair listed)).2.2
      · exact parts _ (List.mem_append_left _ (List.mem_map_of_mem listed))
      · exact parts _ (List.mem_append_right _ (List.mem_singleton_self _))
  | _ => cases made ▸ congrArg TypeKind.flag shape

/-- An instance becomes an instance of the same interface. -/
theorem ReplacedBelow.instantiated {i : InstantiatedType} (entry : t.kind x = .instantiated i) :
    ∃ i', t.kind x' = .instantiated i' ∧ i'.origin = i.origin ∧
      i'.bindings.values.length = i.bindings.values.length ∧
      ∀ pair ∈ i.bindings.values.zip i'.bindings.values, t.Replaced σ pair.1 pair.2 := by
  obtain ⟨shape, -, parts, -⟩ := below
  rw [entry] at shape parts
  cases made : t.kind x' with
  | instantiated i' =>
      rw [made] at shape parts
      exact ⟨i', rfl, (InstantiatedType.mk.inj (TypeKind.instantiated.inj shape)).1,
        TypeKind.length_parts_of_shape shape, parts⟩
  | _ => cases made ▸ congrArg TypeKind.flag shape

end Below

end TypeTable

namespace Equality

/-- The bindings bind the type parameters to their partners or to `unknown`. -/
structure Chooses (own : Pairs) (σ : Bindings) : Prop where
  contains : ∀ p, σ.contains p = true ↔ p ∈ own.map Prod.fst
  partner : ∀ p b, σ.find? p = some b → (p, b) ∈ own ∨ b = TypeId.unknown

section Replacing
variable {t : TypeTable} {own inner Γ : Pairs} {σ : Bindings} {R : TypeId → TypeId → Prop}
  {x x' y m' n p : TypeId}

/-- The bindings do not affect a type that has nothing to do with the type parameters. -/
theorem Uninvolved.not_affected (chooses : Chooses own σ) (uninvolved : Uninvolved t own x y) :
    ¬t.Affected σ x := by
  rintro ⟨m, reached, concerned⟩
  have meets := reached.meets
  rcases concerned with ⟨b, found, -⟩ | ⟨p, declared, bound⟩
  · obtain ⟨pair, member, rfl⟩ :=
      List.mem_map.mp ((chooses.contains m).mp (Option.isSome_iff_exists.mpr ⟨b, found⟩))
    exact (uninvolved pair member).1 ⟨_, meets, .inl rfl⟩
  · obtain ⟨pair, member, rfl⟩ := List.mem_map.mp ((chooses.contains p).mp bound)
    exact (uninvolved pair member).1 ⟨m, meets, .inr declared⟩

/-- None of the type parameters that a function declares further in is bound. -/
theorem OwnParameters.unbound {ps : List TypeId} (chooses : Chooses own σ)
    (ownParameters : OwnParameters t (inner ++ own) ps) :
    (ps.filter fun p => !σ.contains p) = ps := by
  refine List.filter_eq_self.mpr fun p listed => ?_
  rw [Bool.not_eq_true', Bool.eq_false_iff]
  intro bound
  obtain ⟨pair, member, rfl⟩ := List.mem_map.mp ((chooses.contains p).mp bound)
  exact (ownParameters.apart _ listed pair (List.mem_append_right _ member)).1 rfl

/-- Each part of a type stands beside a part of a type that is made alike. -/
theorem Parallel.exists_beside {m : TypeId} (parallel : Parallel t Γ x y)
    (part : m ∈ (t.kind x).parts) : ∃ inner n, Beside t x y inner m n := by
  cases parallel with
  | @object o o' left right names =>
      rw [left] at part
      obtain ⟨p, listed, rfl⟩ := List.mem_map.mp part
      obtain ⟨⟨name, p⟩, member, rfl⟩ := List.mem_map.mp listed
      obtain ⟨⟨name', q⟩, member', rfl⟩ :=
        List.mem_map.mp ((names name).mp (List.mem_map_of_mem member))
      exact ⟨[], _, .property left right member member'⟩
  | @function f g left right _ _ _ arity =>
      rw [left] at part
      rcases List.mem_append.mp part with parameter | result
      · obtain ⟨p, listed, rfl⟩ := List.mem_map.mp parameter
        rw [← List.map_fst_zip (Nat.le_of_eq arity)] at listed
        obtain ⟨pair, zipped, rfl⟩ := List.mem_map.mp listed
        exact ⟨_, _, .parameter left right zipped⟩
      · rw [List.mem_singleton.mp result]
        exact ⟨_, _, .result left right⟩
  | @arguments i j left right origin counted =>
      rw [left] at part
      have listed : m ∈ i.bindings.values := part
      rw [← List.map_fst_zip (Nat.le_of_eq counted)] at listed
      obtain ⟨pair, zipped, rfl⟩ := List.mem_map.mp listed
      exact ⟨_, _, .argument left right origin zipped⟩

/-- A type that mentions the type parameters is not met again on the way down. -/
theorem Renaming.finite (chooses : Chooses own σ) (within : own ⊆ Γ)
    (renamed : Renaming t R Γ x y) :
    ∀ m, t.Reaches x m → t.Recursive m → ¬t.Affected σ m := by
  induction renamed with
  | corresponding _ left =>
      intro m reached recursive
      have leaf := (TypeKind.leaf_of_typeParameter left).1
      rcases Relation.ReflTransGen.cases_head reached with rfl | ⟨n, part, -⟩
      · obtain ⟨n, part, -⟩ := Relation.TransGen.head'_iff.mp recursive
        exact absurd (leaf ▸ part) List.not_mem_nil
      · exact absurd (leaf ▸ part) List.not_mem_nil
  | kept uninvolved =>
      intro m reached _ affected
      obtain ⟨n, further, concerned⟩ := affected
      exact (uninvolved.mono within).not_affected chooses ⟨n, reached.trans further, concerned⟩
  | @composite Γ x y parallel _ ih =>
      have below {n : TypeId} (part : n ∈ (t.kind x).parts) :
          ∀ m, t.Reaches n m → t.Recursive m → ¬t.Affected σ m := by
        obtain ⟨inner, n', beside⟩ := parallel.exists_beside part
        exact ih inner n n' beside (List.Subset.trans within (List.subset_append_right _ _))
      intro m reached recursive
      rcases Relation.ReflTransGen.cases_head reached with rfl | ⟨n, part, further⟩
      · obtain ⟨n, part, back⟩ := Relation.TransGen.head'_iff.mp recursive
        exact below part x back recursive
      · exact below part m further recursive

/-- A type in which type parameters are replaced is still made alike. -/
theorem Parallel.replaced (chooses : Chooses own σ) (below : t.ReplacedBelow σ x x')
    (parallel : Parallel t (inner ++ own) x y) : Parallel t inner x' y := by
  cases parallel with
  | object left right names optional =>
      obtain ⟨made, left', properties⟩ := below.object left
      refine .object left' right (fun name => ?_) fun name p q listed listed' => ?_
      · rw [← names, Dictionary.keys, Dictionary.keys,
          TypeKind.map_eq_of_forall₂ (fun _ _ same => PropertyReplaced.name same) properties]
      · obtain ⟨⟨name', p'⟩, member, same⟩ := forall₂_exists_left properties _ listed
        obtain rfl : name = name' := same.name
        exact same.optional.trans (optional name p' q member listed')
  | @function f g left right declared ownLeft ownRight arity optional =>
      obtain ⟨made, left', binders, counted, parameters, -⟩ := below.function left
      have narrow {ps : List TypeId} (own' : OwnParameters t (inner ++ own) ps) :
          OwnParameters t inner ps :=
        ⟨own'.distinct, own'.leaves, fun p listed pair member =>
          own'.apart p listed pair (List.mem_append_left _ member)⟩
      rw [ownLeft.unbound chooses] at binders
      refine .function left' right (binders ▸ declared) (binders ▸ narrow ownLeft)
        (narrow ownRight) (counted.trans arity) fun pair listed => ?_
      obtain ⟨p, beside, listed'⟩ := exists_between counted arity listed
      exact (parameters _ (mem_zip_swap beside)).1.symm.trans (optional _ listed')
  | arguments left right origin counted =>
      obtain ⟨made, left', same, length, -⟩ := below.instantiated left
      exact .arguments left' right (same.trans origin) (length.trans counted)

/-- What stands in a place after type parameters are replaced is what was there, replaced. -/
theorem Parallel.beside_replaced (chooses : Chooses own σ) (below : t.ReplacedBelow σ x x')
    (parallel : Parallel t (inner ++ own) x y) {own' : Pairs} (beside : Beside t x' y own' m' n) :
    ∃ m, Beside t x y own' m n ∧ t.Replaced σ m m' := by
  cases parallel with
  | object left right =>
      obtain ⟨made, left', properties⟩ := below.object left
      cases beside with
      | property isLeft isRight listed listed' =>
          cases left'.symm.trans isLeft
          obtain ⟨⟨name, p⟩, member, same⟩ := forall₂_exists_left properties _ listed
          obtain rfl := same.name
          exact ⟨_, .property left isRight member listed', same.type⟩
      | parameter isLeft | result isLeft | argument isLeft => cases left'.symm.trans isLeft
  | @function f g left right declared ownLeft _ arity =>
      obtain ⟨made, left', binders, counted, parameters, result⟩ := below.function left
      rw [ownLeft.unbound chooses] at binders
      cases beside with
      | @parameter _ _ pair isLeft isRight listed =>
          cases left'.symm.trans isLeft
          cases right.symm.trans isRight
          obtain ⟨p, beside, listed'⟩ := exists_between counted arity listed
          rw [binders]
          exact ⟨p.type, @Beside.parameter _ _ _ _ _ (p, pair.2) left right listed',
            (parameters (p, pair.1) (mem_zip_swap beside)).2⟩
      | result isLeft isRight =>
          cases left'.symm.trans isLeft
          cases right.symm.trans isRight
          rw [binders]
          exact ⟨_, .result left right, result⟩
      | property isLeft | argument isLeft => cases left'.symm.trans isLeft
  | arguments left right origin counted =>
      obtain ⟨made, left', -, length, arguments⟩ := below.instantiated left
      cases beside with
      | @argument _ _ pair isLeft isRight _ listed =>
          cases left'.symm.trans isLeft
          cases right.symm.trans isRight
          obtain ⟨a, beside, listed'⟩ := exists_between length counted listed
          exact ⟨a, @Beside.argument _ _ _ _ _ (a, pair.2) left right origin listed',
            arguments (a, pair.1) (mem_zip_swap beside)⟩
      | parameter isLeft | result isLeft | property isLeft => cases left'.symm.trans isLeft

/-- A leaf has to do with nothing but itself. -/
theorem Involves.eq_of_leaf (leaf : (t.kind x).parts = [] ∧ (t.kind x).binders = [])
    (plain : ¬t.IsInstance x) (involves : Involves t p x) : p = x := by
  obtain ⟨m, meets, concerned⟩ := involves
  obtain rfl : x = m := by
    rcases Relation.ReflTransGen.cases_head meets with same | ⟨n, part | ⟨i, entry, -⟩, -⟩
    · exact same
    · exact absurd (leaf.1 ▸ part) List.not_mem_nil
    · exact absurd ⟨i, entry⟩ plain
  exact concerned.elim Eq.symm fun declared => absurd (leaf.2 ▸ declared) List.not_mem_nil

theorem not_isInstance_of_flag (leaf : t.flag x = .typeParameter) : ¬t.IsInstance x := by
  rintro ⟨i, entry⟩
  simp [flag, entry, TypeKind.flag] at leaf

/-- The type parameters that correspond further in are other ones than those that are bound. -/
structure InnerTo (t : TypeTable) (own inner : Pairs) : Prop where
  leaves : ∀ p ∈ inner.map Prod.fst, t.flag p = .typeParameter
  apart : ∀ p ∈ inner.map Prod.fst, ∀ pair ∈ own, p ≠ pair.1 ∧ p ≠ pair.2
  apart' : ∀ q ∈ inner.map Prod.snd, ∀ pair ∈ own, q ≠ pair.1 ∧ q ≠ pair.2

theorem InnerTo.nil (t : TypeTable) (own : Pairs) : InnerTo t own [] :=
  ⟨List.forall_mem_nil _, List.forall_mem_nil _, List.forall_mem_nil _⟩

theorem InnerTo.append {own' : Pairs} (within : InnerTo t own inner)
    (left : OwnParameters t (inner ++ own) (own'.map Prod.fst))
    (right : OwnParameters t (inner ++ own) (own'.map Prod.snd)) :
    InnerTo t own (own' ++ inner) := by
  refine ⟨fun p listed => ?_, fun p listed pair member => ?_, fun q listed pair member => ?_⟩
  all_goals rw [List.map_append] at listed
  · exact (List.mem_append.mp listed).elim (left.leaves p) (within.leaves p)
  · exact (List.mem_append.mp listed).elim
      (fun declared => left.apart p declared pair (List.mem_append_right _ member))
      fun outer => within.apart p outer pair member
  · exact (List.mem_append.mp listed).elim
      (fun declared => right.apart q declared pair (List.mem_append_right _ member))
      fun outer => within.apart' q outer pair member

variable (chooses : Chooses own σ) (basic : t.kind TypeId.unknown = .unknown)
  (left : OwnParameters t [] (own.map Prod.fst)) (right : OwnParameters t [] (own.map Prod.snd))

include chooses basic left right

/-- What comes of a type parameter stands for its partner. -/
theorem renaming_partner {q b : TypeId} (within : InnerTo t own inner) (member : (x, q) ∈ own)
    (found : σ.find? x = some b) : Renaming t (Interchangeable t) inner b q := by
  have leaf : t.flag q = .typeParameter := right.leaves q (List.mem_map_of_mem member)
  have plain := not_isInstance_of_flag leaf
  have itself {p : TypeId} (involves : Involves t p q) : p = q :=
    involves.eq_of_leaf (TypeKind.leaf_of_typeParameter leaf) plain
  have partner : ∀ pair ∈ inner, ¬Involves t pair.2 q := fun pair listed involves =>
    (within.apart' _ (List.mem_map_of_mem listed) _ member).2 (itself involves)
  rcases chooses.partner x b found with other | rfl
  · obtain rfl := Inference.eq_of_partners left.distinct other member
    refine .kept (fun pair listed => ⟨fun involves => ?_, partner pair listed⟩)
      (interchangeable_iff.mpr (.same rfl))
    exact (within.apart _ (List.mem_map_of_mem listed) _ member).2 (itself involves)
  · have plain' : ¬t.IsInstance TypeId.unknown := by simp [IsInstance, basic]
    refine .kept (fun pair listed => ⟨fun involves => ?_, partner pair listed⟩)
      (interchangeable_iff.mpr (.wildcard (.inl ?_) plain' plain))
    · have same := involves.eq_of_leaf (by simp [basic, TypeKind.parts, TypeKind.binders]) plain'
      have known := within.leaves _ (List.mem_map_of_mem listed)
      simp [same, flag, basic, TypeKind.flag] at known
    · simp [isWildcard, flag, basic, TypeKind.flag, TypeFlag.isWildcard]

/-- When type parameters in a type are replaced by those that correspond to them, what comes of it
may stand for the other type. -/
theorem Renaming.replaced (within : InnerTo t own inner) (scope : Γ = inner ++ own)
    (renamed : Renaming t (Interchangeable t) Γ x y) (replaced : t.Replaced σ x x') :
    Renaming t (Interchangeable t) inner x' y := by
  -- the pairs from further in go on corresponding, while those of the function itself go away
  have bound {p : TypeId} (bound : ¬σ.find? p = none) : p ∈ own.map Prod.fst :=
    (chooses.contains p).mp (Option.ne_none_iff_isSome.mp bound)
  induction renamed generalizing inner x' with
  | @corresponding Γ p q member isLeft isRight =>
      subst scope
      rcases List.mem_append.mp member with here | outer
      · have unbound : σ.find? p = none := by
          by_contra known
          obtain ⟨pair, listed, rfl⟩ := List.mem_map.mp (bound known)
          exact (within.apart _ (List.mem_map_of_mem here) pair listed).1 rfl
        have leaf := TypeKind.leaf_of_typeParameter isLeft
        obtain rfl := (replaced.replacedBelow unbound).leaf leaf.1 leaf.2
        exact .corresponding here isLeft isRight
      · obtain ⟨b, found⟩ := Option.isSome_iff_exists.mp
          ((chooses.contains p).mpr (List.mem_map_of_mem outer))
        obtain rfl := replaced.eq_of_bound found
        exact renaming_partner chooses basic left right within outer found
  | kept uninvolved related =>
      subst scope
      have unaffected :=
        (uninvolved.mono (List.subset_append_right inner own)).not_affected chooses
      obtain rfl := replaced.eq_of_not_affected unaffected
      exact .kept (uninvolved.mono (List.subset_append_left inner own)) related
  | @composite Γ a b parallel _ ih =>
      subst scope
      have unbound : σ.find? a = none := by
        by_contra known
        exact parallel.flag_ne (left.leaves a (bound known))
      have below := replaced.replacedBelow unbound
      refine .composite (parallel.replaced chooses below) fun own' m' n beside => ?_
      obtain ⟨m, before, replaced⟩ := parallel.beside_replaced chooses below beside
      obtain ⟨isLeft, isRight⟩ := parallel.ownParameters before
      exact ih own' m n before (within.append isLeft isRight)
        (List.append_assoc _ _ _).symm replaced

end Replacing

/-- Signatures of one length, whose types are related place by place. -/
structure SignatureRule (R : TypeId → TypeId → Prop) (x y : FunctionType) : Prop where
  arity : x.parameters.length = y.parameters.length
  parameters : ∀ pair ∈ x.parameters.zip y.parameters,
    pair.1.optional = pair.2.optional ∧ R pair.1.type pair.2.type
  result : R x.returnType y.returnType

section Instantiating
variable {bodies : Dictionary (TypeId × List TypeId) TypeId} {t u : TypeTable} {own : Pairs}
  {σ : Bindings} {a b x y : TypeId} {f g : FunctionType}

theorem forall₂_concat {α β : Type} {R : α → β → Prop} {xs : List α} {ys : List β} {x : α} {y : β}
    (pairs : List.Forall₂ R (xs ++ [x]) (ys ++ [y])) : List.Forall₂ R xs ys ∧ R x y := by
  have reversed := List.forall₂_reverse_iff.mpr pairs
  rw [List.reverse_append, List.reverse_append] at reversed
  cases reversed with
  | cons last others => exact ⟨List.forall₂_reverse_iff.mp others, last⟩

/-- Parameters with other types are as optional as before. -/
theorem forall₂_retyped {Q : TypeId → TypeId → Prop} {ps : List Parameter} {types : List TypeId}
    (pairs : List.Forall₂ (fun p type => Q p.type type) ps types) :
    List.Forall₂ (fun (q p : Parameter) => q.optional = p.optional ∧ Q p.type q.type)
      ((ps.zip types).map fun (p, type) => { p with type := type }) ps := by
  induction pairs with
  | nil => exact .nil
  | cons here _ ih => exact .cons ⟨rfl, here⟩ ih

/-- When the inference is closed, the type parameters have got their partners or `unknown`. -/
theorem chooses_finish {i : Inference} (binds : i.BindsPartners own) :
    Chooses own i.finish.bindings where
  contains p := by
    rw [Inference.contains_finish, binds.typeParameters, or_iff_right_of_imp]
    intro bound
    obtain ⟨b, found⟩ := Option.isSome_iff_exists.mp bound
    exact List.mem_map_of_mem (binds.found p b found)
  partner p b found := by
    cases before : i.bindings.find? p with
    | some first =>
        have listed : p ∈ i.typeParameters := by
          rw [binds.typeParameters]
          exact List.mem_map_of_mem (binds.found p first before)
        have kept := ((Inference.find?_finish i listed).1 first before).1
        obtain rfl := Option.some.inj (kept.symm.trans found)
        exact .inl (binds.found p _ before)
    | none =>
        have listed : p ∈ i.typeParameters := by
          have bound := (Inference.contains_finish i p).mp (Option.isSome_iff_exists.mpr ⟨b, found⟩)
          refine bound.resolve_left fun known => ?_
          simp [Dictionary.contains, before] at known
        have unknown := ((Inference.find?_finish i listed).2 before).1
        exact .inr (Option.some.inj (found.symm.trans unknown))

/-- The second type is what comes of the first one in the table, which remembers these bodies. -/
structure Made (bodies : Dictionary (TypeId × List TypeId) TypeId) (σ : Bindings) (x x' : TypeId)
    (t : TypeTable) : Prop where
  remembering : Remembering bodies t
  before : x < t.size
  inside : x' < t.size
  replaced : t.Replaced σ x x'

theorem Made.later (made : Made bodies σ x y t) (advances : Advances (Remembering bodies) t u) :
    Made bodies σ x y u where
  remembering := advances.keeps made.remembering
  before := advances.inside made.before
  inside := advances.inside made.inside
  replaced := made.replaced.extends made.remembering.toWellFormed advances.extended made.before
    made.inside

/-- A substitution resolves nothing, so the table still remembers the same bodies. -/
theorem Remembering.substitute (remembering : Remembering bodies t) (extended : t.Extends u)
    (later : Remembering bodies u) (bound : ∀ b ∈ σ.values, b < t.size) (inside : x < t.size)
    (finite : ∀ m, t.Reaches x m → t.Recursive m → ¬t.Affected σ m) :
    Yields (StructuralTyping.substitute x σ) u fun x' w =>
      Advances (Remembering bodies) u w ∧ Made bodies σ x x' w := by
  obtain ⟨advances, known, replaced⟩ :=
    replaced_substitute remembering.toWellFormed bound finite extended later.toGrounded inside
  have advances := later.advances advances (appends_substitute x σ u).2
  exact ⟨advances, advances.keeps later, advances.inside (extended.inside inside), known, replaced⟩

/-- What comes of a part of the first type may stand for the part of the second one. -/
theorem Parallel.interchangeable_replaced {m m' n : TypeId} (remembering : Remembering bodies t)
    (advances : Advances (Remembering bodies) t u) (parallel : Parallel t [] a b)
    (beside : Beside t a b own m n) (renamed : Renaming t (Interchangeable t) own m n)
    (chooses : Chooses own σ) (replaced : u.Replaced σ m m') :
    Interchangeable u m' n ∧ n < u.size := by
  obtain ⟨left, right⟩ := beside.inside
  have known := remembering.toWellFormed.part left beside.part.1
  have known' := remembering.toWellFormed.part right beside.part.2
  have later : Renaming u (Interchangeable u) own m n :=
    (renamed.later advances remembering known known').mono fun x y ⟨related, left, right⟩ =>
      related.later advances remembering left right
  obtain ⟨ownLeft, ownRight⟩ := parallel.ownParameters beside
  have basic := (advances.keeps remembering).basic
  exact ⟨.of_renaming (later.replaced chooses basic (ownLeft.later advances)
    (ownRight.later advances) (.nil u own) rfl replaced), advances.inside known'⟩

variable (remembering : Remembering bodies t) (left : t.kind a = .function f)
  (right : t.kind b = .function g) (parallel : Parallel t [] a b)
  (parts : ∀ own x y, Beside t a b own x y → Renaming t (Interchangeable t) own x y)

include remembering left right parallel parts

/-- Inference against the parameters of the other function finds partners alone, and leaves the
table as it is. -/
theorem infers_partners :
    ∃ i, (Assignability.inferParameters (.ofTypeParameters f.typeParameters)
        (f.parameters.zip g.parameters)).run t = (i, t) ∧
      i.BindsPartners (f.typeParameters.zip g.typeParameters) ∧ i.Within t := by
  have beside : Beside t a b _ _ _ := .result left right
  obtain ⟨ownLeft, -⟩ := parallel.ownParameters beside
  have counted := Nat.le_of_eq (parallel.signatures left right).1
  have nothing : (Inference.ofTypeParameters f.typeParameters).BindsPartners
      (f.typeParameters.zip g.typeParameters) :=
    ⟨(List.map_fst_zip counted).symm, fun p b found => nomatch found⟩
  have faces : ∀ pair ∈ f.parameters.zip g.parameters, Inference.Faces t
      (f.typeParameters.zip g.typeParameters) pair.1.type pair.2.type := fun pair listed =>
    ⟨_, parts _ _ _ (.parameter left right listed),
      .inr ⟨List.Subset.refl _, fun _ member _ => member⟩⟩
  obtain ⟨i, ran, binds⟩ := Inference.pairing_inferParameters ownLeft _ faces nothing
  have within := (Assignability.advances_inferParameters queryInvariant_grounded
    (f.parameters.zip g.parameters) (i := .ofTypeParameters f.typeParameters)
    remembering.toGrounded (fun b member => nomatch member) fun pair listed => ?_).yields
  · unfold Yields at within
    rw [ran] at within
    exact ⟨i, ran, binds, within.2.1⟩
  · obtain ⟨inLeft, inRight⟩ := List.of_mem_zip listed
    exact ⟨remembering.toWellFormed.parameter left _ inLeft,
      remembering.toWellFormed.parameter right _ inRight⟩

/-- What comes of a part of the first function when partners are put in. -/
theorem yields_substitute_part {m : TypeId}
    (chooses : Chooses (f.typeParameters.zip g.typeParameters) σ)
    (bound : ∀ b ∈ σ.values, b < t.size) (part : m ∈ (TypeKind.function f).parts)
    (advances : Advances (Remembering bodies) t u) :
    Yields (StructuralTyping.substitute m σ) u fun m' w =>
      Advances (Remembering bodies) u w ∧ Made bodies σ m m' w := by
  rw [← left] at part
  obtain ⟨own, n, beside⟩ := parallel.exists_beside part
  have inside := remembering.toWellFormed.part (lt_size_of_kind left (by simp)) part
  refine remembering.substitute advances.extended (advances.keeps remembering) bound inside ?_
  have same : own = f.typeParameters.zip g.typeParameters :=
    beside.of_functions (P := fun own _ _ => own = f.typeParameters.zip g.typeParameters) left
      right (fun _ _ => rfl) rfl
  exact (parts own m n beside).finite chooses (same ▸ List.Subset.refl _)

/-- A generic function that is instantiated against one that is the same up to names may stand for
it. -/
theorem yields_instantiateAgainst :
    Yields (Assignability.instantiateAgainst f g) t fun f' u =>
      Advances (Remembering bodies) t u ∧
        SignatureRule (fun x y => Interchangeable u x y ∧ x < u.size ∧ y < u.size) f' g := by
  obtain ⟨i, ran, binds, found⟩ := infers_partners remembering left right parallel parts
  have chooses := chooses_finish binds
  have bound := Inference.within_finish found remembering.unknown
  have inferred : Yields (Assignability.inferParameters (.ofTypeParameters f.typeParameters)
      (f.parameters.zip g.parameters)) t fun i' u => i = i' ∧ t = u := by
    rw [Yields, ran]
    exact ⟨rfl, rfl⟩
  refine inferred.bind ?_
  rintro i t ⟨rfl, rfl⟩
  have step (m : TypeId) (part : m ∈ (TypeKind.function f).parts) (u : TypeTable)
      (advances : Advances (Remembering bodies) t u) :=
    yields_substitute_part remembering left right parallel parts chooses bound part advances
  refine (Instantiation.yields_apply Advances.growth
    (fun _ _ _ _ advances made => made.later advances) step).bind ?_
  rintro signature u ⟨advances, -, pairs⟩
  have become {m m' n : TypeId}
      (beside : Beside t a b (f.typeParameters.zip g.typeParameters) m n)
      (made : Made bodies i.finish.bindings m m' u) :
      Interchangeable u m' n ∧ m' < u.size ∧ n < u.size := by
    obtain ⟨interchangeable, inside⟩ := parallel.interchangeable_replaced remembering advances
      beside (parts _ _ _ beside) chooses made.replaced
    exact ⟨interchangeable, made.inside, inside⟩
  -- the parameters keep their order, so each of them still faces the same one
  obtain ⟨-, arity, same⟩ := parallel.signatures left right
  obtain ⟨parameters, result⟩ := forall₂_concat pairs
  obtain ⟨counted, retyped⟩ :=
    List.forall₂_iff_zip.mp (forall₂_retyped (List.forall₂_map_left_iff.mp parameters))
  refine .pure ⟨advances, counted.trans arity, fun pair listed => ?_,
    become (.result left right) result⟩
  obtain ⟨p, beside, listed'⟩ := exists_between counted arity listed
  obtain ⟨optional, made⟩ := retyped beside
  exact ⟨optional.trans (same _ listed'),
    become (@Beside.parameter _ _ _ _ _ (p, pair.2) left right listed') made⟩

end Instantiating

end Equality

end StructuralTyping
