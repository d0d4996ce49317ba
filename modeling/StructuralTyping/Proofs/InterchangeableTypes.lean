import StructuralTyping.Proofs.EqualityLaws

/-! Types that may stand for one another. They agree part by part, and two functions are the
same up to the names of their type parameters: a type that mentions one of them stands beside a
type of the same shape, down to the type parameters themselves, and every other type has
nothing to do with them. The relation goes on in a table to which entries are added, as long as
nothing is resolved in it. -/
namespace StructuralTyping.Equality

open TypeTable

/-- The type parameter is met in the type, or a function that is met there declares it. -/
def Involves (t : TypeTable) (p id : TypeId) : Prop :=
  ∃ m, t.Meets id m ∧ (m = p ∨ p ∈ (t.kind m).binders)

/-- Neither type has to do with the type parameters that correspond on its side. -/
def Uninvolved (t : TypeTable) (Γ : Pairs) (a b : TypeId) : Prop :=
  ∀ pair ∈ Γ, ¬Involves t pair.1 a ∧ ¬Involves t pair.2 b

/-- The types that stand in the same places of two types, with the type parameters that
correspond there besides. -/
inductive Beside (t : TypeTable) (a b : TypeId) : Pairs → TypeId → TypeId → Prop
  | property {x y : ObjectType} {name : String} {p q : Property} (left : t.kind a = .object x)
      (right : t.kind b = .object y) (listed : (name, p) ∈ x.properties.pairs)
      (listed' : (name, q) ∈ y.properties.pairs) : Beside t a b [] p.type q.type
  | parameter {x y : FunctionType} {pair : Parameter × Parameter} (left : t.kind a = .function x)
      (right : t.kind b = .function y) (listed : pair ∈ x.parameters.zip y.parameters) :
      Beside t a b (x.typeParameters.zip y.typeParameters) pair.1.type pair.2.type
  | result {x y : FunctionType} (left : t.kind a = .function x) (right : t.kind b = .function y) :
      Beside t a b (x.typeParameters.zip y.typeParameters) x.returnType y.returnType
  | argument {x y : InstantiatedType} {pair : TypeId × TypeId} (left : t.kind a = .instantiated x)
      (right : t.kind b = .instantiated y) (origin : x.origin = y.origin)
      (listed : pair ∈ x.bindings.values.zip y.bindings.values) : Beside t a b [] pair.1 pair.2

/-- The type parameters are declared once, and they are none of those that correspond further
out. -/
structure OwnParameters (t : TypeTable) (Γ : Pairs) (ps : List TypeId) : Prop where
  distinct : ps.Nodup
  leaves : ∀ p ∈ ps, t.flag p = .typeParameter
  apart : ∀ p ∈ ps, ∀ pair ∈ Γ, p ≠ pair.1 ∧ p ≠ pair.2

/-- The types are made alike, whatever stands in the places of their parts. -/
inductive Parallel (t : TypeTable) (Γ : Pairs) (a b : TypeId) : Prop
  | object {x y : ObjectType} (left : t.kind a = .object x) (right : t.kind b = .object y)
      (names : ∀ name, name ∈ x.properties.keys ↔ name ∈ y.properties.keys)
      (optional : ∀ name p q, (name, p) ∈ x.properties.pairs → (name, q) ∈ y.properties.pairs →
        p.optional = q.optional)
  | function {x y : FunctionType} (left : t.kind a = .function x) (right : t.kind b = .function y)
      (declared : x.typeParameters.length = y.typeParameters.length)
      (own : OwnParameters t Γ x.typeParameters) (own' : OwnParameters t Γ y.typeParameters)
      (arity : x.parameters.length = y.parameters.length)
      (optional : ∀ pair ∈ x.parameters.zip y.parameters, pair.1.optional = pair.2.optional)
  | arguments {x y : InstantiatedType} (left : t.kind a = .instantiated x)
      (right : t.kind b = .instantiated y) (origin : x.origin = y.origin)
      (counted : x.bindings.values.length = y.bindings.values.length)

/-- The second type is the first one with other names for the type parameters that correspond.
Types that have nothing to do with them are related. -/
inductive Renaming (t : TypeTable) (R : TypeId → TypeId → Prop) : Pairs → TypeId → TypeId → Prop
  | corresponding {Γ : Pairs} {p q : TypeId} (member : (p, q) ∈ Γ)
      (left : t.flag p = .typeParameter) (right : t.flag q = .typeParameter) : Renaming t R Γ p q
  | kept {Γ : Pairs} {a b : TypeId} (uninvolved : Uninvolved t Γ a b) (related : R a b) :
      Renaming t R Γ a b
  | composite {Γ : Pairs} {a b : TypeId} (parallel : Parallel t Γ a b)
      (parts : ∀ own x y, Beside t a b own x y → Renaming t R (own ++ Γ) x y) : Renaming t R Γ a b

/-- One step of the rules for types that may stand for one another. -/
inductive InterchangeRule (t : TypeTable) (R : TypeId → TypeId → Prop) (a b : TypeId) : Prop
  | same (equal : a = b)
  | wildcard (either : t.isWildcard a = true ∨ t.isWildcard b = true) (plain : ¬t.IsInstance a)
      (plain' : ¬t.IsInstance b)
  | primitive {p : Primitive} (left : t.kind a = .primitive p) (right : t.kind b = .primitive p)
  | composite (parallel : Parallel t [] a b)
      (parts : ∀ own x y, Beside t a b own x y → Renaming t R own x y)
  | bodies {x y : TypeId} (instantiated : t.IsInstance a ∨ t.IsInstance b)
      (apart : ∀ i j, t.kind a = .instantiated i → t.kind b = .instantiated j → i.origin ≠ j.origin)
      (left : body? t a = some x) (right : body? t b = some y) (plain : ¬t.IsInstance x)
      (plain' : ¬t.IsInstance y) (related : R x y)

/-- The types may stand for one another: the greatest relation that is closed under the rules. -/
def Interchangeable (t : TypeTable) (a b : TypeId) : Prop :=
  ∃ R : TypeId → TypeId → Prop, (∀ x y, R x y → InterchangeRule t R x y) ∧ R a b

section Rules
variable {t : TypeTable} {R S : TypeId → TypeId → Prop} {Γ Δ own : Pairs} {a b x y p : TypeId}

theorem Involves.of_meets (meets : t.Meets a x) (involves : Involves t p x) : Involves t p a := by
  obtain ⟨m, further, concerned⟩ := involves
  exact ⟨m, meets.trans further, concerned⟩

theorem Uninvolved.of_meets (uninvolved : Uninvolved t Γ a b) (left : t.Meets a x)
    (right : t.Meets b y) : Uninvolved t Γ x y := fun pair member =>
  ⟨fun involves => (uninvolved pair member).1 (involves.of_meets left),
    fun involves => (uninvolved pair member).2 (involves.of_meets right)⟩

theorem Uninvolved.mono (uninvolved : Uninvolved t Δ a b) (fewer : Γ ⊆ Δ) : Uninvolved t Γ a b :=
  fun pair member => uninvolved pair (fewer member)

theorem uninvolved_nil (t : TypeTable) (a b : TypeId) : Uninvolved t [] a b :=
  List.forall_mem_nil _

/-- What is uninvolved does not correspond. -/
theorem Uninvolved.not_mem (uninvolved : Uninvolved t Γ a b) : (a, b) ∉ Γ :=
  fun member => (uninvolved (a, b) member).1 ⟨a, .refl, .inl rfl⟩

/-- What stands in a place of a type is a part of it. -/
theorem Beside.part (beside : Beside t a b own x y) :
    x ∈ (t.kind a).parts ∧ y ∈ (t.kind b).parts := by
  cases beside with
  | property ha hb listed listed' =>
      rw [ha, hb]
      exact ⟨List.mem_map_of_mem (List.mem_map_of_mem listed),
        List.mem_map_of_mem (List.mem_map_of_mem listed')⟩
  | parameter ha hb listed =>
      obtain ⟨p, q⟩ := List.of_mem_zip listed
      rw [ha, hb]
      exact ⟨List.mem_append_left _ (List.mem_map_of_mem p),
        List.mem_append_left _ (List.mem_map_of_mem q)⟩
  | result ha hb => simp [ha, hb, TypeKind.parts]
  | argument ha hb _ listed =>
      rw [ha, hb]
      exact List.of_mem_zip listed

theorem Beside.inside (beside : Beside t a b own x y) : a < t.size ∧ b < t.size := by
  cases beside with
  | property ha hb | parameter ha hb | result ha hb | argument ha hb =>
      exact ⟨lt_size_of_kind ha (by simp), lt_size_of_kind hb (by simp)⟩

theorem Beside.meets (beside : Beside t a b own x y) : t.Meets a x ∧ t.Meets b y :=
  ⟨.single (.inl beside.part.1), .single (.inl beside.part.2)⟩

/-- In the places of two functions stand the types of their parameters and of their results. -/
theorem Beside.of_functions {P : Pairs → TypeId → TypeId → Prop} {f g : FunctionType}
    (left : t.kind a = .function f) (right : t.kind b = .function g)
    (parameters : ∀ pair ∈ f.parameters.zip g.parameters,
      P (f.typeParameters.zip g.typeParameters) pair.1.type pair.2.type)
    (result : P (f.typeParameters.zip g.typeParameters) f.returnType g.returnType)
    (beside : Beside t a b own x y) : P own x y := by
  cases beside with
  | parameter left' right' listed =>
      cases left.symm.trans left'
      cases right.symm.trans right'
      exact parameters _ listed
  | result left' right' =>
      cases left.symm.trans left'
      cases right.symm.trans right'
      exact result
  | property left' | argument left' => cases left.symm.trans left'

/-- What is met in a type does not involve a type parameter if this holds of types that hold their
parts and their bodies. -/
theorem not_involves_of_closed (ids : List TypeId) (listed : x ∈ ids)
    (closed : ∀ m ∈ ids, (t.kind m).parts ⊆ ids ∧ ∀ body ∈ body? t m, body ∈ ids)
    (other : ∀ m ∈ ids, m ≠ p ∧ p ∉ (t.kind m).binders) : ¬Involves t p x := by
  rintro ⟨m, meets, concerned⟩
  obtain ⟨differs, undeclared⟩ := other m (mem_of_meets ids listed closed meets)
  exact concerned.elim differs undeclared

theorem ownParameters_nil (t : TypeTable) (Γ : Pairs) : OwnParameters t Γ [] :=
  ⟨List.nodup_nil, List.forall_mem_nil _, List.forall_mem_nil _⟩

/-- The type parameters that correspond besides are declared by the two types. -/
theorem Parallel.ownParameters (parallel : Parallel t Γ a b) (beside : Beside t a b own x y) :
    OwnParameters t Γ (own.map Prod.fst) ∧ OwnParameters t Γ (own.map Prod.snd) := by
  cases beside with
  | property | argument => exact ⟨ownParameters_nil t Γ, ownParameters_nil t Γ⟩
  | parameter ha hb | result ha hb =>
      cases parallel with
      | function ha' hb' declared own own' =>
          cases ha.symm.trans ha'
          cases hb.symm.trans hb'
          rw [List.map_fst_zip (Nat.le_of_eq declared),
            List.map_snd_zip (Nat.le_of_eq declared.symm)]
          exact ⟨own, own'⟩
      | object ha' | arguments ha' => cases ha.symm.trans ha'

theorem Parallel.signatures {f g : FunctionType} (parallel : Parallel t Γ a b)
    (left : t.kind a = .function f) (right : t.kind b = .function g) :
    f.typeParameters.length = g.typeParameters.length ∧
      f.parameters.length = g.parameters.length ∧
      ∀ pair ∈ f.parameters.zip g.parameters, pair.1.optional = pair.2.optional := by
  cases parallel with
  | function isLeft isRight declared _ _ arity optional =>
      cases left.symm.trans isLeft
      cases right.symm.trans isRight
      exact ⟨declared, arity, optional⟩
  | object isLeft | arguments isLeft => cases left.symm.trans isLeft

/-- What is made of parts is no type parameter. -/
theorem Parallel.flag_ne (parallel : Parallel t Γ a b) : t.flag a ≠ .typeParameter := by
  cases parallel with
  | object left | function left | arguments left => simp [flag, left, TypeKind.flag]

theorem Renaming.mono (within : ∀ x y, R x y → S x y) (renamed : Renaming t R Γ a b) :
    Renaming t S Γ a b := by
  induction renamed with
  | corresponding member left right => exact .corresponding member left right
  | kept uninvolved related => exact .kept uninvolved (within _ _ related)
  | composite parallel _ ih => exact .composite parallel ih

theorem InterchangeRule.mono (within : ∀ x y, R x y → S x y) (rule : InterchangeRule t R a b) :
    InterchangeRule t S a b := by
  cases rule with
  | same equal => exact .same equal
  | wildcard either plain plain' => exact .wildcard either plain plain'
  | primitive ha hb => exact .primitive ha hb
  | composite parallel parts =>
      exact .composite parallel fun own x y beside => (parts own x y beside).mono within
  | bodies instantiated apart ha hb plain plain' related =>
      exact .bodies instantiated apart ha hb plain plain' (within _ _ related)

theorem Interchangeable.unfold (interchangeable : Interchangeable t a b) :
    InterchangeRule t (Interchangeable t) a b := by
  obtain ⟨R, closed, related⟩ := interchangeable
  exact (closed a b related).mono fun x y here => ⟨R, closed, here⟩

theorem interchangeable_iff :
    Interchangeable t a b ↔ InterchangeRule t (Interchangeable t) a b := by
  refine ⟨Interchangeable.unfold, fun rule => ⟨InterchangeRule t (Interchangeable t), ?_, rule⟩⟩
  exact fun x y here => here.mono fun _ _ => Interchangeable.unfold

/-- Where no type parameters correspond, a renaming changes nothing that matters. -/
theorem Interchangeable.of_renaming (renamed : Renaming t (Interchangeable t) [] a b) :
    Interchangeable t a b := by
  cases renamed with
  | corresponding member => exact absurd member List.not_mem_nil
  | kept _ related => exact related
  | composite parallel parts =>
      refine interchangeable_iff.mpr (.composite parallel fun own x y beside => ?_)
      simpa using parts own x y beside

end Rules

section Symmetry
variable {t : TypeTable} {R : TypeId → TypeId → Prop} {Γ own : Pairs} {a b x y : TypeId}

theorem Uninvolved.symm (uninvolved : Uninvolved t Γ a b) :
    Uninvolved t (Γ.map Prod.swap) b a := by
  rintro _ listed
  obtain ⟨pair, member, rfl⟩ := List.mem_map.mp listed
  exact (uninvolved pair member).symm

theorem Beside.symm (beside : Beside t a b own x y) : Beside t b a (own.map Prod.swap) y x := by
  cases beside with
  | property ha hb listed listed' => exact .property hb ha listed' listed
  | parameter ha hb listed =>
      rw [List.zip_swap]
      exact .parameter hb ha (mem_zip_swap listed)
  | result ha hb =>
      rw [List.zip_swap]
      exact .result hb ha
  | argument ha hb origin listed => exact .argument hb ha origin.symm (mem_zip_swap listed)

theorem OwnParameters.symm {ps : List TypeId} (own : OwnParameters t Γ ps) :
    OwnParameters t (Γ.map Prod.swap) ps where
  distinct := own.distinct
  leaves := own.leaves
  apart p declared _ listed := by
    obtain ⟨pair, member, rfl⟩ := List.mem_map.mp listed
    exact (own.apart p declared pair member).symm

theorem Parallel.symm (parallel : Parallel t Γ a b) : Parallel t (Γ.map Prod.swap) b a := by
  cases parallel with
  | object ha hb names optional =>
      exact .object hb ha (fun name => (names name).symm)
        fun name q p listed listed' => (optional name p q listed' listed).symm
  | function ha hb declared own own' arity optional =>
      exact .function hb ha declared.symm own'.symm own.symm arity.symm
        fun pair listed => (optional _ (mem_zip_swap listed)).symm
  | arguments ha hb origin counted => exact .arguments hb ha origin.symm counted.symm

theorem swap_swap (Γ : Pairs) : (Γ.map Prod.swap).map Prod.swap = Γ := by simp

theorem Renaming.symm (renamed : Renaming t R Γ a b) :
    Renaming t (fun y x => R x y) (Γ.map Prod.swap) b a := by
  induction renamed with
  | corresponding member left right =>
      exact .corresponding (List.mem_map_of_mem member) right left
  | kept uninvolved related => exact .kept uninvolved.symm related
  | composite parallel _ ih =>
      refine .composite parallel.symm fun own y x beside => ?_
      have here := ih _ x y beside.symm
      rwa [List.map_append, swap_swap] at here

theorem Interchangeable.symm (interchangeable : Interchangeable t a b) :
    Interchangeable t b a := by
  refine ⟨fun y x => Interchangeable t x y, ?_, interchangeable⟩
  intro y x interchangeable
  have rule := interchangeable.unfold
  cases rule with
  | same equal => exact .same equal.symm
  | wildcard either plain plain' => exact .wildcard either.symm plain' plain
  | primitive ha hb => exact .primitive hb ha
  | composite parallel parts =>
      refine .composite parallel.symm fun own n m beside => ?_
      have here := (parts _ m n beside.symm).symm
      rwa [swap_swap] at here
  | bodies instantiated apart ha hb plain plain' related =>
      exact .bodies instantiated.symm (fun i j hi hj => (apart j i hj hi).symm) hb ha plain' plain
        related

end Symmetry

/-- A table that remembers these bodies and in which nothing more is resolved. -/
structure Remembering (bodies : Dictionary (TypeId × List TypeId) TypeId) (t : TypeTable) :
    Prop extends t.Grounded where
  basic : t.kind TypeId.unknown = .unknown
  resolved : t.resolved = bodies

section Growth
variable {bodies : Dictionary (TypeId × List TypeId) TypeId} {t u : TypeTable} {Γ own : Pairs}
  {R : TypeId → TypeId → Prop} {a b x y p : TypeId}

/-- To append entries is to go on with the same bodies. -/
theorem Remembering.advances (remembering : Remembering bodies t) (advances : Advances Grounded t u)
    (same : u.resolved = t.resolved) : Advances (Remembering bodies) t u where
  extended := advances.extended
  keeps _ :=
    { toGrounded := advances.keeps remembering.toGrounded
      basic := (advances.extended.kind _ remembering.unknown).trans remembering.basic
      resolved := same.trans remembering.resolved }
  remembers := advances.remembers

variable (advances : Advances (Remembering bodies) t u)

include advances

theorem OwnParameters.later {ps : List TypeId} (own : OwnParameters t Γ ps) :
    OwnParameters u Γ ps where
  distinct := own.distinct
  leaves p declared := by
    have leaf := own.leaves p declared
    rwa [flag, advances.extended.kind p (lt_size_of_flag (by simp [leaf]))]
  apart := own.apart

theorem Parallel.later (left : a < t.size) (right : b < t.size) (parallel : Parallel t Γ a b) :
    Parallel u Γ a b := by
  have ha := advances.extended.kind a left
  have hb := advances.extended.kind b right
  cases parallel with
  | object isLeft isRight names optional =>
      exact .object (ha.trans isLeft) (hb.trans isRight) names optional
  | function isLeft isRight declared own own' arity optional =>
      exact .function (ha.trans isLeft) (hb.trans isRight) declared (own.later advances)
        (own'.later advances) arity optional
  | arguments isLeft isRight origin counted =>
      exact .arguments (ha.trans isLeft) (hb.trans isRight) origin counted

variable (remembering : Remembering bodies t)

include remembering

theorem Meets.of_advances (inside : a < t.size) (meets : u.Meets a x) :
    t.Meets a x ∧ x < t.size := by
  have same : u.resolved = t.resolved :=
    (advances.keeps remembering).resolved.trans remembering.resolved.symm
  induction meets with
  | refl => exact ⟨.refl, inside⟩
  | tail _ step ih =>
      obtain ⟨before, known⟩ := ih
      have kind := advances.extended.kind _ known
      rcases step with part | ⟨i, entry, found⟩
      · rw [kind] at part
        exact ⟨before.tail (.inl part), remembering.toWellFormed.part known part⟩
      · rw [same] at found
        exact ⟨before.tail (.inr ⟨i, kind.symm.trans entry, found⟩),
          (remembering.remembered _ _ found).2.2⟩

theorem Uninvolved.later (left : a < t.size) (right : b < t.size)
    (uninvolved : Uninvolved t Γ a b) : Uninvolved u Γ a b := by
  have before {p id : TypeId} (inside : id < t.size) (involves : Involves u p id) :
      Involves t p id := by
    obtain ⟨m, meets, concerned⟩ := involves
    obtain ⟨meets, known⟩ := Meets.of_advances advances remembering inside meets
    exact ⟨m, meets, advances.extended.kind m known ▸ concerned⟩
  exact fun pair member => ⟨fun involves => (uninvolved pair member).1 (before left involves),
    fun involves => (uninvolved pair member).2 (before right involves)⟩

theorem Beside.before (left : a < t.size) (right : b < t.size) (beside : Beside u a b own x y) :
    Beside t a b own x y ∧ x < t.size ∧ y < t.size := by
  have ha := (advances.extended.kind a left).symm
  have hb := (advances.extended.kind b right).symm
  have here : Beside t a b own x y := by
    cases beside with
    | property isLeft isRight listed listed' =>
        exact .property (ha.trans isLeft) (hb.trans isRight) listed listed'
    | parameter isLeft isRight listed =>
        exact .parameter (ha.trans isLeft) (hb.trans isRight) listed
    | result isLeft isRight => exact .result (ha.trans isLeft) (hb.trans isRight)
    | argument isLeft isRight origin listed =>
        exact .argument (ha.trans isLeft) (hb.trans isRight) origin listed
  exact ⟨here, remembering.toWellFormed.part left here.part.1,
    remembering.toWellFormed.part right here.part.2⟩

theorem Renaming.later (left : a < t.size) (right : b < t.size) (renamed : Renaming t R Γ a b) :
    Renaming u (fun x y => R x y ∧ x < t.size ∧ y < t.size) Γ a b := by
  induction renamed with
  | corresponding member isLeft isRight =>
      refine .corresponding member ?_ ?_
      · rwa [flag, advances.extended.kind _ left]
      · rwa [flag, advances.extended.kind _ right]
  | kept uninvolved related =>
      exact .kept (uninvolved.later advances remembering left right) ⟨related, left, right⟩
  | composite parallel _ ih =>
      refine .composite (parallel.later advances left right) fun own x y beside => ?_
      obtain ⟨before, left, right⟩ := beside.before advances remembering left right
      exact ih own x y before left right

/-- Types that may stand for one another still may when entries are added. -/
theorem Interchangeable.later (left : a < t.size) (right : b < t.size)
    (interchangeable : Interchangeable t a b) : Interchangeable u a b := by
  have wellFormed := remembering.toWellFormed
  have extended := advances.extended
  have same : u.resolved = t.resolved :=
    (advances.keeps remembering).resolved.trans remembering.resolved.symm
  have instances {id : TypeId} (inside : id < t.size) : u.IsInstance id ↔ t.IsInstance id := by
    rw [IsInstance, IsInstance, extended.kind id inside]
  refine ⟨fun x y => Interchangeable t x y ∧ x < t.size ∧ y < t.size, ?_, interchangeable, left,
    right⟩
  rintro x y ⟨interchangeable, left, right⟩
  have ha := extended.kind x left
  have hb := extended.kind y right
  have rule := interchangeable.unfold
  cases rule with
  | same equal => exact .same equal
  | wildcard either plain plain' =>
      refine .wildcard ?_ ((instances left).not.mpr plain) ((instances right).not.mpr plain')
      rwa [extended.isWildcard left, extended.isWildcard right]
  | primitive isLeft isRight => exact .primitive (ha.trans isLeft) (hb.trans isRight)
  | composite parallel parts =>
      refine .composite (parallel.later advances left right) fun own m n beside => ?_
      obtain ⟨before, left, right⟩ := beside.before advances remembering left right
      exact (parts own m n before).later advances remembering left right
  | bodies instantiated apart isLeft isRight plain plain' related =>
      have leftBody := wellFormed.toClosed.body? left isLeft
      have rightBody := wellFormed.toClosed.body? right isRight
      refine .bodies ?_ (fun i j hi hj => apart i j (ha.symm.trans hi) (hb.symm.trans hj))
        ((extended.body? same left).trans isLeft) ((extended.body? same right).trans isRight)
        ((instances leftBody).not.mpr plain) ((instances rightBody).not.mpr plain')
        ⟨related, leftBody, rightBody⟩
      exact instantiated.imp (instances left).mpr (instances right).mpr

end Growth

end StructuralTyping.Equality
