import Mathlib.Data.Finset.Prod
import StructuralTyping.Types.Equality
import StructuralTyping.Proofs.InferenceScope

/-! Structural equality as the greatest relation that is closed under its rules. The type
parameters of two functions correspond inside of them, so there is a relation for every list
of pairs that correspond. The comparison keeps the pairs in progress in the same list; a pair
that is assumed there is right because the assumption is discharged where the comparison of
that pair ends. The comparison ends where the arguments of instantiated types lie before them
and their bodies are no instantiated types. -/
namespace StructuralTyping

/-- The type is a generic interface with arguments. -/
def TypeTable.IsInstance (t : TypeTable) (id : TypeId) : Prop := ∃ i, t.kind id = .instantiated i

namespace Equality

open TypeTable

/-- The pairs of types that correspond. -/
abbrev Pairs := List (TypeId × TypeId)

section Conjunctions
variable {α : Type} {answer answer' : α → Option Bool} {xs : List α} {r : Bool}
  {first first' : Option Bool} {second second' : Unit → Option Bool}

theorem every_eq_true_iff : every answer xs = some true ↔ ∀ x ∈ xs, answer x = some true := by
  induction xs with
  | nil => simp [every]
  | cons x rest ih =>
      rw [List.forall_mem_cons, ← ih, every]
      split
      · simp [*]
      · next other => exact ⟨fun no => (other no).elim, fun yes => (other yes.1).elim⟩

theorem every_ne_false (each : ∀ x ∈ xs, answer x ≠ some false) :
    every answer xs ≠ some false := by
  induction xs with
  | nil => simp [every]
  | cons x rest ih =>
      obtain ⟨here, later⟩ := List.forall_mem_cons.mp each
      rw [every]
      split
      · exact ih later
      · exact here

theorem every_isSome (each : ∀ x ∈ xs, (answer x).isSome = true) :
    (every answer xs).isSome = true := by
  induction xs with
  | nil => rfl
  | cons x rest ih =>
      obtain ⟨here, later⟩ := List.forall_mem_cons.mp each
      rw [every]
      split
      · exact ih later
      · exact here

theorem every_mono (each : ∀ x ∈ xs, ∀ r, answer x = some r → answer' x = some r)
    (answered : every answer xs = some r) : every answer' xs = some r := by
  induction xs with
  | nil => exact answered
  | cons x rest ih =>
      obtain ⟨here, later⟩ := List.forall_mem_cons.mp each
      cases found : answer x with
      | none => simp [every, found] at answered
      | some v =>
          have found' := here v found
          cases v
          · simpa [every, found, found'] using answered
          · simp only [every, found, found'] at answered ⊢
            exact ih later answered

theorem both_eq_true_iff : both first second = some true ↔
    first = some true ∧ second () = some true := by
  unfold both
  split
  · simp
  · next other => exact ⟨fun no => (other no).elim, fun yes => (other yes.1).elim⟩

theorem both_ne_false (one : first ≠ some false)
    (two : first = some true → second () ≠ some false) :
    both first second ≠ some false := by
  unfold both
  split
  · exact two rfl
  · exact one

theorem both_isSome (one : first.isSome = true) (two : (second ()).isSome = true) :
    (both first second).isSome = true := by
  unfold both
  split
  · exact two
  · exact one

theorem both_mono (one : ∀ r, first = some r → first' = some r)
    (two : ∀ r, second () = some r → second' () = some r) (answered : both first second = some r) :
    both first' second' = some r := by
  cases found : first with
  | none => simp [both, found] at answered
  | some v =>
      cases v <;> simp only [both, found, one _ found] at answered ⊢
      · exact answered
      · exact two r answered

end Conjunctions

section Bodies
variable {t : TypeTable} {id body : TypeId} {i : InstantiatedType}

theorem body?_instantiated (entry : t.kind id = .instantiated i) :
    body? t id = t.resolved.find? (instantiationKey i) := by
  rw [body?, entry]

theorem body?_plain (plain : ¬t.IsInstance id) : body? t id = some id := by
  unfold body?
  split
  · next i entry => exact absurd ⟨i, entry⟩ plain
  · rfl

/-- A type whose body is known is resolved without a change. -/
theorem run_resolve_body (made : body? t id = some body) :
    (resolve id).run t = (body, t) := by
  by_cases instantiated : t.IsInstance id
  · obtain ⟨j, entry⟩ := instantiated
    exact run_resolve_remembered entry ((body?_instantiated entry).symm.trans made)
  · obtain rfl := Option.some.inj ((body?_plain instantiated).symm.trans made)
    exact run_resolve_plain fun flag => instantiated <| by
      cases entry : t.kind id with
      | instantiated j => exact ⟨j, entry⟩
      | _ => simp [TypeTable.flag, entry, TypeKind.flag] at flag

/-- What is met in a type is among types that hold their parts and their bodies. -/
theorem mem_of_meets (ids : List TypeId) (listed : id ∈ ids)
    (closed : ∀ m ∈ ids, (t.kind m).parts ⊆ ids ∧ ∀ body ∈ body? t m, body ∈ ids) {m : TypeId}
    (meets : t.Meets id m) : m ∈ ids := by
  induction meets with
  | refl => exact listed
  | tail _ step ih =>
      rcases step with part | ⟨i, entry, found⟩
      · exact (closed _ ih).1 part
      · exact (closed _ ih).2 _ ((body?_instantiated entry).trans found)

/-- The body of a type is met in it. -/
theorem meets_body (made : body? t id = some body) : t.Meets id body := by
  unfold body? at made
  split at made
  · next i entry => exact .single (.inr ⟨i, entry, made⟩)
  · exact Option.some.inj made ▸ .refl

end Bodies

/-- Objects have the same properties, in whatever order. -/
structure ObjectRule (R : TypeId → TypeId → Prop) (x y : ObjectType) : Prop where
  size : x.properties.size = y.properties.size
  properties : ∀ name p, (name, p) ∈ x.properties.pairs → ∃ q, y.property? name = some q ∧
    p.optional = q.optional ∧ R p.type q.type

/-- Functions agree in their numbers of type parameters and parameters, and where their type
parameters correspond in the types of the parameters and of the result. -/
structure FunctionRule (R : TypeId → TypeId → Prop) (x y : FunctionType) : Prop where
  declared : x.typeParameters.length = y.typeParameters.length
  arity : x.parameters.length = y.parameters.length
  parameters : ∀ pair ∈ x.parameters.zip y.parameters,
    pair.1.optional = pair.2.optional ∧ R pair.1.type pair.2.type
  result : R x.returnType y.returnType

section Parts
variable {R S : TypeId → TypeId → Prop}

theorem ObjectRule.imp {x y : ObjectType} (rule : ObjectRule R x y)
    (within : ∀ name p q, (name, p) ∈ x.properties.pairs → y.property? name = some q →
      R p.type q.type → S p.type q.type) : ObjectRule S x y where
  size := rule.size
  properties name p listed := by
    obtain ⟨q, found, optional, related⟩ := rule.properties name p listed
    exact ⟨q, found, optional, within name p q listed found related⟩

theorem FunctionRule.imp {x y : FunctionType} (rule : FunctionRule R x y)
    (within : ∀ pair ∈ x.parameters.zip y.parameters,
      R pair.1.type pair.2.type → S pair.1.type pair.2.type)
    (result : R x.returnType y.returnType → S x.returnType y.returnType) : FunctionRule S x y where
  declared := rule.declared
  arity := rule.arity
  parameters pair listed := (rule.parameters pair listed).imp_right (within pair listed)
  result := result rule.result

end Parts

/-- One step of the rules over a family of relations. -/
inductive Rule (t : TypeTable) (R : Pairs → TypeId → TypeId → Prop) (Γ : Pairs) (a b : TypeId) :
    Prop
  | same (equal : a = b)
  | corresponding (member : (a, b) ∈ Γ)
  | primitive {p : Primitive} (left : t.kind a = .primitive p) (right : t.kind b = .primitive p)
  | unknown (left : t.kind a = .unknown) (right : t.kind b = .unknown)
  | object {x y : ObjectType} (left : t.kind a = .object x) (right : t.kind b = .object y)
      (rule : ObjectRule (R Γ) x y)
  | function {x y : FunctionType} (left : t.kind a = .function x) (right : t.kind b = .function y)
      (rule : FunctionRule (R (x.typeParameters.zip y.typeParameters ++ Γ)) x y)
  | arguments {x y : InstantiatedType} (left : t.kind a = .instantiated x)
      (right : t.kind b = .instantiated y) (origin : x.origin = y.origin)
      (arguments : ∀ pair ∈ x.bindings.values.zip y.bindings.values, R Γ pair.1 pair.2)
  | bodies {x y : TypeId} (instantiated : t.IsInstance a ∨ t.IsInstance b)
      (apart : ∀ i j, t.kind a = .instantiated i → t.kind b = .instantiated j → i.origin ≠ j.origin)
      (left : body? t a = some x) (right : body? t b = some y) (through : ¬(x = a ∧ y = b))
      (rule : R Γ x y)

/-- Every pair is there by one of the rules. -/
def Closed (t : TypeTable) (R : Pairs → TypeId → TypeId → Prop) : Prop :=
  ∀ Γ a b, R Γ a b → Rule t R Γ a b

/-- The types are structurally equal, where the pairs correspond: the greatest family of
relations that is closed under the rules. -/
def Similar (t : TypeTable) (Γ : Pairs) (a b : TypeId) : Prop := ∃ R, Closed t R ∧ R Γ a b

/-- The pairs of types that a comparison comes to next, with the type parameters that correspond
there besides. -/
inductive ComesTo (t : TypeTable) (a b : TypeId) : Pairs → TypeId → TypeId → Prop
  | property {x y : ObjectType} {name : String} {p q : Property} (left : t.kind a = .object x)
      (right : t.kind b = .object y) (listed : (name, p) ∈ x.properties.pairs)
      (found : y.property? name = some q) : ComesTo t a b [] p.type q.type
  | parameter {x y : FunctionType} {pair : Parameter × Parameter} (left : t.kind a = .function x)
      (right : t.kind b = .function y) (listed : pair ∈ x.parameters.zip y.parameters) :
      ComesTo t a b (x.typeParameters.zip y.typeParameters) pair.1.type pair.2.type
  | result {x y : FunctionType} (left : t.kind a = .function x) (right : t.kind b = .function y) :
      ComesTo t a b (x.typeParameters.zip y.typeParameters) x.returnType y.returnType
  | argument {x y : InstantiatedType} {pair : TypeId × TypeId} (left : t.kind a = .instantiated x)
      (right : t.kind b = .instantiated y) (origin : x.origin = y.origin)
      (listed : pair ∈ x.bindings.values.zip y.bindings.values) : ComesTo t a b [] pair.1 pair.2
  | bodies {x y : TypeId} (instantiated : t.IsInstance a ∨ t.IsInstance b)
      (left : body? t a = some x) (right : body? t b = some y) : ComesTo t a b [] x y

namespace ComesTo

variable {t : TypeTable} {own : Pairs} {a b x y : TypeId}

/-- What the comparison comes to is met in the types. -/
theorem meets (comes : ComesTo t a b own x y) : t.Meets a x ∧ t.Meets b y := by
  have part {id m : TypeId} (listed : m ∈ (t.kind id).parts) : t.Meets id m :=
    .single (.inl listed)
  cases comes with
  | property ha hb listed found =>
      refine ⟨part ?_, part ?_⟩
      · rw [ha]
        exact List.mem_map_of_mem (List.mem_map_of_mem listed)
      · rw [hb]
        exact List.mem_map_of_mem (List.mem_map_of_mem (Dictionary.mem_of_find? found))
  | parameter ha hb listed =>
      obtain ⟨p, q⟩ := List.of_mem_zip listed
      refine ⟨part ?_, part ?_⟩
      · rw [ha]
        exact List.mem_append_left _ (List.mem_map_of_mem p)
      · rw [hb]
        exact List.mem_append_left _ (List.mem_map_of_mem q)
  | result ha hb =>
      exact ⟨part (by simp [ha, TypeKind.parts]), part (by simp [hb, TypeKind.parts])⟩
  | argument ha hb _ listed =>
      obtain ⟨p, q⟩ := List.of_mem_zip listed
      exact ⟨part (by rwa [ha]), part (by rwa [hb])⟩
  | bodies _ ha hb => exact ⟨meets_body ha, meets_body hb⟩

end ComesTo

section Rules
variable {t u : TypeTable} {R R' : Pairs → TypeId → TypeId → Prop} {Γ Δ : Pairs} {a b : TypeId}

/-- A step holds also between other relations, for more pairs that correspond and in a table
that has the same entries here and remembers the same bodies. -/
theorem Rule.transport (left : u.kind a = t.kind a) (right : u.kind b = t.kind b)
    (leftBody : ∀ x, body? t a = some x → body? u a = some x)
    (rightBody : ∀ x, body? t b = some x → body? u b = some x)
    (wider : (a, b) ∈ Γ → (a, b) ∈ Δ)
    (within : ∀ own x y, ComesTo t a b own x y → R (own ++ Γ) x y → R' (own ++ Δ) x y)
    (rule : Rule t R Γ a b) : Rule u R' Δ a b := by
  cases rule with
  | same equal => exact .same equal
  | corresponding member => exact .corresponding (wider member)
  | primitive ha hb => exact .primitive (left.trans ha) (right.trans hb)
  | unknown ha hb => exact .unknown (left.trans ha) (right.trans hb)
  | object ha hb rule =>
      exact .object (left.trans ha) (right.trans hb) (rule.imp fun _ _ _ listed found =>
        within [] _ _ (.property ha hb listed found))
  | function ha hb rule =>
      exact .function (left.trans ha) (right.trans hb)
        (rule.imp (fun _ listed => within _ _ _ (.parameter ha hb listed))
          (within _ _ _ (.result ha hb)))
  | arguments ha hb origin arguments =>
      refine .arguments (left.trans ha) (right.trans hb) origin fun pair listed => ?_
      exact within [] _ _ (.argument ha hb origin listed) (arguments pair listed)
  | bodies instantiated apart ha hb through related =>
      refine .bodies ?_ (fun i j hi hj => ?_) (leftBody _ ha) (rightBody _ hb) through ?_
      · simpa only [IsInstance, left, right] using instantiated
      · exact apart i j (left.symm.trans hi) (right.symm.trans hj)
      · exact within [] _ _ (.bodies instantiated ha hb) related

theorem Rule.widen (wider : (a, b) ∈ Γ → (a, b) ∈ Δ)
    (within : ∀ own x y, R (own ++ Γ) x y → R' (own ++ Δ) x y) (rule : Rule t R Γ a b) :
    Rule t R' Δ a b :=
  rule.transport rfl rfl (fun _ => id) (fun _ => id) wider fun own x y _ => within own x y

theorem Rule.mono (within : ∀ Δ x y, R Δ x y → R' Δ x y) (rule : Rule t R Γ a b) :
    Rule t R' Γ a b :=
  rule.widen id fun own => within (own ++ Γ)

theorem Similar.unfold (similar : Similar t Γ a b) : Rule t (Similar t) Γ a b := by
  obtain ⟨R, closed, related⟩ := similar
  exact (closed Γ a b related).mono fun Δ x y here => ⟨R, closed, here⟩

/-- The greatest family satisfies the rules with equality. -/
theorem similar_iff : Similar t Γ a b ↔ Rule t (Similar t) Γ a b := by
  refine ⟨Similar.unfold, fun rule => ⟨Rule t (Similar t), fun Δ x y here => ?_, rule⟩⟩
  exact here.mono fun _ _ _ => Similar.unfold

theorem append_subset (own : Pairs) (wider : Γ ⊆ Δ) : own ++ Γ ⊆ own ++ Δ :=
  List.append_subset.mpr ⟨List.subset_append_left own Δ,
    List.Subset.trans wider (List.subset_append_right own Δ)⟩

/-- What is equal stays so when more pairs correspond. -/
theorem Similar.widen (similar : Similar t Γ a b) (wider : Γ ⊆ Δ) : Similar t Δ a b := by
  refine ⟨fun Δ x y => ∃ Γ, Γ ⊆ Δ ∧ Similar t Γ x y, ?_, Γ, wider, similar⟩
  rintro Δ x y ⟨Γ, wider, similar⟩
  refine similar.unfold.widen (@wider _) fun own x y here => ⟨own ++ Γ, ?_, here⟩
  exact append_subset own wider

/-- The assumption of a pair is discharged by the comparison of its parts. -/
theorem Similar.discharge (rule : Rule t (fun Δ => Similar t ((a, b) :: Δ)) Γ a b) :
    Similar t Γ a b := by
  refine ⟨fun Δ x y => Γ ⊆ Δ ∧ ((x = a ∧ y = b) ∨ Similar t ((a, b) :: Δ) x y), ?_,
    List.Subset.refl Γ, .inl ⟨rfl, rfl⟩⟩
  have inner {Δ : Pairs} (wider : Γ ⊆ Δ) (own : Pairs) : Γ ⊆ own ++ Δ :=
    List.Subset.trans wider (List.subset_append_right own Δ)
  rintro Δ x y ⟨wider, related⟩
  by_cases here : x = a ∧ y = b
  · obtain ⟨rfl, rfl⟩ := here
    refine rule.widen (@wider _) fun own x y below => ⟨inner wider own, .inr (below.widen ?_)⟩
    exact List.cons_subset_cons _ (append_subset own wider)
  · have rule' := (related.resolve_left here).unfold
    refine rule'.widen (fun member => ?_) fun own x y below =>
      ⟨inner wider own, .inr (below.widen List.perm_middle.subset)⟩
    refine (List.mem_cons.mp member).resolve_left fun equal => ?_
    exact here (Prod.mk.inj equal)

end Rules

section Steps
variable {t : TypeTable} {next : Pairs → TypeId → TypeId → Option Bool} {Γ : Pairs} {a b : TypeId}

/-- The answer for two objects, from the answers for the types of their properties. -/
def compareObjects (next : TypeId → TypeId → Option Bool) (x y : ObjectType) : Option Bool :=
  if x.properties.size ≠ y.properties.size then some false
  else
    every (fun (name, p) =>
      match y.property? name with
      | some q => both (some (p.optional == q.optional)) fun _ => next p.type q.type
      | none => some false) x.properties.pairs

/-- The answer for two functions, from the answers for the types in them. -/
def compareFunctions (next : TypeId → TypeId → Option Bool) (x y : FunctionType) : Option Bool :=
  if x.typeParameters.length ≠ y.typeParameters.length ∨
      x.parameters.length ≠ y.parameters.length then some false
  else
    both
      (every (fun (p, q) =>
        both (some (p.optional == q.optional)) fun _ => next p.type q.type)
        (x.parameters.zip y.parameters))
      fun _ => next x.returnType y.returnType

section Answers
variable {next : TypeId → TypeId → Option Bool}

theorem objectRule_of_compareObjects {x y : ObjectType}
    (answered : compareObjects next x y = some true) :
    ObjectRule (fun m n => next m n = some true) x y := by
  unfold compareObjects at answered
  split at answered
  · cases answered
  · next size =>
      refine ⟨not_not.mp size, fun name p listed => ?_⟩
      have each := every_eq_true_iff.mp answered (name, p) listed
      dsimp only at each
      split at each
      · next q found =>
          obtain ⟨optional, yes⟩ := both_eq_true_iff.mp each
          exact ⟨q, found, eq_of_beq (Option.some.inj optional), yes⟩
      · cases each

theorem compareObjects_ne_false {x y : ObjectType}
    (rule : ObjectRule (fun m n => next m n ≠ some false) x y) :
    compareObjects next x y ≠ some false := by
  rw [compareObjects, if_neg (not_not.mpr rule.size)]
  refine every_ne_false fun ⟨name, p⟩ listed => ?_
  obtain ⟨q, found, optional, related⟩ := rule.properties name p listed
  simp only [found, optional, beq_self_eq_true]
  exact both_ne_false (by simp) fun _ => related

theorem functionRule_of_compareFunctions {x y : FunctionType}
    (answered : compareFunctions next x y = some true) :
    FunctionRule (fun m n => next m n = some true) x y := by
  unfold compareFunctions at answered
  split at answered
  · cases answered
  · next counts =>
      obtain ⟨parameters, result⟩ := both_eq_true_iff.mp answered
      refine ⟨?_, ?_, fun pair listed => ?_, result⟩
      · exact not_not.mp fun count => counts (.inl count)
      · exact not_not.mp fun count => counts (.inr count)
      · obtain ⟨optional, yes⟩ := both_eq_true_iff.mp (every_eq_true_iff.mp parameters pair listed)
        exact ⟨eq_of_beq (Option.some.inj optional), yes⟩

theorem compareFunctions_ne_false {x y : FunctionType}
    (rule : FunctionRule (fun m n => next m n ≠ some false) x y) :
    compareFunctions next x y ≠ some false := by
  rw [compareFunctions, if_neg (by simp [rule.declared, rule.arity])]
  refine both_ne_false (every_ne_false fun pair listed => ?_) fun _ => rule.result
  obtain ⟨optional, related⟩ := rule.parameters pair listed
  simp only [optional, beq_self_eq_true]
  exact both_ne_false (by simp) fun _ => related

end Answers

/-- What one step of the comparison does, given the answers for the pairs that it comes to. -/
inductive Compares (t : TypeTable) (next : Pairs → TypeId → TypeId → Option Bool) (Γ : Pairs)
    (a b : TypeId) : Option Bool → Prop
  | accepted (rule : ∀ R, Rule t R Γ a b) : Compares t next Γ a b (some true)
  | objects {x y : ObjectType} (left : t.kind a = .object x) (right : t.kind b = .object y)
      (other : ¬(a = b ∨ (a, b) ∈ Γ)) :
      Compares t next Γ a b (compareObjects (next ((a, b) :: Γ)) x y)
  | functions {x y : FunctionType} (left : t.kind a = .function x) (right : t.kind b = .function y)
      (other : ¬(a = b ∨ (a, b) ∈ Γ)) :
      Compares t next Γ a b
        (compareFunctions (next (x.typeParameters.zip y.typeParameters ++ (a, b) :: Γ)) x y)
  | arguments {x y : InstantiatedType} (left : t.kind a = .instantiated x)
      (right : t.kind b = .instantiated y) (other : ¬(a = b ∨ (a, b) ∈ Γ))
      (origin : x.origin = y.origin) :
      Compares t next Γ a b
        (every (fun (p, q) => next Γ p q) (x.bindings.values.zip y.bindings.values))
  | bodies {x y : TypeId} (instantiated : t.IsInstance a ∨ t.IsInstance b)
      (apart : ∀ i j, t.kind a = .instantiated i → t.kind b = .instantiated j → i.origin ≠ j.origin)
      (other : ¬(a = b ∨ (a, b) ∈ Γ))
      (left : body? t a = some x) (right : body? t b = some y) (through : ¬(x = a ∧ y = b)) :
      Compares t next Γ a b (next Γ x y)
  | refused (no : ∀ R, ¬Rule t R Γ a b) : Compares t next Γ a b (some false)

/-- The comparison goes by the bodies, where one of the two types is an instantiated one. -/
theorem compares_bodies (instantiated : t.IsInstance a ∨ t.IsInstance b)
    (apart : ∀ i j, t.kind a = .instantiated i → t.kind b = .instantiated j → i.origin ≠ j.origin)
    (other : ¬(a = b ∨ (a, b) ∈ Γ)) :
    Compares t next Γ a b (match body? t a, body? t b with
      | some x, some y => if x = a ∧ y = b then some false else next Γ x y
      | _, _ => some false) := by
  have refused (no : ∀ x y, body? t a = some x → body? t b = some y → x = a ∧ y = b) :
      Compares t next Γ a b (some false) := by
    refine .refused fun R rule => ?_
    cases rule with
    | same equal => exact other (.inl equal)
    | corresponding member => exact other (.inr member)
    | arguments ha hb origin => exact apart _ _ ha hb origin
    | bodies _ _ ha hb through => exact through (no _ _ ha hb)
    | _ ha hb => simp [IsInstance, ha, hb] at instantiated
  split
  · next x y ha hb =>
      split
      · next here =>
          refine refused fun x' y' ha' hb' => ?_
          rwa [Option.some.inj (ha'.symm.trans ha), Option.some.inj (hb'.symm.trans hb)]
      · next through => exact .bodies instantiated apart other ha hb through
  · next none =>
      exact refused fun x y ha hb => (none x y ha hb).elim

theorem compares_equalWithin (t : TypeTable) (fuel : Nat) (Γ : Pairs) (a b : TypeId) :
    Compares t (equalWithin t fuel) Γ a b (equalWithin t (fuel + 1) Γ a b) := by
  rw [equalWithin]
  split
  · next accepted => exact .accepted fun R => accepted.elim .same .corresponding
  · next other =>
      have apartIf (missing : ∀ i j, t.kind a = .instantiated i → t.kind b ≠ .instantiated j) :
          ∀ i j, t.kind a = .instantiated i → t.kind b = .instantiated j → i.origin ≠ j.origin :=
        fun i j ha hb => (missing i j ha hb).elim
      dsimp only
      split
      · next p q ha hb =>
          by_cases same : p = q
          · subst same
            rw [beq_self_eq_true]
            exact .accepted fun R => .primitive ha hb
          · rw [beq_eq_false_iff_ne.mpr same]
            refine .refused fun R rule => ?_
            cases rule with
            | same equal => exact other (.inl equal)
            | corresponding member => exact other (.inr member)
            | primitive ha' hb' => simp_all
            | bodies instantiated => simp [IsInstance, ha, hb] at instantiated
            | _ ha' => simp [ha] at ha'
      · next ha hb => exact .accepted fun R => .unknown ha hb
      · next x y ha hb => exact .objects ha hb other
      · next x y ha hb => exact .functions ha hb other
      · next x y ha hb =>
          split
          · next origin => exact .arguments ha hb other origin
          · next apart =>
              refine compares_bodies (.inl ⟨_, ha⟩) ?_ other
              intro i j ha' hb'
              rwa [← TypeKind.instantiated.inj (ha.symm.trans ha'),
                ← TypeKind.instantiated.inj (hb.symm.trans hb')]
      · next i ha hb =>
          exact compares_bodies (.inl ⟨_, ha⟩)
            (apartIf fun i j _ hb' => hb _ hb') other
      · next i hb ha =>
          exact compares_bodies (.inr ⟨_, hb⟩)
            (apartIf fun i j ha' _ => ha _ ha') other
      · next _ _ left right primitives unknowns objects functions _ =>
          refine .refused fun R rule => ?_
          cases rule with
          | same equal => exact other (.inl equal)
          | corresponding member => exact other (.inr member)
          | primitive ha hb => exact primitives _ _ ha hb
          | unknown ha hb => exact unknowns ha hb
          | object ha hb => exact objects _ _ ha hb
          | function ha hb => exact functions _ _ ha hb
          | arguments ha => exact left _ ha
          | bodies either =>
              rcases either with ⟨i, ha⟩ | ⟨i, hb⟩
              · exact left i ha
              · exact right i hb

/-- A step that says yes is one of the rules. -/
theorem Compares.rule {S : Pairs → TypeId → TypeId → Prop}
    (compares : Compares t next Γ a b (some true))
    (known : ∀ Δ x y, next Δ x y = some true → S Δ x y)
    (widen : ∀ Δ Δ' x y, Δ ⊆ Δ' → S Δ x y → S Δ' x y) :
    Rule t (fun Δ => S ((a, b) :: Δ)) Γ a b := by
  have here {x y : TypeId} (yes : next Γ x y = some true) : S ((a, b) :: Γ) x y :=
    widen _ _ x y (List.subset_cons_self _ _) (known Γ x y yes)
  generalize answered : some true = answer at compares
  cases compares with
  | accepted rule => exact rule _
  | objects ha hb =>
      have rule := objectRule_of_compareObjects answered.symm
      exact .object ha hb (rule.imp fun _ _ _ _ _ => known _ _ _)
  | @functions x y ha hb =>
      have inside {x' y' : TypeId}
          (yes : next (x.typeParameters.zip y.typeParameters ++ (a, b) :: Γ) x' y' = some true) :
          S ((a, b) :: (x.typeParameters.zip y.typeParameters ++ Γ)) x' y' :=
        widen _ _ _ _ List.perm_middle.subset (known _ _ _ yes)
      have rule := functionRule_of_compareFunctions answered.symm
      exact .function ha hb (rule.imp (fun _ _ => inside) inside)
  | arguments ha hb _ origin =>
      refine .arguments ha hb origin fun pair listed => here ?_
      exact every_eq_true_iff.mp answered.symm pair listed
  | bodies instantiated apart _ ha hb through =>
      exact .bodies instantiated apart ha hb through (here answered.symm)
  | refused => cases answered

/-- A step does not say no to what is there by one of the rules. -/
theorem Compares.ne_false {S : Pairs → TypeId → TypeId → Prop} {answer : Option Bool} {Γ' : Pairs}
    (compares : Compares t next Γ a b answer) (fewer : Γ' ⊆ Γ) (rule : Rule t S Γ' a b)
    (known : ∀ Δ Δ' x y, Δ ⊆ Δ' → S Δ x y → next Δ' x y ≠ some false) :
    answer ≠ some false := by
  have here {x y : TypeId} : S Γ' x y → next Γ x y ≠ some false := known Γ' Γ x y fewer
  have later : Γ' ⊆ (a, b) :: Γ := List.subset_cons_of_subset _ fewer
  cases compares with
  | accepted => simp
  | @objects x y ha hb other =>
      cases rule with
      | same equal => exact absurd (.inl equal) other
      | corresponding member => exact absurd (.inr (fewer member)) other
      | object ha' hb' rule =>
          obtain rfl := TypeKind.object.inj (ha.symm.trans ha')
          obtain rfl := TypeKind.object.inj (hb.symm.trans hb')
          exact compareObjects_ne_false (rule.imp fun _ _ _ _ _ => known _ _ _ _ later)
      | bodies instantiated => simp [IsInstance, ha, hb] at instantiated
      | _ ha' => simp [ha] at ha'
  | @functions x y ha hb other =>
      cases rule with
      | same equal => exact absurd (.inl equal) other
      | corresponding member => exact absurd (.inr (fewer member)) other
      | function ha' hb' rule =>
          obtain rfl := TypeKind.function.inj (ha.symm.trans ha')
          obtain rfl := TypeKind.function.inj (hb.symm.trans hb')
          have inside {x' y' : TypeId} :=
            known _ (x.typeParameters.zip y.typeParameters ++ (a, b) :: Γ) x' y'
              (append_subset (x.typeParameters.zip y.typeParameters) later)
          exact compareFunctions_ne_false (rule.imp (fun _ _ => inside) inside)
      | bodies instantiated => simp [IsInstance, ha, hb] at instantiated
      | _ ha' => simp [ha] at ha'
  | arguments ha hb other origin =>
      cases rule with
      | same equal => exact absurd (.inl equal) other
      | corresponding member => exact absurd (.inr (fewer member)) other
      | arguments ha' hb' _ arguments =>
          obtain rfl := TypeKind.instantiated.inj (ha.symm.trans ha')
          obtain rfl := TypeKind.instantiated.inj (hb.symm.trans hb')
          exact every_ne_false fun pair listed => here (arguments pair listed)
      | bodies _ apart => exact absurd origin (apart _ _ ha hb)
      | _ ha' => simp [ha] at ha'
  | bodies instantiated apart other ha hb through =>
      cases rule with
      | same equal => exact absurd (.inl equal) other
      | corresponding member => exact absurd (.inr (fewer member)) other
      | arguments ha' hb' origin => exact absurd origin (apart _ _ ha' hb')
      | bodies _ _ ha' hb' _ related =>
          obtain rfl := Option.some.inj (ha.symm.trans ha')
          obtain rfl := Option.some.inj (hb.symm.trans hb')
          exact here related
      | _ ha' hb' => simp [IsInstance, ha', hb'] at instantiated
  | refused no =>
      have weaker : Rule t (fun _ _ _ => True) Γ a b := rule.widen (@fewer _) fun _ _ _ _ => trivial
      exact absurd weaker (no _)

theorem compareObjects_isSome {next : TypeId → TypeId → Option Bool} {x y : ObjectType}
    (each : ∀ name p q, (name, p) ∈ x.properties.pairs → y.property? name = some q →
      (next p.type q.type).isSome = true) : (compareObjects next x y).isSome = true := by
  unfold compareObjects
  split
  · rfl
  · refine every_isSome fun ⟨name, p⟩ listed => ?_
    dsimp only
    split
    · next q found => exact both_isSome rfl (each name p q listed found)
    · rfl

theorem compareObjects_mono {next next' : TypeId → TypeId → Option Bool} {x y : ObjectType}
    {r : Bool} (more : ∀ x y r, next x y = some r → next' x y = some r)
    (answered : compareObjects next x y = some r) : compareObjects next' x y = some r := by
  unfold compareObjects at answered ⊢
  split
  · next other => rwa [if_pos other] at answered
  · next same =>
      rw [if_neg same] at answered
      refine every_mono (fun ⟨name, p⟩ _ r answered => ?_) answered
      dsimp only at answered ⊢
      split
      · next q found =>
          simp only [found] at answered
          exact both_mono (fun _ => id) (fun r => more _ _ r) answered
      · next missing => simpa only [missing] using answered

theorem compareFunctions_isSome {next : TypeId → TypeId → Option Bool} {x y : FunctionType}
    (each : ∀ pair ∈ x.parameters.zip y.parameters, (next pair.1.type pair.2.type).isSome = true)
    (result : (next x.returnType y.returnType).isSome = true) :
    (compareFunctions next x y).isSome = true := by
  unfold compareFunctions
  split
  · rfl
  · refine both_isSome (every_isSome fun pair listed => ?_) result
    exact both_isSome rfl (each pair listed)

theorem compareFunctions_mono {next next' : TypeId → TypeId → Option Bool} {x y : FunctionType}
    {r : Bool} (more : ∀ x y r, next x y = some r → next' x y = some r)
    (answered : compareFunctions next x y = some r) : compareFunctions next' x y = some r := by
  unfold compareFunctions at answered ⊢
  split
  · next other => rwa [if_pos other] at answered
  · next same =>
      rw [if_neg same] at answered
      refine both_mono (fun r => every_mono fun pair _ r => ?_) (fun r => more _ _ r) answered
      exact both_mono (fun _ => id) fun r => more _ _ r

/-- A step is answered if the pairs that it comes to are, to which objects and functions add
their own pair. -/
theorem Compares.isSome {answer : Option Bool} (compares : Compares t next Γ a b answer)
    (solid : ∀ own x y, ¬t.IsInstance a → ¬t.IsInstance b → (a, b) ∉ Γ → ComesTo t a b own x y →
      (next (own ++ (a, b) :: Γ) x y).isSome = true)
    (instances : ∀ own x y, t.IsInstance a ∨ t.IsInstance b → ComesTo t a b own x y →
      (next Γ x y).isSome = true) : answer.isSome = true := by
  have both {left right : TypeKind} (ha : t.kind a = left) (hb : t.kind b = right)
      (plain : left.flag ≠ .instantiated) (plain' : right.flag ≠ .instantiated) :
      ¬t.IsInstance a ∧ ¬t.IsInstance b := by
    refine ⟨fun ⟨i, entry⟩ => plain ?_, fun ⟨i, entry⟩ => plain' ?_⟩
    · rw [← ha, entry, TypeKind.flag]
    · rw [← hb, entry, TypeKind.flag]
  cases compares with
  | accepted | refused => rfl
  | objects ha hb other =>
      obtain ⟨plain, plain'⟩ := both ha hb (by simp [TypeKind.flag]) (by simp [TypeKind.flag])
      exact compareObjects_isSome fun name p q listed found =>
        solid [] _ _ plain plain' (fun member => other (.inr member)) (.property ha hb listed found)
  | functions ha hb other =>
      obtain ⟨plain, plain'⟩ := both ha hb (by simp [TypeKind.flag]) (by simp [TypeKind.flag])
      have solid {own : Pairs} {x y : TypeId} (comes : ComesTo t a b own x y) :=
        solid own x y plain plain' (fun member => other (.inr member)) comes
      exact compareFunctions_isSome (fun pair listed => solid (.parameter ha hb listed))
        (solid (.result ha hb))
  | arguments ha hb _ origin =>
      exact every_isSome fun pair listed =>
        instances _ _ _ (.inl ⟨_, ha⟩) (.argument ha hb origin listed)
  | bodies instantiated _ _ ha hb =>
      exact instances _ _ _ instantiated (.bodies instantiated ha hb)

end Steps

section Fuel
variable {t : TypeTable} {fuel fuel' : Nat} {Γ Γ' : Pairs} {a b : TypeId} {r : Bool}

theorem equalWithin_succ (answered : equalWithin t fuel Γ a b = some r) :
    equalWithin t (fuel + 1) Γ a b = some r := by
  induction fuel generalizing Γ a b r with
  | zero => cases answered
  | succ fuel ih =>
      rw [equalWithin] at answered ⊢
      by_cases accepted : a = b ∨ (a, b) ∈ Γ
      · rwa [if_pos accepted] at answered ⊢
      rw [if_neg accepted] at answered ⊢
      have byBody (r : Bool)
          (answered : (match body? t a, body? t b with
            | some x, some y => if x = a ∧ y = b then some false else equalWithin t fuel Γ x y
            | _, _ => some false) = some r) :
          (match body? t a, body? t b with
            | some x, some y => if x = a ∧ y = b then some false else equalWithin t (fuel + 1) Γ x y
            | _, _ => some false) = some r := by
        split at answered
        · next ha hb =>
            split at answered
            · next here => rwa [if_pos here]
            · next through =>
                rw [if_neg through]
                exact ih answered
        · exact answered
      revert answered
      dsimp only
      split
      · exact id
      · exact id
      · exact compareObjects_mono fun _ _ _ => ih
      · exact compareFunctions_mono fun _ _ _ => ih
      · split
        · exact every_mono fun _ _ _ => ih
        · exact byBody r
      · exact byBody r
      · exact byBody r
      · exact id

/-- More fuel changes no answer. -/
theorem equalWithin_mono (more : fuel ≤ fuel') (answered : equalWithin t fuel Γ a b = some r) :
    equalWithin t fuel' Γ a b = some r := by
  induction more with
  | refl => exact answered
  | step _ ih => exact equalWithin_succ ih

/-- What the comparison says yes to is structurally equal, if the pairs that it assumes
correspond. -/
theorem similar_of_equalWithin (answered : equalWithin t fuel Γ a b = some true) :
    Similar t Γ a b := by
  induction fuel generalizing Γ a b with
  | zero => cases answered
  | succ fuel ih =>
      have compares := compares_equalWithin t fuel Γ a b
      rw [answered] at compares
      refine .discharge (compares.rule (fun Δ x y => ih) ?_)
      exact fun Δ Δ' x y wider similar => similar.widen wider

/-- The comparison does not say no to types that are structurally equal. -/
theorem equalWithin_ne_false (similar : Similar t Γ a b) (fewer : Γ ⊆ Γ') :
    equalWithin t fuel Γ' a b ≠ some false := by
  induction fuel generalizing Γ Γ' a b with
  | zero => exact nofun
  | succ fuel ih =>
      exact (compares_equalWithin t fuel Γ' a b).ne_false fewer similar.unfold
        fun Δ Δ' x y fewer similar => ih similar fewer

end Fuel

/-- The instantiated types that are met in the type come after their arguments, and the bodies
that are remembered of them are no instantiated types. -/
structure Layered (t : TypeTable) (id : TypeId) : Prop where
  precede : ∀ m, t.Meets id m → ∀ i, t.kind m = .instantiated i → ∀ a ∈ i.bindings.values, a < m
  bodies : ∀ m, t.Meets id m → ∀ i body, t.kind m = .instantiated i →
    t.resolved.find? (instantiationKey i) = some body → ¬t.IsInstance body

section Termination
variable {t : TypeTable} {fuel : Nat} {Γ Δ : Pairs} {a b x y : TypeId}

theorem Layered.of_meets (layered : Layered t a) (meets : t.Meets a x) : Layered t x where
  precede m below := layered.precede m (meets.trans below)
  bodies m below := layered.bodies m (meets.trans below)

/-- The body of a type is no instantiated type. -/
theorem Layered.plain_body (layered : Layered t a) (made : body? t a = some x) :
    ¬t.IsInstance x := by
  by_cases instantiated : t.IsInstance a
  · obtain ⟨i, entry⟩ := instantiated
    exact layered.bodies a .refl i x entry (body?_instantiated entry ▸ made)
  · obtain rfl := Option.some.inj ((body?_plain instantiated).symm.trans made)
    exact instantiated

/-- The pairs of entries that are not assumed. -/
def openPairs (t : TypeTable) (Γ : Pairs) : Finset (TypeId × TypeId) :=
  (Finset.range t.size ×ˢ Finset.range t.size) \ Γ.toFinset

/-- A pair of entries is used up when it is assumed. -/
theorem card_openPairs_lt (left : a < t.size) (right : b < t.size) (outside : (a, b) ∉ Γ)
    (wider : Γ ⊆ Δ) (member : (a, b) ∈ Δ) : (openPairs t Δ).card < (openPairs t Γ).card := by
  refine Finset.card_lt_card (Finset.ssubset_iff_of_subset ?_ |>.mpr ⟨(a, b), ?_, ?_⟩)
  · exact Finset.sdiff_subset_sdiff (Finset.Subset.refl _) (fun pair inside => by
      rw [List.mem_toFinset] at inside ⊢
      exact wider inside)
  · simp [openPairs, left, right, outside]
  · simp [openPairs, member]

/-- From two types of which neither is an instantiated one, a step uses up a pair. -/
theorem ComesTo.card_lt {own : Pairs} (comes : ComesTo t a b own x y) (plain : ¬t.IsInstance a)
    (plain' : ¬t.IsInstance b) (outside : (a, b) ∉ Γ) :
    (openPairs t (own ++ (a, b) :: Γ)).card < (openPairs t Γ).card := by
  have used {left right : TypeKind} (ha : t.kind a = left) (hb : t.kind b = right)
      (known : left ≠ .unknown) (known' : right ≠ .unknown) :
      (openPairs t (own ++ (a, b) :: Γ)).card < (openPairs t Γ).card := by
    refine card_openPairs_lt (lt_size_of_kind ha known) (lt_size_of_kind hb known') outside ?_ ?_
    · exact List.subset_append_of_subset_right _ (List.subset_cons_self _ _)
    · simp
  cases comes with
  | property ha hb | parameter ha hb | result ha hb => exact used ha hb (by simp) (by simp)
  | argument ha => exact absurd ⟨_, ha⟩ plain
  | bodies either => exact (either.elim plain plain').elim

theorem isSome_mono {fuel' : Nat} (more : fuel ≤ fuel')
    (answered : (equalWithin t fuel Γ a b).isSome = true) :
    (equalWithin t fuel' Γ a b).isSome = true := by
  obtain ⟨r, found⟩ := Option.isSome_iff_exists.mp answered
  exact Option.isSome_iff_exists.mpr ⟨r, equalWithin_mono more found⟩

/-- Between the pairs of objects and functions, the comparison descends through arguments, which
lie before, and at most once to bodies. -/
theorem isSome_of_plain
    (solid : ∀ x y, Layered t x → Layered t y → ¬t.IsInstance x → ¬t.IsInstance y →
      (equalWithin t fuel Γ x y).isSome = true)
    (descent : Nat) (left : Layered t a) (right : Layered t b)
    (below : t.IsInstance a → t.IsInstance b → a < descent) :
    (equalWithin t (fuel + 1 + descent) Γ a b).isSome = true := by
  by_cases plain : ¬t.IsInstance a ∧ ¬t.IsInstance b
  · exact isSome_mono (by omega) (solid a b left right plain.1 plain.2)
  induction descent generalizing a b with
  | zero =>
      refine (compares_equalWithin t fuel Γ a b).isSome
        (fun _ _ _ one two => (plain ⟨one, two⟩).elim) fun own x y either comes => ?_
      obtain ⟨meets, meets'⟩ := comes.meets
      cases comes with
      | argument ha hb => exact absurd (below ⟨_, ha⟩ ⟨_, hb⟩) (Nat.not_lt_zero a)
      | bodies _ ha hb =>
          exact solid x y (left.of_meets meets) (right.of_meets meets') (left.plain_body ha)
            (right.plain_body hb)
      | _ ha hb => simp [IsInstance, ha, hb] at either
  | succ descent ih =>
      refine (compares_equalWithin t (fuel + 1 + descent) Γ a b).isSome
        (fun _ _ _ one two => (plain ⟨one, two⟩).elim) fun own x y either comes => ?_
      obtain ⟨meets, meets'⟩ := comes.meets
      have left' := left.of_meets meets
      have right' := right.of_meets meets'
      by_cases plain' : ¬t.IsInstance x ∧ ¬t.IsInstance y
      · exact isSome_mono (by omega) (solid x y left' right' plain'.1 plain'.2)
      refine ih left' right' (fun instantiated _ => ?_) plain'
      cases comes with
      | argument ha hb _ listed =>
          have before := left.precede a .refl _ ha _ (List.of_mem_zip listed).1
          exact Nat.lt_of_lt_of_le before (Nat.lt_succ_iff.mp (below ⟨_, ha⟩ ⟨_, hb⟩))
      | bodies _ ha => exact absurd instantiated (left.plain_body ha)
      | _ ha hb => simp [IsInstance, ha, hb] at either

/-- The comparison ends, since it uses up the pairs of objects and functions. -/
theorem equalWithin_isSome (pairs : Nat) (left : Layered t a) (right : Layered t b)
    (bound : (openPairs t Γ).card < pairs) :
    (equalWithin t (pairs * (t.size + 3)) Γ a b).isSome = true := by
  induction pairs generalizing Γ a b with
  | zero => exact absurd bound (Nat.not_lt_zero _)
  | succ pairs ih =>
      have solid : ∀ x y, Layered t x → Layered t y → ¬t.IsInstance x → ¬t.IsInstance y →
          (equalWithin t (pairs * (t.size + 3) + 1) Γ x y).isSome = true := by
        intro x y left right plain plain'
        refine (compares_equalWithin t _ Γ x y).isSome (fun own x' y' _ _ outside comes => ?_)
          fun _ _ _ either => (either.elim plain plain').elim
        obtain ⟨meets, meets'⟩ := comes.meets
        have fewer := comes.card_lt plain plain' outside
        exact ih (left.of_meets meets) (right.of_meets meets') (by omega)
      refine isSome_mono ?_ (isSome_of_plain solid t.size left right fun ⟨i, entry⟩ _ => ?_)
      · rw [Nat.succ_mul]
        omega
      · exact lt_size_of_kind entry (by simp)

theorem searchDepth_le (t : TypeTable) (Γ : Pairs) :
    ((openPairs t Γ).card + 1) * (t.size + 3) ≤ searchDepth t := by
  have pairs : (openPairs t Γ).card ≤ t.size * t.size := by
    refine Nat.le_trans (Finset.card_le_card Finset.sdiff_subset) ?_
    simp
  have power : (t.size + 2) ^ 4 ≤ (t.size + 2) ^ 8 := Nat.pow_le_pow_right (by omega) (by omega)
  have square : (t.size * t.size + 1) * (t.size + 3) ≤ (t.size + 2) ^ 4 := by
    have expanded : (t.size + 2) ^ 2 = t.size * t.size + 4 * t.size + 4 := by
      rw [Nat.pow_two, Nat.add_mul, Nat.mul_add]
      omega
    have one : t.size * t.size + 1 ≤ (t.size + 2) ^ 2 := by omega
    have two : t.size + 3 ≤ (t.size + 2) ^ 2 := by omega
    calc (t.size * t.size + 1) * (t.size + 3) ≤ (t.size + 2) ^ 2 * (t.size + 2) ^ 2 :=
          Nat.mul_le_mul one two
      _ = (t.size + 2) ^ 4 := (Nat.pow_add _ 2 2).symm
  calc ((openPairs t Γ).card + 1) * (t.size + 3) ≤ (t.size * t.size + 1) * (t.size + 3) :=
        Nat.mul_le_mul_right _ (Nat.succ_le_succ pairs)
    _ ≤ (t.size + 2) ^ 8 := Nat.le_trans square power

/-- With this much fuel, or more, the comparison ends. -/
theorem equalWithin_searchDepth (left : Layered t a) (right : Layered t b)
    (enough : searchDepth t ≤ fuel) : equalWithin t fuel [] a b = some (t.equals a b) := by
  have ends := equalWithin_isSome (Γ := []) _ left right (Nat.lt_succ_self _)
  obtain ⟨r, answered⟩ := Option.isSome_iff_exists.mp ends
  have answer := equalWithin_mono (searchDepth_le t []) answered
  rw [equalWithin_mono enough answer, TypeTable.equals, answer, Option.getD_some]

/-- Equality is the greatest relation that is closed under the rules. -/
theorem equals_iff (left : Layered t a) (right : Layered t b) :
    t.equals a b = true ↔ Similar t [] a b := by
  have answer := equalWithin_searchDepth left right (Nat.le_refl _)
  constructor
  · exact fun yes => similar_of_equalWithin (answer.trans (congrArg some yes))
  · intro similar
    have accepted : equalWithin t (searchDepth t) [] a b ≠ some false :=
      equalWithin_ne_false similar (List.Subset.refl _)
    rw [answer] at accepted
    exact Bool.eq_true_of_not_eq_false fun no => accepted (congrArg some no)

end Termination

end Equality

end StructuralTyping
