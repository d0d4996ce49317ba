import StructuralTyping.Proofs.EqualBodies

/-! Equality as it would be if every instantiated type stood for its body and every type
parameter belonged to the innermost function that declares it. It is transitive: where the type
parameters of two functions correspond, and those of the second one and a third one, those of
the first and the third do. -/
namespace StructuralTyping.Equality

open TypeTable

/-- The type parameters correspond: the innermost pair with one of the two is the pair of them, or
there is none and they are the same. -/
def Correspond : Pairs → TypeId → TypeId → Prop
  | [], a, b => a = b
  | (p, q) :: rest, a, b => (a = p ∧ b = q) ∨ (a ≠ p ∧ b ≠ q ∧ Correspond rest a b)

/-- What corresponds in two steps. -/
def compose (Γ Δ : Pairs) : Pairs := List.zipWith (fun pair pair' => (pair.1, pair'.2)) Γ Δ

/-- What the pairs lead to is what the other pairs lead away from. -/
def Linked (Γ Δ : Pairs) : Prop := Γ.map Prod.snd = Δ.map Prod.fst

section Correspondence
variable {Γ Δ : Pairs} {a b c : TypeId}

/-- What corresponds is the same or is paired. -/
theorem Correspond.eq_or_mem (correspond : Correspond Γ a b) : a = b ∨ (a, b) ∈ Γ := by
  induction Γ with
  | nil => exact .inl correspond
  | cons pair rest ih =>
      obtain ⟨p, q⟩ := pair
      rcases correspond with ⟨rfl, rfl⟩ | ⟨-, -, later⟩
      · exact .inr List.mem_cons_self
      · exact (ih later).imp_right (List.mem_cons_of_mem _)

theorem Correspond.trans (linked : Linked Γ Δ) (one : Correspond Γ a b) (two : Correspond Δ b c) :
    Correspond (compose Γ Δ) a c := by
  induction Γ generalizing Δ with
  | nil =>
      obtain rfl : Δ = [] := List.map_eq_nil_iff.mp linked.symm
      exact Eq.trans one two
  | cons pair rest ih =>
      cases Δ with
      | nil => cases linked
      | cons pair' rest' =>
          obtain ⟨p, q⟩ := pair
          obtain ⟨q', r⟩ := pair'
          obtain ⟨between, rest⟩ := List.cons.inj linked
          obtain rfl : q = q' := between
          rcases one with ⟨here, there⟩ | ⟨away, elsewhere, one⟩
          · rcases two with ⟨-, further⟩ | ⟨gone, -⟩
            · exact .inl ⟨here, further⟩
            · exact absurd there gone
          · rcases two with ⟨there, -⟩ | ⟨-, beyond, two⟩
            · exact absurd there elsewhere
            · exact .inr ⟨away, beyond, ih rest one two⟩

theorem Linked.append {xs ys zs : List TypeId} (linked : Linked Γ Δ)
    (length : xs.length = ys.length) (length' : ys.length = zs.length) :
    Linked (xs.zip ys ++ Γ) (ys.zip zs ++ Δ) := by
  rw [Linked, List.map_append, List.map_append, linked, List.map_snd_zip (Nat.le_of_eq length.symm),
    List.map_fst_zip (Nat.le_of_eq length')]

theorem compose_append {xs ys zs : List TypeId} (length : xs.length = ys.length)
    (length' : ys.length = zs.length) :
    compose (xs.zip ys ++ Γ) (ys.zip zs ++ Δ) = xs.zip zs ++ compose Γ Δ := by
  induction xs generalizing ys zs with
  | nil =>
      obtain rfl := List.length_eq_zero_iff.mp length.symm
      obtain rfl := List.length_eq_zero_iff.mp length'.symm
      rfl
  | cons x xs ih =>
      obtain ⟨y, ys, rfl⟩ := List.exists_cons_of_length_eq_add_one length.symm
      obtain ⟨z, zs, rfl⟩ := List.exists_cons_of_length_eq_add_one length'.symm
      have later := ih (Nat.succ.inj length) (Nat.succ.inj length')
      exact congrArg ((x, z) :: ·) later

end Correspondence

/-- One step of the rules with bodies in the places of instantiated types and with type
parameters in their scopes. -/
inductive ExpandedRule (t : TypeTable) (R : Pairs → TypeId → TypeId → Prop) (Γ : Pairs)
    (a b : TypeId) : Prop
  | parameter (left : t.flag a = .typeParameter) (right : t.flag b = .typeParameter)
      (correspond : Correspond Γ a b)
  | rigid (equal : a = b) (rigid : t.flag a = .generic ∨ t.flag a = .pending)
  | primitive {p : Primitive} (left : t.kind a = .primitive p) (right : t.kind b = .primitive p)
  | unknown (left : t.kind a = .unknown) (right : t.kind b = .unknown)
  | object {x y : ObjectType} (left : t.kind a = .object x) (right : t.kind b = .object y)
      (rule : ObjectRule (R Γ) x y)
  | function {x y : FunctionType} (left : t.kind a = .function x) (right : t.kind b = .function y)
      (rule : FunctionRule (R (x.typeParameters.zip y.typeParameters ++ Γ)) x y)
  | bodies {x y : TypeId} (instantiated : t.IsInstance a ∨ t.IsInstance b)
      (left : body? t a = some x) (right : body? t b = some y) (rule : R Γ x y)

/-- The types are structurally equal once every instantiated type in them is expanded. -/
def Equivalent (t : TypeTable) (Γ : Pairs) (a b : TypeId) : Prop :=
  ∃ R : Pairs → TypeId → TypeId → Prop, (∀ Δ x y, R Δ x y → ExpandedRule t R Δ x y) ∧ R Γ a b

section Transitivity
variable {t : TypeTable} {Γ Δ : Pairs} {a b c : TypeId}
  {R R' S : Pairs → TypeId → TypeId → Prop}

theorem ExpandedRule.mono (within : ∀ Δ x y, R Δ x y → S Δ x y) (rule : ExpandedRule t R Γ a b) :
    ExpandedRule t S Γ a b := by
  cases rule with
  | parameter ha hb correspond => exact .parameter ha hb correspond
  | rigid equal rigid => exact .rigid equal rigid
  | primitive ha hb => exact .primitive ha hb
  | unknown ha hb => exact .unknown ha hb
  | object ha hb rule => exact .object ha hb (rule.imp fun _ _ _ _ _ => within _ _ _)
  | function ha hb rule =>
      exact .function ha hb (rule.imp (fun _ _ => within _ _ _) (within _ _ _))
  | bodies instantiated ha hb related => exact .bodies instantiated ha hb (within _ _ _ related)

theorem Equivalent.unfold (equivalent : Equivalent t Γ a b) :
    ExpandedRule t (Equivalent t) Γ a b := by
  obtain ⟨R, closed, related⟩ := equivalent
  exact (closed Γ a b related).mono fun Δ x y here => ⟨R, closed, here⟩

/-- Equivalent types have equivalent bodies. -/
theorem Equivalent.bodies (equivalent : Equivalent t Γ a b) :
    ∃ x y, body? t a = some x ∧ body? t b = some y ∧ Equivalent t Γ x y := by
  by_cases instantiated : t.IsInstance a ∨ t.IsInstance b
  · have rule := equivalent.unfold
    cases rule with
    | bodies _ ha hb related => exact ⟨_, _, ha, hb, related⟩
    | parameter ha hb =>
        rcases instantiated with ⟨i, entry⟩ | ⟨i, entry⟩
        · simp [flag, entry, TypeKind.flag] at ha
        · simp [flag, entry, TypeKind.flag] at hb
    | rigid equal rigid =>
        subst equal
        obtain ⟨i, entry⟩ := or_self_iff.mp instantiated
        simp [flag, entry, TypeKind.flag] at rigid
    | _ ha hb => simp [IsInstance, ha, hb] at instantiated
  · obtain ⟨plain, plain'⟩ := not_or.mp instantiated
    exact ⟨a, b, body?_plain plain, body?_plain plain', equivalent⟩

theorem ObjectRule.trans {P Q : TypeId → TypeId → Prop} {x y z : ObjectType}
    (one : ObjectRule P x y) (two : ObjectRule Q y z) :
    ObjectRule (fun a c => ∃ b, P a b ∧ Q b c) x z where
  size := one.size.trans two.size
  properties name p listed := by
    obtain ⟨q, found, optional, related⟩ := one.properties name p listed
    obtain ⟨r, found', optional', related'⟩ :=
      two.properties name q (Dictionary.mem_of_find? found)
    exact ⟨r, found', optional.trans optional', q.type, related, related'⟩

theorem FunctionRule.trans {P Q : TypeId → TypeId → Prop} {x y z : FunctionType}
    (one : FunctionRule P x y) (two : FunctionRule Q y z) :
    FunctionRule (fun a c => ∃ b, P a b ∧ Q b c) x z where
  declared := one.declared.trans two.declared
  arity := one.arity.trans two.arity
  parameters pair listed := by
    obtain ⟨q, listed, listed'⟩ := exists_between one.arity two.arity listed
    obtain ⟨optional, related⟩ := one.parameters _ listed
    obtain ⟨optional', related'⟩ := two.parameters _ listed'
    exact ⟨optional.trans optional', q.type, related, related'⟩
  result := ⟨y.returnType, one.result, two.result⟩

/-- Related in two steps, the one after the other. -/
def Chained (R R' : Pairs → TypeId → TypeId → Prop) (Λ : Pairs) (a c : TypeId) : Prop :=
  ∃ Γ Δ b, Λ = compose Γ Δ ∧ Linked Γ Δ ∧ R Γ a b ∧ R' Δ b c

/-- Where no body stands for a type, the rules for the two steps are of one kind and make up a
rule for both. -/
theorem ExpandedRule.trans (linked : Linked Γ Δ) (plain : ¬t.IsInstance a)
    (plain' : ¬t.IsInstance b) (plain'' : ¬t.IsInstance c) (one : ExpandedRule t R Γ a b) (two : ExpandedRule t R' Δ b c) :
    ExpandedRule t (Chained R R') (compose Γ Δ) a c := by
  have chained {Γ Δ : Pairs} {x z : TypeId} (linked : Linked Γ Δ)
      (steps : ∃ y, R Γ x y ∧ R' Δ y z) : Chained R R' (compose Γ Δ) x z := by
    obtain ⟨y, related, related'⟩ := steps
    exact ⟨Γ, Δ, y, rfl, linked, related, related'⟩
  cases one with
  | bodies instantiated => exact (instantiated.elim plain plain').elim
  | parameter ha hb correspond =>
      cases two with
      | bodies instantiated => exact (instantiated.elim plain' plain'').elim
      | parameter _ hc correspond' => exact .parameter ha hc (correspond.trans linked correspond')
      | _ => simp_all [flag, TypeKind.flag]
  | rigid equal rigid =>
      subst equal
      cases two with
      | bodies instantiated => exact (instantiated.elim plain' plain'').elim
      | rigid equal' => exact .rigid equal' rigid
      | _ => simp_all [flag, TypeKind.flag]
  | primitive ha hb =>
      cases two with
      | bodies instantiated => exact (instantiated.elim plain' plain'').elim
      | primitive hb' hc =>
          cases hb.symm.trans hb'
          exact .primitive ha hc
      | _ => simp_all [flag, TypeKind.flag]
  | unknown ha hb =>
      cases two with
      | bodies instantiated => exact (instantiated.elim plain' plain'').elim
      | unknown _ hc => exact .unknown ha hc
      | _ => simp_all [flag, TypeKind.flag]
  | object ha hb rule =>
      cases two with
      | bodies instantiated => exact (instantiated.elim plain' plain'').elim
      | object hb' hc rule' =>
          cases hb.symm.trans hb'
          exact .object ha hc ((rule.trans rule').imp fun _ _ _ _ _ => chained linked)
      | _ => simp_all [flag, TypeKind.flag]
  | function ha hb rule =>
      cases two with
      | bodies instantiated => exact (instantiated.elim plain' plain'').elim
      | function hb' hc rule' =>
          cases hb.symm.trans hb'
          have linked' := linked.append rule.declared rule'.declared
          refine .function ha hc ?_
          rw [← compose_append rule.declared rule'.declared]
          exact (rule.trans rule').imp (fun _ _ => chained linked') (chained linked')
      | _ => simp_all [flag, TypeKind.flag]

/-- Equivalence is transitive where the type parameters correspond one after the other. -/
theorem Equivalent.trans (layered : ∀ id, Layered t id) (linked : Linked Γ Δ)
    (one : Equivalent t Γ a b) (two : Equivalent t Δ b c) : Equivalent t (compose Γ Δ) a c := by
  refine ⟨Chained (Equivalent t) (Equivalent t), ?_, Γ, Δ, b, rfl, linked, one, two⟩
  rintro Λ a c ⟨Γ, Δ, b, rfl, linked, one, two⟩
  -- The body of an instantiated type in the middle is the middle of the bodies.
  obtain ⟨x, y, ha, hb, one⟩ := one.bodies
  obtain ⟨y', z, hb', hc, two⟩ := two.bodies
  obtain rfl := Option.some.inj (hb.symm.trans hb')
  by_cases instantiated : t.IsInstance a ∨ t.IsInstance c
  · exact .bodies instantiated ha hc ⟨Γ, Δ, y, rfl, linked, one, two⟩
  · obtain ⟨plain, plain'⟩ := not_or.mp instantiated
    obtain rfl := Option.some.inj ((body?_plain plain).symm.trans ha)
    obtain rfl := Option.some.inj ((body?_plain plain').symm.trans hc)
    exact one.unfold.trans linked plain ((layered b).plain_body hb) plain' two.unfold

end Transitivity

end StructuralTyping.Equality
