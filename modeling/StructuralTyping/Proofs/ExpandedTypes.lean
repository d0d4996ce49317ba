import StructuralTyping.Proofs.Expansion
import StructuralTyping.Proofs.StructuralRules

/-! Types with finite expansions. Their comparison decides the structural relation of
the trees, cut off below a number of nested expansions. The shortcut over the
arguments of two instances never says more than the bodies do: the bodies are one
pattern under two environments, and a pattern keeps whatever its environments
have in common. -/
namespace StructuralTyping

open Assignability

namespace Tree

variable {strict : Bool} {limit : Nat} {s t : Tree}

theorem relatedUpTo_iff_rule (whole : s.isInstance = false) (whole' : t.isInstance = false) :
    RelatedUpTo strict limit s t ↔ Rule strict (RelatedUpTo strict limit) s t := by
  rw [relatedUpTo_iff]
  simp [Spent, left, whole, whole']

/-- To expand both sides first relates no less. -/
theorem RelatedUpTo.of_body (related : RelatedUpTo strict limit s.body t.body) :
    RelatedUpTo strict limit s t := by
  rw [relatedUpTo_iff]
  by_cases spent : Spent limit s t
  · exact .inl spent
  · right
    have fewer : left limit s t ≤ limit := by
      unfold left
      split <;> omega
    have rule := (relatedUpTo_iff_rule (isInstance_body s) (isInstance_body t)).mp
      (related.of_le fewer)
    exact (rule_body _).mp rule

/-- Related, and both ways if strict: how arguments fit for the shortcut. -/
def Fits (strict : Bool) (limit : Nat) (s t : Tree) : Prop :=
  RelatedUpTo strict limit s t ∧ (strict = true → RelatedUpTo strict limit t s)

theorem relatedUpTo_object {given expected : List (String × Bool × Tree)}
    (distinct : (given.map Prod.fst).Nodup)
    (pairs : List.Forall₂ (fun p q => q.1 = p.1 ∧ q.2.1 = p.2.1 ∧
      RelatedUpTo strict limit p.2.2 q.2.2) given expected) :
    RelatedUpTo strict limit (object given) (object expected) := by
  refine (relatedUpTo_iff_rule rfl rfl).mpr fun q wanted => ?_
  obtain ⟨p, listed, name, optional, related⟩ := forall₂_left pairs.flip q wanted
  have found : Dictionary.findIn? q.1 given = some p.2 :=
    Dictionary.findIn?_of_mem distinct (name ▸ listed)
  rw [found]
  exact ⟨fun given => optional.trans given, related⟩

theorem required_eq {parameters : List Parameter} {trees : List (Bool × Tree)}
    (optional : List.Forall₂ (fun p q => q.1 = p.optional) parameters trees) :
    required trees =
      (parameters.reverse.dropWhile fun parameter => parameter.optional).length := by
  have flags : trees.map Prod.fst = parameters.map Parameter.optional := by
    induction optional with
    | nil => rfl
    | cons same _ ih => rw [List.map_cons, List.map_cons, same, ih]
  have written : required trees = ((trees.map Prod.fst).reverse.dropWhile id).length := by
    rw [required, ← List.map_reverse, List.dropWhile_map, List.length_map]
    rfl
  rw [written, flags, ← List.map_reverse, List.dropWhile_map, List.length_map]
  rfl

theorem relatedUpTo_function {given expected : List (Bool × Tree)} {r r' : Tree}
    (pairs : List.Forall₂ (fun p q => q.1 = p.1 ∧ Fits strict limit p.2 q.2) given expected)
    (result : RelatedUpTo strict limit r r') :
    RelatedUpTo strict limit (function given r) (function expected r') := by
  refine (relatedUpTo_iff_rule rfl rfl).mpr ⟨?_, fun pair member => ?_, .inr result⟩
  · rw [← pairs.length_eq]
    exact (List.dropWhile_sublist _).length_le.trans_eq (List.length_reverse)
  · have fits := ((List.forall₂_iff_zip.mp pairs).2 member).2
    cases strict with
    | true => exact .inl (fits.2 rfl)
    | false => exact .inr ⟨rfl, fits.1⟩

theorem fits_primitive (name : Primitive) :
    Fits strict limit (primitive name) (primitive name) :=
  ⟨(relatedUpTo_iff_rule rfl rfl).mpr rfl, fun _ => (relatedUpTo_iff_rule rfl rfl).mpr rfl⟩

theorem fits_wildcard : Fits strict limit wildcard wildcard :=
  ⟨(relatedUpTo_iff_rule rfl rfl).mpr trivial, fun _ => (relatedUpTo_iff_rule rfl rfl).mpr trivial⟩

theorem Fits.of_body (fits : Fits strict limit s.body t.body) : Fits strict limit s t :=
  ⟨fits.1.of_body, fun isStrict => (fits.2 isStrict).of_body⟩

theorem fits_object {given expected : List (String × Bool × Tree)}
    (distinct : (given.map Prod.fst).Nodup) (distinct' : (expected.map Prod.fst).Nodup)
    (pairs : List.Forall₂ (fun p q => q.1 = p.1 ∧ q.2.1 = p.2.1 ∧ Fits strict limit p.2.2 q.2.2)
      given expected) : Fits strict limit (object given) (object expected) := by
  refine ⟨relatedUpTo_object distinct (pairs.imp fun p q same => ⟨same.1, same.2.1, same.2.2.1⟩),
    fun isStrict => relatedUpTo_object distinct' ?_⟩
  exact pairs.flip.imp fun p q same => ⟨same.1.symm, same.2.1.symm, same.2.2.2 isStrict⟩

theorem fits_function {given expected : List (Bool × Tree)} {r r' : Tree}
    (pairs : List.Forall₂ (fun p q => q.1 = p.1 ∧ Fits strict limit p.2 q.2) given expected)
    (result : Fits strict limit r r') :
    Fits strict limit (function given r) (function expected r') := by
  refine ⟨relatedUpTo_function pairs result.1, fun isStrict => ?_⟩
  refine relatedUpTo_function ?_ (result.2 isStrict)
  exact pairs.flip.imp fun p q same => ⟨same.1.symm, same.2.2 isStrict, fun _ => same.2.1⟩

end Tree

section Parametricity
variable {strict : Bool} {limit : Nat} {table : TypeTable} {env env' : Environment} {id : TypeId}
  {s t : Tree}

open StructuralTyping.Tree

theorem eq_none_of_rel {α β : Type} {R : α → β → Prop} {x : Option α} {y : Option β}
    (related : Option.Rel R x y) (absent : x = none) : y = none := by
  subst absent
  cases related
  rfl

/-- A pattern keeps what its environments have in common. -/
theorem Expands.fits (first : Expands table env id s) (second : Expands table env' id t)
    (environments : ∀ p, Option.Rel (Fits strict limit) (env p) (env' p)) :
    Fits strict limit s t := by
  induction first generalizing env' t with
  | @bound env id s found =>
      have here := environments id
      rw [found] at here
      cases given : env' id with
      | none =>
          rw [given] at here
          cases here
      | some t' =>
          rw [given] at here
          cases here with
          | some fits => exact second.unique (.bound given) ▸ fits
  | primitive free kind =>
      have free' := eq_none_of_rel (environments _) free
      rw [second.unique (.primitive free' kind)]
      exact fits_primitive _
  | wildcard free inside wild =>
      have free' := eq_none_of_rel (environments _) free
      rw [second.unique (.wildcard free' inside wild)]
      exact fits_wildcard
  | @object env id o given free kind distinct length names parts ih =>
      have free' := eq_none_of_rel (environments _) free
      cases second with
      | bound found => simp [free'] at found
      | @object _ _ o' expected _ kind' distinct' length' names' parts' =>
          obtain rfl := TypeKind.object.inj (kind.symm.trans kind')
          have keys {trees : List (String × Bool × Tree)}
              (length : o.properties.pairs.length = trees.length)
              (names : ∀ p q, (p, q) ∈ o.properties.pairs.zip trees →
                q.1 = p.1 ∧ q.2.1 = p.2.optional) : (trees.map Prod.fst).Nodup := by
            rw [keys_eq_of_forall₂ (List.forall₂_iff_zip.mpr ⟨length, fun {p q} member =>
              (names p q member).1⟩)]
            exact distinct
          refine fits_object (keys length names) (keys length' names')
            (forall₂_of_zip length length' fun p x y member member' => ⟨?_, ?_, ?_⟩)
          · exact (names' p y member').1.trans (names p x member).1.symm
          · exact (names' p y member').2.trans (names p x member).2.symm
          · exact ih p x member (parts' p y member') environments
      | _ => simp_all [TypeTable.isWildcard, TypeTable.flag, TypeKind.flag, TypeFlag.isWildcard]
  | @function env id f given r free kind plain length optional parts returns ih ih' =>
      have free' := eq_none_of_rel (environments _) free
      cases second with
      | bound found => simp [free'] at found
      | @function _ _ f' expected r' _ kind' plain' length' optional' parts' returns' =>
          obtain rfl := TypeKind.function.inj (kind.symm.trans kind')
          refine fits_function (forall₂_of_zip length length' fun p x y member member' => ⟨?_, ?_⟩)
            (ih' returns' environments)
          · exact (optional' p y member').trans (optional p x member).symm
          · exact ih p x member (parts' p y member') environments
      | _ => simp_all [TypeTable.isWildcard, TypeTable.flag, TypeKind.flag, TypeFlag.isWildcard]
  | @expansion env id i g given inner free kind origin _ ready arity length parts body whole ih ih' =>
      have free' := eq_none_of_rel (environments _) free
      cases second with
      | bound found => simp [free'] at found
      | @expansion _ _ i' g' expected inner' _ kind' origin' _ ready' arity' length' parts' body' whole' =>
          obtain rfl := TypeKind.instantiated.inj (kind.symm.trans kind')
          obtain rfl := TypeKind.generic.inj (origin.symm.trans origin')
          have supplied : List.Forall₂ (Fits strict limit) given expected :=
            forall₂_of_zip length length' fun a x y member member' =>
              ih a x member (parts' a y member') environments
          refine Fits.of_body ?_
          rw [Tree.body, Tree.body, body_of_not_isInstance whole, body_of_not_isInstance whole']
          exact ih' body' (rel_find?_zip g.typeParameters supplied)
      | _ => simp_all [TypeTable.isWildcard, TypeTable.flag, TypeKind.flag, TypeFlag.isWildcard]

end Parametricity

section Rules
variable {strict : Bool} {limit : Nat} {table : TypeTable} {a b : TypeId} {s t : Tree}

open StructuralTyping.Tree

/-- The types have trees that are related. -/
def TreesRelated (strict : Bool) (limit : Nat) (table : TypeTable) (a b : TypeId) : Prop :=
  ∃ s t, Expands table .empty a s ∧ Expands table .empty b t ∧ RelatedUpTo strict limit s t

theorem treesRelated_iff (hs : Expands table .empty a s) (ht : Expands table .empty b t) :
    TreesRelated strict limit table a b ↔ RelatedUpTo strict limit s t := by
  constructor
  · rintro ⟨s', t', hs', ht', related⟩
    rwa [hs.unique hs', ht.unique ht']
  · exact fun related => ⟨s, t, hs, ht, related⟩

theorem forall_iff_of_forall₂ {α β : Type} {R : α → β → Prop} {P : α → Prop} {Q : β → Prop}
    {xs : List α} {ys : List β} (pairs : List.Forall₂ R xs ys)
    (each : ∀ a b, R a b → (P a ↔ Q b)) : (∀ a ∈ xs, P a) ↔ ∀ b ∈ ys, Q b := by
  induction pairs with
  | nil => simp
  | cons here _ ih => rw [List.forall_mem_cons, List.forall_mem_cons, each _ _ here, ih]

theorem forall₂_zip {α β γ δ : Type} {R : α → β → Prop} {S : γ → δ → Prop} {xs : List α}
    {ys : List β} {zs : List γ} {ws : List δ} (one : List.Forall₂ R xs ys)
    (two : List.Forall₂ S zs ws) :
    List.Forall₂ (fun p q => R p.1 q.1 ∧ S p.2 q.2) (xs.zip zs) (ys.zip ws) := by
  induction one generalizing zs ws with
  | nil => simp
  | cons here _ ih =>
      cases two with
      | nil => simp
      | cons here' rest => exact .cons ⟨here, here'⟩ (ih rest)

theorem objectRule_iff {o : ObjectType} {pairs : List (String × Property)}
    {given expected : List (String × Bool × Tree)}
    (first : Fields (Expands table .empty) o.properties.pairs given)
    (second : Fields (Expands table .empty) pairs expected) :
    ObjectRule (TreesRelated strict limit table) o pairs ↔
      Tree.Rule strict (RelatedUpTo strict limit) (object given) (object expected) := by
  refine forall_iff_of_forall₂ second fun p q same => ?_
  have found := rel_findIn? (R := fun (p : Property) (q : Bool × Tree) =>
    q.1 = p.optional ∧ Expands table .empty p.type q.2) p.1 first
  rw [PropertyRule, ObjectType.property?, Dictionary.find?, same.1]
  generalize Dictionary.findIn? p.1 o.properties.pairs = x at found
  generalize Dictionary.findIn? p.1 given = y at found
  cases found with
  | none => simp [same.2.1]
  | some here => simp [treesRelated_iff here.2 same.2.2, same.2.1, here.1]

theorem isPrimitive_iff (ht : Expands table .empty b t) (name : Primitive) :
    table.isPrimitive b name = true ↔ t = .primitive name := by
  constructor
  · intro found
    rw [TypeTable.isPrimitive] at found
    split at found
    · next p kind =>
        have same : p = name := by simpa using found
        exact ht.unique (.primitive rfl (same ▸ kind))
    · simp at found
  · rintro rfl
    cases ht with
    | bound found => cases found
    | primitive _ kind => simp [TypeTable.isPrimitive, kind]

theorem functionRule_iff {f f' : FunctionType} {given expected : List (Bool × Tree)} {r r' : Tree}
    (first : Slots (Expands table .empty) f.parameters given)
    (second : Slots (Expands table .empty) f'.parameters expected)
    (returns : Expands table .empty f.returnType r)
    (returns' : Expands table .empty f'.returnType r') :
    FunctionRule strict table (TreesRelated strict limit table) f f' ↔
      Tree.Rule strict (RelatedUpTo strict limit) (function given r) (function expected r') := by
  have arity : f.minArgumentCount = required given :=
    (required_eq (first.imp fun _ _ slot => slot.1)).symm
  have parameters := forall_iff_of_forall₂ (forall₂_zip first second)
    (P := fun pair => ParameterRule strict (TreesRelated strict limit table) pair.1.type pair.2.type)
    (Q := fun pair => RelatedUpTo strict limit pair.2.2 pair.1.2 ∨
      (strict = false ∧ RelatedUpTo strict limit pair.1.2 pair.2.2)) fun p q same => by
        rw [ParameterRule, treesRelated_iff same.2.2 same.1.2, treesRelated_iff same.1.2 same.2.2]
  rw [FunctionRule, arity, parameters, isPrimitive_iff returns', treesRelated_iff returns returns',
    second.length_eq]
  rfl

/-- The rule for two bodies is the rule for their trees. -/
theorem structureRule_iff {target : TypeId} (hs : Expands table .empty a s)
    (ht : Expands table .empty b t) (whole : s.isInstance = false) (whole' : t.isInstance = false)
    (solid : table.isWildcard a = false) (solid' : table.isWildcard b = false) :
    StructureRule strict table (TreesRelated strict limit table) target a b ↔
      Tree.Rule strict (RelatedUpTo strict limit) s t := by
  obtain ⟨name, rfl, kind⟩ | ⟨o, given, rfl, kind, fields⟩ | ⟨f, given, r, rfl, kind, -, slots, returns⟩ :=
    hs.solid whole solid
  · obtain ⟨name', rfl, kind'⟩ | ⟨o', expected, rfl, kind', -⟩ | ⟨f', expected, r', rfl, kind', -⟩ :=
      ht.solid whole' solid'
    · simp [StructureRule, kind, kind', Tree.Rule, Tree.body]
    · simp [StructureRule, kind, kind', Tree.Rule, Tree.body]
    · simp [StructureRule, kind, kind', Tree.Rule, Tree.body]
  · obtain ⟨name', rfl, kind'⟩ | ⟨o', expected, rfl, kind', fields'⟩ |
        ⟨f', expected, r', rfl, kind', -⟩ := ht.solid whole' solid'
    · simp [StructureRule, kind, kind', Tree.Rule, Tree.body]
    · rw [StructureRule, kind, kind']
      exact objectRule_iff fields fields'
    · simp [StructureRule, kind, kind', Tree.Rule, Tree.body]
  · obtain ⟨name', rfl, kind'⟩ | ⟨o', expected, rfl, kind', -⟩ |
        ⟨f', expected, r', rfl, kind', -, slots', returns'⟩ := ht.solid whole' solid'
    · simp [StructureRule, kind, kind', Tree.Rule, Tree.body]
    · simp [StructureRule, kind, kind', Tree.Rule, Tree.body]
    · rw [StructureRule, kind, kind']
      exact functionRule_iff slots slots' returns returns'

theorem property_smaller {o : ObjectType} {name : String} {p : Property}
    (hs : Expands table .empty a s) (kind : table.kind a = .object o)
    (member : (name, p) ∈ o.properties.pairs) :
    ∃ tree, Expands table .empty p.type tree ∧ sizeOf tree < sizeOf s := by
  obtain ⟨trees, rfl, fields⟩ := hs.of_kind_object kind
  obtain ⟨q, listed, -, -, expands⟩ := forall₂_left fields _ member
  exact ⟨q.2.2, expands, sizeOf_property listed⟩

theorem parameter_smaller {f : FunctionType} {p : Parameter} (hs : Expands table .empty a s)
    (kind : table.kind a = .function f) (member : p ∈ f.parameters) :
    ∃ tree, Expands table .empty p.type tree ∧ sizeOf tree < sizeOf s := by
  obtain ⟨trees, r, rfl, -, slots, -⟩ := hs.of_kind_function kind
  obtain ⟨q, listed, -, expands⟩ := forall₂_left slots _ member
  exact ⟨q.2, expands, sizeOf_parameter listed⟩

theorem result_smaller {f : FunctionType} (hs : Expands table .empty a s)
    (kind : table.kind a = .function f) :
    ∃ tree, Expands table .empty f.returnType tree ∧ sizeOf tree < sizeOf s := by
  obtain ⟨trees, r, rfl, -, -, returns⟩ := hs.of_kind_function kind
  exact ⟨r, returns, sizeOf_result trees r⟩

/-- The pairs that are compared next have smaller trees. -/
theorem subpair_smaller {target x y : TypeId} (hs : Expands table .empty a s)
    (ht : Expands table .empty b t) (subpair : Subpair table target a b x y) :
    ∃ sx ty, Expands table .empty x sx ∧ Expands table .empty y ty ∧
      sizeOf sx + sizeOf ty < sizeOf s + sizeOf t := by
  cases subpair with
  | bound kind => exact absurd kind (hs.kind_ne_typeParameter _ _)
  | property kind kind' wanted found =>
      obtain ⟨p, expands, smaller⟩ := property_smaller hs kind (Dictionary.mem_of_find? found)
      obtain ⟨q, expands', smaller'⟩ := property_smaller ht kind' wanted
      exact ⟨p, q, expands, expands', Nat.add_lt_add smaller smaller'⟩
  | parameter kind kind' paired =>
      obtain ⟨listed, listed'⟩ := List.of_mem_zip paired
      obtain ⟨p, expands, smaller⟩ := parameter_smaller hs kind listed
      obtain ⟨q, expands', smaller'⟩ := parameter_smaller ht kind' listed'
      exact ⟨p, q, expands, expands', Nat.add_lt_add smaller smaller'⟩
  | parameterBack kind kind' paired =>
      obtain ⟨listed, listed'⟩ := List.of_mem_zip paired
      obtain ⟨p, expands, smaller⟩ := parameter_smaller hs kind listed
      obtain ⟨q, expands', smaller'⟩ := parameter_smaller ht kind' listed'
      exact ⟨q, p, expands', expands, Nat.add_comm _ _ ▸ Nat.add_lt_add smaller smaller'⟩
  | result kind kind' =>
      obtain ⟨r, expands, smaller⟩ := result_smaller hs kind
      obtain ⟨r', expands', smaller'⟩ := result_smaller ht kind'
      exact ⟨r, r', expands, expands', Nat.add_lt_add smaller smaller'⟩

end Rules

end StructuralTyping
