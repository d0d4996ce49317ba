import StructuralTyping.Proofs.EqualityHistory
import StructuralTyping.Proofs.PlainEquality

/-! Instances of one interface whose arguments are equal have equal bodies. Their bodies have
been made of the same declaration, so they agree wherever no type parameter of the interface
stands, and where one stands they have the arguments. -/
namespace StructuralTyping

open Equality TypeTable

/-- What a map makes the same of two lists, it makes the same of the items at each place. -/
theorem eq_of_mem_zip {α β γ : Type} {f : α → γ} {g : β → γ} {xs : List α} {ys : List β}
    (same : xs.map f = ys.map g) : ∀ pair ∈ xs.zip ys, f pair.1 = g pair.2 := by
  intro pair listed
  obtain ⟨i, inside, rfl⟩ := List.mem_iff_getElem.mp listed
  rw [List.length_zip] at inside
  have here := congrArg (·[i]?) same
  simpa [List.getElem?_eq_getElem (show i < xs.length by omega),
    List.getElem?_eq_getElem (show i < ys.length by omega)] using here

/-- What stands between two lists of one length. -/
theorem exists_between {α β γ : Type} {xs : List α} {ys : List β} {zs : List γ} {x : α} {z : γ}
    (length : xs.length = ys.length) (length' : ys.length = zs.length)
    (listed : (x, z) ∈ xs.zip zs) : ∃ y, (x, y) ∈ xs.zip ys ∧ (y, z) ∈ ys.zip zs := by
  obtain ⟨i, inside, here⟩ := List.mem_iff_getElem.mp listed
  rw [List.length_zip] at inside
  rw [List.getElem_zip, Prod.mk.injEq] at here
  have between : i < ys.length := by omega
  refine ⟨ys[i], List.mem_iff_getElem.mpr ⟨i, ?_, ?_⟩, List.mem_iff_getElem.mpr ⟨i, ?_, ?_⟩⟩
  · rw [List.length_zip]
    omega
  · rw [List.getElem_zip, here.1]
  · rw [List.length_zip]
    omega
  · rw [List.getElem_zip, here.2]

theorem mem_zip_swap {α β : Type} {xs : List α} {ys : List β} {x : α} {y : β}
    (listed : (x, y) ∈ xs.zip ys) : (y, x) ∈ ys.zip xs := by
  rw [← List.zip_swap]
  exact List.mem_map_of_mem listed

namespace TypeKind

/-- The types in two functions stand side by side, the results last. -/
theorem zip_parts_function {x y : FunctionType}
    (arity : x.parameters.length = y.parameters.length) :
    (function x).parts.zip (function y).parts =
      (x.parameters.zip y.parameters).map (fun pair => (pair.1.type, pair.2.type)) ++
        [(x.returnType, y.returnType)] := by
  rw [parts, parts, List.zip_append (by simpa using arity), List.zip_map]
  rfl

end TypeKind

namespace Equality

section Shapes
variable {t : TypeTable} {R : Pairs → TypeId → TypeId → Prop} {Γ : Pairs} {a b : TypeId}

/-- Where the entries have one shape and their parts are related, there is a rule, unless they
have nothing to compare. -/
theorem Rule.of_shape (distinct : t.DistinctProperties)
    (shape : (t.kind b).shape = (t.kind a).shape)
    (declared : (t.kind a).binders.length = (t.kind b).binders.length)
    (rigid : t.flag a = .typeParameter ∨ t.flag a = .generic ∨ t.flag a = .pending → a = b)
    (parts : ∀ pair ∈ (t.kind a).parts.zip (t.kind b).parts,
      R ((t.kind a).binders.zip (t.kind b).binders ++ Γ) pair.1 pair.2) : Rule t R Γ a b := by
  have flag := congrArg TypeKind.flag shape
  rw [TypeKind.flag_shape, TypeKind.flag_shape] at flag
  cases ha : t.kind a with
  | typeParameter | generic | pending =>
      exact .same (rigid (by simp [TypeTable.flag, ha, TypeKind.flag]))
  | primitive p =>
      cases hb : t.kind b with
      | primitive q =>
          rw [ha, hb] at shape
          exact .primitive ha (hb.trans shape)
      | _ => simp [ha, hb, TypeKind.flag] at flag
  | unknown =>
      cases hb : t.kind b with
      | unknown => exact .unknown ha hb
      | _ => simp [ha, hb, TypeKind.flag] at flag
  | object x =>
      cases hb : t.kind b with
      | object y =>
          rw [ha, hb] at shape parts
          have properties := forall₂_properties shape parts
          refine .object ha hb ⟨properties.length_eq, fun name p listed => ?_⟩
          obtain ⟨⟨name', q⟩, listed', same, optional, related⟩ :=
            forall₂_exists_left properties.flip _ listed
          dsimp only at same
          subst same
          exact ⟨q, Dictionary.find?_of_mem (distinct b y hb) listed', optional.symm, related⟩
      | _ => simp [ha, hb, TypeKind.flag] at flag
  | function x =>
      cases hb : t.kind b with
      | function y =>
          rw [ha, hb] at shape declared parts
          have erased := congrArg FunctionType.parameters (TypeKind.function.inj shape)
          have arity : x.parameters.length = y.parameters.length := by
            simpa using (congrArg List.length erased).symm
          rw [TypeKind.zip_parts_function arity] at parts
          refine .function ha hb ⟨declared, arity, fun pair listed => ⟨?_, ?_⟩, ?_⟩
          · have same := eq_of_mem_zip erased.symm pair listed
            exact (Parameter.mk.inj same).2.2
          · exact parts _ (List.mem_append_left _ (List.mem_map_of_mem listed))
          · exact parts _ (List.mem_append_right _ (List.mem_singleton_self _))
      | _ => simp [ha, hb, TypeKind.flag] at flag
  | instantiated x =>
      cases hb : t.kind b with
      | instantiated y =>
          rw [ha, hb] at shape parts
          have origin := congrArg InstantiatedType.origin (TypeKind.instantiated.inj shape)
          exact .arguments ha hb origin.symm parts
      | _ => simp [ha, hb, TypeKind.flag] at flag

end Shapes

end Equality

namespace TypeTable

variable {t : TypeTable} {bindings bindings' : Bindings} {id m m' : TypeId}

/-- What becomes of a type that is not bound itself. -/
structure ReplacedBelow (t : TypeTable) (bindings : Bindings) (id m : TypeId) : Prop where
  shape : (t.kind m).shape = (t.kind id).shape
  binders : (t.kind m).binders = (t.kind id).binders.filter fun p => !bindings.contains p
  parts : ∀ pair ∈ (t.kind id).parts.zip (t.kind m).parts, t.Replaced bindings pair.1 pair.2
  leaf : (t.kind id).parts = [] → (t.kind id).binders = [] → m = id

theorem Replaced.replacedBelow (replaced : t.Replaced bindings id m)
    (unbound : bindings.find? id = none) : t.ReplacedBelow bindings id m := by
  cases replaced with
  | bound found => exact nomatch unbound.symm.trans found
  | kept unaffected =>
      refine ⟨rfl, (List.filter_eq_self.mpr fun p declared => ?_).symm, ?_, fun _ _ => rfl⟩
      · rw [Bool.not_eq_true', Bool.eq_false_iff]
        exact fun bound => unaffected ⟨id, .refl, .inr ⟨p, declared, bound⟩⟩
      · intro pair listed
        have part := (List.of_mem_zip listed).1
        rw [← (eq_of_mem_zip (f := fun m => m) rfl pair listed : pair.1 = pair.2)]
        exact .kept fun affected => unaffected (affected.of_part part)
  | rebuilt _ affected shape binders parts =>
      refine ⟨shape, binders, parts, fun nothing nothing' => ?_⟩
      exact (affected.composite unbound).elim (absurd nothing) (absurd nothing')

/-- The two bindings bind the same type parameters, and to types that are equal. -/
structure BindSimilar (t : TypeTable) (Γ : Pairs) (bindings bindings' : Bindings) : Prop where
  bound : ∀ p b, bindings.find? p = some b → ∃ b', bindings'.find? p = some b' ∧ Similar t Γ b b'
  unbound : ∀ p, bindings.find? p = none → bindings'.find? p = none

theorem BindSimilar.contains {Γ : Pairs} (same : t.BindSimilar Γ bindings bindings') (p : TypeId) :
    bindings.contains p = bindings'.contains p := by
  rw [Dictionary.contains, Dictionary.contains]
  cases found : bindings.find? p with
  | none => rw [same.unbound p found]
  | some b =>
      obtain ⟨b', found', -⟩ := same.bound p b found
      rw [found']
      rfl

/-- To replace by equal types makes equal types. -/
theorem similar_of_replaced (distinct : t.DistinctProperties) {Γ : Pairs}
    (same : t.BindSimilar Γ bindings bindings') (one : t.Replaced bindings id m)
    (two : t.Replaced bindings' id m') : Similar t Γ m m' := by
  refine ⟨fun Δ x y => Similar t Δ x y ∨
    (Γ ⊆ Δ ∧ ∃ d, t.Replaced bindings d x ∧ t.Replaced bindings' d y), ?_,
    .inr ⟨List.Subset.refl Γ, id, one, two⟩⟩
  rintro Δ x y (similar | ⟨wider, d, one, two⟩)
  · exact similar.unfold.mono fun _ _ _ => .inl
  cases found : bindings.find? d with
  | some b =>
      obtain ⟨b', found', similar⟩ := same.bound d b found
      obtain rfl := one.eq_of_bound found
      obtain rfl := two.eq_of_bound found'
      exact (similar.widen wider).unfold.mono fun _ _ _ => .inl
  | none =>
      have left := one.replacedBelow found
      have right := two.replacedBelow (same.unbound d found)
      have binders : (t.kind x).binders = (t.kind y).binders := by
        rw [left.binders, right.binders]
        exact List.filter_congr fun p _ => by rw [same.contains p]
      refine .of_shape distinct (right.shape.trans left.shape.symm) (congrArg List.length binders)
        (fun rigid => ?_) fun pair listed => .inr ⟨?_, ?_⟩
      · -- type parameters and declarations are leaves, which are kept
        have flag : t.flag x = t.flag d := by
          rw [flag, flag, ← TypeKind.flag_shape, left.shape, TypeKind.flag_shape]
        rw [flag] at rigid
        have leaf : (t.kind d).parts = [] ∧ (t.kind d).binders = [] := by
          cases entry : t.kind d <;>
            simp_all [TypeTable.flag, TypeKind.flag, TypeKind.parts, TypeKind.binders]
        exact (left.leaf leaf.1 leaf.2).trans (right.leaf leaf.1 leaf.2).symm
      · exact List.Subset.trans wider (List.subset_append_right _ _)
      · obtain ⟨part, listed, listed'⟩ :=
          exists_between (TypeKind.length_parts_of_shape left.shape)
            (TypeKind.length_parts_of_shape right.shape).symm listed
        exact ⟨part, left.parts _ (mem_zip_swap listed), right.parts _ listed'⟩

/-- Type parameters that differ are bound by position. -/
theorem GenericType.find?_bind_eq_some_iff {g : GenericType} (distinct : g.typeParameters.Nodup)
    {arguments : List TypeId} (counted : g.typeParameters.length = arguments.length)
    {p b : TypeId} :
    (g.bind arguments).find? p = some b ↔ (p, b) ∈ g.typeParameters.zip arguments := by
  have keys : ((g.typeParameters.zip arguments).map Prod.fst).Nodup := by
    rwa [List.map_fst_zip (Nat.le_of_eq counted)]
  rw [GenericType.bind, Dictionary.find?, Dictionary.pairs_ofList keys]
  exact ⟨Dictionary.mem_of_findIn?, Dictionary.findIn?_of_mem keys⟩

/-- An instance has as many arguments as its interface has type parameters. -/
theorem InstanceOf.counted {i : InstantiatedType} {g : GenericType} (instance' : t.InstanceOf i g) :
    g.typeParameters.length = i.bindings.values.length := by
  simpa [Dictionary.keys, Dictionary.values] using (congrArg List.length instance'.names).symm

/-- Lists of equal arguments are bound similarly. -/
theorem bindSimilar_bind {g : GenericType} (distinct : g.typeParameters.Nodup)
    {arguments arguments' : List TypeId} (counted : g.typeParameters.length = arguments.length)
    (counted' : g.typeParameters.length = arguments'.length) {Γ : Pairs}
    (similar : ∀ pair ∈ arguments.zip arguments', Similar t Γ pair.1 pair.2) :
    t.BindSimilar Γ (g.bind arguments) (g.bind arguments') := by
  have iff {p b : TypeId} := GenericType.find?_bind_eq_some_iff distinct counted (p := p) (b := b)
  have iff' {p b : TypeId} := GenericType.find?_bind_eq_some_iff distinct counted' (p := p) (b := b)
  refine ⟨fun p b found => ?_, fun p unbound => ?_⟩
  · obtain ⟨b', listed, beside⟩ := exists_between counted' (counted'.symm.trans counted)
      (iff.mp found)
    exact ⟨b', iff'.mpr listed, similar _ (mem_zip_swap beside)⟩
  · refine Option.eq_none_iff_forall_ne_some.mpr fun b found => ?_
    obtain ⟨b', listed, -⟩ := exists_between counted (counted.symm.trans counted') (iff'.mp found)
    exact nomatch unbound.symm.trans (iff.mpr listed)

/-- Instances of one interface with equal arguments have equal bodies. -/
theorem Tidy.similar_bodies (tidy : t.Tidy) (distinct : t.DistinctProperties) {Γ : Pairs}
    {a b x y : TypeId} {i j : InstantiatedType} (left : t.kind a = .instantiated i)
    (right : t.kind b = .instantiated j) (origin : i.origin = j.origin)
    (arguments : ∀ pair ∈ i.bindings.values.zip j.bindings.values, Similar t Γ pair.1 pair.2)
    (made : body? t a = some x) (made' : body? t b = some y) : Similar t Γ x y := by
  rw [body?_instantiated left] at made
  rw [body?_instantiated right] at made'
  obtain ⟨g, generic, declared, o, entry, object, replaced⟩ := tidy.remembered _ x made
  obtain ⟨g', generic', declared', o', entry', object', replaced'⟩ := tidy.remembered _ y made'
  dsimp only [instantiationKey] at generic generic' replaced replaced'
  obtain rfl := TypeKind.generic.inj (generic.symm.trans (origin ▸ generic'))
  obtain rfl := TypeKind.object.inj (entry.symm.trans entry')
  have counted {id : TypeId} {i : InstantiatedType} (entry : t.kind id = .instantiated i)
      (generic : t.kind i.origin = .generic g) :
      g.typeParameters.length = i.bindings.values.length := by
    obtain ⟨g', instance'⟩ := tidy.instances id i entry
    obtain rfl := TypeKind.generic.inj (instance'.origin.symm.trans generic)
    exact instance'.counted
  have same := bindSimilar_bind (tidy.generics _ g generic).distinct (counted left generic)
    (counted right generic') arguments
  refine similar_iff.mpr (.object object object' ⟨?_, fun name p listed => ?_⟩)
  · exact replaced.length_eq.symm.trans replaced'.length_eq
  · obtain ⟨d, member, one⟩ := forall₂_exists_left replaced _ listed
    obtain ⟨⟨name', q⟩, listed', two⟩ := forall₂_exists_left replaced'.flip _ member
    obtain rfl : name = name' := one.name.trans two.name.symm
    exact ⟨q, Dictionary.find?_of_mem (distinct y o' object') listed',
      one.optional.trans two.optional.symm, similar_of_replaced distinct same one.type two.type⟩

end TypeTable

end StructuralTyping
