import StructuralTyping.Proofs.EqualBodies
import StructuralTyping.Proofs.ParallelComparisons
import StructuralTyping.Proofs.PlainTypes
import StructuralTyping.Tree.Build

/-! The shortcut over type arguments. Two instances of one interface whose arguments are related
have bodies that are related, as long as no generic function is met: their bodies are made of one
pattern, in which related types are put in the same places. -/
namespace StructuralTyping.Assignability

open TypeTable

theorem minArgumentCount_le (f : FunctionType) : f.minArgumentCount ≤ f.parameters.length := by
  rw [FunctionType.minArgumentCount]
  exact (List.dropWhile_suffix _).length_le.trans_eq List.length_reverse

/-- Objects or functions of one shape are related when their parts are, in both directions if
strict. -/
theorem StructureRule.of_shape {strict : Bool} {u : TypeTable} {R : TypeId → TypeId → Prop}
    {s t : TypeId} (target : TypeId) (shape : (u.kind t).shape = (u.kind s).shape)
    (structured : u.flag s = .object ∨ u.flag s = .function)
    (distinct : ∀ o, u.kind s = .object o → o.properties.Distinct)
    (parts : ∀ pair ∈ (u.kind s).parts.zip (u.kind t).parts, R pair.1 pair.2)
    (symm : strict = true → ∀ a b, R a b → R b a) : StructureRule strict u R target s t := by
  have flag := congrArg TypeKind.flag shape
  rw [TypeKind.flag_shape, TypeKind.flag_shape] at flag
  rw [TypeTable.flag] at structured
  unfold StructureRule
  generalize u.kind s = S at *
  generalize u.kind t = T at *
  cases S with
  | object o =>
      cases T with
      | object w =>
          rintro ⟨name, q⟩ listed
          obtain ⟨⟨_, p⟩, listed', rfl, optional, related⟩ :=
            forall₂_exists_left (forall₂_properties shape parts) _ listed
          have found : o.property? _ = some p := Dictionary.find?_of_mem (distinct o rfl) listed'
          rw [PropertyRule, found]
          exact ⟨fun given => optional.trans given, related⟩
      | _ => cases flag
  | function f =>
      cases T with
      | function h =>
          have frame : (TypeKind.function h).frame = (TypeKind.function f).frame := shape
          have arity : f.parameters.length = h.parameters.length := by
            have erased := congrArg FunctionType.parameters (TypeKind.function.inj frame)
            simpa using (congrArg List.length erased).symm
          rw [TypeKind.zip_parts_function arity] at parts
          refine ⟨arity ▸ minArgumentCount_le f, fun pair listed => ?_, .inr ?_⟩
          · have here := parts _ (List.mem_append_left _ (List.mem_map_of_mem listed))
            cases strict with
            | true => exact .inl (symm rfl _ _ here)
            | false => exact .inr ⟨rfl, here⟩
          · exact parts _ (List.mem_append_right _ (List.mem_singleton_self _))
      | _ => cases flag
  | _ => simp [TypeKind.flag] at structured

theorem leaf_of_flag {kind : TypeKind} (object : kind.flag ≠ .object)
    (function : kind.flag ≠ .function)
    (inst : kind.flag ≠ .instantiated) : kind.parts = [] ∧ kind.binders = [] := by
  cases kind <;> simp_all [TypeKind.flag, TypeKind.parts, TypeKind.binders]

/-- The names of properties are part of the shape. -/
theorem distinct_of_shape {kind : TypeKind} {o : ObjectType}
    (shape : (TypeKind.object o).shape = kind.shape)
    (distinct : ∀ w, kind = .object w → w.properties.Distinct) : o.properties.Distinct := by
  cases kind with
  | object w =>
      have names := congrArg (fun o : ObjectType => o.properties.keys) (TypeKind.object.inj shape)
      simp only [Dictionary.keys_mapValues] at names
      rw [Dictionary.Distinct, names]
      exact distinct w rfl
  | _ => cases shape

section Kindred
variable {σ : Session} {P : TypeId → Prop} {strict : Bool} {fuel : Nat}
  {bindings bindings' : Bindings}
  {u u' : TypeTable} {x y : TypeId}

/-- What is put in one place on the two sides is accepted, in both directions if strict. -/
def Linked (σ : Session) (P : TypeId → Prop) (strict : Bool) (fuel : Nat)
    (bindings bindings' : Bindings) : Prop :=
  ∀ p, Option.Rel (fun x y => (σ.table.Held P x ∧ σ.table.Held P y) ∧
    Accepts (Traced σ.table P) (relatedWithin strict fuel) σ x y ∧
    (strict = true → Accepts (Traced σ.table P) (relatedWithin strict fuel) σ y x))
    (bindings.find? p) (bindings'.find? p)

theorem Linked.symm (isStrict : strict = true)
    (linked : Linked σ P strict fuel bindings bindings') :
    Linked σ P strict fuel bindings' bindings := by
  intro p
  have here := linked p
  generalize bindings.find? p = found at here ⊢
  generalize bindings'.find? p = found' at here ⊢
  cases here with
  | none => exact .none
  | some both => exact .some ⟨both.1.symm, both.2.2 isStrict, fun _ => both.2.1⟩

/-- The two types have come of one type by putting accepted types in the same places. -/
def Kindred (σ : Session) (P : TypeId → Prop) (strict : Bool) (fuel : Nat) (u : TypeTable)
    (x y : TypeId) : Prop :=
  ∃ bindings bindings' d, Linked σ P strict fuel bindings bindings' ∧ d < σ.table.size ∧
    u.Replaced bindings d x ∧ u.Replaced bindings' d y

theorem Kindred.symm (isStrict : strict = true) (kindred : Kindred σ P strict fuel u x y) :
    Kindred σ P strict fuel u y x := by
  obtain ⟨bindings, bindings', d, linked, known, one, two⟩ := kindred
  exact ⟨bindings', bindings, d, linked.symm isStrict, known, two, one⟩

theorem Kindred.extends (wellFormed : u.WellFormed) (base : σ.table.Extends u)
    (extended : u.Extends u')
    (left : x < u.size) (right : y < u.size) (kindred : Kindred σ P strict fuel u x y) :
    Kindred σ P strict fuel u' x y := by
  obtain ⟨bindings, bindings', d, linked, known, one, two⟩ := kindred
  exact ⟨bindings, bindings', d, linked, known,
    one.extends wellFormed extended (base.inside known) left,
    two.extends wellFormed extended (base.inside known) right⟩

/-- Entries of one shape, with kindred parts. Leaves are the same. -/
structure Kindred.Below (σ : Session) (P : TypeId → Prop) (strict : Bool) (fuel : Nat)
    (u : TypeTable)
    (x y : TypeId) : Prop where
  shape : (u.kind y).shape = (u.kind x).shape
  parts : ∀ pair ∈ (u.kind x).parts.zip (u.kind y).parts, Kindred σ P strict fuel u pair.1 pair.2
  leaf : u.flag x ≠ .object → u.flag x ≠ .function → u.flag x ≠ .instantiated → x = y
  distinct : ∀ o, u.kind x = .object o → o.properties.Distinct

theorem Kindred.cases (wellFormed : σ.table.WellFormed) (distinct : σ.table.DistinctProperties)
    (base : σ.table.Extends u) (kindred : Kindred σ P strict fuel u x y) :
    ((σ.table.Held P x ∧ σ.table.Held P y) ∧
      Accepts (Traced σ.table P) (relatedWithin strict fuel) σ x y) ∨
      Kindred.Below σ P strict fuel u x y := by
  obtain ⟨bindings, bindings', d, linked, known, one, two⟩ := kindred
  have here := linked d
  cases found : bindings.find? d with
  | some x' =>
      rw [found] at here
      cases found' : bindings'.find? d with
      | none => rw [found'] at here; cases here
      | some y' =>
          rw [found'] at here
          obtain rfl := one.eq_of_bound found
          obtain rfl := two.eq_of_bound found'
          cases here with
          | some both => exact .inl ⟨both.1, both.2.1⟩
  | none =>
      rw [found] at here
      have found' : bindings'.find? d = none := by
        generalize bindings'.find? d = found' at here
        cases here
        rfl
      have left := one.replacedBelow found
      have right := two.replacedBelow found'
      have same : u.kind d = σ.table.kind d := base.kind d known
      refine .inr ⟨right.shape.trans left.shape.symm, fun pair listed => ?_,
        fun object function inst => ?_,
        fun o entry => ?_⟩
      · obtain ⟨part, listed, listed'⟩ :=
          exists_between (TypeKind.length_parts_of_shape left.shape)
            (TypeKind.length_parts_of_shape right.shape).symm listed
        refine ⟨bindings, bindings', part, linked, ?_, left.parts _ (mem_zip_swap listed),
          right.parts _ listed'⟩
        exact wellFormed.part known (same ▸ (List.of_mem_zip listed).2)
      · have flag : u.flag x = u.flag d := by
          rw [flag, flag, ← TypeKind.flag_shape, left.shape, TypeKind.flag_shape]
        rw [flag] at object function inst
        have leaf := leaf_of_flag object function inst
        exact (left.leaf leaf.1 leaf.2).trans (right.leaf leaf.1 leaf.2).symm
      · refine distinct_of_shape (entry ▸ left.shape) fun w isObject => ?_
        exact distinct d w (same ▸ isObject)

/-- Under this fuel kindred types are accepted, unless there is no answer. -/
def AcceptsKindred (σ : Session) (P : TypeId → Prop) (strict : Bool) (fuel fuel' : Nat) : Prop :=
  ∀ {a b υ x y verdict υ'}, Tandem σ.table P a b σ υ → υ.table.Held P x → υ.table.Held P y →
    Kindred σ P strict fuel υ.table x y →
    (relatedWithin strict fuel' x y).run υ = some (verdict, υ') → verdict = .ok ()

variable {a b : TypeId → Label} {υ υ' : Session} {fuel' : Nat}

theorem decided_kindred (wellFormed : σ.table.WellFormed)
    (accepts : AcceptsKindred σ P strict fuel fuel')
    (tandem : Tandem σ.table P a b σ υ) (hx : υ.table.Held P x) (hy : υ.table.Held P y) :
    Decided (Traced σ.table P) (fun _ => completed (.ok ()) (relatedWithin strict fuel')) υ x y True
      (Kindred σ P strict fuel υ.table x y) := by
  have tracks := tracks_traced (P := P) wellFormed
  refine decided_of_answers tracks tandem.sound' hx hy (fun τ verdict τ' follows done => ?_) trivial
  have grown := tracks.toGrown follows.table
  cases verdict with
  | ok => trivial
  | error =>
      intro kindred
      obtain ⟨a', b', later, -, -⟩ := tandem.follows (.refl tracks.toGrowth σ) follows
      cases accepts later (hx.grown grown.extended) (hy.grown grown.extended)
        (kindred.extends tandem.sound'.toWellFormed tandem.right.extended grown.extended
          hx.1 hy.1) done

section Steps
variable (wellFormed : σ.table.WellFormed) (accepts : AcceptsKindred σ P strict fuel fuel')
  (tandem : Tandem σ.table P a b σ υ) (hx : υ.table.Held P x) (hy : υ.table.Held P y)
  (below : Kindred.Below σ P strict fuel υ.table x y)

include wellFormed accepts tandem hx hy below

/-- The shortcut accepts instances of one interface whose arguments are kindred. -/
theorem instancesRelated_kindred (inst : υ.table.flag x = .instantiated) {found : Bool}
    (done : (instancesRelated strict (relatedWithin strict fuel') x y).run υ = some (found, υ')) :
    found = true := by
  have granted := instancesRelated_judged (tracks_traced (P := P) wellFormed).toGrowth
    tandem.sound' hx hy (S := fun _ _ => True)
    (fun p q hp hq => decided_kindred wellFormed accepts tandem hp hq) done
  refine granted.2 ?_
  have shape := below.shape
  have parts := below.parts
  rw [flag] at inst
  cases hs : υ.table.kind x with
  | instantiated i =>
      cases ht : υ.table.kind y with
      | instantiated j =>
          rw [hs, ht] at shape parts
          have origin := congrArg InstantiatedType.origin (TypeKind.instantiated.inj shape)
          refine ⟨i, j, hs, ht, origin.symm, fun pair listed => ?_⟩
          exact ⟨parts pair listed, fun isStrict => (parts pair listed).symm isStrict⟩
      | _ =>
          rw [hs, ht] at shape
          cases shape
  | _ => simp [hs, TypeKind.flag] at inst

/-- Objects and functions with kindred parts are accepted. -/
theorem bodiesRelated_kindred (structured : υ.table.flag x = .object ∨ υ.table.flag x = .function)
    {verdict : Verdict}
    (done : (bodiesRelated strict (relatedWithin strict fuel') x y).run υ = some (verdict, υ')) :
    verdict = .ok () := by
  have growth := (tracks_traced (P := P) wellFormed).toGrowth
  have flag : υ.table.flag y = υ.table.flag x := by
    rw [flag, TypeTable.flag, ← TypeKind.flag_shape, below.shape, TypeKind.flag_shape]
  have plain : υ.table.flag x ≠ .instantiated := by
    rcases structured with object | function
    · simp [object]
    · simp [function]
  have first : (resolve x).run υ.table = (x, υ.table) := run_resolve_plain plain
  have second : (resolve y).run υ.table = (y, υ.table) := run_resolve_plain (flag ▸ plain)
  have granted := bodiesRelated_judged wellFormed first second (growth.refl υ.table) tandem.sound'
    hx hy hy (S := fun _ _ => True)
    (fun p q hp hq => decided_kindred wellFormed accepts (tandem.deeper x y _) hp hq) done
  cases verdict with
  | ok => rfl
  | error =>
      refine absurd ?_ granted
      exact .inr (.inr (.inr (.inr (.of_shape y below.shape structured below.distinct below.parts
        fun isStrict _ _ kindred => kindred.symm isStrict))))

end Steps

/-- Kindred types are accepted whenever their comparison comes to an answer. -/
theorem acceptsKindred (wellFormed : σ.table.WellFormed) (distinct : σ.table.DistinctProperties)
    (fuel' : Nat) : AcceptsKindred σ P strict fuel fuel' := by
  have tracks := tracks_traced (P := P) wellFormed
  induction fuel' with
  | zero => exact fun _ _ _ _ done => nomatch done
  | succ fuel' ih =>
      intro a b υ x y verdict υ' tandem hx hy kindred done
      rcases kindred.cases wellFormed distinct tandem.right.extended with
        ⟨⟨known, known'⟩, τ, τ', follows, accepted⟩ | below
      · obtain ⟨a', b', later, -, -⟩ := tandem.follows follows (.refl tracks.toGrowth υ)
        have same {id : TypeId} (known : σ.table.Held P id) :
            Alike P a' b' τ.table υ.table id id :=
          ⟨known.grown later.left.extended, known.grown later.right.extended,
            by rw [later.left.label_base known.1, later.right.label_base known.1]⟩
        exact carries wellFormed id fuel later (same known) (same known') accepted done
      rcases relatedWithin_cases done with ⟨-, yes, -⟩ | ⟨apart, found, between, one, two⟩
      · exact yes
      rcases two with ⟨-, yes, -⟩ | ⟨rfl, bodies⟩
      · exact yes
      by_cases inst : υ.table.flag x = .instantiated
      · cases instancesRelated_kindred wellFormed ih tandem hx hy below inst one
      · have other (i : InstantiatedType) : υ.table.kind x ≠ .instantiated i := fun entry =>
          inst (congrArg TypeKind.flag entry)
        obtain ⟨-, rfl⟩ := Prod.mk.inj
          (Option.some.inj ((run_instancesRelated_of_ne other).symm.trans one))
        refine bodiesRelated_kindred wellFormed ih tandem hx hy below ?_ bodies
        by_contra neither
        rw [not_or] at neither
        exact apart (below.leaf neither.1 neither.2 inst)

end Kindred

section Bodies
variable {σ ρ τ υ : Session} {P : TypeId → Prop} {a b : TypeId → Label} {strict : Bool}
  {fuel fuel' : Nat} {source target s t : TypeId} {one two : TypeTable} {i j : InstantiatedType}

/-- Arguments that are accepted are put in the same places. -/
theorem linked_of_arguments (tidy : σ.table.Tidy) (sound : σ.table.Sound true P)
    (hs : σ.table.Held P source) (ht : σ.table.Held P target)
    (left : σ.table.kind source = .instantiated i)
    (right : σ.table.kind target = .instantiated j) {g : GenericType}
    (generic : σ.table.kind i.origin = .generic g) (generic' : σ.table.kind j.origin = .generic g)
    (accepted : ArgumentsRule strict (Accepts (Traced σ.table P) (relatedWithin strict fuel) σ)
      (i.bindings.values.zip j.bindings.values)) :
    Linked σ P strict fuel (g.bind i.bindings.values) (g.bind j.bindings.values) := by
  have counted {id : TypeId} {i : InstantiatedType} (entry : σ.table.kind id = .instantiated i)
      (generic : σ.table.kind i.origin = .generic g) :
      g.typeParameters.length = i.bindings.values.length := by
    obtain ⟨g', instance'⟩ := tidy.instances id i entry
    obtain rfl := TypeKind.generic.inj (instance'.origin.symm.trans generic)
    exact instance'.counted
  refine rel_find?_zip g.typeParameters (List.forall₂_iff_zip.mpr ⟨?_, fun {x y} listed => ?_⟩)
  · exact (counted left generic).symm.trans (counted right generic')
  · obtain ⟨one, two⟩ := List.of_mem_zip listed
    exact ⟨⟨held_argument sound hs left one, held_argument sound ht right two⟩,
      accepted (x, y) listed⟩

/-- Bodies of one declaration are related by their structure. -/
theorem structureRule_of_bodies (wellFormed : σ.table.WellFormed)
    (distinct : σ.table.DistinctProperties)
    (extended : σ.table.Extends two) {g : GenericType} {arguments arguments' : List TypeId}
    (linked : Linked σ P strict fuel (g.bind arguments) (g.bind arguments'))
    (inside : g.body < σ.table.size) (left : two.IsBodyOf g arguments s)
    (right : two.IsBodyOf g arguments' t) :
    StructureRule strict two (Kindred σ P strict fuel two) target s t := by
  obtain ⟨declared, made, entry, hs, properties⟩ := left
  obtain ⟨declared', made', entry', ht, properties'⟩ := right
  obtain rfl := TypeKind.object.inj (entry.symm.trans entry')
  rw [extended.kind _ inside] at entry
  have names : made.properties.keys = declared.properties.keys :=
    TypeKind.map_eq_of_forall₂ (fun _ _ replaced => replaced.name) properties
  have unique : made.properties.Distinct := by
    rw [Dictionary.Distinct, names]
    exact distinct _ declared entry
  rw [StructureRule, hs, ht]
  rintro ⟨name, q⟩ listed
  obtain ⟨d, member, two⟩ := forall₂_exists_left properties' _ listed
  obtain ⟨⟨name', p⟩, member', one⟩ := forall₂_exists_left properties.flip _ member
  obtain rfl : name' = name := one.name.trans two.name.symm
  have found : made.property? name' = some p := Dictionary.find?_of_mem unique member'
  have part : d.2.type ∈ (σ.table.kind g.body).parts := by
    rw [entry]
    exact List.mem_map_of_mem (List.mem_map_of_mem member)
  rw [PropertyRule, found]
  refine ⟨fun given => ?_, _, _, d.2.type, linked, wellFormed.part inside part, one.type, two.type⟩
  rw [two.optional, ← one.optional]
  exact given

/-- The bodies of two instances with accepted arguments are the same or related by structure. -/
theorem bodiesRule_of_arguments (coherent : σ.table.Coherent)
    (distinct : σ.table.DistinctProperties)
    (tandem : Tandem σ.table P a b σ ρ)
    (left : ρ.table.kind source = .instantiated i) (right : one.kind target = .instantiated j)
    {g : GenericType} (generic : σ.table.kind i.origin = .generic g)
    (generic' : σ.table.kind j.origin = .generic g)
    (linked : Linked σ P strict fuel (g.bind i.bindings.values) (g.bind j.bindings.values))
    {a' b' : TypeId → Label} (between : Labelled σ.table one a') (last : Labelled σ.table two b')
    (run : (resolve source).run ρ.table = (s, one)) (next : (resolve target).run one = (t, two)) :
    s = t ∨ StructureRule strict two (Kindred σ P strict fuel two) target s t := by
  have wellFormed := coherent.grounded.toWellFormed
  have tidy := (last.develops wellFormed).tidy coherent.tidy
  have later : one.Develops two := develops_of_resolve next
  have inside : g.body < σ.table.size :=
    wellFormed.mentions _ (lt_size_of_kind generic (by simp)) g.body
      (by simp [generic, TypeKind.mentions])
  -- a body is remembered only when there is something to make it from
  have built {key : TypeId × List TypeId} {body : TypeId}
    (found : two.resolved.find? key = some body)
      (origin : σ.table.kind key.1 = .generic g) : two.IsBodyOf g key.2 body := by
    obtain ⟨g', generic', made⟩ := tidy.remembered key body found
    rw [last.extended.kind _ (lt_size_of_kind origin (by simp)), origin] at generic'
    obtain rfl := TypeKind.generic.inj generic'
    exact made
  have pending {arguments : List TypeId} {body : TypeId} (made : two.IsBodyOf g arguments body) :
      σ.table.kind g.body ≠ .pending := by
    obtain ⟨declared, -, entry, -⟩ := made
    rw [last.extended.kind _ inside] at entry
    simp [entry]
  rcases tandem.right.resolve_cases wellFormed left run with
    found | ⟨g₁, generic₁, pending₁, rfl, -⟩
  · have made := built (later.remembers found) generic
    rcases between.resolve_cases wellFormed right next with found' | ⟨g₂, generic₂, pending₂, -, -⟩
    · exact .inr (structureRule_of_bodies wellFormed distinct last.extended linked inside made
        (built found' generic'))
    · obtain rfl := TypeKind.generic.inj (generic'.symm.trans generic₂)
      exact absurd pending₂ (pending made)
  · obtain rfl := TypeKind.generic.inj (generic.symm.trans generic₁)
    rcases between.resolve_cases wellFormed right next with found' | ⟨g₂, generic₂, -, rfl, -⟩
    · exact absurd pending₁ (pending (built found' generic'))
    · obtain rfl := TypeKind.generic.inj (generic'.symm.trans generic₂)
      exact .inl rfl

end Bodies

/-- Whether no object of a table has two properties of one name, as a test. -/
theorem distinctProperties_of_entries {table : TypeTable}
    (entries : table.entries.all (fun kind =>
      match kind with
      | .object o => decide o.properties.keys.Nodup
      | _ => true) = true) : table.DistinctProperties := by
  intro id o entry
  have tested : decide o.properties.keys.Nodup = true :=
    (Array.all_eq_true_iff_forall_mem.mp entries) _ (mem_entries_of_kind entry nofun)
  rw [Dictionary.Distinct]
  simpa using tested

/-- `interface Cell<T> { value: T; set: (x: T) => Cell<T> }`, and two cells of objects with a
number in them. -/
def cells : List SourceFile :=
  let holding (name : String) : Statement :=
    .ofVariable name (some (.named "Cell" [.ofMembers [.required "n" (.ofKeyword .number)]])) none
  [⟨"", [
    .ofInterface "Cell" [.free "T"] [.required "value" (.named "T" []),
      .required "set" (.ofSignature [] [.required "x" (some (.named "T" []))]
        (.named "Cell" [.named "T" []]))],
    holding "a", holding "b"]⟩]

/-- The table after the check of `cells`. -/
def cellsTable : TypeTable where
  entries := TypeTable.initial.entries ++
    #[.typeParameter "T" none,
      .object ⟨some "Cell", ⟨[("value", ⟨7, false⟩), ("set", ⟨11, false⟩)]⟩⟩,
      .generic ⟨"Cell", [7], 8⟩, .instantiated ⟨9, ⟨[("T", 7)]⟩⟩,
      .function ⟨[], [⟨"x", 7, false⟩], 10⟩,
      .object ⟨none, ⟨[("n", ⟨TypeId.number, false⟩)]⟩⟩, .instantiated ⟨9, ⟨[("T", 12)]⟩⟩,
      .object ⟨none, ⟨[("n", ⟨TypeId.number, false⟩)]⟩⟩, .instantiated ⟨9, ⟨[("T", 14)]⟩⟩]
  resolved := .empty

/-- An interface with a generic method that takes an instance of the interface, and an instance of
it whose method is read. -/
def capturedArgument : List SourceFile :=
  [⟨"", [
    .ofInterface "P" [.free "T"] [],
    .ofInterface "G" [.free "T"] [.required "m" (.ofSignature [.free "U"] [
      .required "x" (some (.named "T" [])),
      .required "z" (some (.named "G" [.named "P" [.named "U" []]]))] (.named "U" []))],
    .ofVariable "g" (some (.named "G" [.named "P" [.ofKeyword .number]])) none,
    .ofVariable "m" none (some (.ofAccess (.ofName "g") "m"))]⟩]

/-- The table after the check of `capturedArgument`. -/
def capturedArgumentTable : TypeTable where
  entries := TypeTable.initial.entries ++
    #[.typeParameter "T" none, .object ⟨some "P", ⟨[]⟩⟩, .generic ⟨"P", [7], 8⟩,
      .typeParameter "T" none, .object ⟨some "G", ⟨[("m", ⟨16, false⟩)]⟩⟩, .generic ⟨"G", [10], 11⟩,
      .typeParameter "U" none, .instantiated ⟨9, ⟨[("T", 13)]⟩⟩, .instantiated ⟨12, ⟨[("T", 14)]⟩⟩,
      .function ⟨[13], [⟨"x", 10, false⟩, ⟨"z", 15, false⟩], 13⟩,
      .instantiated ⟨9, ⟨[("T", TypeId.number)]⟩⟩, .instantiated ⟨12, ⟨[("T", 17)]⟩⟩,
      .function ⟨[13], [⟨"x", 17, false⟩, ⟨"z", 15, false⟩], 13⟩,
      .object ⟨none, ⟨[("m", ⟨19, false⟩)]⟩⟩]
  resolved := ⟨[((12, [17]), 20)]⟩

end StructuralTyping.Assignability
