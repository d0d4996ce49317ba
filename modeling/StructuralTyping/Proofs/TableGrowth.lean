import Mathlib.Data.List.Forall2
import StructuralTyping.Types.Substitution

/-! How a table grows while types are substituted and resolved. Entries are only
appended, a new entry mentions entries that were there before it, and every new
entry belongs to any set of types that the parts it was made from belong to. -/
namespace StructuralTyping

namespace TypeKind

/-- The types that an entry mentions. -/
def mentions : TypeKind → List TypeId
  | primitive _ => []
  | unknown => []
  | object o => o.properties.values.map Property.type
  | function f => f.typeParameters ++ (f.parameters.map Parameter.type ++ [f.returnType])
  | typeParameter _ constraint => constraint.toList
  | generic g => g.typeParameters ++ [g.body]
  | instantiated i => i.origin :: i.bindings.values
  | pending => []

/-- The types that an entry is made of. -/
def parts : TypeKind → List TypeId
  | object o => o.properties.values.map Property.type
  | function f => f.parameters.map Parameter.type ++ [f.returnType]
  | instantiated i => i.bindings.values
  | _ => []

/-- The type parameters that an entry declares for its parts. -/
def binders : TypeKind → List TypeId
  | function f => f.typeParameters
  | _ => []

theorem mentions_part {kind : TypeKind} {m : TypeId} (part : m ∈ kind.parts) :
    m ∈ kind.mentions := by
  cases kind with
  | object o => exact part
  | function f => exact List.mem_append_right _ part
  | instantiated i => exact List.mem_cons_of_mem _ part
  | _ => exact absurd part List.not_mem_nil

/-- What is not a leaf is no wildcard. -/
theorem not_wildcard_of_composite {kind : TypeKind}
    (composite : kind.parts ≠ [] ∨ kind.binders ≠ []) : kind.flag.isWildcard = false := by
  cases kind with
  | unknown | pending => simp [parts, binders] at composite
  | _ => rfl

end TypeKind

namespace TypeTable

/-- The entries of the one table stand at the beginning of the other. -/
structure Extends (t t' : TypeTable) : Prop where
  size : t.size ≤ t'.size
  kind : ∀ id < t.size, t'.kind id = t.kind id

namespace Extends

theorem refl (t : TypeTable) : t.Extends t := ⟨Nat.le_refl _, fun _ _ => rfl⟩

theorem trans {t t' t'' : TypeTable} (one : t.Extends t') (two : t'.Extends t'') :
    t.Extends t'' where
  size := Nat.le_trans one.size two.size
  kind id inside := (two.kind id (Nat.lt_of_lt_of_le inside one.size)).trans (one.kind id inside)

theorem inside {t t' : TypeTable} {id : TypeId} (extended : t.Extends t') (known : id < t.size) :
    id < t'.size :=
  Nat.lt_of_lt_of_le known extended.size

/-- What is an entry is the same entry later. -/
theorem entry {t t' : TypeTable} {id : TypeId} {kind : TypeKind} (extended : t.Extends t')
    (entry : t.kind id = kind) (known : kind ≠ .unknown) : t'.kind id = kind :=
  (extended.kind id (lt_size_of_kind entry known)).trans entry

theorem add (t : TypeTable) (kind : TypeKind) : t.Extends (t.add kind).2 where
  size := by simp
  kind _ inside := kind_add_of_lt inside kind

end Extends

/-- A way in which tables grow. -/
structure Growth (grown : TypeTable → TypeTable → Prop) : Prop where
  refl (t : TypeTable) : grown t t
  trans {t t' t'' : TypeTable} : grown t t' → grown t' t'' → grown t t''

theorem Extends.growth : Growth Extends := ⟨.refl, .trans⟩

/-- Entries mention entries, and what is remembered is about entries. -/
structure Closed (t : TypeTable) : Prop where
  mentions : ∀ id < t.size, ∀ m ∈ (t.kind id).mentions, m < t.size
  remembered : ∀ key body, t.resolved.find? key = some body →
    key.1 < t.size ∧ (∀ a ∈ key.2, a < t.size) ∧ body < t.size

namespace Closed

variable {t : TypeTable} {id : TypeId} (closed : t.Closed)

include closed

theorem property {o : ObjectType} (entry : t.kind id = .object o) :
    ∀ p ∈ o.properties.values, p.type < t.size := fun p member => by
  refine closed.mentions id (lt_size_of_kind entry (by simp)) p.type ?_
  rw [entry]
  exact List.mem_map_of_mem member

theorem parameter {f : FunctionType} (entry : t.kind id = .function f) :
    ∀ p ∈ f.parameters, p.type < t.size := fun p member => by
  refine closed.mentions id (lt_size_of_kind entry (by simp)) p.type ?_
  rw [entry]
  exact List.mem_append_right _ (List.mem_append_left _ (List.mem_map_of_mem member))

theorem returnType {f : FunctionType} (entry : t.kind id = .function f) :
    f.returnType < t.size :=
  closed.mentions id (lt_size_of_kind entry (by simp)) f.returnType
    (by simp [entry, TypeKind.mentions])

theorem instanceOrigin {i : InstantiatedType} (entry : t.kind id = .instantiated i) :
    i.origin < t.size :=
  closed.mentions id (lt_size_of_kind entry (by simp)) i.origin
    (by simp [entry, TypeKind.mentions])

theorem argument {i : InstantiatedType} (entry : t.kind id = .instantiated i) :
    ∀ a ∈ i.bindings.values, a < t.size := fun a member =>
  closed.mentions id (lt_size_of_kind entry (by simp)) a
    (by simp [entry, TypeKind.mentions, member])

theorem constraint {name : String} {bound : TypeId}
    (entry : t.kind id = .typeParameter name (some bound)) : bound < t.size :=
  closed.mentions id (lt_size_of_kind entry (by simp)) bound
    (by simp [entry, TypeKind.mentions])

theorem genericBody {g : GenericType} (entry : t.kind id = .generic g) : g.body < t.size :=
  closed.mentions id (lt_size_of_kind entry (by simp)) g.body (by simp [entry, TypeKind.mentions])

theorem part {m : TypeId} (inside : id < t.size) (part : m ∈ (t.kind id).parts) : m < t.size :=
  closed.mentions id inside m (TypeKind.mentions_part part)

end Closed

/-- Entries mention entries, an instantiated type has a generic origin and arguments
that precede it, and what is remembered is about entries. -/
structure WellFormed (t : TypeTable) : Prop where
  mentions : ∀ id < t.size, ∀ m ∈ (t.kind id).mentions, m < t.size
  origin : ∀ id < t.size, ∀ i, t.kind id = .instantiated i → ∃ g, t.kind i.origin = .generic g
  precede : ∀ id < t.size, ∀ i, t.kind id = .instantiated i → ∀ a ∈ i.bindings.values, a < id
  remembered : ∀ key body, t.resolved.find? key = some body →
    key.1 < t.size ∧ (∀ a ∈ key.2, a < t.size) ∧ body < t.size

/-- What an entry of a well-formed table satisfies, as a test. -/
def fits (t : TypeTable) (id : TypeId) : Bool :=
  (t.kind id).mentions.all (· < t.size) &&
    match t.kind id with
    | .instantiated i => (t.asGeneric? i.origin).isSome && i.bindings.values.all (· < id)
    | _ => true

theorem WellFormed.of_fits {t : TypeTable} (entries : (List.range t.size).all t.fits = true)
    (nothing : t.resolved = .empty) : t.WellFormed := by
  have each : ∀ id < t.size, t.fits id = true := fun id inside =>
    List.all_eq_true.mp entries id (List.mem_range.mpr inside)
  refine ⟨fun id inside m mentioned => ?_, fun id inside i kind => ?_,
    fun id inside i kind a member => ?_, fun key body found => ?_⟩
  · have tested := each id inside
    simp only [fits, Bool.and_eq_true, List.all_eq_true, decide_eq_true_eq] at tested
    exact tested.1 m mentioned
  · have tested := each id inside
    simp only [fits, kind, Bool.and_eq_true, asGeneric?] at tested
    split at tested
    · next g generic => exact ⟨g, generic⟩
    · simp at tested
  · have tested := each id inside
    simp only [fits, kind, Bool.and_eq_true, List.all_eq_true, decide_eq_true_eq] at tested
    exact tested.2.2 a member
  · simp [nothing] at found

namespace WellFormed

variable {t : TypeTable} {id : TypeId} (wellFormed : t.WellFormed)

include wellFormed

theorem toClosed : t.Closed := ⟨wellFormed.mentions, wellFormed.remembered⟩

theorem property {o : ObjectType} (entry : t.kind id = .object o) :
    ∀ p ∈ o.properties.values, p.type < t.size :=
  wellFormed.toClosed.property entry

theorem parameter {f : FunctionType} (entry : t.kind id = .function f) :
    ∀ p ∈ f.parameters, p.type < t.size :=
  wellFormed.toClosed.parameter entry

theorem returnType {f : FunctionType} (entry : t.kind id = .function f) :
    f.returnType < t.size :=
  wellFormed.toClosed.returnType entry

theorem instanceOrigin {i : InstantiatedType} (entry : t.kind id = .instantiated i) :
    i.origin < t.size :=
  wellFormed.toClosed.instanceOrigin entry

theorem argument {i : InstantiatedType} (entry : t.kind id = .instantiated i) :
    ∀ a ∈ i.bindings.values, a < t.size :=
  wellFormed.toClosed.argument entry

theorem constraint {name : String} {bound : TypeId}
    (entry : t.kind id = .typeParameter name (some bound)) : bound < t.size :=
  wellFormed.toClosed.constraint entry

theorem part {m : TypeId} (inside : id < t.size) (part : m ∈ (t.kind id).parts) : m < t.size :=
  wellFormed.toClosed.part inside part

end WellFormed

/-- A set of types that holds every type mentioned in it and every body remembered
for it, and all entries that are still to come. If `simple`, its functions have no
type parameters. -/
structure Sound (simple : Bool) (P : TypeId → Prop) (t : TypeTable) : Prop extends
    WellFormed t where
  fresh : ∀ id, t.size ≤ id → P id
  closed : ∀ id < t.size, P id → ∀ m ∈ (t.kind id).mentions, P m
  plain : simple = true → ∀ id < t.size, P id → ∀ f, t.kind id = .function f →
    f.typeParameters = []
  kept : ∀ key body, t.resolved.find? key = some body → P key.1 → (∀ a ∈ key.2, P a) → P body

/-- Every type of a well-formed table belongs to the set of all types. -/
theorem WellFormed.sound {t : TypeTable} (wellFormed : t.WellFormed) : t.Sound false fun _ => True :=
  ⟨wellFormed, fun _ _ => trivial, fun _ _ _ _ _ => trivial, nofun, fun _ _ _ _ _ => trivial⟩

/-- The table is extended and stays sound. -/
structure Grown (simple : Bool) (P : TypeId → Prop) (t t' : TypeTable) : Prop where
  extended : t.Extends t'
  sound : t.Sound simple P → t'.Sound simple P

end TypeTable

namespace TableM

open TypeTable (Growth)

variable {α β : Type}

/-- What a computation from this table gives. -/
def Yields (m : TableM α) (t : TypeTable) (post : α → TypeTable → Prop) : Prop :=
  post (m.run t).1 (m.run t).2

namespace Yields

variable {t : TypeTable}

theorem pure {a : α} {post : α → TypeTable → Prop} (holds : post a t) :
    Yields (pure a) t post := holds

theorem bind {m : TableM α} {k : α → TableM β} {middle : α → TypeTable → Prop}
    {post : β → TypeTable → Prop} (first : Yields m t middle)
    (next : ∀ a t', middle a t' → Yields (k a) t' post) : Yields (m >>= k) t post :=
  next _ _ first

theorem weaken {m : TableM α} {strong weak : α → TypeTable → Prop} (yields : Yields m t strong)
    (implies : ∀ a t', strong a t' → weak a t') : Yields m t weak :=
  implies _ _ yields

theorem and {m : TableM α} {one two : α → TypeTable → Prop} (first : Yields m t one)
    (second : Yields m t two) : Yields m t fun a t' => one a t' ∧ two a t' :=
  ⟨first, second⟩

end Yields

/-- A way to say what a computation comes to that survives sequencing. -/
structure Sequential
    (comes : {α : Type} → TableM α → TypeTable → (α → TypeTable → Prop) → Prop) : Prop where
  pure {α : Type} {a : α} {t : TypeTable} {post : α → TypeTable → Prop} :
    post a t → comes (pure a) t post
  bind {α β : Type} {m : TableM α} {k : α → TableM β} {t : TypeTable}
      {middle : α → TypeTable → Prop} {post : β → TypeTable → Prop} :
    comes m t middle → (∀ a t', middle a t' → comes (k a) t' post) → comes (m >>= k) t post

theorem Yields.sequential : Sequential Yields := ⟨.pure, .bind⟩

namespace Sequential

variable {comes : {α : Type} → TableM α → TypeTable → (α → TypeTable → Prop) → Prop}
  (sequential : Sequential comes) {t : TypeTable} {grown : TypeTable → TypeTable → Prop}

include sequential

/-- A list is gone through with one table after another. -/
theorem mapM (growth : Growth grown) {f : α → TableM β} {Q : α → β → TypeTable → Prop}
    (stable : ∀ a b t t', grown t t' → Q a b t → Q a b t') {items : List α}
    (step : ∀ a ∈ items, ∀ t', grown t t' → comes (f a) t' fun b t'' => grown t' t'' ∧ Q a b t'') :
    comes (items.mapM f) t fun results t' =>
      grown t t' ∧ List.Forall₂ (fun a b => Q a b t') items results := by
  induction items generalizing t with
  | nil => exact sequential.pure ⟨growth.refl t, .nil⟩
  | cons a rest ih =>
      rw [List.mapM_cons]
      refine sequential.bind (step a List.mem_cons_self t (growth.refl t)) fun b t' ⟨one, here⟩ => ?_
      have later := ih fun a member t'' two =>
        step a (List.mem_cons_of_mem _ member) t'' (growth.trans one two)
      refine sequential.bind later fun results t'' ⟨two, others⟩ =>
        sequential.pure ⟨growth.trans one two, .cons ?_ others⟩
      exact stable a b t' t'' two here

/-- The keys of a dictionary stay in place. -/
theorem mapValuesM {κ : Type} (growth : Growth grown) {f : α → TableM β}
    {Q : α → β → TypeTable → Prop}
    (stable : ∀ a b t t', grown t t' → Q a b t → Q a b t') {d : Dictionary κ α}
    (step : ∀ a ∈ d.values, ∀ t', grown t t' →
      comes (f a) t' fun b t'' => grown t' t'' ∧ Q a b t'') :
    comes (d.mapValuesM f) t fun d' t' => grown t t' ∧
      List.Forall₂ (fun p q => q.1 = p.1 ∧ Q p.2 q.2 t') d.pairs d'.pairs := by
  refine sequential.bind (sequential.mapM growth
    (Q := fun p q t => q.1 = p.1 ∧ Q p.2 q.2 t) ?_ ?_) fun pairs t' both => sequential.pure both
  · exact fun p q t t' grown ⟨same, holds⟩ => ⟨same, stable _ _ t t' grown holds⟩
  · intro p member t' grown
    exact sequential.bind (step p.2 (List.mem_map_of_mem member) t' grown)
      fun b t'' ⟨later, holds⟩ => sequential.pure ⟨later, rfl, holds⟩

section Parts
variable (growth : Growth grown) {descend : TypeId → TableM TypeId}
  {Q : TypeId → TypeId → TypeTable → Prop}
  (stable : ∀ a b t t', grown t t' → Q a b t → Q a b t')

include growth stable

theorem properties {properties : Dictionary String Property}
    (step : ∀ p ∈ properties.values, ∀ t', grown t t' →
      comes (descend p.type) t' fun m t'' => grown t' t'' ∧ Q p.type m t'') :
    comes (properties.mapValuesM fun p => do return { p with type := ← descend p.type }) t
      fun replaced t' => grown t t' ∧ List.Forall₂
        (fun p q => q.1 = p.1 ∧ q.2.optional = p.2.optional ∧ Q p.2.type q.2.type t')
        properties.pairs replaced.pairs := by
  refine sequential.mapValuesM growth (Q := fun (p q : Property) t =>
    q.optional = p.optional ∧ Q p.type q.type t) ?_ ?_
  · exact fun p q t t' grown ⟨same, holds⟩ => ⟨same, stable _ _ t t' grown holds⟩
  · intro p member t' grown
    exact sequential.bind (step p member t' grown) fun m t'' ⟨later, holds⟩ =>
      sequential.pure ⟨later, rfl, holds⟩

theorem parameters {parameters : List Parameter}
    (step : ∀ p ∈ parameters, ∀ t', grown t t' →
      comes (descend p.type) t' fun m t'' => grown t' t'' ∧ Q p.type m t'') :
    comes (parameters.mapM fun p => do return { p with type := ← descend p.type }) t
      fun replaced t' => grown t t' ∧ List.Forall₂
        (fun p q => q = { p with type := q.type } ∧ Q p.type q.type t') parameters replaced := by
  refine sequential.mapM growth (Q := fun (p q : Parameter) t =>
    q = { p with type := q.type } ∧ Q p.type q.type t) ?_ ?_
  · exact fun p q t t' grown ⟨same, holds⟩ => ⟨same, stable _ _ t t' grown holds⟩
  · intro p member t' grown
    exact sequential.bind (step p member t' grown) fun m t'' ⟨later, holds⟩ =>
      sequential.pure ⟨later, rfl, holds⟩

end Parts

end Sequential

end TableM

namespace TypeTable

variable {simple : Bool} {P : TypeId → Prop} {t : TypeTable}

theorem Grown.refl (t : TypeTable) : Grown simple P t t := ⟨.refl t, id⟩

theorem Grown.trans {t t' t'' : TypeTable} (one : Grown simple P t t')
    (two : Grown simple P t' t'') : Grown simple P t t'' :=
  ⟨one.extended.trans two.extended, two.sound ∘ one.sound⟩

/-- The type is an entry and belongs to the set. -/
def Held (P : TypeId → Prop) (t : TypeTable) (id : TypeId) : Prop := id < t.size ∧ P id

theorem Held.grown {t' : TypeTable} {id : TypeId} (held : t.Held P id) (extended : t.Extends t') :
    t'.Held P id :=
  ⟨Nat.lt_of_lt_of_le held.1 extended.size, held.2⟩

theorem Sound.held {id m : TypeId} (sound : t.Sound simple P) (held : t.Held P id)
    (mentioned : m ∈ (t.kind id).mentions) : t.Held P m :=
  ⟨sound.mentions id held.1 m mentioned, sound.closed id held.1 held.2 m mentioned⟩

/-- A new entry keeps the table sound if its parts belong to the set. -/
theorem Sound.add (sound : t.Sound simple P) {kind : TypeKind}
    (mentions : ∀ m ∈ kind.mentions, t.Held P m)
    (origin : ∀ i, kind = .instantiated i → ∃ g, t.kind i.origin = .generic g)
    (plain : simple = true → ∀ f, kind = .function f → f.typeParameters = []) :
    (t.add kind).2.Sound simple P := by
  have extended : t.Extends (t.add kind).2 := .add t kind
  have either : ∀ id < (t.add kind).2.size, id < t.size ∧ (t.add kind).2.kind id = t.kind id ∨
      id = t.size ∧ (t.add kind).2.kind id = kind := by
    intro id inside
    rw [size_add] at inside
    rcases Nat.lt_succ_iff_lt_or_eq.mp inside with before | rfl
    · exact .inl ⟨before, kind_add_of_lt before kind⟩
    · exact .inr ⟨rfl, kind_add_size t kind⟩
  refine ⟨⟨?_, ?_, ?_, ?_⟩, ?_, ?_, ?_, ?_⟩
  · intro id inside m mentioned
    rcases either id inside with ⟨before, same⟩ | ⟨rfl, same⟩
    · exact Nat.lt_of_lt_of_le (sound.mentions id before m (same ▸ mentioned)) extended.size
    · exact Nat.lt_of_lt_of_le (mentions m (same ▸ mentioned)).1 extended.size
  · intro id inside i isInstance
    rcases either id inside with ⟨before, same⟩ | ⟨rfl, same⟩
    · obtain ⟨g, generic⟩ := sound.origin id before i (same ▸ isInstance)
      have known : i.origin < t.size :=
        sound.mentions id before i.origin (by simp [← same, isInstance, TypeKind.mentions])
      exact ⟨g, (extended.kind _ known).trans generic⟩
    · obtain rfl := same.symm.trans isInstance
      obtain ⟨g, generic⟩ := origin i rfl
      have known : i.origin < t.size := (mentions i.origin (by simp [TypeKind.mentions])).1
      exact ⟨g, (extended.kind _ known).trans generic⟩
  · intro id inside i isInstance a argument
    rcases either id inside with ⟨before, same⟩ | ⟨rfl, same⟩
    · exact sound.precede id before i (same ▸ isInstance) a argument
    · obtain rfl := same.symm.trans isInstance
      exact (mentions a (by simp [TypeKind.mentions, argument])).1
  · intro key body found
    obtain ⟨origin, arguments, known⟩ := sound.remembered key body found
    have larger {id : TypeId} (inside : id < t.size) : id < (t.add kind).2.size :=
      Nat.lt_of_lt_of_le inside extended.size
    exact ⟨larger origin, fun a member => larger (arguments a member), larger known⟩
  · exact fun id outside => sound.fresh id (Nat.le_trans extended.size outside)
  · intro id inside member m mentioned
    rcases either id inside with ⟨before, same⟩ | ⟨rfl, same⟩
    · exact sound.closed id before member m (same ▸ mentioned)
    · exact (mentions m (same ▸ mentioned)).2
  · intro isSimple id inside member f isFunction
    rcases either id inside with ⟨before, same⟩ | ⟨rfl, same⟩
    · exact sound.plain isSimple id before member f (same ▸ isFunction)
    · exact plain isSimple f (same.symm.trans isFunction)
  · exact sound.kept

theorem Grown.add {kind : TypeKind} (mentions : ∀ m ∈ kind.mentions, t.Held P m)
    (origin : ∀ i, kind = .instantiated i → ∃ g, t.kind i.origin = .generic g)
    (plain : t.Sound simple P → simple = true → ∀ f, kind = .function f → f.typeParameters = []) :
    Grown simple P t (t.add kind).2 :=
  ⟨.add t kind, fun sound => sound.add mentions origin (plain sound)⟩

/-- The table grows and nothing more is remembered. -/
structure Appended (simple : Bool) (P : TypeId → Prop) (t t' : TypeTable) : Prop extends
    Grown simple P t t' where
  resolved : t'.resolved = t.resolved

theorem Appended.refl (t : TypeTable) : Appended simple P t t := ⟨.refl t, rfl⟩

theorem Appended.trans {t t' t'' : TypeTable} (one : Appended simple P t t')
    (two : Appended simple P t' t'') : Appended simple P t t'' :=
  ⟨one.toGrown.trans two.toGrown, two.resolved.trans one.resolved⟩

theorem appended_growth : Growth (Appended simple P) := ⟨.refl, .trans⟩

end TypeTable

theorem forall₂_right {α β : Type} {R : α → β → Prop} {Q : β → Prop}
    (each : ∀ a b, R a b → Q b) {xs : List α} {ys : List β} (pairs : List.Forall₂ R xs ys) :
    ∀ b ∈ ys, Q b := by
  induction pairs with
  | nil => exact List.forall_mem_nil _
  | cons pair _ ih => exact List.forall_mem_cons.mpr ⟨each _ _ pair, ih⟩

section Substitution
variable {simple : Bool} {P : TypeId → Prop} {bindings : Bindings}

open TableM TypeTable Substitution

theorem yields_add {t : TypeTable} {kind : TypeKind} (mentions : ∀ m ∈ kind.mentions, t.Held P m)
    (origin : ∀ i, kind = .instantiated i → ∃ g, t.kind i.origin = .generic g)
    (plain : t.Sound simple P → simple = true → ∀ f, kind = .function f → f.typeParameters = [])
    (known : t.Sound simple P) :
    Yields (TableM.add kind) t fun id t' => Appended simple P t t' ∧ t'.Held P id := by
  have grown : Grown simple P t (t.add kind).2 := .add mentions origin plain
  have inside : t.size < (t.add kind).2.size := by simp
  exact ⟨⟨grown, rfl⟩, inside, known.fresh _ (Nat.le_refl _)⟩

theorem yields_addObject {t : TypeTable} {properties : Dictionary String Property}
    (sound : t.Sound simple P) (each : ∀ q ∈ properties.pairs, t.Held P q.2.type) :
    Yields (TableM.add (.object ⟨none, properties⟩)) t fun id t' =>
      Appended simple P t t' ∧ t'.Held P id := by
  refine yields_add ?_ (fun _ equal => nomatch equal) (fun _ _ _ equal => nomatch equal) sound
  intro m mentioned
  simp only [TypeKind.mentions, Dictionary.values, List.mem_map] at mentioned
  obtain ⟨p, ⟨pair, member, rfl⟩, rfl⟩ := mentioned
  exact each pair member

theorem yields_addFunction {t : TypeTable} {f : FunctionType} (sound : t.Sound simple P)
    (typeParameters : ∀ p ∈ f.typeParameters, t.Held P p)
    (parameters : ∀ p ∈ f.parameters, t.Held P p.type) (result : t.Held P f.returnType)
    (plain : simple = true → f.typeParameters = []) :
    Yields (TableM.add (.function f)) t fun id t' =>
      Appended simple P t t' ∧ t'.Held P id := by
  refine yields_add ?_ (fun _ equal => nomatch equal) (fun _ isSimple g equal => ?_) sound
  · intro m mentioned
    simp only [TypeKind.mentions, List.mem_append, List.mem_map, List.mem_singleton] at mentioned
    obtain own | ⟨p, member, rfl⟩ | rfl := mentioned
    · exact typeParameters m own
    · exact parameters p member
    · exact result
  · obtain rfl := TypeKind.function.inj equal
    exact plain isSimple

theorem yields_addInstance {t : TypeTable} {i : InstantiatedType} (sound : t.Sound simple P)
    (origin : t.Held P i.origin) (generic : ∃ g, t.kind i.origin = .generic g)
    (arguments : ∀ p ∈ i.bindings.pairs, t.Held P p.2) :
    Yields (TableM.add (.instantiated i)) t fun id t' =>
      Appended simple P t t' ∧ t'.Held P id := by
  refine yields_add ?_ (fun j equal => ?_) (fun _ _ _ equal => nomatch equal) sound
  · intro m mentioned
    simp only [TypeKind.mentions, Dictionary.values, List.mem_cons, List.mem_map] at mentioned
    obtain rfl | ⟨p, member, rfl⟩ := mentioned
    · exact origin
    · exact arguments p member
  · obtain rfl := TypeKind.instantiated.inj equal
    exact generic

/-- Substitution appends entries and gives a type of the set. -/
theorem yields_applyWithin (fuel : Nat) {visiting : List TypeId} {id : TypeId} {t : TypeTable}
    (sound : t.Sound simple P) (held : t.Held P id)
    (bound : ∀ b ∈ bindings.values, t.Held P b) :
    Yields (applyWithin bindings fuel visiting id) t fun id' t' =>
      Appended simple P t t' ∧ t'.Held P id' := by
  induction fuel generalizing visiting id t with
  | zero => exact .pure ⟨.refl t, held⟩
  | succ fuel ih =>
      rw [applyWithin]
      cases found : bindings.find? id with
      | some b =>
          have listed : b ∈ bindings.values := List.mem_map_of_mem (Dictionary.mem_of_find? found)
          exact .pure ⟨.refl t, bound b listed⟩
      | none =>
          have kept : Yields (pure id) t fun id' t' => Appended simple P t t' ∧ t'.Held P id' :=
            .pure ⟨.refl t, held⟩
          dsimp only
          split
          · exact kept
          have descend : ∀ m ∈ (t.kind id).mentions, ∀ t', Appended simple P t t' →
              Yields (applyWithin bindings fuel (id :: visiting) m) t' fun m' t'' =>
                Appended simple P t' t'' ∧ t''.Held P m' := by
            intro m mentioned t' appended
            refine ih (appended.sound sound) ((sound.held held mentioned).grown appended.extended) ?_
            exact fun b member => (bound b member).grown appended.extended
          have read : Yields (TableM.kind id) t fun k t' => t' = t ∧ k = t.kind id := ⟨rfl, rfl⟩
          refine read.bind ?_
          rintro k t ⟨rfl, same⟩
          have parts : ∀ m ∈ k.mentions, ∀ u, Appended simple P t u →
              Yields (applyWithin bindings fuel (id :: visiting) m) u fun m' u' =>
                Appended simple P u u' ∧ u'.Held P m' := same ▸ descend
          have original : ∀ m ∈ k.mentions, t.Held P m := fun m mentioned =>
            sound.held held (same ▸ mentioned)
          have stable : ∀ (_ m : TypeId) u u', Appended simple P u u' → u.Held P m →
              u'.Held P m := fun _ m u u' appended here => here.grown appended.extended
          split
          · next o =>
              have replaced := Yields.sequential.properties appended_growth stable fun p member =>
                parts p.type (List.mem_map_of_mem member)
              refine replaced.bind fun properties u ⟨appended, pairs⟩ => ?_
              split
              · exact .pure ⟨appended, held.grown appended.extended⟩
              · have each : ∀ q ∈ properties.pairs, u.Held P q.2.type :=
                  forall₂_right (fun _ _ related => related.2.2) pairs
                refine (yields_addObject (appended.sound sound) each).weaken ?_
                exact fun id' u' ⟨later, here⟩ => ⟨appended.trans later, here⟩
          · next f =>
              have replaced := Yields.sequential.parameters appended_growth stable
                fun (p : Parameter) (member : p ∈ f.parameters) =>
                  parts p.type (by simp only [TypeKind.mentions]; grind)
              refine replaced.bind fun parameters u ⟨appended, pairs⟩ => ?_
              have result := parts f.returnType (by simp [TypeKind.mentions]) u appended
              refine result.bind fun returnType u' ⟨later, resultHeld⟩ => ?_
              have reached := appended.trans later
              split
              · exact .pure ⟨reached, held.grown reached.extended⟩
              · have before : ∀ p ∈ parameters, u.Held P p.type :=
                  forall₂_right (fun _ _ related => related.2) pairs
                have each : ∀ p ∈ parameters, u'.Held P p.type := fun p member =>
                  (before p member).grown later.extended
                refine (yields_addFunction (reached.sound sound) ?_ each resultHeld ?_).weaken ?_
                · intro p member
                  refine (original p ?_).grown reached.extended
                  simp [TypeKind.mentions, List.mem_of_mem_filter member]
                · intro isSimple
                  rw [sound.plain isSimple id held.1 held.2 f same.symm, List.filter_nil]
                · exact fun id' w ⟨last, here⟩ => ⟨reached.trans last, here⟩
          · next i =>
              have replaced := Yields.sequential.mapValuesM appended_growth stable
                fun (a : TypeId) (member : a ∈ i.bindings.values) =>
                  parts a (by simp [TypeKind.mentions, member])
              refine replaced.bind fun arguments u ⟨appended, pairs⟩ => ?_
              split
              · exact .pure ⟨appended, held.grown appended.extended⟩
              · obtain ⟨g, generic⟩ := sound.origin id held.1 i same.symm
                have origin : t.Held P i.origin := original i.origin (by simp [TypeKind.mentions])
                have each : ∀ q ∈ arguments.pairs, u.Held P q.2 :=
                  forall₂_right (fun _ _ related => related.2) pairs
                refine (yields_addInstance (i := ⟨i.origin, arguments⟩) (appended.sound sound)
                  (origin.grown appended.extended) ⟨g, ?_⟩ each).weaken ?_
                · exact (appended.extended.kind _ origin.1).trans generic
                · exact fun id' u' ⟨later, here⟩ => ⟨appended.trans later, here⟩
          · exact kept

theorem yields_substitute {id : TypeId} {t : TypeTable} (sound : t.Sound simple P)
    (held : t.Held P id) (bound : ∀ b ∈ bindings.values, t.Held P b) :
    Yields (substitute id bindings) t fun id' t' => Appended simple P t t' ∧ t'.Held P id' := by
  rw [substitute]
  split
  · exact .pure ⟨.refl t, held⟩
  · have read : Yields (get : TableM TypeTable) t fun u t' => u = t ∧ t' = t := ⟨rfl, rfl⟩
    refine read.bind ?_
    rintro _ _ ⟨rfl, rfl⟩
    exact yields_applyWithin _ sound held bound

/-- To remember a body of the set for arguments of the table keeps the table sound. -/
theorem sound_remember {t : TypeTable} {key : TypeId × List TypeId} {body : TypeId}
    (sound : t.Sound simple P) (origin : key.1 < t.size) (arguments : ∀ a ∈ key.2, a < t.size)
    (held : t.Held P body) :
    Sound simple P { t with resolved := t.resolved.insert key body } := by
  refine ⟨⟨sound.mentions, sound.origin, sound.precede, ?_⟩, sound.fresh, sound.closed,
    sound.plain, ?_⟩
  · intro other body' found
    rw [Dictionary.find?_insert] at found
    split at found
    · next same => exact same ▸ Option.some.inj found ▸ ⟨origin, arguments, held.1⟩
    · exact sound.remembered other body' found
  · intro other body' found member members
    rw [Dictionary.find?_insert] at found
    split at found
    · exact Option.some.inj found ▸ held.2
    · exact sound.kept other body' found member members

/-- Resolving gives a type of the set. -/
theorem yields_resolve {id : TypeId} {t : TypeTable} (sound : t.Sound simple P)
    (held : t.Held P id) :
    Yields (resolve id) t fun id' t' => Grown simple P t t' ∧ t'.Held P id' := by
  have read : Yields (get : TableM TypeTable) t fun u t' => u = t ∧ t' = t := ⟨rfl, rfl⟩
  refine read.bind ?_
  rintro _ _ ⟨rfl, rfl⟩
  rename_i t
  split
  · next i instantiated =>
      have origin : t.Held P i.origin :=
        sound.held held (by simp [instantiated, TypeKind.mentions])
      have arguments : ∀ a ∈ i.bindings.values, t.Held P a := fun a member =>
        sound.held held (by simp [instantiated, TypeKind.mentions, member])
      have known : ∀ a ∈ (instantiationKey i).2, a < t.size := fun a member =>
        (arguments a member).1
      dsimp only
      split
      · next body found =>
          refine .pure ⟨.refl t, (sound.remembered _ body found).2.2, ?_⟩
          exact sound.kept _ body found origin.2 fun a member => (arguments a member).2
      · obtain ⟨g, generic⟩ := sound.origin id held.1 i instantiated
        have body : t.Held P g.body := sound.held origin (by simp [generic, TypeKind.mentions])
        rw [generic]
        dsimp only
        split
        · exact .pure ⟨.refl t, body⟩
        · refine (yields_substitute sound body ?_).bind fun body' u ⟨appended, here⟩ => ?_
          · intro b member
            obtain ⟨pair, supplied, rfl⟩ := List.mem_map.mp (Dictionary.mem_values_ofList member)
            exact arguments pair.2 (List.of_mem_zip supplied).2
          · have remembered := @sound_remember simple P u (instantiationKey i) _
              (appended.sound sound)
              (Nat.lt_of_lt_of_le origin.1 appended.extended.size)
              (fun a member => Nat.lt_of_lt_of_le (known a member) appended.extended.size) here
            exact ⟨⟨⟨appended.extended.size, appended.extended.kind⟩, fun _ => remembered⟩, here⟩
  · exact .pure ⟨.refl t, held⟩

end Substitution

end StructuralTyping
