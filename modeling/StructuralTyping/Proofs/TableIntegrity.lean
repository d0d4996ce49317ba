import StructuralTyping.Proofs.Constructors
import StructuralTyping.Proofs.Expansion
import StructuralTyping.Proofs.QueryInvariants

/-! The integrity of the table under every sequence of operations, be they constructors
or queries, and whether they succeed or fail. Instances are built by one constructor,
which compares names, and copied by substitution, which does not; an entry may be filled
that others mention already. What carries the invariant is that the type parameters of a
generic interface have different names. -/
namespace StructuralTyping

open TableM (Yields)
open TypeTable

/-- What can be done with a table from outside. -/
inductive TableOperation where
  | makeObject (properties : List (String × Property))
  | makeFunction (type : FunctionType)
  | makeTypeParameter (name : String)
  | setConstraint (id constraint : TypeId)
  | reserve
  | define (id : TypeId) (kind : TypeKind)
  | makeGeneric (type : GenericType)
  | makeInstantiated (origin : TypeId) (bindings : List (String × TypeId))
  | substitute (id : TypeId) (bindings : Bindings)
  | resolve (id : TypeId)
  | infer (inference : Inference) (pattern actual : TypeId)
  | instantiate (id : TypeId) (argumentTypes : List TypeId) (explicit : Option (List TypeId))
  | assignable (strict : Bool) (source target : TypeId) (fresh : Bool)

namespace TableOperation

/-- The types that an operation is about. -/
def mentions : TableOperation → List TypeId
  | makeObject properties => properties.map fun p => p.2.type
  | makeFunction f => (TypeKind.function f).mentions
  | makeTypeParameter _ => []
  | setConstraint id constraint => [id, constraint]
  | reserve => []
  | define id kind => id :: kind.mentions
  | makeGeneric g => (TypeKind.generic g).mentions
  | makeInstantiated origin bindings => origin :: bindings.map Prod.snd
  | substitute id bindings => id :: (bindings.keys ++ bindings.values)
  | resolve id => [id]
  | infer i pattern actual =>
      pattern :: actual :: (i.typeParameters ++ (i.bindings.keys ++ i.bindings.values))
  | instantiate id argumentTypes explicit => id :: (argumentTypes ++ explicit.getD [])
  | assignable _ source target _ => [source, target]

/-- A constructor that fails gives no table, so there is the one from before. -/
def settle {α : Type} (before : TypeTable) :
    Except ConstructionError (α × TypeTable) → Except ConstructionError Unit × TypeTable
  | .ok (_, after) => (.ok (), after)
  | .error cause => (.error cause, before)

/-- A query does not fail as a constructor does; what it answers is left out. -/
def ask {α : Type} (t : TypeTable) (query : TableM α) : Except ConstructionError Unit × TypeTable :=
  (.ok (), (query.run t).2)

/-- The outcome of an operation and the table after it. -/
def run (t : TypeTable) : TableOperation → Except ConstructionError Unit × TypeTable
  | makeObject properties => settle t (t.addObject properties)
  | makeFunction f => (.ok (), (t.add (.function f)).2)
  | makeTypeParameter name => (.ok (), (t.addTypeParameter name).2)
  | setConstraint id constraint => (.ok (), t.setConstraint id constraint)
  | reserve => (.ok (), t.reserve.2)
  | define id kind => settle t ((t.define id kind).map fun after => ((), after))
  | makeGeneric g => (.ok (), (t.addGeneric g.name g.typeParameters g.body).2)
  | makeInstantiated origin bindings => settle t (t.addInstantiated origin bindings)
  | substitute id bindings => ask t (StructuralTyping.substitute id bindings)
  | resolve id => ask t (StructuralTyping.resolve id)
  | infer i pattern actual => ask t (i.infer pattern actual)
  | instantiate id argumentTypes explicit =>
      ask t (StructuralTyping.instantiate id argumentTypes explicit)
  | assignable strict source target fresh =>
      ask t (StructuralTyping.assignable strict source target fresh)

/-- The operation is about entries of the table, it fills entries with objects, functions
and `unknown`, and it makes interfaces generic in type parameters with different names. -/
structure Permitted (t : TypeTable) (op : TableOperation) : Prop where
  inside : ∀ id ∈ op.mentions, id < t.size
  fills : ∀ id kind, op = .define id kind → kind.Fills
  headed : ∀ g, op = .makeGeneric g → t.Headed g

end TableOperation

namespace TypeTable

/-- A table that sequences of operations lead to. -/
inductive Reached : TypeTable → Prop
  | initial : Reached .initial
  | step {t : TypeTable} (op : TableOperation) :
      Reached t → op.Permitted t → Reached (op.run t).2

/-- Everything mentioned is an entry, objects have different properties, instances bind
the parameters of their origins, what is remembered is about instances, and the first
entries are the primitive types and `unknown`. -/
structure Intact (t : TypeTable) : Prop extends t.WellFormed where
  flags : ∀ id, t.flag id = (t.kind id).flag
  distinct : ∀ id o, t.kind id = .object o → o.properties.Distinct
  headed : ∀ id g, t.kind id = .generic g → t.Headed g
  bindings : ∀ id i, t.kind id = .instantiated i → ∃ g, t.kind i.origin = .generic g ∧
    i.bindings.keys = g.typeParameters.map t.typeParameterName
  keys : ∀ key body, t.resolved.find? key = some body → ∃ g, t.kind key.1 = .generic g ∧
    key.2.length = g.typeParameters.length
  basic : TypeTable.initial.Extends t

namespace Intact

variable {t t' : TypeTable}

theorem initial_primitive {id : TypeId} {kind : TypeKind}
    (entry : TypeTable.initial.kind id = kind) (known : kind ≠ .unknown) :
    ∃ name, kind = .primitive name := by
  have listed := mem_entries_of_kind entry known
  simp only [TypeTable.initial, List.mem_toArray, List.mem_cons] at listed
  aesop

theorem initial : Intact .initial := by
  refine ⟨.of_fits (by decide) rfl, fun _ => rfl, ?_, ?_, ?_, ?_, .refl _⟩
  · exact fun id o entry => nomatch initial_primitive entry (by simp)
  · exact fun id g entry => nomatch initial_primitive entry (by simp)
  · exact fun id i entry => nomatch initial_primitive entry (by simp)
  · exact fun _ _ found => nomatch found

/-- The names of entries do not change when there are more. -/
theorem typeParameterName_extends {p : TypeId} (extended : t.Extends t') (inside : p < t.size) :
    t'.typeParameterName p = t.typeParameterName p := by
  unfold typeParameterName
  rw [extended.kind p inside]

theorem headed_extends {g : GenericType} (headed : t.Headed g) (extended : t.Extends t') :
    t'.Headed g := by
  refine headed.congr fun p member => ?_
  obtain ⟨name, constraint, entry⟩ := headed.parameters p member
  exact ⟨constraint, by rw [extended.entry entry (by simp), typeParameterName, entry]⟩

theorem names_extends {g : GenericType} (headed : t.Headed g) (extended : t.Extends t') :
    g.typeParameters.map t'.typeParameterName = g.typeParameters.map t.typeParameterName :=
  List.map_congr_left fun p member => by
    obtain ⟨name, constraint, entry⟩ := headed.parameters p member
    exact typeParameterName_extends extended (lt_size_of_kind entry (by simp))

/-- A new entry keeps the table intact if it is one that the constructors accept. -/
theorem add {kind : TypeKind} (intact : t.Intact) (mentions : ∀ m ∈ kind.mentions, m < t.size)
    (object : ∀ o, kind = .object o → o.properties.Distinct)
    (generic : ∀ g, kind = .generic g → t.Headed g)
    (instantiated : ∀ i, kind = .instantiated i → ∃ g, t.kind i.origin = .generic g ∧
      i.bindings.keys = g.typeParameters.map t.typeParameterName) : (t.add kind).2.Intact := by
  have extended := Extends.add t kind
  have sound := intact.toWellFormed.sound.add (fun m member => ⟨mentions m member, trivial⟩)
    (fun i same => (instantiated i same).imp fun g ⟨entry, _⟩ => entry) (by simp)
  have named {i : InstantiatedType} (bound : ∃ g, t.kind i.origin = .generic g ∧
      i.bindings.keys = g.typeParameters.map t.typeParameterName) :
      ∃ g, (t.add kind).2.kind i.origin = .generic g ∧
        i.bindings.keys = g.typeParameters.map (t.add kind).2.typeParameterName := by
    obtain ⟨g, entry, keys⟩ := bound
    refine ⟨g, extended.entry entry (by simp), keys.trans ?_⟩
    exact (names_extends (intact.headed _ g entry) extended).symm
  refine ⟨sound.toWellFormed, fun _ => rfl, ?_, ?_, ?_, ?_, intact.basic.trans extended⟩
  · intro id o entry
    rcases entry_add entry (by simp) with old | new
    · exact intact.distinct id o old
    · exact object o new
  · intro id g entry
    rcases entry_add entry (by simp) with old | new
    · exact headed_extends (intact.headed id g old) extended
    · exact headed_extends (generic g new) extended
  · intro id i entry
    rcases entry_add entry (by simp) with old | new
    · exact named (intact.bindings id i old)
    · exact named (instantiated i new)
  · intro key body found
    obtain ⟨g, entry, count⟩ := intact.keys key body found
    exact ⟨g, extended.entry entry (by simp), count⟩

/-- Changes of entries that settle declarations keep the table intact. -/
theorem settle (intact : t.Intact) (size : t'.size = t.size) (resolved : t'.resolved = t.resolved)
    (each : ∀ id, t'.kind id = t.kind id ∨
      (t.kind id).Settles (t'.kind id) ∧ ∀ m ∈ (t'.kind id).mentions, m < t.size) :
    t'.Intact := by
  have settled (id : TypeId) := (each id).imp_right And.left
  have parameter {p : TypeId} {name : String} {before : Option TypeId}
      (entry : t.kind p = .typeParameter name before) :
      ∃ after, t'.kind p = .typeParameter name after := by
    rcases settled p with same | settles
    · exact ⟨before, same.trans entry⟩
    · exact settles.typeParameter entry
  have headed {g : GenericType} (proper : t.Headed g) : t'.Headed g ∧
      g.typeParameters.map t'.typeParameterName = g.typeParameters.map t.typeParameterName := by
    refine ⟨proper.congr fun p member => ?_, List.map_congr_left fun p member => ?_⟩
    · obtain ⟨name, before, entry⟩ := proper.parameters p member
      rw [typeParameterName, entry]
      exact parameter entry
    · obtain ⟨name, before, entry⟩ := proper.parameters p member
      obtain ⟨after, entry'⟩ := parameter entry
      rw [typeParameterName, typeParameterName, entry, entry']
  refine ⟨intact.toWellFormed.settle size resolved each, fun _ => rfl, ?_, ?_, ?_, ?_, ?_⟩
  · intro id o entry
    rcases settled id with same | settles
    · exact intact.distinct id o (same ▸ entry)
    · exact settles.distinct entry
  · exact fun id g entry =>
      (headed (intact.headed id g ((TypeKind.Settles.generic_iff settled).mp entry))).1
  · intro id i entry
    obtain ⟨g, origin, keys⟩ :=
      intact.bindings id i ((TypeKind.Settles.instantiated_iff settled).mp entry)
    exact ⟨g, (TypeKind.Settles.generic_iff settled).mpr origin,
      keys.trans (headed (intact.headed _ g origin)).2.symm⟩
  · intro key body found
    obtain ⟨g, origin, count⟩ := intact.keys key body (resolved ▸ found)
    exact ⟨g, (TypeKind.Settles.generic_iff settled).mpr origin, count⟩
  · refine ⟨size ▸ intact.basic.size, fun id inside => ?_⟩
    rcases settled id with same | settles
    · exact same.trans (intact.basic.kind id inside)
    · -- the first entries are neither type parameters nor reserved
      obtain ⟨notPrimitive, notUnknown⟩ := settles.ne_basic
      have entry := intact.basic.kind id inside
      by_cases known : TypeTable.initial.kind id = .unknown
      · exact absurd (entry.trans known) notUnknown
      · obtain ⟨name, primitive⟩ := initial_primitive rfl known
        exact absurd (entry.trans primitive) (notPrimitive name)

end Intact

section Queries

/-- Copies have the names of what they are copies of, and a body is remembered under the
arguments of an instance. -/
theorem queryInvariant_intact : QueryInvariant Intact where
  closed intact := intact.toClosed
  unknown intact := Nat.lt_of_lt_of_le (by decide) intact.basic.size
  object {t id o properties} intact entry pairs := by
    have names : properties.keys = o.properties.keys :=
      keys_eq_of_forall₂ (pairs.imp fun _ _ parts => parts.1)
    refine intact.add ?_ ?_ (by simp) (by simp)
    · intro m mentioned
      obtain ⟨p, listed, rfl⟩ := List.mem_map.mp mentioned
      obtain ⟨pair, member, rfl⟩ := List.mem_map.mp listed
      exact forall₂_right (Q := fun q => q.2.type < t.size) (fun _ _ parts => parts.2.2) pairs pair
        member
    · intro _ same
      obtain rfl := TypeKind.object.inj same
      unfold Dictionary.Distinct
      exact names ▸ intact.distinct id o entry
  function {t id f parameters returnType} keep intact entry pairs result := by
    refine intact.add (fun m mentioned => ?_) (by simp) (by simp) (by simp)
    simp only [TypeKind.mentions, List.mem_append, List.mem_map, List.mem_singleton] at mentioned
    obtain own | ⟨p, member, rfl⟩ | rfl := mentioned
    · refine intact.mentions id (lt_size_of_kind entry (by simp)) m ?_
      simp [entry, TypeKind.mentions, List.mem_of_mem_filter own]
    · exact forall₂_right (Q := fun q => q.type < t.size) (fun _ _ parts => parts.2) pairs p member
    · exact result
  instantiated {t id i arguments} intact entry pairs := by
    have names : arguments.keys = i.bindings.keys :=
      keys_eq_of_forall₂ (pairs.imp fun _ _ parts => parts.1)
    have origin := intact.instanceOrigin entry
    refine intact.add (fun m mentioned => ?_) (by simp) (by simp) ?_
    · rcases List.mem_cons.mp mentioned with rfl | listed
      · exact origin
      · obtain ⟨pair, member, rfl⟩ := List.mem_map.mp listed
        exact forall₂_right (Q := fun q => q.2 < t.size) (fun _ _ parts => parts.2) pairs pair member
    · intro _ same
      obtain rfl := TypeKind.instantiated.inj same
      obtain ⟨g, generic, keys⟩ := intact.bindings id i entry
      exact ⟨g, generic, names.trans keys⟩
  remember {u t id i g body} _ entry generic _ extended intact inside := by
    have entry := extended.entry entry (by simp)
    have generic := extended.entry generic (by simp)
    have origin := intact.instanceOrigin entry
    have arguments := intact.argument entry
    refine ⟨⟨intact.mentions, intact.origin, intact.precede, ?_⟩, intact.flags, intact.distinct,
      fun id g entry => ?_, intact.bindings, ?_, ⟨intact.basic.size, intact.basic.kind⟩⟩
    · intro key body' found
      rw [Dictionary.find?_insert] at found
      split at found
      · next same => exact same ▸ Option.some.inj found ▸ ⟨origin, arguments, inside⟩
      · exact intact.remembered key body' found
    · exact ⟨(intact.headed id g entry).parameters, (intact.headed id g entry).distinct⟩
    · intro key body' found
      rw [Dictionary.find?_insert] at found
      split at found
      · next same =>
          subst same
          obtain ⟨g', generic', keys⟩ := intact.bindings id i entry
          have count := congrArg List.length keys
          rw [Dictionary.keys, List.length_map, List.length_map] at count
          exact ⟨g', generic', (List.length_map _).trans count⟩
      · exact intact.keys key body' found

end Queries

section Operations
variable {t : TypeTable}

theorem Intact.setConstraint (intact : t.Intact) {id constraint : TypeId}
    (inside : constraint < t.size) : (t.setConstraint id constraint).Intact := by
  have resolved : (t.setConstraint id constraint).resolved = t.resolved := by
    unfold TypeTable.setConstraint
    split <;> rfl
  refine intact.settle (by simp) resolved fun other => ?_
  rcases kind_setConstraint t id constraint other with same | ⟨name, before, entry, set⟩
  · exact .inl same
  · rw [entry, set]
    refine .inr ⟨.constraint name before _, fun m mentioned => ?_⟩
    obtain rfl : m = constraint := by simpa [TypeKind.mentions] using mentioned
    exact inside

theorem Intact.define (intact : t.Intact) {id : TypeId} {kind : TypeKind} {after : TypeTable}
    (mentions : ∀ m ∈ kind.mentions, m < t.size) (fills : kind.Fills)
    (defined : t.define id kind = .ok after) : after.Intact := by
  unfold TypeTable.define at defined
  split at defined
  · next pending =>
      have inside : id < t.size := lt_size_of_kind pending (by simp)
      obtain rfl := Except.ok.inj defined
      refine intact.settle (size_setKind t id kind) rfl fun other => ?_
      rw [kind_setKind inside]
      split
      · next same => exact .inr ⟨same ▸ pending ▸ .body fills, mentions⟩
      · exact .inl rfl
  · simp at defined

theorem Intact.addObject (intact : t.Intact) {properties : List (String × Property)}
    {id : TypeId} {after : TypeTable} (inside : ∀ p ∈ properties, p.2.type < t.size)
    (added : t.addObject properties = .ok (id, after)) : after.Intact := by
  unfold TypeTable.addObject at added
  cases built : ObjectType.ofProperties none properties with
  | error cause => simp [built, Except.map] at added
  | ok o =>
      obtain ⟨distinct, rfl⟩ := (ObjectType.ofProperties_eq_ok_iff _ _ _).mp built
      rw [built] at added
      obtain ⟨-, rfl⟩ := Prod.mk.inj (Except.ok.inj added)
      refine intact.add (fun m mentioned => ?_) (fun o same => ?_) nofun nofun
      · obtain ⟨p, listed, rfl⟩ := List.mem_map.mp mentioned
        obtain ⟨pair, member, rfl⟩ := List.mem_map.mp listed
        exact inside pair member
      · obtain rfl := TypeKind.object.inj same
        exact distinct

theorem Intact.addInstantiated (intact : t.Intact) {origin id : TypeId}
    {bindings : List (String × TypeId)} {after : TypeTable} (inside : origin < t.size)
    (arguments : ∀ a ∈ bindings.map Prod.snd, a < t.size)
    (added : t.addInstantiated origin bindings = .ok (id, after)) : after.Intact := by
  unfold TypeTable.addInstantiated at added
  split at added
  · next g generic =>
      have headed := intact.headed origin g generic
      cases bound : orderBindings g.name (g.typeParameters.map t.typeParameterName)
          (.ofList bindings) with
      | error cause => simp [bound, bind, Except.bind] at added
      | ok ordered =>
          simp only [bound, bind, Except.bind] at added
          obtain ⟨-, rfl⟩ := Prod.mk.inj (Except.ok.inj added)
          refine intact.add (fun m mentioned => ?_) (by simp) (by simp) fun i same => ?_
          · rcases List.mem_cons.mp mentioned with rfl | listed
            · exact inside
            · have supplied := values_orderBindings bound listed
              exact arguments m (Dictionary.mem_values_ofList supplied)
          · obtain rfl := TypeKind.instantiated.inj same
            exact ⟨g, generic, keys_orderBindings headed.distinct bound⟩
  · simp at added

/-- A constructor that fails changes nothing. -/
theorem run_error {op : TableOperation} {cause : ConstructionError}
    (failed : (op.run t).1 = .error cause) : (op.run t).2 = t := by
  have settled {α : Type} {result : Except ConstructionError (α × TypeTable)}
      (error : (TableOperation.settle t result).1 = .error cause) :
      (TableOperation.settle t result).2 = t := by
    cases result with
    | ok => exact nomatch error
    | error => rfl
  cases op with
  | makeObject => exact settled failed
  | define => exact settled failed
  | makeInstantiated => exact settled failed
  | _ => exact nomatch failed

theorem Intact.settled {α : Type} (intact : t.Intact)
    {result : Except ConstructionError (α × TypeTable)}
    (built : ∀ a after, result = .ok (a, after) → after.Intact) :
    (TableOperation.settle t result).2.Intact := by
  cases result with
  | error => exact intact
  | ok pair => exact built pair.1 pair.2 rfl

/-- Every operation that is permitted keeps the table intact, whether it fails or not. -/
theorem Intact.run (intact : t.Intact) {op : TableOperation} (permitted : op.Permitted t) :
    (op.run t).2.Intact := by
  have inside := permitted.inside
  have query := queryInvariant_intact
  cases op with
  | makeObject properties =>
      refine intact.settled fun _ _ added => intact.addObject (fun p member => ?_) added
      exact inside _ (List.mem_map_of_mem member)
  | makeFunction f => exact intact.add inside nofun nofun nofun
  | makeTypeParameter name => exact intact.add inside nofun nofun nofun
  | setConstraint id constraint =>
      exact intact.setConstraint (inside constraint (by simp [TableOperation.mentions]))
  | reserve => exact intact.add inside nofun nofun nofun
  | define id kind =>
      refine intact.settled fun _ after mapped => ?_
      cases defined : t.define id kind with
      | error => simp [defined, Except.map] at mapped
      | ok table =>
          rw [defined] at mapped
          obtain ⟨-, rfl⟩ := Prod.mk.inj (Except.ok.inj mapped)
          refine intact.define (fun m member => ?_) (permitted.fills id kind rfl) defined
          exact inside m (List.mem_cons_of_mem _ member)
  | makeGeneric g =>
      refine intact.add inside nofun (fun g' same => ?_) nofun
      obtain rfl := TypeKind.generic.inj same
      exact permitted.headed g rfl
  | makeInstantiated origin bindings =>
      refine intact.settled fun _ _ added => intact.addInstantiated ?_ ?_ added
      · exact inside origin List.mem_cons_self
      · exact fun a member => inside a (List.mem_cons_of_mem _ member)
  | substitute id bindings =>
      have values : ∀ b ∈ bindings.values, b < t.size := fun b member =>
        inside b (List.mem_cons_of_mem _ (List.mem_append_right _ member))
      have substituted := advances_substitute query intact (inside id List.mem_cons_self) values
      exact substituted.yields.1.keeps intact
  | resolve id =>
      exact (advances_resolve query intact (inside id List.mem_cons_self)).yields.1.keeps intact
  | infer i pattern actual =>
      have found : i.Within t := fun b member => inside b (by simp [TableOperation.mentions, member])
      exact (Inference.advances_infer query intact found (inside pattern List.mem_cons_self)
        (inside actual (by simp [TableOperation.mentions]))).yields.1.keeps intact
  | instantiate id argumentTypes explicit =>
      refine (advances_instantiate query intact (inside id List.mem_cons_self)
        (fun a member => inside a ?_) ?_).yields.1.keeps intact
      · simp [TableOperation.mentions, member]
      · rintro ids rfl a member
        exact inside a (by simp [TableOperation.mentions, member])
  | assignable strict source target fresh =>
      exact (Assignability.advances_assignable query strict fresh intact
        (inside source List.mem_cons_self)
        (inside target (by simp [TableOperation.mentions]))).yields.1.keeps intact

theorem Reached.intact (reached : t.Reached) : t.Intact := by
  induction reached with
  | initial => exact .initial
  | step op _ permitted ih => exact ih.run permitted

end Operations

section Boxes

open TableOperation (makeTypeParameter makeObject makeGeneric makeInstantiated)

/-- `Box<T>` with a property of type `T`. -/
def boxTable : TypeTable :=
  [makeTypeParameter "T", makeObject [("value", ⟨7, false⟩)], makeGeneric ⟨"Box", [7], 8⟩].foldl
    (fun t op => (op.run t).2) .initial

theorem boxTable_reached : boxTable.Reached := by
  refine .step _ (.step _ (.step _ .initial ?_) ?_) ?_
  · exact ⟨by decide, nofun, nofun⟩
  · exact ⟨by decide, nofun, nofun⟩
  · refine ⟨by decide, nofun, ?_⟩
    rintro _ ⟨⟩
    exact ⟨fun p member => ⟨"T", none, by simp_all; rfl⟩, by decide⟩

end Boxes

end TypeTable

end StructuralTyping
