import StructuralTyping.Proofs.MemberTypes
import StructuralTyping.Proofs.ResolvedBodies

/-! What a table of types keeps to while generic interfaces are declared and instances are
resolved. The members of an interface are written with its own type parameters, and an
instance has an argument for each of them. Every body that is remembered is the body of its
origin with the arguments put in. A table that grows by what may be declared, and by what
questions add, stays like this, and what it remembers it remembers from then on. -/
namespace StructuralTyping

open TableM (Yields)

theorem GenericType.mem_of_contains_bind {g : GenericType} {arguments : List TypeId} {p : TypeId}
    (bound : (g.bind arguments).contains p = true) : p ∈ g.typeParameters := by
  obtain ⟨pair, listed, rfl⟩ := List.mem_map.mp ((Dictionary.contains_ofList _ p).mp bound)
  exact (List.of_mem_zip listed).1

namespace TypeTable

variable {t t' t'' u : TypeTable} {id m p body : TypeId} {g : GenericType}
  {arguments : List TypeId}

/-- The property is the declared one, with the bindings replaced in its type. -/
structure PropertyReplaced (t : TypeTable) (bindings : Bindings)
    (declared made : String × Property) : Prop where
  name : made.1 = declared.1
  optional : made.2.optional = declared.2.optional
  type : t.Replaced bindings declared.2.type made.2.type

/-- The type is an object type with the properties that the interface declares, in their
order, in the types of which the arguments replace the type parameters. -/
def IsBodyOf (t : TypeTable) (g : GenericType) (arguments : List TypeId) (body : TypeId) : Prop :=
  ∃ declared made, t.kind g.body = .object declared ∧ t.kind body = .object made ∧
    List.Forall₂ (t.PropertyReplaced (g.bind arguments)) declared.properties.pairs
      made.properties.pairs

/-- The type has an argument for each type parameter of the interface. -/
structure InstanceOf (t : TypeTable) (i : InstantiatedType) (g : GenericType) : Prop where
  origin : t.kind i.origin = .generic g
  names : i.bindings.keys = g.typeParameters.map t.typeParameterName

/-- The body has been made of the body of the origin. -/
def Remembered (t : TypeTable) (key : TypeId × List TypeId) (body : TypeId) : Prop :=
  ∃ g, t.kind key.1 = .generic g ∧ t.IsBodyOf g key.2 body

/-- The interface is written with its own type parameters, as far as it is built. -/
structure InOrder (t : TypeTable) (g : GenericType) : Prop where
  body : t.kind g.body = .pending ∨ ∃ o, t.kind g.body = .object o
  members : ∀ m ∈ (t.kind g.body).parts, t.Written (· ∈ g.typeParameters) m
  parameters : ∀ p ∈ g.typeParameters, t.flag p = .typeParameter
  distinct : g.typeParameters.Nodup

/-- The generic interfaces, their instances and the bodies that are remembered are as they
should be. -/
structure Tidy (t : TypeTable) : Prop where
  basic : ∀ id ≤ TypeId.unknown, t.Apart id
  generics : ∀ origin g, t.kind origin = .generic g → t.InOrder g
  /-- A body belongs to one list of type parameters. -/
  bodies : ∀ origin g origin' g', t.kind origin = .generic g → t.kind origin' = .generic g' →
    g.body = g'.body → g.typeParameters = g'.typeParameters
  instances : ∀ id i, t.kind id = .instantiated i → ∃ g, t.InstanceOf i g
  remembered : ∀ key body, t.resolved.find? key = some body → t.Remembered key body

section Bodies

/-- Object types of one shape have the same properties, up to their types. -/
theorem forall₂_properties {o o' : ObjectType} {R : TypeId → TypeId → Prop}
    (shape : (TypeKind.object o').shape = (TypeKind.object o).shape)
    (types : ∀ pair ∈ (TypeKind.object o).parts.zip (TypeKind.object o').parts, R pair.1 pair.2) :
    List.Forall₂ (fun p q => q.1 = p.1 ∧ q.2.optional = p.2.optional ∧ R p.2.type q.2.type)
      o.properties.pairs o'.properties.pairs := by
  obtain ⟨-, erased⟩ := ObjectType.mk.inj (TypeKind.object.inj shape)
  have same := Dictionary.mk.inj erased
  have length : o'.properties.pairs.length = o.properties.pairs.length := by
    simpa using congrArg List.length same
  refine List.forall₂_iff_get.mpr ⟨length.symm, fun i inside inside' => ?_⟩
  have here : (o'.properties.pairs.map fun p => (p.1, { p.2 with type := 0 }))[i]? =
      (o.properties.pairs.map fun p => (p.1, { p.2 with type := 0 }))[i]? :=
    congrArg (·[i]?) same
  simp only [List.getElem?_map, List.getElem?_eq_getElem inside, List.getElem?_eq_getElem inside',
    Option.map_some, Option.some.injEq, Prod.mk.injEq, Property.mk.injEq] at here
  refine ⟨here.1, here.2.2, types (o.properties.pairs[i].2.type, o'.properties.pairs[i].2.type) ?_⟩
  refine List.mem_iff_getElem.mpr ⟨i, ?_, ?_⟩
  · simpa [TypeKind.parts, Dictionary.values] using Nat.lt_min.mpr ⟨inside, inside'⟩
  · simp [TypeKind.parts, Dictionary.values]

/-- What becomes of a body when the arguments replace the type parameters. -/
theorem Replaced.isBodyOf {o : ObjectType} (entry : t.kind g.body = .object o)
    (unbound : (g.bind arguments).find? g.body = none)
    (replaced : t.Replaced (g.bind arguments) g.body body) : t.IsBodyOf g arguments body := by
  cases replaced with
  | bound found => cases unbound.symm.trans found
  | kept unaffected =>
      refine ⟨o, o, entry, entry, List.forall₂_same.mpr fun p listed => ⟨rfl, rfl, .kept ?_⟩⟩
      have part : p.2.type ∈ (t.kind g.body).parts := by
        rw [entry]
        exact List.mem_map_of_mem (List.mem_map_of_mem listed)
      exact fun affected => unaffected (affected.of_part part)
  | rebuilt _ _ shape _ parts =>
      rw [entry] at shape parts
      have flag := congrArg TypeKind.flag shape
      rw [TypeKind.flag_shape, TypeKind.flag_shape] at flag
      cases entry' : t.kind body with
      | object o' =>
          rw [entry'] at shape parts
          exact ⟨o, o', entry, entry', (forall₂_properties shape parts).imp
            fun p q same => ⟨same.1, same.2.1, same.2.2⟩⟩
      | _ =>
          rw [entry'] at flag
          cases flag

end Bodies

namespace Matures

theorem typeParameterName (matures : t.Matures t') (leaf : t.flag p = .typeParameter) :
    t'.typeParameterName p = t.typeParameterName p := by
  unfold TypeTable.typeParameterName
  cases matures.settles p (lt_size_of_flag (by simp [leaf])) with
  | same same => rw [same]
  | constrained entry entry' => rw [entry, entry']
  | built pending =>
      rw [flag, pending] at leaf
      cases leaf

theorem instanceOf (matures : t.Matures t') (inOrder : t.InOrder g) {i : InstantiatedType}
    (instance' : t.InstanceOf i g) : t'.InstanceOf i g where
  origin := matures.generic instance'.origin
  names := by
    rw [instance'.names]
    exact List.map_congr_left fun p listed =>
      (matures.typeParameterName (inOrder.parameters p listed)).symm

/-- What was made of a body stays made of it, for the members of the body are written with
type parameters that belong to its interface. -/
theorem remembered (matures : t.Matures t') (tidy : t.Tidy) {key : TypeId × List TypeId}
    (remembered : t.Remembered key body) : t'.Remembered key body := by
  obtain ⟨g, origin, declared, made, entry, entry', properties⟩ := remembered
  have reserved : ∀ p, (g.bind key.2).contains p = true → t.OfInterface p := fun p bound =>
    ⟨key.1, g, origin, .inr (GenericType.mem_of_contains_bind bound)⟩
  have object {id : TypeId} {o : ObjectType} (entry : t.kind id = .object o) :
      t'.kind id = .object o :=
    matures.kind entry (by simp) (by simp) (by simp [TypeKind.flag])
  refine ⟨g, matures.generic origin, declared, made, object entry, object entry', ?_⟩
  refine List.forall₂_iff_zip.mpr ⟨properties.length_eq, fun {p q} zipped => ?_⟩
  obtain ⟨name, optional, type⟩ := (List.forall₂_iff_zip.mp properties).2 zipped
  have part : p.2.type ∈ (t.kind g.body).parts := by
    rw [entry]
    exact List.mem_map_of_mem (List.mem_map_of_mem (List.of_mem_zip zipped).1)
  have written := (tidy.generics key.1 g origin).members p.2.type part
  exact ⟨name, optional, matures.replaced reserved written type⟩

end Matures

/-- The table matures. What it declares besides is in order, at most one generic interface is
new, and with it are its body and its type parameters. -/
structure Enters (t t' : TypeTable) (new : Option GenericType) : Prop where
  matures : t.Matures t'
  generics : ∀ origin g, t'.kind origin = .generic g → t.kind origin = .generic g ∨ g ∈ new
  fresh : ∀ g ∈ new, t.size ≤ g.body ∧ t'.InOrder g
  filled : ∀ origin g, t.kind origin = .generic g → t.kind g.body = .pending →
    ∀ m ∈ (t'.kind g.body).parts, t'.Written (· ∈ g.typeParameters) m
  instances : ∀ id i, t'.kind id = .instantiated i →
    t.kind id = .instantiated i ∨ ∃ g, t'.InstanceOf i g
  remembered : ∀ key body, t'.resolved.find? key = some body →
    t.resolved.find? key = some body ∨ t'.Remembered key body

theorem InOrder.inside (inOrder : t.InOrder g) : g.body < t.size := by
  rcases inOrder.body with pending | ⟨o, built⟩
  · exact lt_size_of_kind pending (by simp)
  · exact lt_size_of_kind built (by simp)

/-- An interface stays in order, if what its body is filled with is. -/
theorem InOrder.matures (inOrder : t.InOrder g) (matures : t.Matures t')
    (filled : t.kind g.body = .pending →
      ∀ m ∈ (t'.kind g.body).parts, t'.Written (· ∈ g.typeParameters) m) : t'.InOrder g where
  body := by
    cases matures.settles g.body inOrder.inside with
    | same same => exact same ▸ inOrder.body
    | constrained before =>
        have body := inOrder.body
        simp [before] at body
    | built _ entry => exact .inr ⟨_, entry⟩
  members := by
    rcases inOrder.body with pending | ⟨o, built⟩
    · exact filled pending
    · rw [matures.kind built (by simp) (by simp) (by simp [TypeKind.flag]), ← built]
      exact fun m part => matures.written (inOrder.members m part)
  parameters p listed := matures.leaf (inOrder.parameters p listed)
  distinct := inOrder.distinct

/-- The table stays tidy. -/
theorem Tidy.enters (tidy : t.Tidy) {new : Option GenericType} (enters : t.Enters t' new) :
    t'.Tidy where
  basic id early := enters.matures.apart (tidy.basic id early)
  generics origin g generic := by
    rcases enters.generics origin g generic with old | fresh
    · exact (tidy.generics origin g old).matures enters.matures (enters.filled origin g old)
    · exact (enters.fresh g fresh).2
  bodies origin g origin' g' generic generic' same := by
    rcases enters.generics origin g generic with old | fresh
    · rcases enters.generics origin' g' generic' with old' | fresh'
      · exact tidy.bodies origin g origin' g' old old' same
      · have before := (tidy.generics origin g old).inside
        exact absurd (same ▸ (enters.fresh g' fresh').1) (Nat.not_le.mpr before)
    · rcases enters.generics origin' g' generic' with old' | fresh'
      · have before := (tidy.generics origin' g' old').inside
        exact absurd (same ▸ (enters.fresh g fresh).1) (Nat.not_le.mpr before)
      · rw [Option.mem_unique fresh fresh']
  instances id i entry := by
    rcases enters.instances id i entry with old | new
    · obtain ⟨g, instance'⟩ := tidy.instances id i old
      exact ⟨g, enters.matures.instanceOf (tidy.generics _ g instance'.origin) instance'⟩
    · exact new
  remembered key body found := by
    rcases enters.remembered key body found with old | new
    · exact enters.matures.remembered tidy (tidy.remembered key body old)
    · exact new

/-- The ways in which a table changes: entries are appended, type parameters receive their
constraints, bodies are filled once, and what has not been made before is remembered. -/
inductive Changes (t : TypeTable) : TypeTable → Prop where
  | add (kind : TypeKind) : Changes t (t.add kind).2
  | constrain (id constraint : TypeId) : Changes t (t.setConstraint id constraint)
  | fill {id : TypeId} (pending : t.kind id = .pending) (o : ObjectType) :
      Changes t (t.setKind id (.object o))
  | remember {key : TypeId × List TypeId} (body : TypeId)
      (unmade : t.resolved.find? key = none) : Changes t (t.remember key body)

section Entering

/-- What is appended below the generic interfaces leaves them as they are. -/
theorem Tidy.enters_add (tidy : t.Tidy) (kind : TypeKind) (plain : ∀ g, kind ≠ .generic g)
    (origin : ∀ i, kind = .instantiated i → ∃ g, t.InstanceOf i g) :
    t.Enters (t.add kind).2 none := by
  have generics : ∀ origin g, (t.add kind).2.kind origin = .generic g →
      t.kind origin = .generic g := fun origin g generic =>
    (entry_add generic (by simp)).resolve_right (plain g)
  have matures : t.Matures (t.add kind).2 := by
    refine ⟨by simp, fun id inside => .same (kind_add_of_lt inside kind), ?_⟩
    rintro id - ⟨origin, g, generic, belongs⟩
    exact ⟨origin, g, generics origin g generic, belongs⟩
  refine ⟨matures, fun origin g generic => .inl (generics origin g generic), by simp, ?_, ?_,
    fun _ _ found => .inl found⟩
  · intro origin g generic pending
    rw [kind_add_of_lt (lt_size_of_kind pending (by simp)), pending]
    exact List.forall_mem_nil _
  · intro id i entry
    refine (entry_add entry (by simp)).imp_right fun same => ?_
    obtain ⟨g, instance'⟩ := origin i same
    exact ⟨g, matures.instanceOf (tidy.generics _ g instance'.origin) instance'⟩

theorem enters_setConstraint (t : TypeTable) (id constraint : TypeId) :
    t.Enters (t.setConstraint id constraint) none := by
  have generics : ∀ origin g, (t.setConstraint id constraint).kind origin = .generic g →
      t.kind origin = .generic g := fun origin g generic => generic_setConstraint generic
  have matures : t.Matures (t.setConstraint id constraint) := by
    refine ⟨by simp, fun other _ => ?_, ?_⟩
    · rcases kind_setConstraint t id constraint other with same | ⟨name, before, entry, entry'⟩
      · exact .same same
      · exact .constrained entry entry'
    · rintro other - ⟨origin, g, generic, belongs⟩
      exact ⟨origin, g, generics origin g generic, belongs⟩
  refine ⟨matures, fun origin g generic => .inl (generics origin g generic), by simp, ?_, ?_, ?_⟩
  · intro origin g generic pending
    rcases kind_setConstraint t id constraint g.body with same | ⟨name, before, entry, -⟩
    · rw [same, pending]
      exact List.forall_mem_nil _
    · cases pending.symm.trans entry
  · intro other i entry
    rcases kind_setConstraint t id constraint other with same | ⟨name, before, -, entry'⟩
    · exact .inl (same ▸ entry)
    · cases entry.symm.trans entry'
  · intro key body found
    refine .inl ?_
    unfold setConstraint at found
    split at found <;> exact found

section Filling
variable {o : ObjectType} (pending : t.kind id = .pending)

include pending

theorem generic_fill {origin : TypeId} :
    (t.setKind id (.object o)).kind origin = .generic g ↔ t.kind origin = .generic g := by
  rw [kind_setKind (lt_size_of_kind pending (by simp))]
  split
  · next same => simp [← same, pending]
  · rfl

theorem open_fill : (t.setKind id (.object o)).Open m ↔ t.Open m := by
  refine and_congr (by rw [size_setKind]) (not_congr ?_)
  exact exists_congr fun origin => exists_congr fun g => and_congr_left' (generic_fill pending)

/-- Types stay apart, whatever the body of one of them is filled with that is apart. -/
theorem Apart.fill (members : t.Open id → ∀ m ∈ (TypeKind.object o).parts, t.Apart m)
    (apart : t.Apart m) : (t.setKind id (.object o)).Apart m := by
  have entry (n : TypeId) := kind_setKind (lt_size_of_kind pending (by simp)) (.object o) n
  intro n reached
  have before : t.Apart n := by
    induction reached with
    | refl => exact apart
    | tail _ part ih =>
        rw [entry] at part
        split at part
        · next same => exact members (same ▸ ih.itself) _ part
        · exact ih.part part
  refine ⟨(open_fill pending).mpr before.itself, fun p declared => (open_fill pending).mpr ?_⟩
  rw [entry] at declared
  split at declared
  · cases declared
  · exact (before n .refl).2 p declared

/-- The body of an interface is filled with members that are written with its own type
parameters. -/
theorem enters_fill
    (members : ∀ origin g, t.kind origin = .generic g → g.body = id →
      ∀ m ∈ (TypeKind.object o).parts, t.Written (· ∈ g.typeParameters) m)
    (plain : t.Open id → ∀ m ∈ (TypeKind.object o).parts, t.Apart m) :
    t.Enters (t.setKind id (.object o)) none := by
  have inside := lt_size_of_kind pending (by simp)
  have matures : t.Matures (t.setKind id (.object o)) := by
    refine ⟨by simp, fun other _ => ?_, ?_⟩
    · by_cases same : id = other
      · refine .built (same ▸ pending) (by rw [kind_setKind inside, if_pos same]) ?_
        exact fun isOpen m part => (plain (same ▸ isOpen) m part).fill pending plain
      · exact .same (by rw [kind_setKind inside, if_neg same])
    · rintro other - ⟨origin, g, generic, belongs⟩
      exact ⟨origin, g, (generic_fill pending).mp generic, belongs⟩
  refine ⟨matures, fun origin g generic => .inl ((generic_fill pending).mp generic), by simp, ?_,
    ?_, fun _ _ found => .inl found⟩
  · intro origin g generic unbuilt m part
    rw [kind_setKind inside] at part
    split at part
    · next same => exact matures.written (members origin g generic same.symm m part)
    · rw [unbuilt] at part
      cases part
  · intro other i entry
    rw [kind_setKind inside] at entry
    split at entry
    · cases entry
    · exact .inl entry

end Filling

theorem enters_remember {key : TypeId × List TypeId} (made : t.Remembered key body)
    (tidy : t.Tidy) : t.Enters (t.remember key body) none := by
  have matures : t.Matures (t.remember key body) := (Derives.remember t _).matures
  refine ⟨matures, fun _ _ generic => .inl generic, by simp, ?_, fun _ _ entry => .inl entry, ?_⟩
  · intro origin g generic pending m part
    have unbuilt : (t.remember key body).kind g.body = .pending := pending
    rw [unbuilt] at part
    cases part
  · intro key' body' found
    rw [remember, Dictionary.find?_insert] at found
    split at found
    · next same =>
        obtain rfl := Option.some.inj found
        exact .inr (matures.remembered tidy (same ▸ made))
    · exact .inl found

/-- Type parameters and bodies to be filled are appended, and nothing else. -/
structure Prepares (t t' : TypeTable) : Prop where
  extended : t.Extends t'
  leaves : ∀ id, t.size ≤ id → id < t'.size → t'.flag id = .typeParameter ∨ t'.flag id = .pending
  resolved : t'.resolved = t.resolved

theorem Prepares.refl (t : TypeTable) : t.Prepares t where
  extended := .refl t
  leaves _ outside inside := absurd inside (Nat.not_lt.mpr outside)
  resolved := rfl

theorem Prepares.trans (one : t.Prepares t') (two : t'.Prepares t'') : t.Prepares t'' where
  extended := one.extended.trans two.extended
  leaves id outside inside := by
    by_cases between : id < t'.size
    · rw [flag, two.extended.kind id between]
      exact one.leaves id outside between
    · exact two.leaves id (Nat.le_of_not_lt between) inside
  resolved := two.resolved.trans one.resolved

theorem Prepares.add (t : TypeTable) {kind : TypeKind}
    (leaf : kind.flag = .typeParameter ∨ kind.flag = .pending) : t.Prepares (t.add kind).2 where
  extended := .add t kind
  leaves id outside inside := by
    rw [size_add] at inside
    obtain rfl : id = t.size := Nat.le_antisymm (Nat.le_of_lt_succ inside) outside
    rw [flag, kind_add_size]
    exact leaf
  resolved := rfl

/-- What was no type parameter and no body was there before. -/
theorem Prepares.before (prepares : t.Prepares t') {kind : TypeKind} (entry : t'.kind id = kind)
    (known : kind ≠ .unknown) (parameter : kind.flag ≠ .typeParameter)
    (pending : kind.flag ≠ .pending) : t.kind id = kind := by
  by_cases old : id < t.size
  · rw [← prepares.extended.kind id old]
    exact entry
  · rcases prepares.leaves id (Nat.le_of_not_lt old) (lt_size_of_kind entry known) with leaf | leaf
    · exact absurd (entry ▸ leaf) parameter
    · exact absurd (entry ▸ leaf) pending

/-- What is new belongs to no interface that was there. -/
theorem Tidy.open_of_new (tidy : t.Tidy)
    (generics : ∀ origin g, t'.kind origin = .generic g → t.kind origin = .generic g)
    (new : t.size ≤ id) (inside : id < t'.size) : t'.Open id := by
  refine ⟨inside, ?_⟩
  rintro ⟨origin, g, generic, belongs⟩
  have inOrder := tidy.generics origin g (generics origin g generic)
  refine absurd new (Nat.not_le.mpr ?_)
  rcases belongs with rfl | listed
  · exact inOrder.inside
  · exact lt_size_of_flag (by simp [inOrder.parameters id listed])

theorem Prepares.apart_of_new (prepares : t.Prepares t') (tidy : t.Tidy) (new : t.size ≤ id)
    (inside : id < t'.size) : t'.Apart id := by
  have leaf : (t'.kind id).parts = [] ∧ (t'.kind id).binders = [] := by
    have either := prepares.leaves id new inside
    unfold flag at either
    revert either
    cases t'.kind id <;> simp [TypeKind.flag, TypeKind.parts, TypeKind.binders]
  refine .of_parts (tidy.open_of_new (fun origin g generic => ?_) new inside) ?_ ?_
  · exact prepares.before generic (by simp) (by simp [TypeKind.flag]) (by simp [TypeKind.flag])
  · rw [leaf.2]
    exact List.forall_mem_nil _
  · rw [leaf.1]
    exact List.forall_mem_nil _

section Announcing
variable (prepares : t.Prepares t')
  (parameters : ∀ p ∈ g.typeParameters, t.size ≤ p ∧ t'.flag p = .typeParameter)
  (pending : t'.kind g.body = .pending)

include prepares

/-- The generic interface is the one that is new. -/
theorem Prepares.generics {origin : TypeId} {h : GenericType}
    (generic : (t'.add (.generic g)).2.kind origin = .generic h) :
    t.kind origin = .generic h ∨ h = g := by
  rcases entry_add generic (by simp) with old | new
  · exact .inl (prepares.before old (by simp) (by simp [TypeKind.flag]) (by simp [TypeKind.flag]))
  · exact .inr (TypeKind.generic.inj new).symm

include parameters pending

/-- A generic interface is entered after its type parameters and its body. -/
theorem Prepares.enters (distinct : g.typeParameters.Nodup) (body : t.size ≤ g.body) :
    t.Enters (t'.add (.generic g)).2 (some g) := by
  have extended := prepares.extended.trans (.add t' (.generic g))
  have reserved : (t'.add (.generic g)).2.kind g.body = .pending := by
    rw [kind_add_of_lt (lt_size_of_kind pending (by simp)), pending]
  have inOrder : (t'.add (.generic g)).2.InOrder g := by
    refine ⟨.inl reserved, ?_, fun p listed => ?_, distinct⟩
    · rw [reserved]
      exact List.forall_mem_nil _
    · have leaf := (parameters p listed).2
      rw [flag, kind_add_of_lt (lt_size_of_flag (by simp [leaf]))]
      exact leaf
  refine ⟨⟨extended.size, fun id inside => .same (extended.kind id inside), ?_⟩, ?_, ?_, ?_, ?_, ?_⟩
  · rintro id inside ⟨origin, h, generic, belongs⟩
    rcases prepares.generics generic with old | rfl
    · exact ⟨origin, h, old, belongs⟩
    · rcases belongs with rfl | listed
      · exact absurd inside (Nat.not_lt.mpr body)
      · exact absurd inside (Nat.not_lt.mpr (parameters id listed).1)
  · exact fun origin h generic => (prepares.generics generic).imp_right fun same => by simp [same]
  · rintro _ ⟨⟩
    exact ⟨body, inOrder⟩
  · intro origin h generic unbuilt
    rw [extended.kind h.body (lt_size_of_kind unbuilt (by simp)), unbuilt]
    exact List.forall_mem_nil _
  · intro id i entry
    rcases entry_add entry (by simp) with old | new
    · exact .inl (prepares.before old (by simp) (by simp [TypeKind.flag]) (by simp [TypeKind.flag]))
    · cases new
  · exact fun key made found => .inl (prepares.resolved ▸ found)

/-- What the name of a generic interface stands for is apart from all interfaces. -/
theorem Prepares.apart_generic (tidy : t.Tidy) : (t'.add (.generic g)).2.Apart t'.size := by
  have belongs_before : ∀ origin h, (t'.add (.generic g)).2.kind origin = .generic h →
      t'.size = h.body ∨ t'.size ∈ h.typeParameters → t'.size < t'.size := by
    intro origin h generic belongs
    rcases prepares.generics generic with old | rfl
    · have inOrder := tidy.generics origin h old
      refine Nat.lt_of_lt_of_le ?_ prepares.extended.size
      rcases belongs with same | listed
      · exact same ▸ inOrder.inside
      · exact lt_size_of_flag (by simp [inOrder.parameters _ listed])
    · rcases belongs with same | listed
      · exact same ▸ lt_size_of_kind pending (by simp)
      · exact lt_size_of_flag (by simp [(parameters _ listed).2])
  refine .of_parts ⟨by simp, ?_⟩ ?_ ?_
  · rintro ⟨origin, h, generic, belongs⟩
    exact Nat.lt_irrefl _ (belongs_before origin h generic belongs)
  · rw [kind_add_size]
    exact List.forall_mem_nil _
  · rw [kind_add_size]
    exact List.forall_mem_nil _

end Announcing

end Entering

section Questions

/-- The body that substitution makes of the body of an interface. -/
theorem Tidy.remembered_substitute (tidy : t.Tidy) {key : TypeId × List TypeId}
    (origin : t.kind key.1 = .generic g) (built : t.kind g.body ≠ .pending)
    (run : (substitute g.body (g.bind key.2)).run t = (body, u)) : u.Remembered key body := by
  have inOrder := tidy.generics key.1 g origin
  obtain ⟨o, entry⟩ := inOrder.body.resolve_left built
  have unbound : (g.bind key.2).find? g.body = none := by
    refine Dictionary.find?_of_not_contains fun bound => ?_
    have leaf := inOrder.parameters g.body (GenericType.mem_of_contains_bind bound)
    rw [flag, entry] at leaf
    cases leaf
  have reserved : ∀ p, (g.bind key.2).contains p = true → t.OfInterface p := fun p bound =>
    ⟨key.1, g, origin, .inr (GenericType.mem_of_contains_bind bound)⟩
  have replaced := replaced_substitute_composed reserved inOrder.inside unbound inOrder.members
  have develops := derives_substitute g.body (g.bind key.2) t
  rw [Yields, run] at replaced
  rw [run] at develops
  exact ⟨g, develops.extended.entry origin (by simp),
    replaced.isBodyOf (develops.extended.entry entry (by simp)) unbound⟩

theorem Develops.tidy (develops : t.Develops t') (tidy : t.Tidy) : t'.Tidy := by
  induction develops with
  | start => exact tidy
  | @add u kind _ derived copied ih =>
      refine ih.enters (ih.enters_add kind ?_ fun i same => ?_)
      · rintro g rfl
        cases derived
      · obtain ⟨id, original, entry, origin, names⟩ := copied i same
        obtain ⟨g, instance'⟩ := ih.instances id original entry
        exact ⟨g, origin ▸ instance'.origin, names ▸ instance'.names⟩
  | remember _ _ origin built run _ begun before =>
      exact before.enters (enters_remember (begun.remembered_substitute origin built run) before)

end Questions

section Resolving

/-- What is remembered is remembered from then on. -/
theorem find?_resolved_of_changes (later : Relation.ReflTransGen Changes t t')
    {key : TypeId × List TypeId} (found : t.resolved.find? key = some body) :
    t'.resolved.find? key = some body := by
  induction later with
  | refl => exact found
  | tail _ change ih =>
      cases change with
      | add => exact ih
      | constrain =>
          unfold setConstraint
          split <;> exact ih
      | fill => exact ih
      | @remember other _ unmade =>
          rw [remember, Dictionary.find?_insert, if_neg]
          · exact ih
          · rintro rfl
            cases unmade.symm.trans ih

/-- The instance is resolved to the body of its origin, with the arguments in the places of the
type parameters, and whatever is asked or declared later, it stays so. -/
structure ResolvesTo (t : TypeTable) (id : TypeId) (i : InstantiatedType) (g : GenericType)
    (body : TypeId) (t' : TypeTable) : Prop where
  run : (resolve id).run t = (body, t')
  extended : t.Extends t'
  /-- The argument for a type parameter is the one in its place. -/
  bound : (g.bind i.bindings.values).pairs = g.typeParameters.zip i.bindings.values
  count : i.bindings.values.length = g.typeParameters.length
  replaced : t'.IsBodyOf g i.bindings.values body
  /-- No function in the body declares a type parameter of the interface, so the functions that
  are made of them declare what they declare. -/
  undeclared : ∀ m, t'.Reaches g.body m → ∀ p ∈ (t'.kind m).binders, p ∉ g.typeParameters
  again : ∀ t'', Relation.ReflTransGen Changes t' t'' →
    ∀ id' i', t''.kind id' = .instantiated i' → instantiationKey i' = instantiationKey i →
      (resolve id').run t'' = (body, t'')

/-- Every instance is one of a generic interface, and it is resolved to the body of the
interface if that is built. -/
def ResolvesInstances (t : TypeTable) : Prop :=
  ∀ id i, t.kind id = .instantiated i → ∃ g, t.InstanceOf i g ∧
    (t.kind g.body ≠ .pending → ∃ body t', t.ResolvesTo id i g body t')

/-- No function in the body of an interface declares a type parameter of the interface. -/
theorem Tidy.undeclared (tidy : t.Tidy) {origin : TypeId} (generic : t.kind origin = .generic g)
    (reached : t.Reaches g.body m) : ∀ p ∈ (t.kind m).binders, p ∉ g.typeParameters := by
  intro p declared listed
  have inOrder := tidy.generics origin g generic
  rcases Relation.ReflTransGen.cases_head reached with rfl | ⟨n, part, further⟩
  · rcases inOrder.body with pending | ⟨o, built⟩
    · simp [pending, TypeKind.binders] at declared
    · simp [built, TypeKind.binders] at declared
  · have other := ((inOrder.members n part).undeclared further p declared).2
    exact other ⟨origin, g, generic, .inr listed⟩

theorem Tidy.resolvesInstances (tidy : t.Tidy) : t.ResolvesInstances := by
  intro id i entry
  obtain ⟨g, instance'⟩ := tidy.instances id i entry
  refine ⟨g, instance', fun built => ?_⟩
  have develops := derives_resolve id t
  have resolves := t.resolves id
  rw [Yields] at resolves
  generalize ran : (resolve id).run t = outcome at develops resolves
  obtain ⟨body, t'⟩ := outcome
  dsimp only at develops resolves
  have tidy' := develops.tidy tidy
  have found : t'.resolved.find? (instantiationKey i) = some body := by
    cases resolves with
    | plain plain => exact absurd (congrArg TypeKind.flag entry) plain
    | remembered entry' found =>
        obtain rfl := TypeKind.instantiated.inj (entry'.symm.trans entry)
        exact found
    | pending entry' _ origin pending =>
        obtain rfl := TypeKind.instantiated.inj (entry'.symm.trans entry)
        obtain rfl := TypeKind.generic.inj (origin.symm.trans instance'.origin)
        exact absurd pending built
    | made entry' =>
        obtain rfl := TypeKind.instantiated.inj (entry'.symm.trans entry)
        rw [remember, Dictionary.find?_insert, if_pos rfl]
    | stray entry' _ stray =>
        obtain rfl := TypeKind.instantiated.inj (entry'.symm.trans entry)
        exact absurd instance'.origin (stray g)
  have generic := develops.extended.entry instance'.origin (by simp)
  obtain ⟨g', origin, isBody⟩ := tidy'.remembered _ body found
  obtain rfl := TypeKind.generic.inj (origin.symm.trans generic)
  have count : i.bindings.values.length = g'.typeParameters.length := by
    simpa [Dictionary.keys, Dictionary.values] using congrArg List.length instance'.names
  have distinct : ((g'.typeParameters.zip i.bindings.values).map Prod.fst).Nodup := by
    rw [List.map_fst_zip (Nat.le_of_eq count.symm)]
    exact (tidy.generics _ g' instance'.origin).distinct
  refine ⟨body, t', ran, develops.extended, Dictionary.pairs_ofList distinct, count, isBody,
    fun m reached => tidy'.undeclared generic reached, ?_⟩
  intro t'' later id' i' entry' same
  exact run_resolve_remembered entry' (same ▸ find?_resolved_of_changes later found)

/-- Whatever is asked about its types, the table resolves instances. -/
def ResolvesThroughout (t : TypeTable) : Prop := ∀ u, t.Develops u → u.ResolvesInstances

theorem Tidy.resolvesThroughout (tidy : t.Tidy) : t.ResolvesThroughout :=
  fun _ develops => (develops.tidy tidy).resolvesInstances

/-- The table changes bit by bit, and it resolves instances all the time. -/
def Passes : TypeTable → TypeTable → Prop :=
  Relation.ReflTransGen fun t t' => t.Changes t' ∧ t'.ResolvesThroughout

theorem Passes.refl (t : TypeTable) : t.Passes t := Relation.ReflTransGen.refl

theorem Passes.tail (passes : t.Passes t') (change : t'.Changes t'') (tidy : t''.Tidy) :
    t.Passes t'' :=
  Relation.ReflTransGen.tail passes ⟨change, tidy.resolvesThroughout⟩

theorem Passes.single (change : t.Changes t') (tidy : t'.Tidy) : t.Passes t' :=
  (Passes.refl t).tail change tidy

/-- Questions change the table in the known ways. -/
theorem Develops.passes (develops : t.Develops t') (tidy : t.Tidy) : t.Passes t' := by
  induction develops with
  | start => exact .refl t
  | @add u kind before derived copied ih =>
      have after : t.Develops (u.add kind).2 := .add before derived copied
      exact ih.tail (.add kind) (after.tidy tidy)
  | @remember s u key g body begun before origin built run unmade _ ih =>
      have after : t.Develops (u.remember key body) :=
        .remember begun before origin built run unmade
      exact ih.tail (.remember body unmade) (after.tidy tidy)

end Resolving

end TypeTable

end StructuralTyping
