import StructuralTyping.Proofs.ReplacedTypes

/-! The types that the members of a generic interface are written with. They are composed of
the type parameters of the interface and of types in which nothing belongs to any generic
interface. Such a type mentions the type parameters in its own structure alone, so it is
recursive only where it mentions none of them, and substitution replaces them everywhere in
it. While the table matures, what has been replaced stays replaced. -/
namespace StructuralTyping

open TableM (Yields)

namespace TypeTable

/-- The entry belongs to the declaration of a generic interface: it is the body or one of the
type parameters. -/
def OfInterface (t : TypeTable) (id : TypeId) : Prop :=
  ∃ origin g, t.kind origin = .generic g ∧ (id = g.body ∨ id ∈ g.typeParameters)

/-- The entry belongs to no generic interface. -/
def Open (t : TypeTable) (id : TypeId) : Prop := id < t.size ∧ ¬t.OfInterface id

/-- What is met on the way down from the type belongs to no generic interface. -/
def Apart (t : TypeTable) (id : TypeId) : Prop :=
  ∀ m, t.Reaches id m → t.Open m ∧ ∀ p ∈ (t.kind m).binders, t.Open p

/-- The type is composed of the given type parameters and of types that are apart from every
generic interface. -/
inductive Written (t : TypeTable) (own : TypeId → Prop) : TypeId → Prop where
  | apart {id : TypeId} (apart : t.Apart id) : Written t own id
  | parameter {p : TypeId} (listed : own p) (leaf : t.flag p = .typeParameter) :
      Written t own p
  | composed {id : TypeId} (itself : t.Open id) (derived : (t.kind id).isDerived = true)
      (binders : ∀ p ∈ (t.kind id).binders, t.Open p)
      (parts : ∀ m ∈ (t.kind id).parts, Written t own m) : Written t own id

variable {t t' t'' : TypeTable} {own : TypeId → Prop} {bindings : Bindings} {id id' m p : TypeId}

theorem kind_parts_of_parameter (leaf : t.flag p = .typeParameter) :
    (t.kind p).parts = [] ∧ (t.kind p).binders = [] :=
  TypeKind.leaf_of_typeParameter leaf

theorem lt_size_of_flag (known : t.flag id ≠ .unknown) : id < t.size := by
  refine lt_size_of_kind rfl fun unknown => known ?_
  rw [flag, unknown]
  rfl

namespace Apart

theorem itself (apart : t.Apart id) : t.Open id := (apart id .refl).1

theorem of_reaches (apart : t.Apart id) (reached : t.Reaches id m) : t.Apart m :=
  fun n further => apart n (reached.trans further)

theorem part (apart : t.Apart id) (part : m ∈ (t.kind id).parts) : t.Apart m :=
  apart.of_reaches (.single part)

/-- A type is apart if its parts are, and what it declares. -/
theorem of_parts (itself : t.Open id) (binders : ∀ p ∈ (t.kind id).binders, t.Open p)
    (parts : ∀ m ∈ (t.kind id).parts, t.Apart m) : t.Apart id := by
  intro m reached
  rcases Relation.ReflTransGen.cases_head reached with rfl | ⟨n, part, further⟩
  · exact ⟨itself, binders⟩
  · exact parts n part m further

/-- Bindings for what belongs to generic interfaces do not affect the type. -/
theorem not_affected (apart : t.Apart id)
    (reserved : ∀ p, bindings.contains p = true → t.OfInterface p) : ¬t.Affected bindings id := by
  rintro ⟨m, reached, concerned⟩
  obtain ⟨⟨-, other⟩, binders⟩ := apart m reached
  rcases concerned with ⟨b, found, -⟩ | ⟨p, declared, bound⟩
  · exact other (reserved m (Option.isSome_iff_exists.mpr ⟨b, found⟩))
  · exact (binders p declared).2 (reserved p bound)

end Apart

namespace Written

theorem inside (written : t.Written own id) : id < t.size := by
  cases written with
  | apart apart => exact apart.itself.1
  | parameter _ leaf => exact lt_size_of_flag (by simp [leaf])
  | composed itself => exact itself.1

theorem part (written : t.Written own id) (part : m ∈ (t.kind id).parts) : t.Written own m := by
  cases written with
  | apart apart => exact .apart (apart.part part)
  | parameter _ leaf =>
      rw [(kind_parts_of_parameter leaf).1] at part
      exact absurd part List.not_mem_nil
  | composed _ _ _ parts => exact parts m part

/-- Nothing in the type is declared by a generic interface. -/
theorem undeclared (written : t.Written own id) (reached : t.Reaches id m) :
    ∀ p ∈ (t.kind m).binders, t.Open p := by
  induction reached using Relation.ReflTransGen.head_induction_on with
  | refl =>
      cases written with
      | apart apart => exact (apart m .refl).2
      | parameter _ leaf =>
          rw [(kind_parts_of_parameter leaf).2]
          exact List.forall_mem_nil _
      | composed _ _ binders => exact binders
  | head part _ ih => exact ih (written.part part)

theorem mono {own' : TypeId → Prop} (written : t.Written own id) (wider : ∀ p, own p → own' p) :
    t.Written own' id := by
  induction written with
  | apart apart => exact .apart apart
  | parameter listed leaf => exact .parameter (wider _ listed) leaf
  | composed itself derived binders _ ih => exact .composed itself derived binders ih

/-- Without type parameters of its own, the type is apart. -/
theorem apart_of_none (none : ∀ p, ¬own p) (written : t.Written own id) : t.Apart id := by
  induction written with
  | apart apart => exact apart
  | parameter own => exact absurd own (none _)
  | composed itself _ binders _ ih => exact .of_parts itself binders ih

/-- The type parameters stand at the ends of a tree, so a way that leads back to the type does
not come by them. -/
theorem apart_of_recursive (written : t.Written own id) (recursive : t.Recursive id) :
    t.Apart id := by
  induction written with
  | apart apart => exact apart
  | parameter _ leaf =>
      obtain ⟨m, part, -⟩ := Relation.TransGen.head'_iff.mp recursive
      rw [(kind_parts_of_parameter leaf).1] at part
      exact absurd part List.not_mem_nil
  | composed _ _ _ _ ih =>
      obtain ⟨m, part, back⟩ := Relation.TransGen.head'_iff.mp recursive
      exact (ih m part (.tail' back part)).of_reaches back

end Written

/-- What becomes of an entry: it stays, a type parameter receives its constraint, or a body is
built. If the body belongs to no generic interface, its members are apart. -/
inductive Settled (t t' : TypeTable) (id : TypeId) : Prop where
  | same (same : t'.kind id = t.kind id)
  | constrained {name : String} {before after : Option TypeId}
      (entry : t.kind id = .typeParameter name before)
      (entry' : t'.kind id = .typeParameter name after)
  | built {o : ObjectType} (pending : t.kind id = .pending) (entry : t'.kind id = .object o)
      (parts : t.Open id → ∀ m ∈ (TypeKind.object o).parts, t'.Apart m)

/-- The table grows and its declarations are settled. No old entry becomes part of a generic
interface. -/
structure Matures (t t' : TypeTable) : Prop where
  size : t.size ≤ t'.size
  settles : ∀ id < t.size, t.Settled t' id
  reserved : ∀ id < t.size, t'.OfInterface id → t.OfInterface id

namespace Matures

theorem inside (matures : t.Matures t') (inside : id < t.size) : id < t'.size :=
  Nat.lt_of_lt_of_le inside matures.size

theorem «open» (matures : t.Matures t') (isOpen : t.Open id) : t'.Open id :=
  ⟨matures.inside isOpen.1, fun reserved => isOpen.2 (matures.reserved id isOpen.1 reserved)⟩

/-- Entries that are neither type parameters nor waiting for a body stay as they are. -/
theorem kind (matures : t.Matures t') {kind : TypeKind} (entry : t.kind id = kind)
    (known : kind ≠ .unknown) (ready : kind ≠ .pending) (other : kind.flag ≠ .typeParameter) :
    t'.kind id = kind := by
  cases matures.settles id (lt_size_of_kind entry known) with
  | same same => rw [same, entry]
  | constrained before => exact absurd (congrArg TypeKind.flag (entry.symm.trans before)) other
  | built pending => exact absurd (entry.symm.trans pending) ready

theorem derived (matures : t.Matures t') (derived : (t.kind id).isDerived = true) :
    t'.kind id = t.kind id := by
  refine matures.kind rfl ?_ ?_ ?_
  all_goals
    intro same
    revert derived
    cases entry : t.kind id <;> simp_all [TypeKind.isDerived, TypeKind.flag]

theorem generic (matures : t.Matures t') {g : GenericType} (generic : t.kind id = .generic g) :
    t'.kind id = .generic g :=
  matures.kind generic (by simp) (by simp) (by simp [TypeKind.flag])

theorem leaf (matures : t.Matures t') (leaf : t.flag p = .typeParameter) :
    t'.flag p = .typeParameter := by
  cases matures.settles p (lt_size_of_flag (by simp [leaf])) with
  | same same => rwa [flag, same]
  | constrained _ after =>
      rw [flag, after]
      rfl
  | built pending =>
      rw [flag, pending] at leaf
      cases leaf

theorem apart (matures : t.Matures t') (apart : t.Apart id) : t'.Apart id := by
  intro m reached
  induction reached using Relation.ReflTransGen.head_induction_on with
  | refl =>
      obtain ⟨itself, binders⟩ := apart m .refl
      refine ⟨matures.open itself, ?_⟩
      cases matures.settles m itself.1 with
      | same same =>
          rw [same]
          exact fun p declared => matures.open (binders p declared)
      | constrained _ entry' | built _ entry' =>
          rw [entry']
          exact List.forall_mem_nil _
  | @head n k part further ih =>
      have itself := apart.itself
      cases matures.settles n itself.1 with
      | same same =>
          rw [same] at part
          exact ih (apart.part part)
      | constrained _ entry' =>
          rw [entry'] at part
          exact absurd part List.not_mem_nil
      | built _ entry' parts =>
          rw [entry'] at part
          exact parts itself k part m further

theorem refl (t : TypeTable) : t.Matures t :=
  ⟨Nat.le_refl _, fun _ _ => .same rfl, fun _ _ => id⟩

theorem trans (one : t.Matures t') (two : t'.Matures t'') : t.Matures t'' where
  size := Nat.le_trans one.size two.size
  reserved id inside reserved :=
    one.reserved id inside (two.reserved id (one.inside inside) reserved)
  settles id inside := by
    cases one.settles id inside with
    | same same =>
        cases two.settles id (one.inside inside) with
        | same same' => exact .same (same'.trans same)
        | constrained entry entry' => exact .constrained (same ▸ entry) entry'
        | built pending entry parts =>
            exact .built (same ▸ pending) entry fun isOpen => parts (one.open isOpen)
    | constrained entry between =>
        cases two.settles id (one.inside inside) with
        | same same' => exact .constrained entry (same'.trans between)
        | constrained between' after =>
            obtain ⟨rfl, -⟩ := TypeKind.typeParameter.inj (between.symm.trans between')
            exact .constrained entry after
        | built pending => cases between.symm.trans pending
    | built pending between parts =>
        have after := two.kind between (by simp) (by simp) (by simp [TypeKind.flag])
        exact .built pending after fun isOpen m part => two.apart (parts isOpen m part)

theorem written (matures : t.Matures t') (written : t.Written own id) : t'.Written own id := by
  induction written with
  | apart apart => exact .apart (matures.apart apart)
  | parameter own leaf => exact .parameter own (matures.leaf leaf)
  | composed itself derived binders _ ih =>
      have same := matures.derived derived
      refine .composed (matures.open itself) (same ▸ derived) ?_ (same ▸ ih)
      rw [same]
      exact fun p declared => matures.open (binders p declared)

section Bindings
variable (reserved : ∀ p, bindings.contains p = true → t.OfInterface p)

include reserved

/-- Whether bindings affect a type that is written is settled from the start. -/
theorem affected_iff (matures : t.Matures t') (written : t.Written own id) :
    t'.Affected bindings id ↔ t.Affected bindings id := by
  induction written with
  | apart apart =>
      have later : ∀ p, bindings.contains p = true → t'.OfInterface p := by
        intro p bound
        obtain ⟨origin, g, generic, belongs⟩ := reserved p bound
        exact ⟨origin, g, matures.generic generic, belongs⟩
      exact iff_of_false ((matures.apart apart).not_affected later) (apart.not_affected reserved)
  | parameter _ leaf =>
      obtain ⟨parts, binders⟩ := kind_parts_of_parameter leaf
      obtain ⟨parts', binders'⟩ := kind_parts_of_parameter (matures.leaf leaf)
      rw [TypeTable.affected_iff, TypeTable.affected_iff, Concerned, Concerned, parts, parts',
        binders, binders']
      simp
  | composed _ derived _ _ ih =>
      rw [TypeTable.affected_iff, TypeTable.affected_iff, Concerned, Concerned,
        matures.derived derived]
      exact or_congr Iff.rfl (exists_congr fun m => and_congr_right fun part => ih m part)

theorem replaced (matures : t.Matures t') (written : t.Written own id)
    (replaced : t.Replaced bindings id id') : t'.Replaced bindings id id' := by
  induction replaced with
  | bound found => exact .bound found
  | kept unaffected => exact .kept ((affected_iff reserved matures written).not.mpr unaffected)
  | @rebuilt id id' unbound affected shape binders parts ih =>
      cases written with
      | apart apart => exact absurd affected (apart.not_affected reserved)
      | parameter _ leaf =>
          obtain ⟨noParts, noBinders⟩ := kind_parts_of_parameter leaf
          exact ((affected.composite unbound).elim (· noParts) (· noBinders)).elim
      | composed itself derived openBinders written =>
          have same := matures.derived derived
          have derived' : (t.kind id').isDerived = true := by
            have flag := congrArg TypeKind.flag shape
            rw [TypeKind.flag_shape, TypeKind.flag_shape] at flag
            revert derived flag
            cases t.kind id <;> cases t.kind id' <;> simp [TypeKind.isDerived, TypeKind.flag]
          have same' := matures.derived derived'
          have affected' := (affected_iff reserved matures
            (.composed itself derived openBinders written)).mpr affected
          refine .rebuilt unbound affected' (by rw [same, same', shape])
            (by rw [same, same', binders]) ?_
          rw [same, same']
          exact fun pair zipped => ih pair zipped (written _ (List.of_mem_zip zipped).1)

end Bindings

end Matures

/-- Questions settle no declarations. -/
theorem Derives.matures (derives : t.Derives t') : t.Matures t' where
  size := derives.extended.size
  settles id inside := .same (derives.extended.kind id inside)
  reserved := by
    rintro id inside ⟨origin, g, generic, belongs⟩
    exact ⟨origin, g, derives.kind_of_not_derived generic (by simp) rfl, belongs⟩

end TypeTable

section Substitution
variable {base : TypeTable} {own : TypeId → Prop} {bindings : Bindings}
  (reserved : ∀ p, bindings.contains p = true → base.OfInterface p)

open Substitution TypeTable

include reserved

/-- One step of a substitution, where the parts are written and become what they are with the
bindings replaced. -/
theorem replaced_step {fuel : Nat} {visiting : List TypeId} {id : TypeId} {t : TypeTable}
    (begun : base.Derives t) (inside : id < base.size) (unbound : bindings.find? id = none)
    (unvisited : id ∉ visiting) (parts : ∀ m ∈ (base.kind id).parts, base.Written own m)
    (below : ∀ m ∈ (base.kind id).parts, ∀ u, base.Derives u →
      Yields (applyWithin bindings fuel (id :: visiting) m) u fun m' u' =>
        u.Derives u' ∧ u'.Replaced bindings m m') :
    Yields (applyWithin bindings (fuel + 1) visiting id) t fun id' t' =>
      t'.Replaced bindings id id' := by
  let became (m m' : TypeId) (u : TypeTable) : Prop :=
    base.Derives u ∧ base.Written own m ∧ u.Replaced bindings m m'
  have lasts : ∀ m m' u u', u.Derives u' → became m m' u → became m m' u' := by
    rintro m m' u u' further ⟨since, written, replaced⟩
    have reserved' : ∀ p, bindings.contains p = true → u.OfInterface p := by
      intro p bound
      obtain ⟨origin, g, generic, belongs⟩ := reserved p bound
      exact ⟨origin, g, since.matures.generic generic, belongs⟩
    exact ⟨since.trans further, written,
      further.matures.replaced reserved' (since.matures.written written) replaced⟩
  rw [applyWithin_rebuilds unbound unvisited]
  have read : Yields (TableM.kind id) t fun k t' => t' = t ∧ k = base.kind id :=
    ⟨rfl, begun.extended.kind id inside⟩
  refine read.bind ?_
  rintro _ t ⟨rfl, rfl⟩
  have growth : Growth Derives := ⟨.refl, .trans⟩
  have descends : ∀ m ∈ (base.kind id).parts, ∀ u, t.Derives u →
      Yields (applyWithin bindings fuel (id :: visiting) m) u fun m' u' =>
        u.Derives u' ∧ became m m' u' := by
    intro m part u further
    have here := below m part u (begun.trans further)
    exact ⟨here.1, (begun.trans further).trans here.1, parts m part, here.2⟩
  refine Yields.bind (TypeKind.yields_rebuildM growth lasts _ descends) ?_
  rintro kind u ⟨further, pairs, binders, frame⟩
  have since := begun.trans further
  refine (yields_rebuilt unbound since.extended inside pairs binders frame).weaken ?_
  rintro id' w ⟨grown, rebuilt⟩
  have later : u.Derives w := by
    rcases grown with rfl | ⟨derived, rfl⟩
    · exact .refl w
    · exact .add u (by simpa using derived)
  refine rebuilt.replaced ((since.trans later).extended.kind id inside) fun pair zipped => ?_
  exact (lasts _ _ u w later ((List.forall₂_iff_zip.mp rebuilt.parts).2 zipped)).2.2

/-- In a type that is written, the bindings are replaced everywhere: where the descent stops at
a type that is met again, they do not affect it. -/
theorem replaced_applyWithin (fuel : Nat) {visiting : List TypeId} {id : TypeId} {t : TypeTable}
    (begun : base.Derives t) (written : base.Written own id)
    (through : base.CameThrough visiting id) (enough : base.size < fuel + visiting.length) :
    Yields (applyWithin bindings fuel visiting id) t fun id' t' => t'.Replaced bindings id id' := by
  induction fuel generalizing visiting id t with
  | zero =>
      have short := through.length_le
      omega
  | succ fuel ih =>
      cases found : bindings.find? id with
      | some b =>
          rw [applyWithin, found]
          exact .pure (.bound found)
      | none =>
          by_cases visited : id ∈ visiting
          · rw [applyWithin, found]
            dsimp only
            rw [if_pos visited]
            have apart := written.apart_of_recursive (through.above id visited).2
            have unaffected := apart.not_affected reserved
            exact .pure (.kept ((begun.matures.affected_iff reserved written).not.mpr unaffected))
          · refine replaced_step reserved begun written.inside found visited
              (fun m part => written.part part) fun m part u since => ⟨?_, ?_⟩
            · exact (derives_applyWithin bindings fuel (id :: visiting) m u).toDerives
            · exact ih since (written.part part) (through.down visited written.inside part)
                (by rw [List.length_cons]; omega)

/-- In what is composed of types that are written, the bindings are replaced everywhere. -/
theorem replaced_substitute_composed {id : TypeId} (inside : id < base.size)
    (unbound : bindings.find? id = none)
    (parts : ∀ m ∈ (base.kind id).parts, base.Written own m) :
    Yields (substitute id bindings) base fun id' t' => t'.Replaced bindings id id' := by
  rw [substitute]
  split
  · next empty => exact .pure (.kept (not_affected_of_empty (List.isEmpty_iff.mp empty)))
  · have read : Yields (get : TableM TypeTable) base fun u t' => u = base ∧ t' = base := ⟨rfl, rfl⟩
    refine read.bind ?_
    rintro _ _ ⟨rfl, rfl⟩
    refine replaced_step reserved (.refl _) inside unbound List.not_mem_nil parts
      fun m part u since => ⟨?_, ?_⟩
    · exact (derives_applyWithin bindings _ [id] m u).toDerives
    · exact replaced_applyWithin reserved _ since (parts m part)
        ((CameThrough.start _ id).down List.not_mem_nil inside part) (by simp)

end Substitution

end StructuralTyping
