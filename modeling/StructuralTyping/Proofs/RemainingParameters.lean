import Mathlib.Data.List.Perm.Subperm
import StructuralTyping.Proofs.FreeParameters
import StructuralTyping.Proofs.QueryInvariants

/-! What a substitution leaves behind. The descent stops at a type that is met again on the
way down, so bound type parameters may remain in a recursive type. Apart from that, a type
parameter that is free in the result comes with one of the bound types, or it is not bound
and was free in the type before. -/
namespace StructuralTyping

open TableM (Yields)
open TypeTable

namespace TypeTable

/-- The type is met again on the way down from it. -/
def Recursive (t : TypeTable) (id : TypeId) : Prop :=
  Relation.TransGen (fun id m => m ∈ (t.kind id).parts) id id

/-- The ways in which a type parameter can occur when the bindings are replaced in a type. -/
inductive Remains (t : TypeTable) (bindings : Bindings) (p id : TypeId) : Prop where
  | supplied {b : TypeId} (bound : b ∈ bindings.values) (free : t.OccursFree p b)
  | unbound (unbound : bindings.contains p = false) (free : t.OccursFree p id)
  | recursive {m : TypeId} (bound : bindings.contains p = true) (reached : t.Reaches id m)
      (recursive : t.Recursive m) (free : t.OccursFree p m)

/-- The types that the descent has come through. -/
structure CameThrough (t : TypeTable) (visiting : List TypeId) (id : TypeId) : Prop where
  nodup : visiting.Nodup
  above : ∀ v ∈ visiting, v < t.size ∧
    Relation.TransGen (fun id m => m ∈ (t.kind id).parts) v id

theorem CameThrough.start (t : TypeTable) (id : TypeId) : t.CameThrough [] id :=
  ⟨List.nodup_nil, List.forall_mem_nil _⟩

variable {t w : TypeTable} {bindings : Bindings} {visiting : List TypeId} {id m p : TypeId}

theorem CameThrough.down (through : t.CameThrough visiting id) (unvisited : id ∉ visiting)
    (inside : id < t.size) (part : m ∈ (t.kind id).parts) : t.CameThrough (id :: visiting) m := by
  refine ⟨List.nodup_cons.mpr ⟨unvisited, through.nodup⟩, fun v member => ?_⟩
  rcases List.mem_cons.mp member with rfl | above
  · exact ⟨inside, .single part⟩
  · exact ⟨(through.above v above).1, (through.above v above).2.tail part⟩

/-- No type is met twice, so the descent comes through no more types than there are. -/
theorem CameThrough.length_le (through : t.CameThrough visiting id) :
    visiting.length ≤ t.size := by
  have listed : visiting ⊆ List.range t.size := fun v member =>
    List.mem_range.mpr (through.above v member).1
  exact List.length_range (n := t.size) ▸ (List.subperm_of_subset through.nodup listed).length_le

/-- What remains in the parts of a rebuilt entry remains in the entry. -/
theorem Remains.of_rebuilt {id' : TypeId} (itself : p = id' → t.Remains bindings p id)
    (parts : ∀ m' ∈ (w.kind id').parts, ∃ m ∈ (t.kind id).parts,
      w.OccursFree p m' → t.Remains bindings p m)
    (binders : (w.kind id').binders = (t.kind id).binders.filter fun p => !bindings.contains p)
    (free : w.OccursFree p id') : t.Remains bindings p id := by
  cases free with
  | itself => exact itself rfl
  | part part undeclared inside =>
      obtain ⟨m, part, remains⟩ := parts _ part
      cases remains inside with
      | supplied bound free => exact .supplied bound free
      | unbound unbound free =>
          refine .unbound unbound (.part part (fun declared => undeclared ?_) free)
          rw [binders]
          exact List.mem_filter.mpr ⟨declared, by simp [unbound]⟩
      | recursive bound reached recursive free =>
          exact .recursive bound (reached.head part) recursive free

end TypeTable

theorem forall₂_exists_left {α β : Type} {R : α → β → Prop} {xs : List α} {ys : List β}
    (pairs : List.Forall₂ R xs ys) : ∀ y ∈ ys, ∃ x ∈ xs, R x y := by
  induction pairs with
  | nil => exact List.forall_mem_nil _
  | cons pair _ ih =>
      refine List.forall_mem_cons.mpr ⟨⟨_, List.mem_cons_self, pair⟩, fun y member => ?_⟩
      obtain ⟨x, listed, related⟩ := ih y member
      exact ⟨x, List.mem_cons_of_mem _ listed, related⟩

section Substitution
variable {base : TypeTable} {bindings : Bindings}

open Substitution

/-- The entry is made of the parts that became of those of an entry of the base, in their
places, and without the type parameters that are bound. It is that entry where nothing
changes, and a new one otherwise. -/
structure Rebuilt (base : TypeTable) (bindings : Bindings) (became : TypeId → TypeId → Prop)
    (id id' : TypeId) (t : TypeTable) : Prop where
  unbound : bindings.find? id = none
  place : id' = id ∨ base.size ≤ id' ∧
    ¬((t.kind id').parts = (base.kind id).parts ∧ (t.kind id').binders = (base.kind id).binders)
  shape : (t.kind id').shape = (base.kind id).shape
  binders : (t.kind id').binders = (base.kind id).binders.filter fun p => !bindings.contains p
  parts : List.Forall₂ became (base.kind id).parts (t.kind id').parts

/-- An entry with other parts is a new one if it differs. -/
theorem yields_rebuilt {became : TypeId → TypeId → Prop} {id : TypeId} {kind : TypeKind}
    {t : TypeTable} (unbound : bindings.find? id = none) (extended : base.Extends t)
    (inside : id < base.size) (parts : List.Forall₂ became (base.kind id).parts kind.parts)
    (binders : kind.binders = (base.kind id).binders.filter fun p => !bindings.contains p)
    (frame : kind.frame = (base.kind id).frame) :
    Yields (if kind = base.kind id then return id else TableM.add kind.unnamed) t fun id' t' =>
      (t' = t ∨ kind.isDerived = true ∧ t' = (t.add kind.unnamed).2) ∧
        Rebuilt base bindings became id id' t' := by
  have shape : kind.shape = (base.kind id).shape := congrArg TypeKind.unnamed frame
  split
  · next same =>
      have entry : t.kind id = kind := same ▸ extended.kind id inside
      refine .pure ⟨.inl rfl, unbound, .inl rfl, ?_, ?_, ?_⟩
      · rw [entry, shape]
      · rw [entry, binders]
      · rwa [entry]
  · next changed =>
      have entry := TypeTable.kind_add_size t kind.unnamed
      have added : Yields (TableM.add kind.unnamed) t fun id' t' =>
          id' = t.size ∧ t' = (t.add kind.unnamed).2 := ⟨rfl, rfl⟩
      refine added.weaken ?_
      rintro _ _ ⟨rfl, rfl⟩
      have derived := TypeKind.isDerived_of_frame frame changed
      refine ⟨.inr ⟨derived, rfl⟩, unbound, .inr ⟨extended.size, ?_⟩, ?_, ?_, ?_⟩
      · rintro ⟨sameParts, sameBinders⟩
        rw [entry, TypeKind.parts_unnamed] at sameParts
        rw [entry, TypeKind.binders_unnamed] at sameBinders
        exact changed (TypeKind.eq_of_frame frame sameParts sameBinders)
      · rw [entry, TypeKind.shape_unnamed, shape]
      · rw [entry, TypeKind.binders_unnamed, binders]
      · rwa [entry, TypeKind.parts_unnamed]

variable (wellFormed : base.WellFormed) (bound : ∀ b ∈ bindings.values, b < base.size)

include wellFormed bound

/-- What holds of bound type parameters and their types, of the recursive types that the
descent stops at, and of entries that are rebuilt from such parts, holds of a type and of
what it becomes. -/
theorem applyWithin_induction {motive : TypeId → TypeId → TypeTable → Prop}
    (stable : ∀ m m' u u', u.Grounded → m' < u.size → u.Extends u' → motive m m' u → motive m m' u')
    (supplied : ∀ m b u, base.Extends u → m < base.size → bindings.find? m = some b →
      motive m b u)
    (recursive : ∀ m u, base.Extends u → m < base.size → base.Recursive m →
      bindings.find? m = none → motive m m u)
    (rebuilt : ∀ m m' u, base.Extends u → u.Grounded → m < base.size →
      Rebuilt base bindings (fun n n' => n' < u.size ∧ motive n n' u) m m' u → motive m m' u)
    (fuel : Nat) {visiting : List TypeId} {id : TypeId} {t : TypeTable}
    (extended : base.Extends t) (grounded : t.Grounded) (inside : id < base.size)
    (through : base.CameThrough visiting id) (enough : base.size < fuel + visiting.length) :
    Yields (applyWithin bindings fuel visiting id) t fun id' t' =>
      Advances Grounded t t' ∧ id' < t'.size ∧ motive id id' t' := by
  induction fuel generalizing visiting id t with
  | zero =>
      have short := through.length_le
      omega
  | succ fuel ih =>
      have grows : Yields (applyWithin bindings (fuel + 1) visiting id) t fun id' t' =>
          Advances Grounded t t' ∧ id' < t'.size :=
        (advances_applyWithin queryInvariant_grounded _ grounded (extended.inside inside)
          fun b member => extended.inside (bound b member)).yields
      suffices holds : Yields (applyWithin bindings (fuel + 1) visiting id) t fun id' t' =>
          t'.Grounded → motive id id' t' from ⟨grows.1, grows.2, holds (grows.1.keeps grounded)⟩
      cases found : bindings.find? id with
      | some b =>
          rw [applyWithin, found]
          exact .pure fun _ => supplied id b t extended inside found
      | none =>
          by_cases visited : id ∈ visiting
          · rw [applyWithin, found]
            dsimp only
            rw [if_pos visited]
            exact .pure fun _ =>
              recursive id t extended inside (through.above id visited).2 found
          rw [applyWithin_rebuilds found visited]
          have read : Yields (TableM.kind id) t fun k t' => t' = t ∧ k = base.kind id :=
            ⟨rfl, extended.kind id inside⟩
          refine read.bind ?_
          rintro _ t ⟨rfl, rfl⟩
          have descend : ∀ m ∈ (base.kind id).parts, ∀ u, Advances Grounded t u →
              Yields (applyWithin bindings fuel (id :: visiting) m) u fun m' u' =>
                Advances Grounded u u' ∧ u'.Grounded ∧ m' < u'.size ∧ motive m m' u' := by
            intro m part u advances
            have holds := advances.keeps grounded
            have below := ih (extended.trans advances.extended) holds
              (wellFormed.part inside part) (through.down visited inside part)
              (by rw [List.length_cons]; omega)
            exact ⟨below.1, below.1.keeps holds, below.2⟩
          have later : ∀ m m' u u', Advances Grounded u u' →
              u.Grounded ∧ m' < u.size ∧ motive m m' u →
              u'.Grounded ∧ m' < u'.size ∧ motive m m' u' := by
            rintro m m' u u' advances ⟨holds, known, here⟩
            exact ⟨advances.keeps holds, advances.inside known,
              stable m m' u u' holds known advances.extended here⟩
          refine Yields.bind (TypeKind.yields_rebuildM Advances.growth
            (Q := fun m m' u => u.Grounded ∧ m' < u.size ∧ motive m m' u) later _ descend) ?_
          rintro kind u ⟨advances, parts, binders, frame⟩
          have further := extended.trans advances.extended
          refine (yields_rebuilt found further inside parts binders frame).weaken ?_
          rintro id' w ⟨rfl | ⟨-, rfl⟩, same⟩ holds
          · exact rebuilt id id' w further holds inside
              { same with parts := same.parts.imp fun _ _ each => each.2 }
          · have new : Advances Grounded u (u.add kind.unnamed).2 := .add holds
            exact rebuilt id id' _ (further.trans new.extended) holds inside
              { same with parts := same.parts.imp fun m m' each => (later m m' u _ new each).2 }

/-- The same, from the whole type. -/
theorem substitute_induction {motive : TypeId → TypeId → TypeTable → Prop}
    (stable : ∀ m m' u u', u.Grounded → m' < u.size → u.Extends u' → motive m m' u → motive m m' u')
    (nothing : ∀ m u, base.Extends u → m < base.size → bindings.pairs = [] → motive m m u)
    (supplied : ∀ m b u, base.Extends u → m < base.size → bindings.find? m = some b →
      motive m b u)
    (recursive : ∀ m u, base.Extends u → m < base.size → base.Recursive m →
      bindings.find? m = none → motive m m u)
    (rebuilt : ∀ m m' u, base.Extends u → u.Grounded → m < base.size →
      Rebuilt base bindings (fun n n' => n' < u.size ∧ motive n n' u) m m' u → motive m m' u)
    {id : TypeId} {t : TypeTable} (extended : base.Extends t) (grounded : t.Grounded)
    (inside : id < base.size) :
    Yields (substitute id bindings) t fun id' t' =>
      Advances Grounded t t' ∧ id' < t'.size ∧ motive id id' t' := by
  rw [substitute]
  split
  · next empty =>
      exact .pure ⟨.refl t, extended.inside inside,
        nothing id t extended inside (List.isEmpty_iff.mp empty)⟩
  · exact applyWithin_induction wellFormed bound stable supplied recursive rebuilt (t.size + 1)
      extended grounded inside (.start base id) (Nat.lt_succ_of_le extended.size)

end Substitution

section Leaving
variable {base : TypeTable} {bindings : Bindings}

/-- The table has grown from the base, and what occurs free in its type remains in the type
of the base that it was made from. -/
structure Leaves (base : TypeTable) (bindings : Bindings) (id id' : TypeId) (t : TypeTable) :
    Prop where
  extended : base.Extends t
  grounded : t.Grounded
  inside : id' < t.size
  remains : ∀ p < base.size, t.OccursFree p id' → base.Remains bindings p id

theorem Leaves.advances {id id' : TypeId} {t t' : TypeTable} (advances : Advances Grounded t t')
    (leaves : Leaves base bindings id id' t) : Leaves base bindings id id' t' where
  extended := leaves.extended.trans advances.extended
  grounded := advances.keeps leaves.grounded
  inside := advances.inside leaves.inside
  remains p known free := leaves.remains p known
    ((OccursFree.extends_iff leaves.grounded.toWellFormed advances.extended leaves.inside).mp free)

theorem leaves_substitute (wellFormed : base.WellFormed)
    (bound : ∀ b ∈ bindings.values, b < base.size) {id : TypeId} {t : TypeTable}
    (extended : base.Extends t) (grounded : t.Grounded) (inside : id < base.size) :
    Yields (substitute id bindings) t (Leaves base bindings id) := by
  let motive (m m' : TypeId) (u : TypeTable) : Prop :=
    ∀ p < base.size, u.OccursFree p m' → base.Remains bindings p m
  suffices held : Yields (substitute id bindings) t fun id' t' =>
      Advances Grounded t t' ∧ id' < t'.size ∧ motive id id' t' from
    ⟨extended.trans held.1.extended, held.1.keeps grounded, held.2.1, held.2.2⟩
  refine substitute_induction wellFormed bound ?_ ?_ ?_ ?_ ?_ extended grounded inside
  · intro m m' u u' holds known further remains p old free
    exact remains p old ((OccursFree.extends_iff holds.toWellFormed further known).mp free)
  · intro m u further known empty p _ free
    have unbound : bindings.contains p = false := by
      simp [Dictionary.contains, Dictionary.find?, empty, Dictionary.findIn?]
    exact .unbound unbound ((OccursFree.extends_iff wellFormed further known).mp free)
  · intro m b u further _ found p _ free
    have listed : b ∈ bindings.values := List.mem_map_of_mem (Dictionary.mem_of_find? found)
    exact .supplied listed ((OccursFree.extends_iff wellFormed further (bound b listed)).mp free)
  · intro m u further known recursive _ p _ later
    have free := (OccursFree.extends_iff wellFormed further known).mp later
    cases contained : bindings.contains p with
    | true => exact .recursive contained .refl recursive free
    | false => exact .unbound contained free
  · intro m m' u further holds known rebuilt p old free
    refine .of_rebuilt (fun here => ?_) (fun n' part => ?_) rebuilt.binders free
    · rcases rebuilt.place with rfl | ⟨new, -⟩
      · subst here
        exact .unbound (Option.isSome_eq_false_iff.mpr (rebuilt.unbound ▸ rfl)) .itself
      · exact absurd old (Nat.not_lt.mpr (here ▸ new))
    · obtain ⟨n, listed, -, remains⟩ := forall₂_exists_left rebuilt.parts n' part
      exact ⟨n, listed, remains p old⟩

end Leaving

end StructuralTyping
