import Mathlib.Logic.Relation
import StructuralTyping.Proofs.DerivedEntries

/-! Where type parameters occur. Substitution goes from a type to the types that it is
made of; a function may declare some of the type parameters that occur in its parts, and
then they are not free in it. -/
namespace StructuralTyping

open TableM (Yields)

namespace TypeTable

/-- The second type is met on the way down from the first. -/
def Reaches (t : TypeTable) : TypeId → TypeId → Prop :=
  Relation.ReflTransGen fun id m => m ∈ (t.kind id).parts

/-- The type parameter occurs in the type, and no function on the way to it declares it. -/
inductive OccursFree (t : TypeTable) (p : TypeId) : TypeId → Prop where
  | itself : OccursFree t p p
  | part {id m : TypeId} (part : m ∈ (t.kind id).parts) (undeclared : p ∉ (t.kind id).binders)
      (inside : OccursFree t p m) : OccursFree t p id

variable {t t' : TypeTable} {id m p : TypeId}

/-- A table that is extended has nothing new to say about its own types. -/
theorem OccursFree.extends_iff (wellFormed : t.WellFormed) (extended : t.Extends t')
    (inside : id < t.size) : t'.OccursFree p id ↔ t.OccursFree p id := by
  constructor
  · intro free
    induction free with
    | itself => exact .itself
    | part part undeclared _ ih =>
        rw [extended.kind _ inside] at part undeclared
        exact .part part undeclared (ih (wellFormed.part inside part))
  · intro free
    induction free with
    | itself => exact .itself
    | part part undeclared _ ih =>
        have further := ih (wellFormed.part inside part)
        rw [← extended.kind _ inside] at part undeclared
        exact .part part undeclared further

theorem Reaches.of_extends (wellFormed : t.WellFormed) (extended : t.Extends t')
    (inside : id < t.size) (reached : t'.Reaches id m) : t.Reaches id m ∧ m < t.size := by
  induction reached with
  | refl => exact ⟨.refl, inside⟩
  | tail _ part ih =>
      obtain ⟨before, known⟩ := ih
      rw [extended.kind _ known] at part
      exact ⟨before.tail part, wellFormed.part known part⟩

/-- The type has nothing to do with the type parameters: none of them occurs free in it, and
no function in it declares one of them. -/
structure Unconcerned (t : TypeTable) (bound : TypeId → Prop) (id : TypeId) : Prop where
  unfree : ∀ p, bound p → ¬t.OccursFree p id
  undeclared : ∀ m, t.Reaches id m → ∀ p ∈ (t.kind m).binders, ¬bound p

namespace Unconcerned

variable {bound : TypeId → Prop}

theorem part (unconcerned : t.Unconcerned bound id) (part : m ∈ (t.kind id).parts) :
    t.Unconcerned bound m where
  unfree p isBound free := unconcerned.unfree p isBound
    (.part part (fun declared => unconcerned.undeclared id .refl p declared isBound) free)
  undeclared other reached := unconcerned.undeclared other (reached.head part)

theorem not_bound (unconcerned : t.Unconcerned bound id) : ¬bound id :=
  fun isBound => unconcerned.unfree id isBound .itself

theorem mono {bound' : TypeId → Prop} (unconcerned : t.Unconcerned bound id)
    (fewer : ∀ p, bound' p → bound p) : t.Unconcerned bound' id where
  unfree p isBound := unconcerned.unfree p (fewer p isBound)
  undeclared m reached p declared isBound :=
    unconcerned.undeclared m reached p declared (fewer p isBound)

theorem of_extends (wellFormed : t.WellFormed) (extended : t.Extends t') (inside : id < t.size)
    (unconcerned : t.Unconcerned bound id) : t'.Unconcerned bound id where
  unfree p isBound free :=
    unconcerned.unfree p isBound ((OccursFree.extends_iff wellFormed extended inside).mp free)
  undeclared m reached p declared := by
    obtain ⟨before, known⟩ := Reaches.of_extends wellFormed extended inside reached
    rw [extended.kind m known] at declared
    exact unconcerned.undeclared m before p declared

/-- It is enough to look at a set of types that holds the parts of its members. -/
theorem of_closed (ids : List TypeId) (member : id ∈ ids)
    (closed : ∀ m ∈ ids, (t.kind m).parts ⊆ ids ∧ ¬bound m ∧ ∀ p ∈ (t.kind m).binders, ¬bound p) :
    t.Unconcerned bound id where
  unfree p isBound free := by
    induction free with
    | itself => exact (closed p member).2.1 isBound
    | part part _ _ ih => exact ih ((closed _ member).1 part)
  undeclared m reached := by
    have known : m ∈ ids := by
      induction reached with
      | refl => exact member
      | tail _ part ih => exact (closed _ ih).1 part
    exact (closed m known).2.2

end Unconcerned

end TypeTable

section Substitution
variable {t : TypeTable} {bindings : Bindings} {id : TypeId}

open Substitution

theorem Dictionary.find?_of_not_contains {κ α : Type} [DecidableEq κ] {d : Dictionary κ α} {key : κ}
    (absent : ¬d.contains key = true) : d.find? key = none :=
  Option.not_isSome_iff_eq_none.mp absent

/-- A type that has nothing to do with the bound parameters is left as it is, however
recursive it may be. -/
theorem run_applyWithin_unconcerned (fuel : Nat) {visiting : List TypeId}
    (unconcerned : t.Unconcerned (bindings.contains · = true) id) :
    (applyWithin bindings fuel visiting id).run t = (id, t) := by
  induction fuel generalizing visiting id with
  | zero => rfl
  | succ fuel ih =>
      have unbound := Dictionary.find?_of_not_contains unconcerned.not_bound
      by_cases visited : id ∈ visiting
      · rw [applyWithin, unbound]
        dsimp only
        rw [if_pos visited]
        rfl
      · have same : ((t.kind id).rebuildM bindings
            (applyWithin bindings fuel (id :: visiting))).run t = (t.kind id, t) :=
          TypeKind.run_rebuildM_same (fun m part => ih (unconcerned.part part)) fun p declared =>
            Bool.eq_false_iff.mpr (unconcerned.undeclared id .refl p declared)
        have read : (TableM.kind id).run t = (t.kind id, t) := rfl
        rw [applyWithin_rebuilds unbound visited, TableM.run_bind, read, TableM.run_bind, same,
          if_pos rfl]
        rfl

theorem run_substitute_unconcerned (unconcerned : t.Unconcerned (bindings.contains · = true) id) :
    (substitute id bindings).run t = (id, t) := by
  rw [substitute]
  split
  · rfl
  · exact run_applyWithin_unconcerned (t.size + 1) unconcerned

/-- To bind type parameters that a function declares is to instantiate it: the function that
comes of it declares those that are not bound. -/
theorem typeParameters_substitute {f : FunctionType} (entry : t.kind id = .function f)
    (unbound : bindings.find? id = none) :
    Yields (substitute id bindings) t fun id' t' => ∃ g, t'.kind id' = .function g ∧
      g.typeParameters = f.typeParameters.filter fun p => !bindings.contains p := by
  rw [substitute]
  split
  · next nothing =>
      refine .pure ⟨f, entry, (List.filter_eq_self.mpr fun p _ => ?_).symm⟩
      simp [Dictionary.contains, Dictionary.find?, List.isEmpty_iff.mp nothing, Dictionary.findIn?]
  · have read : Yields (get : TableM TypeTable) t fun u t' => u = t ∧ t' = t := ⟨rfl, rfl⟩
    refine read.bind ?_
    rintro _ t ⟨rfl, rfl⟩
    have known : Yields (TableM.kind id) t fun k t' => t' = t ∧ k = t.kind id := ⟨rfl, rfl⟩
    rw [applyWithin_rebuilds unbound List.not_mem_nil]
    refine known.bind ?_
    rintro _ t ⟨rfl, rfl⟩
    have descend (m : TypeId) (u : TypeTable) :
        Yields (applyWithin bindings t.size [id] m) u fun _ u' => u.Extends u' ∧ True :=
      ⟨(derives_applyWithin bindings t.size [id] m u).extended, trivial⟩
    refine Yields.bind (TypeKind.yields_rebuildM TypeTable.Extends.growth (Q := fun _ _ _ => True)
      (fun _ _ _ _ _ _ => trivial) _ fun m _ u _ => descend m u) ?_
    rintro rebuilt u ⟨extended, -, binders, frame⟩
    have flag := congrArg (fun kind => kind.unnamed.flag) frame
    rw [← TypeKind.shape, ← TypeKind.shape, TypeKind.flag_shape, TypeKind.flag_shape] at flag
    rw [entry] at binders flag ⊢
    have inside := TypeTable.lt_size_of_kind entry (by simp)
    cases rebuilt with
    | function g =>
        split
        · next same =>
            rw [same] at binders
            exact .pure ⟨f, (extended.kind id inside).trans entry, binders⟩
        · exact ⟨g, TypeTable.kind_add_size u _, binders⟩
    | _ => cases flag

end Substitution

end StructuralTyping
