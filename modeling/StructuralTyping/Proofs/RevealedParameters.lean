import StructuralTyping.Checker.Run
import StructuralTyping.Proofs.InstantiatedSignatures
import StructuralTyping.Proofs.RemainingParameters
import StructuralTyping.Tree.Build

/-! Type parameters that an instantiated signature still shows, also in the bodies of the
instantiated types that are met in it. The type parameters of a function stay behind in two
ways: in a recursive type, where the substitution stops, and in the body of a generic type
that mentions them itself, which the substitution does not enter. Where neither is there,
the signature is free of them. -/
namespace StructuralTyping

open TableM (Yields)
open TypeTable

namespace TypeTable

/-- The type parameter is found in the type, or in a body that is made for what is met on
the way, and no function on the way declares it. -/
inductive Reveals (p : TypeId) : TypeTable → TypeId → Prop where
  | itself {t : TypeTable} : Reveals p t p
  | part {t : TypeTable} {id m : TypeId} (part : m ∈ (t.kind id).parts)
      (undeclared : p ∉ (t.kind id).binders) (inside : Reveals p t m) : Reveals p t id
  | body {t t' : TypeTable} {id body : TypeId} (made : (resolve id).run t = (body, t'))
      (inside : Reveals p t' body) : Reveals p t id

theorem Recursive.of_extends {t t' : TypeTable} {id : TypeId} (wellFormed : t.WellFormed)
    (extended : t.Extends t') (inside : id < t.size) (recursive : t'.Recursive id) :
    t.Recursive id := by
  obtain ⟨m, part, reached⟩ := Relation.TransGen.head'_iff.mp recursive
  rw [extended.kind id inside] at part
  have before := Reaches.of_extends wellFormed extended (wellFormed.part inside part) reached
  exact .head' part before.1

/-- No type is recursive where the parts of every type stand before it. -/
theorem not_recursive {t : TypeTable} (precede : ∀ id < t.size, ∀ m ∈ (t.kind id).parts, m < id)
    (id : TypeId) : ¬t.Recursive id := by
  have earlier {a b : TypeId} (part : b ∈ (t.kind a).parts) : b < a := by
    refine precede a (lt_size_of_kind rfl fun unknown => ?_) b part
    rw [unknown] at part
    exact List.not_mem_nil part
  have below {a b : TypeId} (met : Relation.TransGen (fun id m => m ∈ (t.kind id).parts) a b) :
      b < a := by
    induction met with
    | single part => exact earlier part
    | tail _ part ih => exact Nat.lt_trans (earlier part) ih
  exact fun recursive => Nat.lt_irrefl id (below recursive)

/-- No generic type declares or mentions the type parameter, and the bodies that are
remembered mention it only if a type argument does. -/
structure Uncaptured (p : TypeId) (t : TypeTable) : Prop extends t.Grounded where
  known : p < t.size
  bodies : ∀ id g, t.kind id = .generic g → p ∉ g.typeParameters ∧ ¬t.OccursFree p g.body
  remembers : ∀ key body, t.resolved.find? key = some body → t.OccursFree p body →
    ∃ a ∈ key.2, t.OccursFree p a

namespace Uncaptured

variable {p : TypeId} {t u : TypeTable}

/-- Whether it occurs is the same in a table that is extended. -/
theorem free_iff (uncaptured : t.Uncaptured p) (extended : t.Extends u) {id : TypeId}
    (inside : id < t.size) : u.OccursFree p id ↔ t.OccursFree p id :=
  OccursFree.extends_iff uncaptured.toWellFormed extended inside

theorem body_inside (uncaptured : t.Uncaptured p) {id : TypeId} {g : GenericType}
    (generic : t.kind id = .generic g) : g.body < t.size :=
  uncaptured.mentions id (lt_size_of_kind generic nofun) g.body
    (by simp [generic, TypeKind.mentions])

theorem add {kind : TypeKind} (uncaptured : t.Uncaptured p) (grounded : (t.add kind).2.Grounded)
    (other : ∀ g, kind ≠ .generic g) : (t.add kind).2.Uncaptured p where
  toGrounded := grounded
  known := (Extends.add t kind).inside uncaptured.known
  bodies id g generic := by
    have inside := lt_size_of_kind generic nofun
    rw [size_add] at inside
    rcases Nat.lt_succ_iff_lt_or_eq.mp inside with before | rfl
    · rw [kind_add_of_lt before] at generic
      obtain ⟨undeclared, unfree⟩ := uncaptured.bodies id g generic
      exact ⟨undeclared,
        (uncaptured.free_iff (.add t kind) (uncaptured.body_inside generic)).not.mpr unfree⟩
    · exact absurd ((kind_add_size t kind).symm.trans generic) (other g)
  remembers key body found free := by
    obtain ⟨-, arguments, inside⟩ := uncaptured.remembered key body found
    obtain ⟨a, listed, occurs⟩ :=
      uncaptured.remembers key body found ((uncaptured.free_iff (.add t kind) inside).mp free)
    exact ⟨a, listed, (uncaptured.free_iff (.add t kind) (arguments a listed)).mpr occurs⟩

/-- The body that is made of a generic type mentions the type parameter only if one of the
type arguments does. -/
theorem free_argument {id body : TypeId} {i : InstantiatedType} {g : GenericType}
    (uncaptured : u.Uncaptured p) (entry : u.kind id = .instantiated i)
    (generic : u.kind i.origin = .generic g)
    (made : (substitute g.body (.ofList (g.typeParameters.zip i.bindings.values))).run u = (body, t))
    (free : t.OccursFree p body) : ∃ a ∈ i.bindings.values, u.OccursFree p a := by
  obtain ⟨undeclared, unfree⟩ := uncaptured.bodies i.origin g generic
  have supplied {b : TypeId} (member : b ∈ Dictionary.values
      (.ofList (g.typeParameters.zip i.bindings.values))) : b ∈ i.bindings.values := by
    obtain ⟨pair, listed, rfl⟩ := List.mem_map.mp (Dictionary.mem_values_ofList member)
    exact (List.of_mem_zip listed).2
  have leaves := leaves_substitute uncaptured.toWellFormed
    (fun b member => uncaptured.argument entry b (supplied member)) (.refl u)
    uncaptured.toGrounded (uncaptured.body_inside generic)
  unfold Yields at leaves
  rw [made] at leaves
  cases leaves.remains p uncaptured.known free with
  | supplied member free => exact ⟨_, supplied member, free⟩
  | unbound _ free => exact absurd free unfree
  | recursive bound =>
      obtain ⟨pair, listed, rfl⟩ := List.mem_map.mp ((Dictionary.contains_ofList _ p).mp bound)
      exact absurd (List.of_mem_zip listed).1 undeclared

end Uncaptured

theorem queryInvariant_uncaptured (p : TypeId) : QueryInvariant (Uncaptured p) where
  closed uncaptured := uncaptured.toClosed
  unknown uncaptured := uncaptured.unknown
  object uncaptured entry pairs :=
    uncaptured.add (queryInvariant_grounded.object uncaptured.toGrounded entry pairs) nofun
  function keep uncaptured entry pairs result :=
    uncaptured.add (queryInvariant_grounded.function keep uncaptured.toGrounded entry pairs result)
      nofun
  instantiated uncaptured entry pairs :=
    uncaptured.add (queryInvariant_grounded.instantiated uncaptured.toGrounded entry pairs) nofun
  remember {u t id i g body} held entry generic made extended uncaptured inside := by
    have same : t.Extends { t with resolved := t.resolved.insert (instantiationKey i) body } :=
      ⟨Nat.le_refl _, fun _ _ => rfl⟩
    refine ⟨queryInvariant_grounded.remember held.toGrounded entry generic made extended
      uncaptured.toGrounded inside, uncaptured.known, fun id g isGeneric => ?_,
      fun key other found free => ?_⟩
    · obtain ⟨undeclared, unfree⟩ := uncaptured.bodies id g isGeneric
      exact ⟨undeclared, (uncaptured.free_iff same (uncaptured.body_inside isGeneric)).not.mpr unfree⟩
    · rw [Dictionary.find?_insert] at found
      split at found
      · next here =>
          obtain rfl := Option.some.inj found
          subst here
          obtain ⟨a, listed, occurs⟩ :=
            held.free_argument entry generic made ((uncaptured.free_iff same inside).mp free)
          have before := held.argument entry a listed
          exact ⟨a, listed, (held.free_iff (extended.trans same) before).mpr occurs⟩
      · obtain ⟨-, arguments, known⟩ := uncaptured.remembered key other found
        obtain ⟨a, listed, occurs⟩ :=
          uncaptured.remembers key other found ((uncaptured.free_iff same known).mp free)
        exact ⟨a, listed, (uncaptured.free_iff same (arguments a listed)).mpr occurs⟩

namespace Uncaptured

variable {p : TypeId} {t : TypeTable} {id : TypeId}

/-- To look into the body of an instantiated type reveals nothing that its arguments hide. -/
theorem free_of_resolve (uncaptured : t.Uncaptured p) (inside : id < t.size) :
    Yields (resolve id) t fun body t' => t'.OccursFree p body → t.OccursFree p id := by
  have read : Yields (get : TableM TypeTable) t fun u t' => u = t ∧ t' = t := ⟨rfl, rfl⟩
  refine read.bind ?_
  rintro _ t ⟨rfl, rfl⟩
  split
  · next i entry =>
      have argument (free : ∃ a ∈ i.bindings.values, t.OccursFree p a) : t.OccursFree p id := by
        obtain ⟨a, listed, occurs⟩ := free
        exact .part (by rwa [entry]) (by rw [entry]; exact List.not_mem_nil) occurs
      dsimp only
      split
      · next body found => exact .pure fun free => argument (uncaptured.remembers _ body found free)
      · obtain ⟨g, generic⟩ := uncaptured.origin id inside i entry
        rw [generic]
        dsimp only
        split
        · exact .pure fun free => absurd free (uncaptured.bodies i.origin g generic).2
        · have made (m : TableM TypeId) : Yields m t fun body u => m.run t = (body, u) := rfl
          have bound : ∀ b ∈ Dictionary.values
              (.ofList (g.typeParameters.zip i.bindings.values)), b < t.size := fun b member => by
            obtain ⟨pair, listed, rfl⟩ := List.mem_map.mp (Dictionary.mem_values_ofList member)
            exact uncaptured.argument entry pair.2 (List.of_mem_zip listed).2
          have new := advances_substitute (queryInvariant_uncaptured p) uncaptured
            (uncaptured.body_inside generic) bound
          refine (new.yields.and (made _)).bind ?_
          rintro body u ⟨⟨advances, known⟩, run⟩
          have same : u.Extends { u with resolved := u.resolved.insert (instantiationKey i) body } :=
            ⟨Nat.le_refl _, fun _ _ => rfl⟩
          exact fun free => argument (uncaptured.free_argument entry generic run
            (((advances.keeps uncaptured).free_iff same known).mp free))
  · exact .pure fun free => free

/-- A type parameter that is revealed occurs free. -/
theorem free_of_reveals (uncaptured : t.Uncaptured p) (inside : id < t.size)
    (reveals : Reveals p t id) : t.OccursFree p id := by
  induction reveals with
  | itself => exact .itself
  | part part undeclared _ ih =>
      exact .part part undeclared (ih uncaptured (uncaptured.toWellFormed.part inside part))
  | body made _ ih =>
      have advances := (advances_resolve (queryInvariant_uncaptured p) uncaptured inside).yields
      have back := uncaptured.free_of_resolve inside
      unfold Yields at advances back
      rw [made] at advances back
      exact back (ih (advances.1.keeps uncaptured) advances.2)

end Uncaptured

end TypeTable

/-- What occurs free in an instantiated signature remains in the signature of the function. -/
theorem Instantiates.leaves {t t' u : TypeTable} {f : FunctionType}
    {signature : InstantiatedSignature} {i : Instantiation} (grounded : t.Grounded)
    (within : f.Within t) (instantiates : Instantiates Grounded t f signature i u t') :
    Advances Grounded u t' ∧ signature.bindings = i.bindings ∧
      ∀ m' ∈ signature.parts, ∃ m ∈ (TypeKind.function f).parts, Leaves u i.bindings m m' t' := by
  have before := instantiates.advances
  have holds := before.keeps grounded
  have replaced := Instantiation.yields_apply (i := i) (f := f) (t := u) Advances.growth
    (Q := Leaves u i.bindings) (fun _ _ _ _ => Leaves.advances) fun m part w advances => by
      have inside := before.inside (within.part part)
      have grown := advances_substitute queryInvariant_grounded (advances.keeps holds)
        (advances.inside inside) (advances.each instantiates.inside)
      have left := leaves_substitute holds.toWellFormed instantiates.inside advances.extended
        (advances.keeps holds) inside
      exact ⟨grown.yields.1, left⟩
  have run := instantiates.run
  unfold Yields at replaced
  rw [run] at replaced
  obtain ⟨later, same, pairs⟩ := replaced
  exact ⟨later, same, forall₂_exists_left pairs⟩

/-- An instantiated signature shows none of the type parameters of the function, if no
generic type mentions them, they do not occur in recursive types of the signature, and the
types chosen for them are free of them. -/
theorem instantiate_leavesNothing (t : TypeTable) {id : TypeId} {f : FunctionType}
    (entry : t.kind id = .function f) (uncaptured : ∀ p ∈ f.typeParameters, t.Uncaptured p)
    (unfolded : ∀ m, t.Reaches id m → t.Recursive m → ∀ p ∈ f.typeParameters, ¬t.OccursFree p m)
    {argumentTypes : List TypeId} {explicit : Option (List TypeId)}
    (arguments : ∀ a ∈ argumentTypes, a < t.size)
    (written : ∀ ids, explicit = some ids → ∀ a ∈ ids, a < t.size)
    {signature : InstantiatedSignature} {t' : TypeTable}
    (done : (instantiate id argumentTypes explicit).run t = (.ok signature, t'))
    (chosen : ∀ b ∈ signature.bindings.values, ∀ p ∈ f.typeParameters, ¬t'.OccursFree p b) :
    ∀ m ∈ signature.parts, ∀ p ∈ f.typeParameters, ¬Reveals p t' m := by
  intro m' shown p declared reveals
  have uncaptured := uncaptured p declared
  have wellFormed := uncaptured.toWellFormed
  have within := wellFormed.signature entry
  have outcome := (exists_instantiates queryInvariant_grounded uncaptured.toGrounded entry arguments
    written).and (advances_instantiate (queryInvariant_uncaptured p) uncaptured
      (lt_size_of_kind entry nofun) arguments written).yields
  unfold Yields at outcome
  rw [done] at outcome
  obtain ⟨found, after, -⟩ := outcome
  obtain ⟨i, u, instantiates⟩ := found signature rfl
  have advances := instantiates.advances
  obtain ⟨later, same, origins⟩ := instantiates.leaves uncaptured.toGrounded within
  obtain ⟨m, part, leaves⟩ := origins m' shown
  have free := (after.keeps uncaptured).free_of_reveals leaves.inside reveals
  cases leaves.remains p (advances.inside uncaptured.known) free with
  | supplied member free =>
      have grounded := advances.keeps uncaptured.toGrounded
      exact chosen _ (same ▸ member) p declared ((OccursFree.extends_iff grounded.toWellFormed
        later.extended (instantiates.inside _ member)).mpr free)
  | unbound unbound =>
      exact absurd ((instantiates.contains p).mpr declared) (by simp [unbound])
  | recursive _ reached recursive free =>
      obtain ⟨before, known⟩ :=
        Reaches.of_extends wellFormed advances.extended (within.part part) reached
      exact unfolded _ (before.head (entry ▸ part))
        (recursive.of_extends wellFormed advances.extended known) p declared
        ((uncaptured.free_iff advances.extended known).mp free)

/-- A generic interface `Box` and a function `<T>(x: T) => Box<T>`. -/
def boxingTable : TypeTable where
  entries := TypeTable.initial.entries ++
    #[.typeParameter "T" none, .typeParameter "U" none,
      .object ⟨none, ⟨[("value", ⟨8, false⟩)]⟩⟩, .generic ⟨"Box", [8], 9⟩,
      .instantiated ⟨10, ⟨[("U", 7)]⟩⟩, .function ⟨[7], [⟨"x", 7, false⟩], 11⟩]
  resolved := .empty

theorem boxingTable_leavesNothing :
    ∃ signature t', (instantiate 12 [TypeId.number] none).run boxingTable = (.ok signature, t') ∧
      ∀ m ∈ signature.parts, ∀ p ∈ [7], ¬Reveals p t' m := by
  have grounded : boxingTable.Grounded := ⟨.of_fits (by decide) rfl, by decide⟩
  have uncaptured : ∀ p ∈ [7], boxingTable.Uncaptured p := by
    refine List.forall_mem_singleton.mpr ⟨grounded, by decide, fun id g generic => ?_, ?_⟩
    · have only : ∀ id < boxingTable.size,
          (boxingTable.asGeneric? id).all (· = ⟨"Box", [8], 9⟩) = true := by decide
      have here := only id (lt_size_of_kind generic (by simp))
      rw [asGeneric?, generic] at here
      obtain rfl : g = ⟨"Box", [8], 9⟩ := of_decide_eq_true here
      have body : boxingTable.Unconcerned (· = 7) 9 := .of_closed [9, 8] (by decide) (by decide)
      exact ⟨by decide, body.unfree 7 rfl⟩
    · rintro _ _ ⟨⟩
  have precede : ∀ id < boxingTable.size, ∀ m ∈ (boxingTable.kind id).parts, m < id := by decide
  have done : (instantiate 12 [TypeId.number] none).run boxingTable =
      (.ok ⟨⟨[(7, TypeId.number)]⟩, [TypeId.number], 13, []⟩,
        (boxingTable.add (.instantiated ⟨10, ⟨[("U", TypeId.number)]⟩⟩)).2) := rfl
  refine ⟨_, _, done, instantiate_leavesNothing boxingTable rfl uncaptured
    (fun m _ recursive => absurd recursive (not_recursive precede m)) (by decide) ?_ done ?_⟩
  · rintro _ ⟨⟩
  refine List.forall_mem_singleton.mpr (List.forall_mem_singleton.mpr ?_)
  have number : (boxingTable.add (.instantiated ⟨10, ⟨[("U", TypeId.number)]⟩⟩)).2.Unconcerned
      (· = 7) TypeId.number := .of_closed [TypeId.number] (by decide) (by decide)
  exact number.unfree 7 rfl

/-- Functions that give back values of interfaces of their own: a recursive interface that
mentions the type parameter of its function, and a generic one that does. -/
def localInterfaces : List SourceFile :=
  [⟨"", [
    .ofFunction "f" [.free "T"] [.required "x" (some (.named "T" []))] none [
      .ofInterface "L" [] [.required "v" (.named "T" []), .required "next" (.named "L" [])],
      .ofVariable "l" (some (.named "L" [])) none,
      .ofReturn (some (.ofName "l"))],
    .ofFunction "g" [.free "T"] [.required "x" (some (.named "T" []))] none [
      .ofInterface "B" [.free "U"] [.required "a" (.named "T" []), .required "b" (.named "U" [])],
      .ofVariable "l" (some (.named "B" [.named "T" []])) none,
      .ofReturn (some (.ofName "l"))]]⟩]

/-- The table after the check of `localInterfaces`. -/
def localInterfacesTable : TypeTable where
  entries := TypeTable.initial.entries ++
    #[.typeParameter "T" none, .typeParameter "T" none,
      .object ⟨some "L", ⟨[("v", ⟨7, false⟩), ("next", ⟨9, false⟩)]⟩⟩,
      .function ⟨[7], [⟨"x", 7, false⟩], 9⟩, .typeParameter "U" none,
      .object ⟨some "B", ⟨[("a", ⟨8, false⟩), ("b", ⟨11, false⟩)]⟩⟩, .generic ⟨"B", [11], 12⟩,
      .instantiated ⟨13, ⟨[("U", 8)]⟩⟩, .function ⟨[8], [⟨"x", 8, false⟩], 14⟩]
  resolved := .empty

/-- Both functions show their type parameter in the result of a call with a number. -/
theorem localInterfaces_reveal :
    ∃ c, (Checker.new .default).step (declareAndCheck localInterfaces) = (.ok (), c) ∧
      ∀ id ∈ [10, 15], ∃ f signature t', c.table.kind id = .function f ∧
        (instantiate id [TypeId.number] none).run c.table = (.ok signature, t') ∧
        signature.bindings.values = [TypeId.number] ∧
        ∃ m ∈ signature.parts, ∃ p ∈ f.typeParameters, Reveals p t' m := by
  have ends : ((Checker.new .default).step (declareAndCheck localInterfaces)).1 = .ok () := by
    decide +kernel
  have table : ((Checker.new .default).step (declareAndCheck localInterfaces)).2.table =
      localInterfacesTable := by decide +kernel
  generalize (Checker.new .default).step (declareAndCheck localInterfaces) = outcome at ends table
  obtain ⟨result, c⟩ := outcome
  dsimp only at ends table
  refine ⟨c, ends ▸ rfl, ?_⟩
  rw [table]
  refine List.forall_mem_cons.mpr ⟨?_, List.forall_mem_singleton.mpr ?_⟩
  · -- the result has `L` itself for `next`
    refine ⟨_, _, _, rfl, rfl, rfl, 16, by decide, 7, by decide, ?_⟩
    exact .part (m := 9) (by decide) (by decide) (.part (m := 7) (by decide) (by decide) .itself)
  · -- the body of `B<number>` has the type parameter of the function for `a`
    refine ⟨_, _, _, rfl, rfl, rfl, 16, by decide, 8, by decide, ?_⟩
    exact .body rfl (.part (m := 8) (by decide) (by decide) .itself)

end StructuralTyping
