import StructuralTyping.Proofs.RemainingParameters

/-! What a type becomes when type parameters are replaced in it, part by part. A bound type
parameter becomes the type it is bound to, a type that the bindings do not affect is kept,
and every other type is rebuilt in the same shape from what its parts become. The one thing
that can come in between is a recursive type that the bindings affect, where the descent
stops. -/
namespace StructuralTyping

open TableM (Yields)
open TypeTable

namespace TypeKind

/-- A type parameter is made of nothing. -/
theorem leaf_of_typeParameter {kind : TypeKind} (isParameter : kind.flag = .typeParameter) :
    kind.parts = [] ∧ kind.binders = [] := by
  cases kind with
  | typeParameter => exact ⟨rfl, rfl⟩
  | _ => exact nomatch isParameter

end TypeKind

namespace TypeTable

variable {t t' : TypeTable} {bindings : Bindings} {id id' m : TypeId}

theorem Reaches.extends (wellFormed : t.WellFormed) (extended : t.Extends t') (inside : id < t.size)
    (reached : t.Reaches id m) : t'.Reaches id m ∧ m < t.size := by
  induction reached with
  | refl => exact ⟨.refl, inside⟩
  | tail _ part ih =>
      obtain ⟨after, known⟩ := ih
      refine ⟨after.tail ?_, wellFormed.part known part⟩
      rwa [extended.kind _ known]

/-- The entry itself is concerned: it is a type parameter that is bound to another type, or
a function that declares a bound one. -/
def Concerned (t : TypeTable) (bindings : Bindings) (id : TypeId) : Prop :=
  (∃ b, bindings.find? id = some b ∧ b ≠ id) ∨ ∃ p ∈ (t.kind id).binders, bindings.contains p = true

/-- The bindings concern an entry that is met on the way down from the type. -/
def Affected (t : TypeTable) (bindings : Bindings) (id : TypeId) : Prop :=
  ∃ m, t.Reaches id m ∧ t.Concerned bindings m

theorem affected_iff : t.Affected bindings id ↔
    t.Concerned bindings id ∨ ∃ m ∈ (t.kind id).parts, t.Affected bindings m := by
  constructor
  · rintro ⟨m, reached, concerned⟩
    rcases Relation.ReflTransGen.cases_head reached with rfl | ⟨n, part, further⟩
    · exact .inl concerned
    · exact .inr ⟨n, part, m, further, concerned⟩
  · rintro (concerned | ⟨n, part, m, further, concerned⟩)
    · exact ⟨id, .refl, concerned⟩
    · exact ⟨m, further.head part, concerned⟩

theorem Affected.of_part (part : m ∈ (t.kind id).parts) (affected : t.Affected bindings m) :
    t.Affected bindings id :=
  affected_iff.mpr (.inr ⟨m, part, affected⟩)

theorem Affected.extends_iff (wellFormed : t.WellFormed) (extended : t.Extends t')
    (inside : id < t.size) : t'.Affected bindings id ↔ t.Affected bindings id := by
  constructor
  · rintro ⟨m, reached, concerned⟩
    obtain ⟨before, known⟩ := Reaches.of_extends wellFormed extended inside reached
    exact ⟨m, before, by rwa [Concerned, extended.kind m known] at concerned⟩
  · rintro ⟨m, reached, concerned⟩
    obtain ⟨after, known⟩ := Reaches.extends wellFormed extended inside reached
    exact ⟨m, after, by rwa [Concerned, extended.kind m known]⟩

theorem not_affected_of_empty (empty : bindings.pairs = []) : ¬t.Affected bindings id := by
  rintro ⟨n, -, ⟨b, found, -⟩ | ⟨p, -, found⟩⟩
  · simp [Dictionary.find?, empty, Dictionary.findIn?] at found
  · simp [Dictionary.contains, Dictionary.find?, empty, Dictionary.findIn?] at found

/-- What the bindings affect is bound itself or is no leaf. -/
theorem Affected.composite (affected : t.Affected bindings id)
    (unbound : bindings.find? id = none) :
    (t.kind id).parts ≠ [] ∨ (t.kind id).binders ≠ [] := by
  rcases affected_iff.mp affected with (⟨b, found, -⟩ | ⟨p, declared, -⟩) | ⟨m, part, -⟩
  · exact nomatch unbound.symm.trans found
  · exact .inr (List.ne_nil_of_mem declared)
  · exact .inl (List.ne_nil_of_mem part)

theorem Unconcerned.of_reaches {bound : TypeId → Prop} (unconcerned : t.Unconcerned bound id)
    (reached : t.Reaches id m) : t.Unconcerned bound m := by
  induction reached with
  | refl => exact unconcerned
  | tail _ part ih => exact ih.part part

/-- A type that has nothing to do with the bound type parameters is not affected. -/
theorem Unconcerned.not_affected (unconcerned : t.Unconcerned (bindings.contains · = true) id) :
    ¬t.Affected bindings id := by
  rintro ⟨m, reached, concerned⟩
  have below := unconcerned.of_reaches reached
  rcases concerned with ⟨b, found, -⟩ | ⟨p, declared, bound⟩
  · exact below.not_bound (Option.isSome_iff_exists.mpr ⟨b, found⟩)
  · exact below.undeclared m .refl p declared bound

/-- The second type is the first one with the bindings replaced. -/
inductive Replaced (t : TypeTable) (bindings : Bindings) : TypeId → TypeId → Prop where
  | bound {p b : TypeId} (found : bindings.find? p = some b) : Replaced t bindings p b
  | kept {id : TypeId} (unaffected : ¬t.Affected bindings id) : Replaced t bindings id id
  | rebuilt {id id' : TypeId} (unbound : bindings.find? id = none)
      (affected : t.Affected bindings id) (shape : (t.kind id').shape = (t.kind id).shape)
      (binders : (t.kind id').binders = (t.kind id).binders.filter fun p => !bindings.contains p)
      (parts : ∀ pair ∈ (t.kind id).parts.zip (t.kind id').parts,
        Replaced t bindings pair.1 pair.2) : Replaced t bindings id id'

namespace Replaced

/-- A type that is not affected is kept. -/
theorem eq_of_not_affected (replaced : t.Replaced bindings id id')
    (unaffected : ¬t.Affected bindings id) : id' = id := by
  cases replaced with
  | bound found =>
      by_contra other
      exact unaffected ⟨id, .refl, .inl ⟨id', found, other⟩⟩
  | kept => rfl
  | rebuilt _ affected => exact absurd affected unaffected

theorem eq_of_bound (replaced : t.Replaced bindings id id') {b : TypeId}
    (found : bindings.find? id = some b) : id' = b := by
  cases replaced with
  | bound found' => exact Option.some.inj (found'.symm.trans found)
  | kept unaffected =>
      by_contra other
      exact unaffected ⟨id, .refl, .inl ⟨b, found, Ne.symm other⟩⟩
  | rebuilt unbound => exact nomatch unbound.symm.trans found

/-- What is kept is not affected, since type parameters are leaves. -/
theorem not_affected (parameters : ∀ p, bindings.contains p = true → t.flag p = .typeParameter)
    (replaced : t.Replaced bindings id id) : ¬t.Affected bindings id := by
  rintro ⟨m, reached, concerned⟩
  induction reached using Relation.ReflTransGen.head_induction_on with
  | refl =>
      rcases concerned with ⟨b, found, other⟩ | ⟨p, declared, bound⟩
      · exact other (replaced.eq_of_bound found).symm
      cases replaced with
      | bound found =>
          have leaf := parameters m (Option.isSome_iff_exists.mpr ⟨m, found⟩)
          rw [(TypeKind.leaf_of_typeParameter leaf).2] at declared
          exact List.not_mem_nil declared
      | kept unaffected => exact unaffected ⟨m, .refl, .inr ⟨p, declared, bound⟩⟩
      | rebuilt _ _ _ binders _ =>
          have kept := List.filter_eq_self.mp binders.symm p declared
          simp [bound] at kept
  | @head n k part further ih =>
      cases replaced with
      | bound found =>
          have leaf := parameters n (Option.isSome_iff_exists.mpr ⟨n, found⟩)
          rw [(TypeKind.leaf_of_typeParameter leaf).1] at part
          exact List.not_mem_nil part
      | kept unaffected => exact unaffected ⟨m, further.head part, concerned⟩
      | rebuilt _ _ _ _ parts =>
          obtain ⟨i, inside, rfl⟩ := List.getElem_of_mem part
          have zipped : i < ((t.kind n).parts.zip (t.kind n).parts).length := by simpa using inside
          have here := parts _ (List.getElem_mem zipped)
          rw [List.getElem_zip] at here
          exact ih here

theorem «extends» (wellFormed : t.WellFormed) (extended : t.Extends t')
    (replaced : t.Replaced bindings id id') (inside : id < t.size) (inside' : id' < t.size) :
    t'.Replaced bindings id id' := by
  induction replaced with
  | bound found => exact .bound found
  | kept unaffected =>
      exact .kept ((Affected.extends_iff wellFormed extended inside).not.mpr unaffected)
  | rebuilt unbound affected shape binders parts ih =>
      have entry := extended.kind _ inside
      have entry' := extended.kind _ inside'
      refine .rebuilt unbound ((Affected.extends_iff wellFormed extended inside).mpr affected)
        (by rw [entry, entry', shape]) (by rw [entry, entry', binders]) ?_
      rw [entry, entry']
      intro pair zipped
      obtain ⟨part, part'⟩ := List.of_mem_zip zipped
      exact ih pair zipped (wellFormed.part inside part) (wellFormed.part inside' part')

end Replaced

end TypeTable

section Substitution
variable {base : TypeTable} {bindings : Bindings}

/-- Where the parts have become what they are with the bindings replaced, so has the entry
that is rebuilt from them. -/
theorem Rebuilt.replaced {became : TypeId → TypeId → Prop} {m m' : TypeId} {u : TypeTable}
    (rebuilt : Rebuilt base bindings became m m' u) (entry : u.kind m = base.kind m)
    (each : ∀ pair ∈ (base.kind m).parts.zip (u.kind m').parts,
      u.Replaced bindings pair.1 pair.2) : u.Replaced bindings m m' := by
  by_cases affected : u.Affected bindings m
  · exact .rebuilt rebuilt.unbound affected (by rw [entry, rebuilt.shape])
      (by rw [entry, rebuilt.binders]) (by rwa [entry])
  · have sameParts : List.Forall₂ Eq (base.kind m).parts (u.kind m').parts := by
      refine List.forall₂_iff_zip.mpr ⟨rebuilt.parts.length_eq, fun {n n'} listed => ?_⟩
      refine ((each _ listed).eq_of_not_affected fun below => affected ?_).symm
      exact .of_part (entry ▸ (List.of_mem_zip listed).1) below
    rw [List.forall₂_eq_eq_eq] at sameParts
    have sameBinders : (u.kind m').binders = (base.kind m).binders := by
      rw [rebuilt.binders, List.filter_eq_self]
      intro p declared
      by_contra bound
      refine affected ⟨m, .refl, .inr ⟨p, entry ▸ declared, ?_⟩⟩
      simpa using bound
    obtain rfl := rebuilt.place.resolve_right fun new => new.2 ⟨sameParts.symm, sameBinders⟩
    exact .kept affected

/-- Substitution replaces the bindings in a type, unless it meets a recursive type that the
bindings affect. -/
theorem replaced_substitute (wellFormed : base.WellFormed)
    (bound : ∀ b ∈ bindings.values, b < base.size) {id : TypeId} {t : TypeTable}
    (finite : ∀ m, base.Reaches id m → base.Recursive m → ¬base.Affected bindings m)
    (extended : base.Extends t) (grounded : t.Grounded) (inside : id < base.size) :
    Yields (substitute id bindings) t fun id' t' =>
      Advances Grounded t t' ∧ id' < t'.size ∧ t'.Replaced bindings id id' := by
  let motive (m m' : TypeId) (u : TypeTable) : Prop :=
    m < u.size ∧ (base.Reaches id m → u.Replaced bindings m m')
  suffices held : Yields (substitute id bindings) t fun id' t' =>
      Advances Grounded t t' ∧ id' < t'.size ∧ motive id id' t' from
    ⟨held.1, held.2.1, held.2.2.2 .refl⟩
  refine substitute_induction wellFormed bound ?_ ?_ ?_ ?_ ?_ extended grounded inside
  · intro m m' u u' holds known further here
    exact ⟨further.inside here.1,
      fun reached => (here.2 reached).extends holds.toWellFormed further here.1 known⟩
  · exact fun m u further known empty =>
      ⟨further.inside known, fun _ => .kept (not_affected_of_empty empty)⟩
  · exact fun m b u further known found => ⟨further.inside known, fun _ => .bound found⟩
  · intro m u further known recursive unbound
    refine ⟨further.inside known, fun reached => .kept ?_⟩
    exact (Affected.extends_iff wellFormed further known).not.mpr (finite m reached recursive)
  · intro m m' u further holds known rebuilt
    refine ⟨further.inside known, fun reached => rebuilt.replaced (further.kind m known) ?_⟩
    obtain ⟨-, zipped⟩ := List.forall₂_iff_zip.mp rebuilt.parts
    exact fun pair listed => (zipped listed).2.2 (reached.tail (List.of_mem_zip listed).1)

end Substitution

end StructuralTyping
