import Mathlib.Logic.Relation
import StructuralTyping.Proofs.StructuralRules

/-! Types from which no instantiated type and no generic function type can be
reached are compared by their structure alone. Their comparison decides the
greatest relation that is closed under the structural rules: a pair in progress
is assumed, which is right because the assumption is discharged where the
comparison of that pair ends. -/
namespace StructuralTyping.Assignability

/-- The types that the comparison of a type may come to next. -/
inductive Part (table : TypeTable) (id : TypeId) : TypeId → Prop
  | constraint {name : String} {bound : TypeId}
      (kind : table.kind id = .typeParameter name (some bound)) : Part table id bound
  | property {o : ObjectType} {name : String} {p : Property} (kind : table.kind id = .object o)
      (member : (name, p) ∈ o.properties.pairs) : Part table id p.type
  | parameter {f : FunctionType} {p : Parameter} (kind : table.kind id = .function f)
      (member : p ∈ f.parameters) : Part table id p.type
  | result {f : FunctionType} (kind : table.kind id = .function f) : Part table id f.returnType

/-- Reachable through parts. -/
abbrev Reaches (table : TypeTable) : TypeId → TypeId → Prop := Relation.ReflTransGen (Part table)

/-- No instantiated type and no generic function type can be reached. -/
structure Plain (table : TypeTable) (id : TypeId) : Prop where
  instances : ∀ x, Reaches table id x → ∀ i, table.kind x ≠ .instantiated i
  generics : ∀ x, Reaches table id x → ∀ f, table.kind x = .function f → f.isGeneric = false

/-- One step of the structural rules over a relation. -/
def Rule (strict : Bool) (table : TypeTable) (R : TypeId → TypeId → Prop) (s t : TypeId) : Prop :=
  s = t ∨ table.isWildcard s = true ∨ table.isWildcard t = true ∨
    StructureRule strict table R t s t

/-- Every pair of the relation is there by one of the rules. -/
def ClosedUnderRules (strict : Bool) (table : TypeTable) (R : TypeId → TypeId → Prop) : Prop :=
  ∀ s t, R s t → Rule strict table R s t

/-- The greatest relation that is closed under the rules. -/
def StructurallyRelated (strict : Bool) (table : TypeTable) (s t : TypeId) : Prop :=
  ∃ R, ClosedUnderRules strict table R ∧ R s t

section Monotone
variable {strict : Bool} {table : TypeTable} {R R' : TypeId → TypeId → Prop}
  (within : ∀ s t, R s t → R' s t)

include within

theorem PropertyRule.mono {s : ObjectType} {expected : String × Property}
    (rule : PropertyRule R s expected) : PropertyRule R' s expected := by
  unfold PropertyRule at *
  split
  · simpa [*] using rule
  · next given found =>
      simp only [found] at rule
      exact ⟨rule.1, within _ _ rule.2⟩

theorem FunctionRule.mono {s t : FunctionType} (rule : FunctionRule strict table R s t) :
    FunctionRule strict table R' s t := by
  obtain ⟨arity, parameters, result⟩ := rule
  refine ⟨arity, fun pair member => ?_, result.imp_right (within _ _)⟩
  exact (parameters pair member).imp (within _ _) fun either => ⟨either.1, within _ _ either.2⟩

theorem StructureRule.mono {target s t : TypeId} (rule : StructureRule strict table R target s t) :
    StructureRule strict table R' target s t := by
  unfold StructureRule at *
  split
  · simpa [*] using rule
  · next kind =>
      simp only [kind] at rule
      obtain ⟨bound, same, related⟩ := rule
      exact ⟨bound, same, within _ _ related⟩
  · next hs ht =>
      simp only [hs, ht] at rule
      exact fun property member => (rule property member).mono within
  · next hs ht =>
      simp only [hs, ht] at rule
      exact rule.mono within
  · simp_all

theorem Rule.mono {s t : TypeId} (rule : Rule strict table R s t) : Rule strict table R' s t :=
  rule.imp_right fun others => others.imp_right fun rest => rest.imp_right (·.mono within)

end Monotone

/-- The greatest relation satisfies the rules with equality. -/
theorem structurallyRelated_iff {strict : Bool} {table : TypeTable} {s t : TypeId} :
    StructurallyRelated strict table s t ↔
      Rule strict table (StructurallyRelated strict table) s t := by
  have unfold : ∀ s t, StructurallyRelated strict table s t →
      Rule strict table (StructurallyRelated strict table) s t := by
    rintro s t ⟨R, closed, related⟩
    exact (closed s t related).mono fun x y member => ⟨R, closed, member⟩
  refine ⟨unfold s t, fun rule => ?_⟩
  refine ⟨Rule strict table (StructurallyRelated strict table), ?_, rule⟩
  exact fun x y here => here.mono unfold

/-- Related by the rules when the pairs of a set are taken for granted. -/
def RelatedUnder (assumed : PairSet) (strict : Bool) (table : TypeTable) (s t : TypeId) : Prop :=
  ∃ R : TypeId → TypeId → Prop,
    (∀ x y, R x y → (x, y) ∈ assumed ∨ Rule strict table R x y) ∧ R s t

namespace RelatedUnder

variable {strict : Bool} {table : TypeTable} {assumed : PairSet} {s t : TypeId}

theorem of_mem (member : (s, t) ∈ assumed) : RelatedUnder assumed strict table s t :=
  ⟨fun x y => (x, y) ∈ assumed, fun _ _ => .inl, member⟩

/-- A rule that needs no related parts. -/
theorem of_rule (rule : Rule strict table (fun _ _ => False) s t) :
    RelatedUnder assumed strict table s t := by
  refine ⟨fun x y => x = s ∧ y = t, ?_, rfl, rfl⟩
  rintro x y ⟨rfl, rfl⟩
  exact .inr (rule.mono nofun)

/-- The assumption of a pair is discharged by the comparison of its parts. -/
theorem discharge
    (rule : Rule strict table (RelatedUnder (assumed.insert (s, t)) strict table) s t) :
    RelatedUnder assumed strict table s t := by
  refine ⟨fun x y => (x = s ∧ y = t) ∨ RelatedUnder (assumed.insert (s, t)) strict table x y, ?_,
    .inl ⟨rfl, rfl⟩⟩
  rintro x y (⟨rfl, rfl⟩ | ⟨R, closed, related⟩)
  · exact .inr (rule.mono fun _ _ => .inr)
  · rcases closed x y related with member | rule'
    · rcases Std.ExtTreeSet.mem_insert.mp member with same | before
      · obtain ⟨rfl, rfl⟩ := Prod.mk.inj (Std.LawfulEqCmp.eq_of_compare same)
        exact .inr (rule.mono fun _ _ => .inr)
      · exact .inl before
    · exact .inr (rule'.mono fun _ _ later => .inr ⟨R, closed, later⟩)

/-- With nothing assumed it is the greatest relation. -/
theorem empty_iff :
    RelatedUnder ∅ strict table s t ↔ StructurallyRelated strict table s t := by
  constructor
  · rintro ⟨R, closed, related⟩
    exact ⟨R, fun x y member => (closed x y member).resolve_left (by simp), related⟩
  · rintro ⟨R, closed, related⟩
    exact ⟨R, fun x y member => .inr (closed x y member), related⟩

end RelatedUnder

/-- An entry that is no instantiated type is its own body. -/
theorem run_resolve_of_ne {table : TypeTable} {id : TypeId}
    (other : ∀ i, table.kind id ≠ .instantiated i) : (resolve id).run table = (id, table) := by
  rw [resolve, StateT.run_bind, StateT.run_get, pure_bind]
  split
  · next i kind => exact absurd kind (other i)
  · rfl

theorem run_instancesRelated_of_ne {strict : Bool} {related : Related} {σ : Session}
    {source target : TypeId} (other : ∀ i, σ.table.kind source ≠ .instantiated i) :
    (instancesRelated strict related source target).run σ = some (false, σ) :=
  run_instancesRelated_apart fun i _ kind => absurd kind (other i)

section Plain
variable {strict : Bool} {table : TypeTable}

theorem Plain.part {id x : TypeId} (plain : Plain table id) (part : Part table id x) :
    Plain table x where
  instances y reaches := plain.instances y (.head part reaches)
  generics y reaches := plain.generics y (.head part reaches)

theorem Subpair.plain {target s t a b : TypeId} (subpair : Subpair table target s t a b)
    (source : Plain table s) (aim : Plain table t) (same : target = t) :
    Plain table a ∧ Plain table b := by
  subst same
  cases subpair with
  | bound hs => exact ⟨source.part (.constraint hs), aim⟩
  | property hs ht wanted found =>
      exact ⟨source.part (.property hs (Dictionary.mem_of_find? found)), aim.part (.property ht wanted)⟩
  | parameter hs ht paired =>
      obtain ⟨p, q⟩ := List.of_mem_zip paired
      exact ⟨source.part (.parameter hs p), aim.part (.parameter ht q)⟩
  | parameterBack hs ht paired =>
      obtain ⟨p, q⟩ := List.of_mem_zip paired
      exact ⟨aim.part (.parameter ht q), source.part (.parameter hs p)⟩
  | result hs ht => exact ⟨source.part (.result hs), aim.part (.result ht)⟩

theorem growth_eq : TypeTable.Growth (Eq : TypeTable → TypeTable → Prop) := ⟨fun _ => rfl, Eq.trans⟩

theorem Session.Follows.eq {σ σ' : Session} (follows : σ.Follows Eq σ') : σ' = σ := by
  obtain ⟨table, inProgress, depth⟩ := follows
  cases σ
  cases σ'
  simp_all

/-- A type that is no wildcard is an entry of the table. -/
theorem lt_size_of_not_isWildcard {id : TypeId} (solid : table.isWildcard id = false) :
    id < table.size := by
  refine TypeTable.lt_size_of_kind rfl fun unknown => ?_
  simp [TypeTable.isWildcard, TypeTable.flag, unknown, TypeKind.flag, TypeFlag.isWildcard] at solid

/-- What a comparison of plain types accepts follows from the pairs in progress,
and what it refuses is not related. -/
theorem plain_ends (open' : Nat) {σ : Session} {s t : TypeId} (here : σ.table = table)
    (source : Plain table s) (target : Plain table t)
    (bound : (σ.openPairs table.size).card < open') :
    Ends (fun fuel => relatedWithin strict fuel s t) σ
      (Judged Eq σ (RelatedUnder σ.inProgress strict table s t)
        (StructurallyRelated strict table s t)) := by
  induction open' generalizing σ s t with
  | zero => exact absurd bound (Nat.not_lt_zero _)
  | succ open' ih =>
      have whole : ∀ i, σ.table.kind s ≠ .instantiated i := here ▸ source.instances s .refl
      have whole' : ∀ i, σ.table.kind t ≠ .instantiated i := here ▸ target.instances t .refl
      refine relatedWithin_ends growth_eq (fun same => .of_rule (.inl same)) (fun _ => ?_)
        fun apart σ' follows => ?_
      · exact .of_run (fun _ => run_instancesRelated_of_ne whole) ⟨.refl growth_eq σ, nofun⟩
      obtain rfl : σ' = σ := follows.eq
      have inside : ∀ expanded, (σ'.entered s t expanded).table = table := fun _ => here
      refine bodiesRelated_ends growth_eq (run_resolve_of_ne whole) (run_resolve_of_ne whole')
        (.refl growth_eq σ') (absurd · apart) (fun wild => ?_) .of_mem
        (fun limited => by simp [Session.Limited] at limited) fun _ solid solid' outside _ => ?_
      · rw [here] at wild
        exact .of_rule (.inr (wild.imp_right .inl))
      · rw [here] at solid solid'
        have entered : ((σ'.entered s t (s != s || t != t)).openPairs table.size).card < open' :=
          Nat.lt_of_lt_of_le (Session.openPairs_entered (lt_size_of_not_isWildcard solid)
            (lt_size_of_not_isWildcard solid') outside _) (Nat.lt_succ_iff.mp bound)
        refine (structureRelated_ends growth_eq
          (S := RelatedUnder (σ'.inProgress.insert (s, t)) strict table)
          (T := StructurallyRelated strict table) ?_ ?_ ?_).weaken ?_
        · intro a b subpair τ follows
          obtain ⟨first, second⟩ := Subpair.plain (here ▸ subpair) source target rfl
          have below : (τ.openPairs table.size).card < open' := by
            rw [follows.openPairs]
            exact entered
          have decided := ih (follows.table.symm.trans here) first second below
          rw [follows.inProgress] at decided
          exact decided
        · exact fun f kind => source.generics s .refl f (here ▸ kind)
        · exact fun f kind τ follows => by rw [follows.table]
        · rintro verdict τ ⟨follows, judges⟩
          rw [inside] at judges
          refine ⟨follows, judges.imp (fun rule => .discharge (.inr (.inr (.inr rule)))) ?_⟩
          intro related
          have rule := (structurallyRelated_iff.mp related).resolve_left apart
          exact (rule.resolve_left (by simp [solid])).resolve_left (by simp [solid'])

/-- A question about plain types is answered, without any change to the table, and
the answer is yes exactly for the pairs of the greatest relation closed under the
structural rules. -/
theorem assignable_plain (strict : Bool) (table : TypeTable) {source target : TypeId}
    (plain : Plain table source) (plain' : Plain table target) :
    ∃ verdict, Answers strict table source target false verdict table ∧
      (assignable strict source target false).run table = (verdict, table) ∧
      (verdict = .ok () ↔ StructurallyRelated strict table source target) := by
  obtain ⟨verdict, σ, fuel, done, follows, judges⟩ :=
    @plain_ends strict table _ (.ofTable table) source target rfl plain plain' (Nat.lt_succ_self _)
  have answers : Answers strict table source target false verdict table :=
    ⟨fuel, σ, done fuel (Nat.le_refl fuel), follows.table.symm⟩
  refine ⟨verdict, answers, answers.run_assignable, ?_⟩
  rw [Session.ofTable, RelatedUnder.empty_iff] at judges
  cases verdict with
  | ok => exact ⟨fun _ => judges, fun _ => rfl⟩
  | error mismatch => exact ⟨nofun, fun related => absurd related judges⟩

end Plain

/-- Where no entry is an instantiated type or a generic function type, every type
is plain. -/
theorem Plain.of_entries {table : TypeTable}
    (instances : ∀ i, .instantiated i ∉ table.entries)
    (generics : ∀ f, .function f ∈ table.entries → f.isGeneric = false) (id : TypeId) :
    Plain table id := by
  exact ⟨fun x _ i kind => instances i (TypeTable.mem_entries_of_kind kind nofun),
    fun x _ f kind => generics f (TypeTable.mem_entries_of_kind kind nofun)⟩

/-- Two lists without an end, the second with an optional label. -/
def recursiveLists : TypeTable :=
  { TypeTable.initial with
    entries := TypeTable.initial.entries ++ #[
      .object ⟨some "Chain", ⟨[("next", ⟨7, false⟩)]⟩⟩,
      .object ⟨some "Labelled", ⟨[("next", ⟨8, false⟩), ("label", ⟨TypeId.string, true⟩)]⟩⟩] }

theorem recursiveLists_related :
    (assignable true 7 8 false).run recursiveLists = (.ok (), recursiveLists) := by
  have plain : ∀ id, Plain recursiveLists id :=
    .of_entries (by simp [recursiveLists, TypeTable.initial])
      (by simp [recursiveLists, TypeTable.initial])
  obtain ⟨verdict, -, answered, related⟩ := assignable_plain true recursiveLists (plain 7) (plain 8)
  have closed : StructurallyRelated true recursiveLists 7 8 := by
    refine ⟨fun s t => s = 7 ∧ t = 8, ?_, rfl, rfl⟩
    rintro s t ⟨rfl, rfl⟩
    have rule : ObjectRule (fun s t => s = 7 ∧ t = 8) ⟨some "Chain", ⟨[("next", ⟨7, false⟩)]⟩⟩
        [("next", ⟨8, false⟩), ("label", ⟨TypeId.string, true⟩)] := by
      simp [ObjectRule, PropertyRule, ObjectType.property?, Dictionary.find?, Dictionary.findIn?]
    exact .inr (.inr (.inr rule))
  rw [answered, related.mpr closed]

end StructuralTyping.Assignability
