import Mathlib.Data.Finset.Prod
import StructuralTyping.Proofs.ComparisonRuns
import StructuralTyping.Proofs.TableGrowth

/-! The structural rules, as conditions on a relation of types, and what the
comparisons decide. A comparison of parts that accepts only what one relation
allows, and refuses only what another one forbids, gives a comparison of the whole
that accepts and refuses by the same two relations under the rule for the whole. -/
namespace StructuralTyping.Assignability

open TypeTable (Growth)

theorem fits_iff (given expected : Bool) :
    (!given || expected) = true ↔ (given = true → expected = true) := by
  cases given <;> simp

/-- A property of the target is absent from the source and optional, or there with
a related type and not optional where the target requires it. -/
def PropertyRule (R : TypeId → TypeId → Prop) (s : ObjectType) (expected : String × Property) :
    Prop :=
  match s.property? expected.1 with
  | none => expected.2.optional = true
  | some given =>
      (given.optional = true → expected.2.optional = true) ∧ R given.type expected.2.type

def ObjectRule (R : TypeId → TypeId → Prop) (s : ObjectType)
    (expected : List (String × Property)) : Prop :=
  ∀ property ∈ expected, PropertyRule R s property

/-- Parameters relate in reverse, or in either direction if not strict. -/
def ParameterRule (strict : Bool) (R : TypeId → TypeId → Prop) (s t : TypeId) : Prop :=
  R t s ∨ (strict = false ∧ R s t)

/-- Arguments relate pairwise, both ways if strict. -/
def ArgumentsRule (strict : Bool) (R : TypeId → TypeId → Prop) (pairs : List (TypeId × TypeId)) :
    Prop :=
  ∀ pair ∈ pairs, R pair.1 pair.2 ∧ (strict = true → R pair.2 pair.1)

/-- The source requires no more arguments than the target takes, the parameters
relate pairwise, and the target returns nothing or the results relate. -/
def FunctionRule (strict : Bool) (table : TypeTable) (R : TypeId → TypeId → Prop)
    (s t : FunctionType) : Prop :=
  s.minArgumentCount ≤ t.parameters.length ∧
    (∀ pair ∈ s.parameters.zip t.parameters, ParameterRule strict R pair.1.type pair.2.type) ∧
    (table.isPrimitive t.returnType .void = true ∨ R s.returnType t.returnType)

/-- The rule for the bodies `s` and `t`, by their kinds. The constraint of a type
parameter is related to the target itself. -/
def StructureRule (strict : Bool) (table : TypeTable) (R : TypeId → TypeId → Prop)
    (target s t : TypeId) : Prop :=
  match table.kind s, table.kind t with
  | .primitive a, .primitive b => a = b
  | .typeParameter _ constraint, _ => ∃ bound, constraint = some bound ∧ R bound target
  | .object given, .object expected => ObjectRule R given expected.properties.pairs
  | .function given, .function expected => FunctionRule strict table R given expected
  | _, _ => False

/-- The pairs that the comparison of two bodies compares in turn. -/
inductive Subpair (table : TypeTable) (target s t : TypeId) : TypeId → TypeId → Prop
  | bound {name : String} {bound : TypeId} (source : table.kind s = .typeParameter name (some bound)) :
      Subpair table target s t bound target
  | property {given expected : ObjectType} {name : String} {p q : Property}
      (source : table.kind s = .object given) (aim : table.kind t = .object expected)
      (wanted : (name, q) ∈ expected.properties.pairs) (found : given.property? name = some p) :
      Subpair table target s t p.type q.type
  | parameter {given expected : FunctionType} {p q : Parameter}
      (source : table.kind s = .function given) (aim : table.kind t = .function expected)
      (paired : (p, q) ∈ given.parameters.zip expected.parameters) :
      Subpair table target s t p.type q.type
  | parameterBack {given expected : FunctionType} {p q : Parameter}
      (source : table.kind s = .function given) (aim : table.kind t = .function expected)
      (paired : (p, q) ∈ given.parameters.zip expected.parameters) :
      Subpair table target s t q.type p.type
  | result {given expected : FunctionType}
      (source : table.kind s = .function given) (aim : table.kind t = .function expected) :
      Subpair table target s t given.returnType expected.returnType

/-- The verdict is a yes only where `S` holds and a no only where `T` does not. -/
def Judges (S T : Prop) : Verdict → Prop
  | .ok () => S
  | .error _ => ¬ T

theorem Judges.imp {S S' T T' : Prop} (weaken : S → S') (strengthen : T' → T) {verdict : Verdict}
    (judges : Judges S T verdict) : Judges S' T' verdict := by
  cases verdict with
  | ok => exact weaken judges
  | error => exact fun holds => judges (strengthen holds)

/-- The session goes on with a grown table and otherwise as it was. -/
structure Session.Follows (grown : TypeTable → TypeTable → Prop) (σ σ' : Session) : Prop where
  table : grown σ.table σ'.table
  inProgress : σ'.inProgress = σ.inProgress
  expansionDepth : σ'.expansionDepth = σ.expansionDepth

namespace Session.Follows

variable {grown : TypeTable → TypeTable → Prop} (growth : Growth grown)

theorem of_table {σ : Session} {t : TypeTable} (later : grown σ.table t) :
    σ.Follows grown { σ with table := t } :=
  ⟨later, rfl, rfl⟩

include growth

theorem refl (σ : Session) : σ.Follows grown σ := ⟨growth.refl _, rfl, rfl⟩

theorem trans {σ σ' σ'' : Session} (one : σ.Follows grown σ') (two : σ'.Follows grown σ'') :
    σ.Follows grown σ'' :=
  ⟨growth.trans one.table two.table, two.inProgress.trans one.inProgress,
    two.expansionDepth.trans one.expansionDepth⟩

end Session.Follows

/-- A verdict in a session that followed on this one. -/
def Judged (grown : TypeTable → TypeTable → Prop) (σ : Session) (S T : Prop) (verdict : Verdict)
    (σ' : Session) : Prop :=
  σ.Follows grown σ' ∧ Judges S T verdict

/-- Whenever the pair comes up from here on, its comparison ends and judges. -/
def Decided (grown : TypeTable → TypeTable → Prop) (related : Nat → Related) (σ : Session)
    (a b : TypeId) (S T : Prop) : Prop :=
  ∀ σ', σ.Follows grown σ' → Ends (fun fuel => related fuel a b) σ' (Judged grown σ' S T)

theorem Decided.mono {grown : TypeTable → TypeTable → Prop} (growth : Growth grown)
    {related : Nat → Related} {σ σ' : Session} {a b : TypeId} {S T : Prop}
    (decided : Decided grown related σ a b S T) (follows : σ.Follows grown σ') :
    Decided grown related σ' a b S T :=
  fun σ'' later => decided σ'' (follows.trans growth later)

section Rules
variable {grown : TypeTable → TypeTable → Prop} (growth : Growth grown) {strict : Bool}
  {related : Nat → Related} {S T : TypeId → TypeId → Prop}

include growth

theorem objectRelated_ends {σ : Session} {source target : TypeId} {s : ObjectType}
    {expected : List (String × Property)}
    (parts : ∀ name p q, (name, q) ∈ expected → s.property? name = some p →
      Decided grown related σ p.type q.type (S p.type q.type) (T p.type q.type)) :
    Ends (fun fuel => objectRelated (related fuel) source target s expected) σ
      (Judged grown σ (ObjectRule S s expected) (ObjectRule T s expected)) := by
  induction expected generalizing σ with
  | nil => exact .pure ⟨.refl growth σ, List.forall_mem_nil _⟩
  | cons property rest ih =>
      obtain ⟨name, q⟩ := property
      have others : ∀ σ', σ.Follows grown σ' →
          Ends (fun fuel => objectRelated (related fuel) source target s rest) σ'
            (Judged grown σ' (ObjectRule S s rest) (ObjectRule T s rest)) :=
        fun σ' follows => ih fun name p q later found =>
          (parts name p q (List.mem_cons_of_mem _ later) found).mono growth follows
      rw [ObjectRule, ObjectRule, List.forall_mem_cons, List.forall_mem_cons]
      simp only [objectRelated]
      cases found : s.property? name with
      | none =>
          refine .ite (fun optional => ?_) fun required => ?_
          · refine (others σ (.refl growth σ)).weaken fun verdict σ' judged => ?_
            refine ⟨judged.1, judged.2.imp (fun rest => ⟨?_, rest⟩) And.right⟩
            simpa [PropertyRule, found] using optional
          · refine .pure ⟨.refl growth σ, fun both => required ?_⟩
            simpa [PropertyRule, found] using both.1
      | some p =>
          refine .ite (fun fits => ?_) fun clash => ?_
          · refine (parts name p q List.mem_cons_self found σ (.refl growth σ)).bind ?_
            rintro (mismatch | _) σ' ⟨follows, judges⟩
            · refine .pure ⟨follows, fun both => judges ?_⟩
              simp only [PropertyRule, found] at both
              exact both.1.2
            · refine (others σ' follows).weaken fun verdict σ'' judged => ?_
              refine ⟨follows.trans growth judged.1,
                judged.2.imp (fun rest => ⟨?_, rest⟩) And.right⟩
              simp only [PropertyRule, found]
              exact ⟨(fits_iff _ _).mp fits, judges⟩
          · refine .pure ⟨.refl growth σ, fun both => clash ?_⟩
            simp only [PropertyRule, found] at both
            exact (fits_iff _ _).mpr both.1.1

theorem parameterRelated_ends {σ : Session} {source target : TypeId}
    (back : Decided grown related σ target source (S target source) (T target source))
    (forth : Decided grown related σ source target (S source target) (T source target)) :
    Ends (fun fuel => parameterRelated strict (related fuel) source target) σ
      (Judged grown σ (ParameterRule strict S source target)
        (ParameterRule strict T source target)) := by
  refine (back σ (.refl growth σ)).bind ?_
  rintro (reversed | _) σ' ⟨follows, judges⟩
  · cases strict with
    | true => exact .pure ⟨follows, by simpa [Judges, ParameterRule] using judges⟩
    | false =>
        refine (forth σ' follows).bind ?_
        rintro (mismatch | _) σ'' ⟨later, judges'⟩
        · exact .pure ⟨follows.trans growth later, fun rule => rule.elim judges fun either =>
            judges' either.2⟩
        · exact .pure ⟨follows.trans growth later, .inr ⟨rfl, judges'⟩⟩
  · exact .pure ⟨follows, .inl judges⟩

theorem parametersRelated_ends {σ : Session} {source target : TypeId} {index : Nat}
    {pairs : List (Parameter × Parameter)}
    (parts : ∀ p q, (p, q) ∈ pairs →
      Decided grown related σ q.type p.type (S q.type p.type) (T q.type p.type) ∧
        Decided grown related σ p.type q.type (S p.type q.type) (T p.type q.type)) :
    Ends (fun fuel => parametersRelated strict (related fuel) source target index pairs) σ
      (Judged grown σ (∀ pair ∈ pairs, ParameterRule strict S pair.1.type pair.2.type)
        (∀ pair ∈ pairs, ParameterRule strict T pair.1.type pair.2.type)) := by
  induction pairs generalizing σ index with
  | nil => exact .pure ⟨.refl growth σ, List.forall_mem_nil _⟩
  | cons pair rest ih =>
      obtain ⟨p, q⟩ := pair
      rw [List.forall_mem_cons, List.forall_mem_cons]
      obtain ⟨back, forth⟩ := parts p q List.mem_cons_self
      refine (parameterRelated_ends growth back forth).bind ?_
      rintro (mismatch | _) σ' ⟨follows, judges⟩
      · exact .pure ⟨follows, fun both => judges both.1⟩
      · refine (ih fun p q later => ?_).weaken fun verdict σ'' ⟨later, judges'⟩ => ?_
        · obtain ⟨back, forth⟩ := parts p q (List.mem_cons_of_mem _ later)
          exact ⟨back.mono growth follows, forth.mono growth follows⟩
        · exact ⟨follows.trans growth later, judges'.imp (⟨judges, ·⟩) And.right⟩

theorem signatureRelated_ends {σ : Session} {source target : TypeId} {s t : FunctionType}
    (parts : ∀ p q, (p, q) ∈ s.parameters.zip t.parameters →
      Decided grown related σ q.type p.type (S q.type p.type) (T q.type p.type) ∧
        Decided grown related σ p.type q.type (S p.type q.type) (T p.type q.type))
    (result : Decided grown related σ s.returnType t.returnType
      (S s.returnType t.returnType) (T s.returnType t.returnType))
    (steady : ∀ σ', σ.Follows grown σ' →
      σ'.table.isPrimitive t.returnType .void = σ.table.isPrimitive t.returnType .void) :
    Ends (fun fuel => signatureRelated strict (related fuel) source target s t) σ
      (Judged grown σ (FunctionRule strict σ.table S s t)
        (FunctionRule strict σ.table T s t)) := by
  refine .ite (fun few => ?_) fun enough => ?_
  · exact .pure ⟨.refl growth σ, fun rule => absurd rule.1 (Nat.not_le.mpr few)⟩
  have arity : s.minArgumentCount ≤ t.parameters.length := Nat.not_lt.mp enough
  refine (parametersRelated_ends growth parts).bind ?_
  rintro (mismatch | _) σ' ⟨follows, judges⟩
  · exact .pure ⟨follows, fun rule => judges rule.2.1⟩
  refine .after (fun _ => rfl) ?_
  rw [steady σ' follows]
  refine .ite (fun nothing => ?_) fun something => ?_
  · exact .pure ⟨follows, arity, judges, .inl nothing⟩
  refine (result σ' follows).bind ?_
  rintro (mismatch | _) σ'' ⟨later, judges'⟩
  · exact .pure ⟨follows.trans growth later, fun rule => rule.2.2.elim something judges'⟩
  · exact .pure ⟨follows.trans growth later, arity, judges, .inr judges'⟩

/-- The comparison of two bodies, when no generic signature has to be instantiated. -/
theorem structureRelated_ends {σ : Session} {source target s t : TypeId}
    (parts : ∀ a b, Subpair σ.table target s t a b →
      Decided grown related σ a b (S a b) (T a b))
    (plain : ∀ f, σ.table.kind s = .function f → f.isGeneric = false)
    (steady : ∀ f, σ.table.kind t = .function f → ∀ σ', σ.Follows grown σ' →
      σ'.table.isPrimitive f.returnType .void = σ.table.isPrimitive f.returnType .void) :
    Ends (fun fuel => structureRelated strict (related fuel) source target s t) σ
      (Judged grown σ (StructureRule strict σ.table S target s t)
        (StructureRule strict σ.table T target s t)) := by
  refine .after (fun _ => rfl) ?_
  have incompatible (apart : ¬ StructureRule strict σ.table T target s t) :
      Ends (fun _ => pure (.error (.incompatible source target))) σ
        (Judged grown σ (StructureRule strict σ.table S target s t)
          (StructureRule strict σ.table T target s t)) := .pure ⟨.refl growth σ, apart⟩
  dsimp only
  cases hs : σ.table.kind s with
  | primitive a =>
      cases ht : σ.table.kind t with
      | primitive b =>
          dsimp only
          split
          · next same =>
              exact .pure ⟨.refl growth σ, by simpa [Judges, StructureRule, hs, ht] using same⟩
          · next apart => exact incompatible (by simpa [StructureRule, hs, ht] using apart)
      | _ => exact incompatible (by simp [StructureRule, hs, ht])
  | typeParameter name constraint =>
      cases constraint with
      | none => exact incompatible (by simp [StructureRule, hs])
      | some bound =>
          refine (parts _ _ (.bound hs) σ (.refl growth σ)).bind ?_
          rintro (mismatch | _) σ' ⟨follows, judges⟩
          · exact .pure ⟨follows, by simpa [Judges, StructureRule, hs] using judges⟩
          · exact .pure ⟨follows, by simpa [Judges, StructureRule, hs] using judges⟩
  | object given =>
      cases ht : σ.table.kind t with
      | object expected =>
          refine (objectRelated_ends growth fun name p q wanted found =>
            parts _ _ (.property hs ht wanted found)).weaken fun verdict σ' judged => ?_
          simpa [StructureRule, hs, ht] using judged
      | _ => exact incompatible (by simp [StructureRule, hs, ht])
  | function given =>
      cases ht : σ.table.kind t with
      | function expected =>
          have signature :
              Ends (fun fuel => signatureRelated strict (related fuel) source target given expected)
                σ (Judged grown σ (FunctionRule strict σ.table S given expected)
                  (FunctionRule strict σ.table T given expected)) :=
            signatureRelated_ends growth (fun p q paired =>
              ⟨parts _ _ (.parameterBack hs ht paired), parts _ _ (.parameter hs ht paired)⟩)
              (parts _ _ (.result hs ht)) (steady expected ht)
          simp only [functionRelated, plain given hs]
          refine Ends.after (fun _ => rfl) (signature.weaken fun verdict σ' judged => ?_)
          simpa [StructureRule, hs, ht] using judged
      | _ => exact incompatible (by simp [StructureRule, hs, ht])
  | _ => exact incompatible (by simp [StructureRule, hs])

/-- The shortcut over arguments accepts only where all of them relate, and refuses only where
one does not. -/
theorem argumentsRelated_judges {σ : Session} {pairs : List (TypeId × TypeId)}
    (parts : ∀ a b, (a, b) ∈ pairs →
      Decided grown related σ a b (S a b) (T a b) ∧ Decided grown related σ b a (S b a) (T b a)) :
    Ends (fun fuel => argumentsRelated strict (related fuel) pairs) σ fun found σ' =>
      σ.Follows grown σ' ∧ (found = true → ArgumentsRule strict S pairs) ∧
        (ArgumentsRule strict T pairs → found = true) := by
  have holds_ends {σ' : Session} {a b : TypeId} (decided : Decided grown related σ' a b (S a b) (T a b)) :
      Ends (fun fuel => holds (related fuel) a b) σ' fun found σ'' =>
        σ'.Follows grown σ'' ∧ (found = true → S a b) ∧ (T a b → found = true) := by
    refine (decided σ' (.refl growth σ')).bind ?_
    rintro (mismatch | _) σ'' ⟨follows, judges⟩
    · exact .pure ⟨follows, nofun, fun granted => absurd granted judges⟩
    · exact .pure ⟨follows, fun _ => judges, fun _ => rfl⟩
  induction pairs generalizing σ with
  | nil => exact .pure ⟨.refl growth σ, fun _ => List.forall_mem_nil _, fun _ => rfl⟩
  | cons pair rest ih =>
      obtain ⟨a, b⟩ := pair
      obtain ⟨forth, back⟩ := parts a b List.mem_cons_self
      simp only [ArgumentsRule, List.forall_mem_cons]
      have others {σ' : Session} (follows : σ.Follows grown σ') (here : S a b ∧ (strict = true → S b a)) :
          Ends (fun fuel => argumentsRelated strict (related fuel) rest) σ' fun found σ'' =>
            σ.Follows grown σ'' ∧
              (found = true → (S a b ∧ (strict = true → S b a)) ∧ ArgumentsRule strict S rest) ∧
              ((T a b ∧ (strict = true → T b a)) ∧ ArgumentsRule strict T rest → found = true) := by
        refine (ih fun a b later => ?_).weaken fun found σ'' ⟨later, accepted, granted⟩ => ?_
        · obtain ⟨forth, back⟩ := parts a b (List.mem_cons_of_mem _ later)
          exact ⟨forth.mono growth follows, back.mono growth follows⟩
        · exact ⟨follows.trans growth later, fun yes => ⟨here, accepted yes⟩,
            fun both => granted both.2⟩
      refine (holds_ends forth).bind fun found σ' ⟨follows, accepted, granted⟩ => ?_
      refine .ite (fun yes => .ite (fun isStrict => ?_) fun lax => ?_) fun no => ?_
      · refine (holds_ends (back.mono growth follows)).bind
          fun found' σ'' ⟨later, accepted', granted'⟩ => ?_
        have reached := follows.trans growth later
        refine .ite (fun yes' => ?_) fun no => .pure ⟨reached, nofun, fun both => ?_⟩
        · exact others reached ⟨accepted yes, fun _ => accepted' yes'⟩
        · exact absurd (granted' (both.1.2 isStrict)) no
      · exact others follows ⟨accepted yes, fun isStrict => absurd isStrict lax⟩
      · exact .pure ⟨follows, nofun, fun both => absurd (granted both.1.1) no⟩

/-- When the shortcut over arguments accepts, all of them relate, both ways if
strict. -/
theorem argumentsRelated_ends {σ : Session} {pairs : List (TypeId × TypeId)}
    (parts : ∀ a b, (a, b) ∈ pairs →
      Decided grown related σ a b (S a b) (T a b) ∧ Decided grown related σ b a (S b a) (T b a)) :
    Ends (fun fuel => argumentsRelated strict (related fuel) pairs) σ fun found σ' =>
      σ.Follows grown σ' ∧
        (found = true → ∀ pair ∈ pairs, S pair.1 pair.2 ∧ (strict = true → S pair.2 pair.1)) :=
  (argumentsRelated_judges growth parts).weaken fun _ _ both => ⟨both.1, both.2.1⟩

end Rules

/-- The session inside the comparison of two bodies. -/
def Session.entered (σ : Session) (s t : TypeId) (expanded : Bool) : Session :=
  ⟨σ.table, σ.inProgress.insert (s, t), σ.expansionDepth + (if expanded then 1 else 0)⟩

/-- Nested comparisons are cut off here. -/
def Session.Limited (σ : Session) (expanded : Bool) : Prop :=
  expanded = true ∧ expansionLimit ≤ σ.expansionDepth

/-- Leaving a pair that was not in progress before gives the set back. -/
theorem erase_insert {pairs : PairSet} {pair : TypeId × TypeId} (apart : pair ∉ pairs) :
    (pairs.insert pair).erase pair = pairs := by
  ext other
  simp only [Std.ExtTreeSet.mem_erase, Std.ExtTreeSet.mem_insert]
  grind

theorem expandRelated_ends {grown : TypeTable → TypeTable → Prop} (growth : Growth grown)
    {strict : Bool} {related : Nat → Related} {S T : Prop} {σ : Session}
    {source target s t : TypeId} (apart : (s, t) ∉ σ.inProgress)
    (inner : ¬ σ.Limited (s != source || t != target) →
      Ends (fun fuel => structureRelated strict (related fuel) source target s t)
        (σ.entered s t (s != source || t != target))
        (Judged grown (σ.entered s t (s != source || t != target)) S T)) :
    Ends (fun fuel => expandRelated strict (related fuel) source target s t) σ
      (Judged grown σ (σ.Limited (s != source || t != target) ∨ S) T) := by
  refine .after (fun _ => rfl) (.ite (fun limited => ?_) fun free => ?_)
  · exact .pure ⟨.refl growth σ, .inl (by simpa [Session.Limited] using limited)⟩
  refine .after (fun _ => rfl) ((inner (by simpa [Session.Limited] using free)).bind ?_)
  intro verdict σ' ⟨follows, judges⟩
  refine .after (fun _ => rfl) (.pure ⟨⟨follows.table, ?_, ?_⟩, judges.imp .inr id⟩)
  · have entered : σ'.inProgress = σ.inProgress.insert (s, t) := follows.inProgress
    change σ'.inProgress.erase (s, t) = σ.inProgress
    rw [entered, erase_insert apart]
  · have entered := follows.expansionDepth
    change σ'.expansionDepth - _ = σ.expansionDepth
    rw [entered]
    exact Nat.add_sub_cancel _ _

section Steps
variable {grown : TypeTable → TypeTable → Prop} (growth : Growth grown) {strict : Bool}
  {S T : Prop} {σ : Session} {source target : TypeId}

include growth

/-- The comparison of bodies, from what is known about each of its ends. -/
theorem bodiesRelated_ends {related : Nat → Related} {s t : TypeId} {one two : TypeTable}
    (first : (resolve source).run σ.table = (s, one))
    (second : (resolve target).run one = (t, two))
    (follows : σ.Follows grown { σ with table := two }) (same : s = t → S)
    (wild : two.isWildcard s = true ∨ two.isWildcard t = true → S)
    (assumed : (s, t) ∈ σ.inProgress → S)
    (limited : σ.Limited (s != source || t != target) → S)
    (inner : s ≠ t → two.isWildcard s = false → two.isWildcard t = false →
      (s, t) ∉ σ.inProgress → ¬ σ.Limited (s != source || t != target) →
      Ends (fun fuel => structureRelated strict (related fuel) source target s t)
        (Session.entered { σ with table := two } s t (s != source || t != target))
        (Judged grown (Session.entered { σ with table := two } s t (s != source || t != target))
          S T)) :
    Ends (fun fuel => bodiesRelated strict (related fuel) source target) σ
      (Judged grown σ S T) := by
  have one' : (RelationM.onTable (resolve source)).run σ = some (s, { σ with table := one }) := by
    rw [run_onTable, first]
  have two' : (RelationM.onTable (resolve target)).run { σ with table := one } =
      some (t, { σ with table := two }) := by
    rw [run_onTable, second]
  refine .after (fun _ => one') (.after (fun _ => two') (.after (fun _ => rfl) ?_))
  refine .ite (fun equal => .pure ⟨follows, same equal⟩) fun apart => ?_
  refine .ite (fun either => .pure ⟨follows, wild (by simpa using either)⟩) fun solid => ?_
  refine .ite (fun member => .pure ⟨follows, assumed member⟩) fun outside => ?_
  simp only [Bool.or_eq_true, not_or, Bool.not_eq_true] at solid
  refine (expandRelated_ends growth outside (inner apart solid.1 solid.2 outside)).weaken ?_
  rintro verdict σ' ⟨later, judges⟩
  exact ⟨follows.trans growth later, judges.imp (·.elim limited id) id⟩

theorem relatedWithin_ends (same : source = target → S)
    (shortcut : source ≠ target →
      Ends (fun fuel => instancesRelated strict (relatedWithin strict fuel) source target) σ
        fun found σ' => σ.Follows grown σ' ∧ (found = true → S))
    (bodies : source ≠ target → ∀ σ', σ.Follows grown σ' →
      Ends (fun fuel => bodiesRelated strict (relatedWithin strict fuel) source target) σ'
        (Judged grown σ' S T)) :
    Ends (fun fuel => relatedWithin strict fuel source target) σ (Judged grown σ S T) := by
  refine .succ ?_
  simp only [relatedWithin]
  refine .ite (fun equal => .pure ⟨.refl growth σ, same equal⟩) fun apart => ?_
  refine (shortcut apart).bind fun found σ' both => ?_
  have follows : σ.Follows grown σ' := both.1
  refine .ite (fun yes => .pure ⟨follows, both.2 yes⟩) fun _ => ?_
  exact (bodies apart σ' follows).weaken fun verdict σ'' judged =>
    ⟨follows.trans growth judged.1, judged.2⟩

end Steps

/-- The pairs of types below a bound that are not in progress. -/
def Session.openPairs (σ : Session) (bound : Nat) : Finset (TypeId × TypeId) :=
  (Finset.range bound ×ˢ Finset.range bound).filter fun pair => pair ∉ σ.inProgress

theorem Session.Follows.openPairs {grown : TypeTable → TypeTable → Prop} {σ σ' : Session}
    (follows : σ.Follows grown σ') (bound : Nat) : σ'.openPairs bound = σ.openPairs bound := by
  rw [Session.openPairs, Session.openPairs, follows.inProgress]

/-- Entering a pair uses it up. -/
theorem Session.openPairs_entered {σ : Session} {s t bound : Nat} (source : s < bound)
    (target : t < bound) (apart : (s, t) ∉ σ.inProgress) (expanded : Bool) :
    ((σ.entered s t expanded).openPairs bound).card < (σ.openPairs bound).card := by
  refine Finset.card_lt_card (Finset.ssubset_iff_of_subset ?_ |>.mpr ⟨(s, t), ?_, ?_⟩)
  · intro pair
    simp only [Session.openPairs, Session.entered, Finset.mem_filter, Std.ExtTreeSet.mem_insert]
    exact fun ⟨inside, outside⟩ => ⟨inside, fun member => outside (.inr member)⟩
  · simpa [Session.openPairs] using ⟨⟨source, target⟩, apart⟩
  · simp [Session.openPairs, Session.entered]

end StructuralTyping.Assignability
