import StructuralTyping.Proofs.FiniteComparisons

/-! Why a pair of types is accepted or refused. What is known of the comparisons of its parts,
as far as they come to an answer, tells what the answer about the pair is. -/
namespace StructuralTyping.Assignability

open TypeTable

/-- Two instances of one generic interface relate when their arguments do. -/
def InstancesRule (strict : Bool) (table : TypeTable) (R : TypeId → TypeId → Prop)
    (source target : TypeId) : Prop :=
  ∃ i j, table.kind source = .instantiated i ∧ table.kind target = .instantiated j ∧
    i.origin = j.origin ∧ ArgumentsRule strict R (i.bindings.values.zip j.bindings.values)

/-- The bodies `s` and `t` of two types relate when there is nothing to compare, or when
they are assumed to relate, or by their structure. -/
def BodiesRule (strict : Bool) (R : TypeId → TypeId → Prop) (σ : Session)
    (source target s t : TypeId) : Prop :=
  s = t ∨ (σ.table.isWildcard s = true ∨ σ.table.isWildcard t = true) ∨ (s, t) ∈ σ.inProgress ∨
    σ.Limited (s != source || t != target) ∨ StructureRule strict σ.table R target s t

section Rules
variable {grown : TypeTable → TypeTable → Prop} (growth : Growth grown) {strict : Bool}
  {related : Nat → Related} {S T : TypeId → TypeId → Prop} {σ : Session} {source target : TypeId}

include growth

theorem instancesRelated_judges
    (parts : ∀ i j, σ.table.kind source = .instantiated i → σ.table.kind target = .instantiated j →
      ∀ a b, (a, b) ∈ i.bindings.values.zip j.bindings.values →
        Decided grown related σ a b (S a b) (T a b) ∧ Decided grown related σ b a (S b a) (T b a)) :
    Ends (fun fuel => instancesRelated strict (related fuel) source target) σ fun found σ' =>
      σ.Follows grown σ' ∧ (found = true → InstancesRule strict σ.table S source target) ∧
        (InstancesRule strict σ.table T source target → found = true) := by
  refine .after (fun _ => rfl) ?_
  dsimp only
  split
  · next i j hs ht =>
      refine .ite (fun origin => ?_) fun apart => .pure ⟨.refl growth σ, nofun, ?_⟩
      · refine (argumentsRelated_judges growth (parts i j hs ht)).weaken ?_
        rintro found σ' ⟨follows, accepted, granted⟩
        refine ⟨follows, fun yes => ⟨i, j, hs, ht, origin, accepted yes⟩, ?_⟩
        rintro ⟨i', j', hs', ht', -, all⟩
        obtain rfl := TypeKind.instantiated.inj (hs.symm.trans hs')
        obtain rfl := TypeKind.instantiated.inj (ht.symm.trans ht')
        exact granted all
      · rintro ⟨i', j', hs', ht', origin, -⟩
        obtain rfl := TypeKind.instantiated.inj (hs.symm.trans hs')
        obtain rfl := TypeKind.instantiated.inj (ht.symm.trans ht')
        exact absurd origin apart
  · next other =>
      refine .pure ⟨.refl growth σ, nofun, ?_⟩
      rintro ⟨i, j, hs, ht, -⟩
      exact (other i j hs ht).elim

theorem bodiesRelated_judges {s t : TypeId} {one two : TypeTable}
    (first : (resolve source).run σ.table = (s, one)) (second : (resolve target).run one = (t, two))
    (follows : σ.Follows grown { σ with table := two })
    (parts : ∀ a b, Subpair two target s t a b →
      Decided grown related
        (Session.entered { σ with table := two } s t (s != source || t != target))
        a b (S a b) (T a b))
    (plain : ∀ f, two.kind s = .function f → f.isGeneric = false)
    (steady : ∀ f, two.kind t = .function f → ∀ table, grown two table →
      table.isPrimitive f.returnType .void = two.isPrimitive f.returnType .void) :
    Ends (fun fuel => bodiesRelated strict (related fuel) source target) σ
      (Judged grown σ (BodiesRule strict S { σ with table := two } source target s t)
        (BodiesRule strict T { σ with table := two } source target s t)) := by
  refine bodiesRelated_ends growth first second follows .inl (fun wild => .inr (.inl wild))
    (fun assumed => .inr (.inr (.inl assumed)))
    (fun limited => .inr (.inr (.inr (.inl limited)))) fun apart solid solid' outside free => ?_
  refine (structureRelated_ends growth parts plain fun f entry σ' later =>
    steady f entry σ'.table later.table).weaken ?_
  rintro verdict σ' ⟨later, judges⟩
  refine ⟨later, judges.imp (fun rule => .inr (.inr (.inr (.inr rule)))) ?_⟩
  rintro (same | wild | assumed | limited | rule)
  · exact absurd same apart
  · rw [solid, solid'] at wild
    exact absurd wild (by simp)
  · exact absurd assumed outside
  · exact absurd limited free
  · exact rule

end Rules

section Answered
variable {grown : TypeTable → TypeTable → Prop} {strict : Bool} {related : Related}
  {σ τ : Session} {source target : TypeId} {fuel : Nat}

/-- The comparison, where it comes to an answer, and this verdict where it does not. -/
def completed (otherwise : Verdict) (related : Related) : Related := fun source target σ =>
  some (((related source target).run σ).getD (otherwise, σ))

theorem below_completed (otherwise : Verdict) (related : Related) (a b : TypeId) :
    Below (related a b) (completed otherwise related a b) := by
  intro σ r done
  change some (((related a b).run σ).getD (otherwise, σ)) = some r
  rw [done]
  rfl

/-- What is known of the answers that there are holds of the completed comparison. -/
theorem decided_completed (growth : Growth grown) {otherwise : Verdict} {a b : TypeId} {S T : Prop}
    (answered : ∀ τ verdict τ', σ.Follows grown τ → (related a b).run τ = some (verdict, τ') →
      Judged grown τ S T verdict τ') (unanswered : Judges S T otherwise) :
    Decided grown (fun _ => completed otherwise related) σ a b S T := by
  intro τ follows
  cases done : (related a b).run τ with
  | some r =>
      have judged := answered τ r.1 r.2 follows done
      exact .of_run (fun _ => below_completed otherwise related a b τ r done) judged
  | none =>
      have run : (completed otherwise related a b).run τ = some (otherwise, τ) := by
        change some (((related a b).run τ).getD (otherwise, τ)) = _
        rw [done]
        rfl
      exact .of_run (fun _ => run) ⟨.refl growth τ, unanswered⟩

/-- What is known of the end of a computation is known of an answer of a part of it. -/
theorem Ends.of_below {α : Type} {m m' : RelationM α} {post : α → Session → Prop} {a : α}
    (ends : Ends (fun _ => m') σ post) (below : Below m m') (done : m.run σ = some (a, τ)) :
    post a τ := by
  obtain ⟨a', τ', least, run, holds⟩ := ends
  obtain ⟨rfl, rfl⟩ := Prod.mk.inj
    (Option.some.inj ((run least (Nat.le_refl least)).symm.trans (below σ _ done)))
  exact holds

/-- An answer under some fuel is the answer under every larger one. -/
theorem below_relatedWithin {more : Nat} (enough : fuel ≤ more) (a b : TypeId) :
    Below (relatedWithin strict fuel a b) (relatedWithin strict more a b) := by
  induction enough with
  | refl => exact .refl _
  | step _ ih => exact fun σ r done => below_relatedWithin_succ strict _ a b σ r (ih σ r done)

/-- What is known of the end of a computation is known of its answer under any fuel. -/
theorem Ends.of_answer {α : Type} {m : Nat → RelationM α} {post : α → Session → Prop} {a : α}
    (stable : ∀ fuel more, fuel ≤ more → Below (m fuel) (m more)) (ends : Ends m σ post)
    (done : (m fuel).run σ = some (a, τ)) : post a τ := by
  obtain ⟨a', τ', least, run, holds⟩ := ends
  have more := stable fuel _ (Nat.le_max_left fuel least) σ _ done
  have same := (run (max fuel least) (Nat.le_max_right fuel least)).symm.trans more
  obtain ⟨rfl, rfl⟩ := Prod.mk.inj (Option.some.inj same)
  exact holds

/-- The steps on the way to an answer. -/
theorem relatedWithin_cases {verdict : Verdict}
    (done : (relatedWithin strict (fuel + 1) source target).run σ = some (verdict, τ)) :
    source = target ∧ verdict = .ok () ∧ τ = σ ∨
      source ≠ target ∧ ∃ found between,
        (instancesRelated strict (relatedWithin strict fuel) source target).run σ =
          some (found, between) ∧
        (found = true ∧ verdict = .ok () ∧ τ = between ∨
          found = false ∧
            (bodiesRelated strict (relatedWithin strict fuel) source target).run between =
            some (verdict, τ)) := by
  rw [relatedWithin] at done
  by_cases same : source = target
  · rw [if_pos same] at done
    obtain ⟨rfl, rfl⟩ := Prod.mk.inj (Option.some.inj done)
    exact .inl ⟨same, rfl, rfl⟩
  · rw [if_neg same, StateT.run_bind] at done
    obtain ⟨⟨found, between⟩, one, two⟩ := Option.bind_eq_some_iff.mp done
    refine .inr ⟨same, found, between, one, ?_⟩
    cases found with
    | true =>
        obtain ⟨rfl, rfl⟩ := Prod.mk.inj (Option.some.inj two)
        exact .inl ⟨rfl, rfl, rfl⟩
    | false => exact .inr ⟨rfl, two⟩

end Answered

/-- The session after the comparison of two bodies. -/
def Session.exited (σ : Session) (s t : TypeId) (expanded : Bool) : Session :=
  ⟨σ.table, σ.inProgress.erase (s, t), σ.expansionDepth - (if expanded then 1 else 0)⟩

theorem Session.exited_entered {σ : Session} {s t : TypeId} (apart : (s, t) ∉ σ.inProgress)
    (expanded : Bool) : (σ.entered s t expanded).exited s t expanded = σ := by
  rw [entered, exited, erase_insert apart, Nat.add_sub_cancel]

/-- There is nothing to compare, or the answer is assumed. -/
def Session.Passes (σ : Session) (source target s t : TypeId) : Prop :=
  s = t ∨ (σ.table.isWildcard s = true ∨ σ.table.isWildcard t = true) ∨ (s, t) ∈ σ.inProgress ∨
    σ.Limited (s != source || t != target)

section Steps
variable {strict : Bool} {related : Related} {σ : Session} {source target s t : TypeId}
  {one two : TypeTable}

theorem run_bodiesRelated (first : (resolve source).run σ.table = (s, one))
    (second : (resolve target).run one = (t, two)) :
    (bodiesRelated strict related source target).run σ =
      (if s = t then pure (.ok ())
        else if two.isWildcard s || two.isWildcard t then pure (.ok ())
        else if (s, t) ∈ σ.inProgress then pure (.ok ())
        else expandRelated strict related source target s t : RelationM Verdict).run
          { σ with table := two } := by
  rw [bodiesRelated, StateT.run_bind, run_onTable, first]
  dsimp only [Option.bind_eq_bind, Option.bind_some]
  rw [StateT.run_bind, run_onTable, second]
  rfl

theorem run_bodiesRelated_of_passes (first : (resolve source).run σ.table = (s, one))
    (second : (resolve target).run one = (t, two))
    (passes : Session.Passes { σ with table := two } source target s t) :
    (bodiesRelated strict related source target).run σ =
      some (.ok (), { σ with table := two }) := by
  rw [run_bodiesRelated first second]
  split_ifs with same wild assumed
  · rfl
  · rfl
  · rfl
  · have limited : σ.Limited (s != source || t != target) :=
      ((passes.resolve_left same).resolve_left (by simpa using wild)).resolve_left assumed
    rw [expandRelated, StateT.run_bind, StateT.run_get]
    dsimp only [Option.bind_eq_bind, Option.bind_some, Option.pure_def]
    rw [if_pos (by simpa [Session.Limited] using limited)]
    rfl

/-- Otherwise the bodies are entered, and left with the answer about their structure. -/
theorem run_bodiesRelated_of_not_passes (first : (resolve source).run σ.table = (s, one))
    (second : (resolve target).run one = (t, two))
    (compared : ¬Session.Passes { σ with table := two } source target s t) :
    (bodiesRelated strict related source target).run σ =
      ((structureRelated strict related source target s t).run
        (Session.entered { σ with table := two } s t (s != source || t != target))).map
          fun r => (r.1, r.2.exited s t (s != source || t != target)) := by
  rw [Session.Passes, not_or, not_or, not_or, not_or] at compared
  obtain ⟨apart, solid, outside, free⟩ := compared
  rw [run_bodiesRelated first second, if_neg apart, if_neg (by simpa using solid), if_neg outside,
    expandRelated, StateT.run_bind, StateT.run_get]
  dsimp only [Option.bind_eq_bind, Option.bind_some, Option.pure_def]
  rw [if_neg (by simpa [Session.Limited] using free), StateT.run_bind]
  change Option.bind (some _) _ = _
  rw [Option.bind_some, StateT.run_bind, Option.map_eq_bind]
  rfl

end Steps

end StructuralTyping.Assignability
