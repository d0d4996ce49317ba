import StructuralTyping.Assignability.Relation

/-! Runs of comparisons. An answer is carried over from one computation to another, from
sessions that are related in some way, through every function of the comparison. So the fuel
of a comparison only decides whether there is an answer: an answer under some fuel is the
answer under every larger one, and a question is answered exactly when some fuel suffices.
Statements about answers are therefore about all fuels that are large enough. -/
namespace StructuralTyping.Assignability

variable {α β : Type}

/-- Where the one computation answers from a session, the other gives the same answer from the
sessions that `R` relates to it, and the sessions after that are related again. -/
def Mirrors (R : Session → Session → Prop) (m m' : RelationM α) : Prop :=
  ∀ σ σ' a τ, R σ σ' → m.run σ = some (a, τ) → ∃ τ', m'.run σ' = some (a, τ') ∧ R τ τ'

/-- The sessions are about one table, and stay related when signatures are instantiated. -/
structure Aligned (R : Session → Session → Prop) : Prop where
  table : ∀ σ σ', R σ σ' → σ'.table = σ.table
  instantiateAgainst : ∀ s t, Mirrors R (RelationM.onTable (instantiateAgainst s t))
    (RelationM.onTable (instantiateAgainst s t))

namespace Mirrors

variable {R : Session → Session → Prop}

theorem pure (a : α) : Mirrors R (pure a : RelationM α) (pure a) := by
  intro σ σ' b τ related done
  obtain ⟨rfl, rfl⟩ := Prod.mk.inj (Option.some.inj done)
  exact ⟨σ', rfl, related⟩

theorem bind {m m' : RelationM α} {k k' : α → RelationM β} (first : Mirrors R m m')
    (next : ∀ a, Mirrors R (k a) (k' a)) : Mirrors R (m >>= k) (m' >>= k') := by
  intro σ σ' b τ related done
  rw [StateT.run_bind] at done ⊢
  obtain ⟨⟨a, between⟩, one, two⟩ := Option.bind_eq_some_iff.mp done
  obtain ⟨between', one', related'⟩ := first σ σ' a between related one
  obtain ⟨τ', two', related''⟩ := next a between between' b τ related' two
  exact ⟨τ', Option.bind_eq_some_iff.mpr ⟨(a, between'), one', two'⟩, related''⟩

/-- Only the table of a session is read. -/
theorem read (aligned : Aligned R) {k k' : Session → RelationM β}
    (next : ∀ σ σ', σ'.table = σ.table → Mirrors R (k σ) (k' σ')) :
    Mirrors R (get >>= k) (get >>= k') := fun σ σ' b τ related =>
  next σ σ' (aligned.table σ σ' related) σ σ' b τ related

theorem ite {p : Prop} [Decidable p] {yes yes' no no' : RelationM α} (one : Mirrors R yes yes')
    (two : Mirrors R no no') :
    Mirrors R (if p then yes else no) (if p then yes' else no') := by
  split
  · exact one
  · exact two

end Mirrors

section Parts
variable {R : Session → Session → Prop} (aligned : Aligned R) {strict : Bool}
  {related related' : Related} (mirrors : ∀ a b, Mirrors R (related a b) (related' a b))

include mirrors

theorem mirrors_holds (a b : TypeId) : Mirrors R (holds related a b) (holds related' a b) :=
  (mirrors a b).bind fun verdict => by cases verdict <;> exact .pure _

theorem mirrors_argumentsRelated (pairs : List (TypeId × TypeId)) :
    Mirrors R (argumentsRelated strict related pairs) (argumentsRelated strict related' pairs) := by
  induction pairs with
  | nil => exact .pure _
  | cons pair rest ih =>
      refine (mirrors_holds mirrors pair.1 pair.2).bind fun forth => .ite ?_ (.pure _)
      refine .ite ?_ ih
      exact (mirrors_holds mirrors pair.2 pair.1).bind fun back => .ite ih (.pure _)

include aligned in
theorem mirrors_instancesRelated (source target : TypeId) :
    Mirrors R (instancesRelated strict related source target)
      (instancesRelated strict related' source target) := by
  refine .read aligned fun σ σ' same => ?_
  dsimp only
  rw [same]
  split
  · exact .ite (mirrors_argumentsRelated mirrors _) (.pure _)
  · exact .pure _

theorem mirrors_objectRelated (source target : TypeId) (s : ObjectType)
    (expected : List (String × Property)) :
    Mirrors R (objectRelated related source target s expected)
      (objectRelated related' source target s expected) := by
  induction expected with
  | nil => exact .pure _
  | cons property rest ih =>
      rw [objectRelated, objectRelated]
      split
      · exact .ite ih (.pure _)
      · refine .ite ((mirrors _ _).bind fun verdict => ?_) (.pure _)
        split
        · exact ih
        · exact .pure _

theorem mirrors_parameterRelated (source target : TypeId) :
    Mirrors R (parameterRelated strict related source target)
      (parameterRelated strict related' source target) := by
  refine (mirrors _ _).bind fun reversed => ?_
  split
  · exact .pure _
  · refine .ite (.pure _) ((mirrors _ _).bind fun verdict => ?_)
    cases verdict <;> exact .pure _

theorem mirrors_parametersRelated (source target : TypeId) (index : Nat)
    (parameters : List (Parameter × Parameter)) :
    Mirrors R (parametersRelated strict related source target index parameters)
      (parametersRelated strict related' source target index parameters) := by
  induction parameters generalizing index with
  | nil => exact .pure _
  | cons pair rest ih =>
      refine (mirrors_parameterRelated mirrors _ _).bind fun verdict => ?_
      split
      · exact ih _
      · exact .pure _

include aligned

theorem mirrors_signatureRelated (source target : TypeId) (s t : FunctionType) :
    Mirrors R (signatureRelated strict related source target s t)
      (signatureRelated strict related' source target s t) := by
  refine .ite (.pure _) ((mirrors_parametersRelated mirrors _ _ _ _).bind fun verdict => ?_)
  split
  · exact .pure _
  · refine .read aligned fun σ σ' same => ?_
    rw [same]
    refine .ite (.pure _) ((mirrors _ _).bind fun verdict => ?_)
    cases verdict <;> exact .pure _

theorem mirrors_structureRelated (source target s t : TypeId) :
    Mirrors R (structureRelated strict related source target s t)
      (structureRelated strict related' source target s t) := by
  refine .read aligned fun σ σ' same => ?_
  dsimp only
  rw [same]
  split
  · split <;> exact .pure _
  · split
    · exact .pure _
    · exact (mirrors _ _).bind fun verdict => by cases verdict <;> exact .pure _
  · exact mirrors_objectRelated mirrors _ _ _ _
  · rw [functionRelated, functionRelated]
    split
    · exact (aligned.instantiateAgainst _ _).bind fun f =>
        mirrors_signatureRelated aligned mirrors _ _ f _
    · exact Mirrors.bind (.pure _) fun f => mirrors_signatureRelated aligned mirrors _ _ f _
  · exact .pure _

end Parts

/-- Whatever the one computation answers, the other answers too. -/
def Below (m m' : RelationM α) : Prop := ∀ σ r, m.run σ = some r → m'.run σ = some r

theorem below_iff {m m' : RelationM α} : Below m m' ↔ Mirrors Eq m m' := by
  constructor
  · rintro below σ _ a τ rfl done
    exact ⟨τ, below σ _ done, rfl⟩
  · rintro mirrors σ ⟨a, τ⟩ done
    obtain ⟨_, done', rfl⟩ := mirrors σ σ a τ rfl done
    exact done'

theorem aligned_eq : Aligned Eq where
  table := by rintro σ _ rfl; rfl
  instantiateAgainst _ _ := below_iff.mp fun _ _ done => done

namespace Below

theorem refl (m : RelationM α) : Below m m := fun _ _ done => done

theorem bind {m m' : RelationM α} {k k' : α → RelationM β} (first : Below m m')
    (next : ∀ a, Below (k a) (k' a)) : Below (m >>= k) (m' >>= k') :=
  below_iff.mpr ((below_iff.mp first).bind fun a => below_iff.mp (next a))

theorem ite {p : Prop} [Decidable p] {yes yes' no no' : RelationM α} (one : Below yes yes')
    (two : Below no no') : Below (if p then yes else no) (if p then yes' else no') :=
  below_iff.mpr ((below_iff.mp one).ite (below_iff.mp two))

end Below

section Fuel
variable {strict : Bool} {related related' : Related}
  (below : ∀ a b, Below (related a b) (related' a b))

include below

theorem below_instancesRelated (source target : TypeId) :
    Below (instancesRelated strict related source target)
      (instancesRelated strict related' source target) :=
  below_iff.mpr (mirrors_instancesRelated aligned_eq (fun a b => below_iff.mp (below a b)) _ _)

theorem below_structureRelated (source target s t : TypeId) :
    Below (structureRelated strict related source target s t)
      (structureRelated strict related' source target s t) :=
  below_iff.mpr (mirrors_structureRelated aligned_eq (fun a b => below_iff.mp (below a b)) _ _ _ _)

theorem below_expandRelated (source target s t : TypeId) :
    Below (expandRelated strict related source target s t)
      (expandRelated strict related' source target s t) := by
  refine (Below.refl _).bind fun σ => .ite (.refl _) ?_
  refine (Below.refl _).bind fun _ => ?_
  exact (below_structureRelated below _ _ _ _).bind fun _ => .refl _

theorem below_bodiesRelated (source target : TypeId) :
    Below (bodiesRelated strict related source target)
      (bodiesRelated strict related' source target) := by
  refine (Below.refl _).bind fun s => (Below.refl _).bind fun t => (Below.refl _).bind fun σ => ?_
  refine .ite (.refl _) (.ite (.refl _) (.ite (.refl _) ?_))
  exact below_expandRelated below _ _ _ _

end Fuel

theorem below_relatedWithin_succ (strict : Bool) (fuel : Nat) :
    ∀ source target, Below (relatedWithin strict fuel source target)
      (relatedWithin strict (fuel + 1) source target) := by
  induction fuel with
  | zero => exact fun _ _ _ _ done => nomatch done
  | succ fuel ih =>
      intro source target
      rw [relatedWithin, relatedWithin]
      refine .ite (.refl _) ((below_instancesRelated ih _ _).bind fun instances => ?_)
      exact .ite (.refl _) (below_bodiesRelated ih _ _)

theorem below_assignableWithin_succ (strict : Bool) (fuel : Nat) (source target : TypeId)
    (fresh : Bool) : Below (assignableWithin strict fuel source target fresh)
      (assignableWithin strict (fuel + 1) source target fresh) := by
  have compared : ∀ excess : List String, Below
      (if excess.isEmpty then relatedWithin strict fuel source target
        else pure (.error (.excessProperty excess source target)))
      (if excess.isEmpty then relatedWithin strict (fuel + 1) source target
        else pure (.error (.excessProperty excess source target))) := fun _ =>
    .ite (below_relatedWithin_succ strict fuel source target) (.refl _)
  cases fresh with
  | false => exact (Below.refl _).bind compared
  | true => exact (Below.refl _).bind compared

/-- An answer stays the answer when there is more fuel. -/
theorem assignableWithin_stable {strict fresh : Bool} {source target : TypeId} {fuel more : Nat}
    (enough : fuel ≤ more) {σ : Session} {r : Verdict × Session}
    (done : (assignableWithin strict fuel source target fresh).run σ = some r) :
    (assignableWithin strict more source target fresh).run σ = some r := by
  induction enough with
  | refl => exact done
  | step _ ih => exact below_assignableWithin_succ strict _ source target fresh σ r ih

theorem firstAnswer_eq_match [Nonempty α] (answer : Nat → Option α) (fuel : Nat) :
    firstAnswer answer fuel =
      match answer fuel with
      | some found => found
      | none => firstAnswer answer (fuel + 1) := by
  rw [firstAnswer, repeatM_eq_of_monadTail]
  cases found : answer fuel with
  | none => simp [repeatM.body, attempt, found, firstAnswer]
  | some a => simp [repeatM.body, attempt, found]

/-- An answer that does not change any more is found from whatever point on it is
looked for. -/
theorem firstAnswer_eq [Nonempty α] {answer : Nat → Option α} {a : α}
    (stable : ∀ fuel more b, fuel ≤ more → answer fuel = some b → answer more = some b)
    {enough : Nat} (found : answer enough = some a) (fuel : Nat) :
    firstAnswer answer fuel = a := by
  induction distance : enough - fuel generalizing fuel with
  | zero =>
      have reached : answer fuel = some a :=
        stable enough fuel a (by omega) found
      rw [firstAnswer_eq_match, reached]
  | succ distance ih =>
      rw [firstAnswer_eq_match]
      cases here : answer fuel with
      | none => exact ih (fuel + 1) (by omega)
      | some b =>
          have same := stable fuel enough b (by omega) here
          rw [found] at same
          exact (Option.some.inj same).symm

/-- The question has an answer: the comparison ends. -/
def Answers (strict : Bool) (table : TypeTable) (source target : TypeId) (fresh : Bool)
    (verdict : Verdict) (after : TypeTable) : Prop :=
  ∃ fuel σ, (assignableWithin strict fuel source target fresh).run (.ofTable table) =
    some (verdict, σ) ∧ σ.table = after

/-- A source that is not fresh is compared at once. -/
theorem answers_iff {strict : Bool} {table after : TypeTable} {source target : TypeId}
    {verdict : Verdict} : Answers strict table source target false verdict after ↔
      ∃ fuel σ, (relatedWithin strict fuel source target).run (.ofTable table) =
        some (verdict, σ) ∧ σ.table = after := Iff.rfl

section Tried
variable {strict fresh : Bool} {table : TypeTable} {source target : TypeId} {fuel : Nat}

/-- A yes under some fuel that has been tried out. -/
theorem exists_accepted (yes : ((assignableWithin strict fuel source target fresh).run
    (.ofTable table)).any (fun r => r.1.isOk) = true) :
    ∃ after, Answers strict table source target fresh (.ok ()) after := by
  obtain ⟨⟨verdict, σ⟩, done, isOk⟩ := (Option.any_eq_true _ _).mp yes
  cases verdict with
  | ok => exact ⟨σ.table, fuel, σ, done, rfl⟩
  | error => cases isOk

/-- A no under some fuel that has been tried out. -/
theorem exists_refused (no : ((assignableWithin strict fuel source target fresh).run
    (.ofTable table)).any (fun r => !r.1.isOk) = true) :
    ∃ mismatch after, Answers strict table source target fresh (.error mismatch) after := by
  obtain ⟨⟨verdict, σ⟩, done, isError⟩ := (Option.any_eq_true _ _).mp no
  cases verdict with
  | ok => cases isError
  | error mismatch => exact ⟨mismatch, σ.table, fuel, σ, done, rfl⟩

end Tried

/-- A search that is certified comes to the answer under whatever fuel gives one. -/
theorem certify_eq_some {answer : Nat → Option α} {otherwise : α} {fuel : Nat}
    {found : Found answer otherwise} :
    certify answer otherwise fuel = some found ↔ answer fuel = some found.val := by
  unfold certify
  split
  · next a here => simp [here, Subtype.ext_iff]
  · next here => simp [here]

/-- What is answered under some fuel is what the question is answered with. -/
theorem Answers.run_assignable {strict fresh : Bool} {table after : TypeTable}
    {source target : TypeId} {verdict : Verdict}
    (answers : Answers strict table source target fresh verdict after) :
    (assignable strict source target fresh).run table = (verdict, after) := by
  obtain ⟨fuel, σ, found, rfl⟩ := answers
  let answer := certify
    (fun fuel => (assignableWithin strict fuel source target fresh).run (.ofTable table))
    (.ok (), .ofTable table)
  have stable (fuel more b) (enough : fuel ≤ more) (done : answer fuel = some b) :
      answer more = some b :=
    certify_eq_some.mpr (assignableWithin_stable enough (certify_eq_some.mp done))
  have first := firstAnswer_eq stable (a := ⟨(verdict, σ), .inl ⟨fuel, found⟩⟩)
    (certify_eq_some.mpr found) (searchDepth table)
  rw [assignable, StateT.run_modifyGet, first]
  rfl

/-- The question is answered, or the comparison does not end and the table stays. -/
theorem run_assignable_cases (strict : Bool) (table : TypeTable) (source target : TypeId)
    (fresh : Bool) :
    (∃ verdict after, Answers strict table source target fresh verdict after ∧
      (assignable strict source target fresh).run table = (verdict, after)) ∨
    (∀ verdict after, ¬ Answers strict table source target fresh verdict after) ∧
      (assignable strict source target fresh).run table = (.ok (), table) := by
  by_cases ends : ∃ verdict after, Answers strict table source target fresh verdict after
  · obtain ⟨verdict, after, answers⟩ := ends
    exact .inl ⟨verdict, after, answers, answers.run_assignable⟩
  · refine .inr ⟨fun verdict after answers => ends ⟨verdict, after, answers⟩, ?_⟩
    rw [assignable, StateT.run_modifyGet]
    generalize firstAnswer (certify
      (fun fuel => (assignableWithin strict fuel source target fresh).run (.ofTable table))
      (.ok (), .ofTable table)) (searchDepth table) = found
    obtain ⟨⟨verdict, σ⟩, ⟨fuel, answered⟩ | ⟨-, same⟩⟩ := found
    · exact absurd ⟨verdict, σ.table, fuel, σ, answered, rfl⟩ ends
    · obtain ⟨rfl, rfl⟩ := Prod.mk.inj same
      rfl

section Ends

/-- The computation ends from this session, under every fuel that is large enough
with the same result. -/
def Ends (m : Nat → RelationM α) (σ : Session) (post : α → Session → Prop) : Prop :=
  ∃ a σ' least, (∀ fuel ≥ least, (m fuel).run σ = some (a, σ')) ∧ post a σ'

namespace Ends

variable {σ : Session} {post : β → Session → Prop}

theorem pure {a : β} (holds : post a σ) : Ends (fun _ => pure a) σ post :=
  ⟨a, σ, 0, fun _ _ => rfl, holds⟩

theorem bind {m : Nat → RelationM α} {k : Nat → α → RelationM β} {middle : α → Session → Prop}
    (first : Ends m σ middle)
    (next : ∀ a σ', middle a σ' → Ends (fun fuel => k fuel a) σ' post) :
    Ends (fun fuel => m fuel >>= k fuel) σ post := by
  obtain ⟨a, between, least, one, reached⟩ := first
  obtain ⟨b, σ', more, two, holds⟩ := next a between reached
  refine ⟨b, σ', max least more, fun fuel enough => ?_, holds⟩
  rw [StateT.run_bind, one fuel (Nat.le_trans (Nat.le_max_left least more) enough)]
  exact two fuel (Nat.le_trans (Nat.le_max_right least more) enough)

theorem of_run {m : Nat → RelationM β} {b : β} {σ' : Session}
    (done : ∀ fuel, (m fuel).run σ = some (b, σ')) (holds : post b σ') : Ends m σ post :=
  ⟨b, σ', 0, fun fuel _ => done fuel, holds⟩

/-- A step with the same result under every fuel. -/
theorem after {m : Nat → RelationM α} {k : Nat → α → RelationM β} {a : α} {between : Session}
    (first : ∀ fuel, (m fuel).run σ = some (a, between))
    (next : Ends (fun fuel => k fuel a) between post) :
    Ends (fun fuel => m fuel >>= k fuel) σ post := by
  obtain ⟨b, σ', least, done, holds⟩ := next
  refine ⟨b, σ', least, fun fuel enough => ?_, holds⟩
  rw [StateT.run_bind, first]
  exact done fuel enough

theorem weaken {m : Nat → RelationM β} {strong : β → Session → Prop} (ends : Ends m σ strong)
    (implies : ∀ b σ', strong b σ' → post b σ') : Ends m σ post := by
  obtain ⟨b, σ', least, done, holds⟩ := ends
  exact ⟨b, σ', least, done, implies b σ' holds⟩

theorem ite {p : Prop} [Decidable p] {yes no : Nat → RelationM β} (one : p → Ends yes σ post)
    (two : ¬ p → Ends no σ post) : Ends (fun fuel => if p then yes fuel else no fuel) σ post := by
  by_cases holds : p
  · simpa [holds] using one holds
  · simpa [holds] using two holds

/-- One unit of fuel goes into the step itself. -/
theorem succ {m : Nat → RelationM β} (ends : Ends (fun fuel => m (fuel + 1)) σ post) :
    Ends m σ post := by
  obtain ⟨b, σ', least, done, holds⟩ := ends
  refine ⟨b, σ', least + 1, fun fuel enough => ?_, holds⟩
  obtain ⟨fuel, rfl⟩ : ∃ n, fuel = n + 1 := ⟨fuel - 1, by omega⟩
  exact done fuel (by omega)

end Ends

theorem run_onTable (action : TableM α) (σ : Session) :
    (RelationM.onTable action).run σ =
      some ((action.run σ.table).1, { σ with table := (action.run σ.table).2 }) := rfl

end Ends

section Apart
variable {strict : Bool} {source target : TypeId} {σ : Session}
  (apart : ∀ i j, σ.table.kind source = .instantiated i → σ.table.kind target = .instantiated j →
    i.origin ≠ j.origin)

include apart

/-- There is no shortcut over arguments for types that are not instances of one interface. -/
theorem run_instancesRelated_apart {related : Related} :
    (instancesRelated strict related source target).run σ = some (false, σ) := by
  rw [instancesRelated, StateT.run_bind, StateT.run_get, pure_bind]
  dsimp only
  split
  · next i j left right =>
      rw [if_neg (apart i j left right)]
      rfl
  · rfl

/-- Two types that are not instances of one interface are compared by their bodies. -/
theorem run_relatedWithin_apart (differ : source ≠ target) (fuel : Nat) :
    (relatedWithin strict (fuel + 1) source target).run σ =
      (bodiesRelated strict (relatedWithin strict fuel) source target).run σ := by
  rw [relatedWithin, if_neg differ, StateT.run_bind, run_instancesRelated_apart apart]
  rfl

end Apart

end StructuralTyping.Assignability
