import StructuralTyping.Proofs.AcceptedPairs

/-! What a session keeps between questions. A comparison enters the pairs that it compares
and leaves them again, also where it refuses and where the depth allows no more, so a session
is inside of the same comparisons before and after. A session between two questions is inside
of none, and answers the next one as a new session does. -/
namespace StructuralTyping.Assignability

variable {α : Type}

/-- The session is inside of the same comparisons as before, at the same depth. -/
structure Session.Restored (σ τ : Session) : Prop where
  inProgress : τ.inProgress = σ.inProgress
  expansionDepth : τ.expansionDepth = σ.expansionDepth

/-- Nothing is being compared. -/
structure Session.Idle (σ : Session) : Prop where
  inProgress : σ.inProgress = ∅
  expansionDepth : σ.expansionDepth = 0

namespace Session

theorem idle_ofTable (table : TypeTable) : (Session.ofTable table).Idle := ⟨rfl, rfl⟩

/-- All that an idle session knows is its table. -/
theorem Idle.eq_ofTable {σ : Session} (idle : σ.Idle) : σ = .ofTable σ.table := by
  obtain ⟨table, inProgress, depth⟩ := σ
  obtain ⟨rfl, rfl⟩ : inProgress = ∅ ∧ depth = 0 := ⟨idle.inProgress, idle.expansionDepth⟩
  rfl

theorem Idle.restored {σ τ : Session} (idle : σ.Idle) (restored : σ.Restored τ) : τ.Idle :=
  ⟨restored.inProgress.trans idle.inProgress, restored.expansionDepth.trans idle.expansionDepth⟩

/-- One session that is inside of these comparisons, at this depth. -/
structure Inside (pairs : PairSet) (depth : Nat) (σ σ' : Session) : Prop where
  same : σ' = σ
  inProgress : σ.inProgress = pairs
  expansionDepth : σ.expansionDepth = depth

end Session

open Session

/-- Wherever the computation is entered, it comes back there with its result. -/
def Restores (m : RelationM α) : Prop := ∀ pairs depth, Mirrors (Inside pairs depth) m m

theorem restores_iff {m : RelationM α} :
    Restores m ↔ ∀ σ a τ, m.run σ = some (a, τ) → σ.Restored τ := by
  constructor
  · intro restores σ a τ done
    obtain ⟨τ', -, -, inProgress, depth⟩ := restores _ _ σ σ a τ ⟨rfl, rfl, rfl⟩ done
    exact ⟨inProgress, depth⟩
  · rintro restored pairs depth _ σ a τ ⟨rfl, rfl, rfl⟩ done
    obtain ⟨inProgress, depth⟩ := restored σ a τ done
    exact ⟨τ, done, rfl, inProgress, depth⟩

theorem restores_onTable (action : TableM α) : Restores (RelationM.onTable action) := by
  refine restores_iff.mpr fun σ a τ done => ?_
  rw [run_onTable] at done
  obtain ⟨rfl, rfl⟩ := Prod.mk.inj (Option.some.inj done)
  exact ⟨rfl, rfl⟩

theorem aligned_inside (pairs : PairSet) (depth : Nat) : Aligned (Inside pairs depth) where
  table := by
    rintro σ _ ⟨rfl, -, -⟩
    rfl
  instantiateAgainst _ _ := restores_onTable _ pairs depth

section Comparison
variable {strict : Bool} {related : Related} (restores : ∀ a b, Restores (related a b))

include restores

/-- A pair that is entered was not in progress, so leaving it gives back what there was. -/
theorem restores_bodiesRelated (source target : TypeId) :
    Restores (bodiesRelated strict related source target) := by
  refine restores_iff.mpr fun σ verdict τ done => ?_
  obtain ⟨s, one, first⟩ : ∃ s one, (resolve source).run σ.table = (s, one) := ⟨_, _, rfl⟩
  obtain ⟨t, two, second⟩ : ∃ t two, (resolve target).run one = (t, two) := ⟨_, _, rfl⟩
  let expanded := s != source || t != target
  by_cases passes : Session.Passes { σ with table := two } source target s t
  · rw [run_bodiesRelated_of_passes first second passes] at done
    obtain ⟨-, rfl⟩ := Prod.mk.inj (Option.some.inj done)
    exact ⟨rfl, rfl⟩
  · have outside : (s, t) ∉ σ.inProgress := fun member => passes (.inr (.inr (.inl member)))
    rw [run_bodiesRelated_of_not_passes first second passes] at done
    obtain ⟨⟨inner, between⟩, run, result⟩ := Option.map_eq_some_iff.mp done
    obtain ⟨-, rfl⟩ := Prod.mk.inj result
    have structures : Restores (structureRelated strict related source target s t) :=
      fun pairs depth => mirrors_structureRelated (aligned_inside pairs depth)
        (fun a b => restores a b pairs depth) source target s t
    obtain ⟨inProgress, depth⟩ := restores_iff.mp structures _ _ _ run
    -- The structures have changed the table only, so leaving the pair undoes entering it.
    have exited : between.exited s t expanded =
        { (σ.entered s t expanded).exited s t expanded with table := between.table } := by
      rw [Session.exited, inProgress, depth]
      rfl
    change σ.Restored (between.exited s t expanded)
    rw [exited, exited_entered outside]
    exact ⟨rfl, rfl⟩

end Comparison

theorem restores_relatedWithin (strict : Bool) (fuel : Nat) :
    ∀ source target, Restores (relatedWithin strict fuel source target) := by
  induction fuel with
  | zero => exact fun _ _ _ _ _ _ _ _ _ done => nomatch done
  | succ fuel ih =>
      intro source target pairs depth
      rw [relatedWithin]
      have arguments : Mirrors (Inside pairs depth)
          (instancesRelated strict (relatedWithin strict fuel) source target)
          (instancesRelated strict (relatedWithin strict fuel) source target) :=
        mirrors_instancesRelated (aligned_inside pairs depth) (fun a b => ih a b pairs depth) _ _
      refine .ite (.pure _) (arguments.bind fun found => .ite (.pure _) ?_)
      exact restores_bodiesRelated ih source target pairs depth

theorem restores_assignableWithin (strict : Bool) (fuel : Nat) (source target : TypeId)
    (fresh : Bool) : Restores (assignableWithin strict fuel source target fresh) := by
  intro pairs depth
  have compared (excess : List String) : Mirrors (Inside pairs depth)
      (if excess.isEmpty then relatedWithin strict fuel source target
        else pure (.error (.excessProperty excess source target)))
      (if excess.isEmpty then relatedWithin strict fuel source target
        else pure (.error (.excessProperty excess source target))) :=
    .ite (restores_relatedWithin strict fuel source target pairs depth) (.pure _)
  cases fresh with
  | false => exact Mirrors.bind (.pure _) compared
  | true => exact (restores_onTable _ pairs depth).bind compared

/-- The comparison of two bodies with its effects one by one: the pair is entered at once, and
left again where the depth allows no more. -/
def expandInSteps (strict : Bool) (related : Related) (source target s t : TypeId) :
    RelationM Verdict := do
  modify fun σ => { σ with inProgress := σ.inProgress.insert (s, t) }
  let expanded := s != source || t != target
  if expanded && expansionLimit ≤ (← get).expansionDepth then
    modify fun σ => { σ with inProgress := σ.inProgress.erase (s, t) }
    return .ok ()
  else
    modify fun σ => { σ with expansionDepth := σ.expansionDepth + if expanded then 1 else 0 }
    let verdict ← structureRelated strict related source target s t
    modify fun σ => { σ with expansionDepth := σ.expansionDepth - if expanded then 1 else 0 }
    modify fun σ => { σ with inProgress := σ.inProgress.erase (s, t) }
    return verdict

/-- Looking at the depth before the pair is entered, or after, makes no difference. -/
theorem run_expandInSteps {strict : Bool} {related : Related} {σ : Session}
    {source target s t : TypeId} (apart : (s, t) ∉ σ.inProgress) :
    (expandInSteps strict related source target s t).run σ =
      (expandRelated strict related source target s t).run σ := by
  have back : { σ with inProgress := (σ.inProgress.insert (s, t)).erase (s, t) } = σ := by
    rw [erase_insert apart]
  rw [expandInSteps, expandRelated, StateT.run_bind, StateT.run_bind, StateT.run_get]
  change Option.bind (some _) _ = Option.bind (some _) _
  rw [Option.bind_some, Option.bind_some, StateT.run_bind, StateT.run_get]
  dsimp only [Option.bind_eq_bind, Option.pure_def]
  rw [Option.bind_some]
  split
  · exact congrArg (fun τ => some (Except.ok (), τ)) back
  · rfl

/-- A question to a session: whether a type is assignable to another one, or which properties
an object has in excess of another one. -/
inductive Question where
  | assignable (source target : TypeId) (fresh : Bool)
  | excess (source target : TypeId)

inductive Answer where
  | verdict (verdict : Verdict)
  | names (names : List String)

def Question.ask (strict : Bool) (fuel : Nat) : Question → RelationM Answer
  | .assignable source target fresh =>
      Answer.verdict <$> assignableWithin strict fuel source target fresh
  | .excess source target => Answer.names <$> RelationM.onTable (excessProperties source target)

theorem Restores.map {β : Type} {m : RelationM α} (restores : Restores m) (f : α → β) :
    Restores (f <$> m) := by
  intro pairs depth
  rw [map_eq_pure_bind]
  exact (restores pairs depth).bind fun a => .pure (f a)

theorem Question.restores_ask (strict : Bool) (fuel : Nat) (question : Question) :
    Restores (question.ask strict fuel) := by
  cases question with
  | assignable source target fresh =>
      exact (restores_assignableWithin strict fuel source target fresh).map Answer.verdict
  | excess source target => exact (restores_onTable _).map Answer.names

/-- One session is asked one question after another. -/
inductive Session.Asked (strict : Bool) : Session → List (Question × Answer) → Session → Prop
  | nil (σ : Session) : Asked strict σ [] σ
  | cons {σ between τ : Session} {question : Question} {answer : Answer}
      {rest : List (Question × Answer)} (fuel : Nat)
      (first : (question.ask strict fuel).run σ = some (answer, between))
      (later : Asked strict between rest τ) : Asked strict σ ((question, answer) :: rest) τ

/-- Each question is put to a new session, over the table that the one before left. -/
inductive AskedAnew (strict : Bool) : TypeTable → List (Question × Answer) → TypeTable → Prop
  | nil (table : TypeTable) : AskedAnew strict table [] table
  | cons {table after : TypeTable} {between : Session} {question : Question} {answer : Answer}
      {rest : List (Question × Answer)} (fuel : Nat)
      (first : (question.ask strict fuel).run (.ofTable table) = some (answer, between))
      (later : AskedAnew strict between.table rest after) :
      AskedAnew strict table ((question, answer) :: rest) after

theorem Session.Asked.anew {strict : Bool} {σ τ : Session} {asked : List (Question × Answer)}
    (answers : σ.Asked strict asked τ) (idle : σ.Idle) :
    AskedAnew strict σ.table asked τ.table ∧ τ.Idle := by
  induction answers with
  | nil σ => exact ⟨.nil σ.table, idle⟩
  | @cons σ between τ question answer rest fuel first later ih =>
      have restored : σ.Restored between :=
        restores_iff.mp (question.restores_ask strict fuel) _ _ _ first
      obtain ⟨others, last⟩ := ih (idle.restored restored)
      rw [idle.eq_ofTable] at first
      exact ⟨.cons fuel first others, last⟩

theorem AskedAnew.asked {strict : Bool} {table after : TypeTable}
    {asked : List (Question × Answer)} (answers : AskedAnew strict table asked after) :
    (Session.ofTable table).Asked strict asked (.ofTable after) := by
  induction answers with
  | nil table => exact .nil _
  | @cons table after between question answer rest fuel first later ih =>
      have restored : (Session.ofTable table).Restored between :=
        restores_iff.mp (question.restores_ask strict fuel) _ _ _ first
      rw [← ((idle_ofTable table).restored restored).eq_ofTable] at ih
      exact .cons fuel first ih

/-- What sessions give back, and that they can be asked again. -/
structure SessionsRestored (strict : Bool) : Prop where
  /-- A comparison inside of any others comes back to them, whatever its verdict. -/
  nested : ∀ fuel source target σ verdict τ,
    (relatedWithin strict fuel source target).run σ = some (verdict, τ) → σ.Restored τ
  /-- So does one that enters its pair before it finds that the depth allows no more. -/
  early : ∀ related source target s t σ, (s, t) ∉ σ.inProgress →
    (expandInSteps strict related source target s t).run σ =
      (expandRelated strict related source target s t).run σ
  /-- After a question to an idle session nothing is in progress. -/
  idle : ∀ fuel source target fresh σ verdict τ, σ.Idle →
    (assignableWithin strict fuel source target fresh).run σ = some (verdict, τ) → τ.Idle
  /-- An idle session answers every sequence of questions as new sessions over the same table
  answer them. -/
  anew : ∀ (σ : Session) asked (τ : Session), σ.Idle →
    (σ.Asked strict asked τ ↔ AskedAnew strict σ.table asked τ.table ∧ τ.Idle)

theorem sessions_restored (strict : Bool) : SessionsRestored strict where
  nested fuel source target := restores_iff.mp (restores_relatedWithin strict fuel source target)
  early related source target s t σ := run_expandInSteps
  idle fuel source target fresh σ verdict τ idle done :=
    idle.restored (restores_iff.mp (restores_assignableWithin strict fuel source target fresh)
      σ verdict τ done)
  anew σ asked τ idle := by
    refine ⟨fun answers => answers.anew idle, fun ⟨answers, after⟩ => ?_⟩
    rw [idle.eq_ofTable, after.eq_ofTable]
    exact answers.asked

/-- Two objects that mention themselves and differ in another property. -/
def differingTable : TypeTable where
  entries := TypeTable.initial.entries ++ #[
    .object ⟨none, .ofList [("next", ⟨7, false⟩), ("value", ⟨TypeId.number, false⟩)]⟩,
    .object ⟨none, .ofList [("next", ⟨8, false⟩), ("value", ⟨TypeId.string, false⟩)]⟩]
  resolved := .empty

/-- The pair is in progress when the difference is found, and is refused again the next time. -/
theorem differingTable_refused : ∃ τ : Session,
    (Session.ofTable differingTable).Asked false
      (List.replicate 2 (.assignable 7 8 false,
        .verdict (.error (.property "value" 7 8 (.incompatible TypeId.number TypeId.string))))) τ ∧
      τ.Idle := by
  have refused : ((Question.assignable 7 8 false).ask false 3).run (.ofTable differingTable) =
      some (.verdict (.error (.property "value" 7 8 (.incompatible TypeId.number TypeId.string))),
        .ofTable differingTable) := rfl
  have anew := AskedAnew.cons 3 refused (.cons 3 refused (.nil _))
  exact ⟨.ofTable differingTable,
    ((sessions_restored false).anew _ _ _ (idle_ofTable _)).mpr ⟨anew, idle_ofTable _⟩,
    idle_ofTable _⟩

end StructuralTyping.Assignability
