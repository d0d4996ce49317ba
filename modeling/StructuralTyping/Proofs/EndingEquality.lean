import StructuralTyping.Proofs.EqualityHistory

/-! Structural equality ends in every table of a run. What makes it end is that an instantiated
type comes after its arguments, and that no remembered body is an instantiated type. A table
that is built further does not lose a violation of this, so it is enough that the last table of
a run has none. -/
namespace StructuralTyping

open Equality

namespace TypeTable

/-- One table turns into another bit by bit. -/
def Turns : TypeTable → TypeTable → Prop := Relation.ReflTransGen Changes

/-- For all two types, whether they are equal is settled within some depth, and then within
every larger one. -/
def EqualsEnds (t : TypeTable) : Prop :=
  ∀ a b, ∃ depth, ∀ fuel ≥ depth, equalWithin t fuel [] a b = some (t.equals a b)

/-- While one table turns into another, equality ends all the time. -/
def EqualsEndsUntil (t t' : TypeTable) : Prop :=
  t.Turns t' ∧ ∀ u, t.Turns u → u.Turns t' → u.EqualsEnds

/-- All instantiated types come after their arguments, and the bodies that are remembered of
them are no instantiated types. -/
structure InLayers (t : TypeTable) : Prop where
  precede : ∀ id i, t.kind id = .instantiated i → ∀ a ∈ i.bindings.values, a < id
  bodies : ∀ id i body, t.kind id = .instantiated i →
    t.resolved.find? (instantiationKey i) = some body → ¬t.IsInstance body

variable {t t' u : TypeTable}

theorem Coherent.inLayers (coherent : t.Coherent) : t.InLayers where
  precede id := (coherent.layered id).precede id .refl
  bodies id := (coherent.layered id).bodies id .refl

theorem InLayers.layered (inLayers : t.InLayers) (id : TypeId) : Layered t id :=
  ⟨fun m _ => inLayers.precede m, fun m _ => inLayers.bodies m⟩

theorem InLayers.equalsEnds (inLayers : t.InLayers) : t.EqualsEnds := fun a b =>
  ⟨searchDepth t, fun _ enough =>
    equalWithin_searchDepth (inLayers.layered a) (inLayers.layered b) enough⟩

/-- Without layers equality does not end: two instances of one interface that are arguments of
themselves are compared by their arguments over and over. -/
theorem not_equalsEnds_of_itself {a b : TypeId} {i j : InstantiatedType} (different : a ≠ b)
    (left : t.kind a = .instantiated i) (right : t.kind b = .instantiated j)
    (origin : i.origin = j.origin) (itself : i.bindings.values = [a])
    (itself' : j.bindings.values = [b]) : ¬t.EqualsEnds := by
  have endless (fuel : Nat) : equalWithin t fuel [] a b = none := by
    induction fuel with
    | zero => rfl
    | succ fuel ih =>
        simp [equalWithin, different, left, right, origin, itself, itself', every, ih]
  intro ends
  obtain ⟨depth, settled⟩ := ends a b
  cases (endless depth).symm.trans (settled depth (Nat.le_refl _))

theorem Changes.instantiated {id : TypeId} {i : InstantiatedType} (change : t.Changes t')
    (entry : t.kind id = .instantiated i) : t'.kind id = .instantiated i := by
  cases change with
  | add kind => rw [kind_add_of_lt (lt_size_of_kind entry (by simp)), entry]
  | constrain p bound =>
      rcases kind_setConstraint t p bound id with same | ⟨name, before, parameter, -⟩
      · rw [same, entry]
      · cases entry.symm.trans parameter
  | fill pending o =>
      rw [kind_setKind (lt_size_of_kind pending (by simp)), if_neg, entry]
      rintro rfl
      cases entry.symm.trans pending
  | remember => exact entry

theorem Turns.instantiated {id : TypeId} {i : InstantiatedType} (turns : t.Turns t')
    (entry : t.kind id = .instantiated i) : t'.kind id = .instantiated i := by
  induction turns with
  | refl => exact entry
  | tail _ change ih => exact change.instantiated ih

/-- What is out of its layer stays so. -/
theorem InLayers.of_turns (inLayers : t'.InLayers) (turns : t.Turns t') : t.InLayers where
  precede id i entry := inLayers.precede id i (turns.instantiated entry)
  bodies id i body entry found := by
    rintro ⟨j, instance'⟩
    exact inLayers.bodies id i body (turns.instantiated entry)
      (find?_resolved_of_changes turns found) ⟨j, turns.instantiated instance'⟩

theorem InLayers.equalsEndsUntil (inLayers : u.InLayers) (turns : t.Turns t')
    (further : t'.Turns u) : t.EqualsEndsUntil t' :=
  ⟨turns, fun _ _ before => (inLayers.of_turns (before.trans further)).equalsEnds⟩

theorem Passes.turns (passes : t.Passes t') : t.Turns t' :=
  Relation.ReflTransGen.mono (fun _ _ change => And.left change) _ _ passes

end TypeTable

/-- The steps of a run lie between its first and its last state. -/
theorem CheckM.StepsBy.between {next : Checker → Checker → Prop} (refl : ∀ c, next c c)
    (trans : ∀ a b c, next a b → next b c → next a c) {α : Type} {m : CheckM α} {c : Checker}
    (steps : m.StepsBy next c) :
    m.StepsBy (fun a b => next a b ∧ next b (c.step m).2) c := by
  induction steps with
  | pure a c => exact .pure a c
  | throw cause c => exact .throw cause c
  | @bind _ _ m k c _ later ih ih' =>
      rw [Checker.step_bind]
      match done : c.step m, ih with
      | (.ok a, middle), ih =>
        have rest := (later a middle done).after refl trans
        refine .bind (ih.mono fun x y step => ⟨step.1, trans y middle _ step.2 rest⟩) ?_
        intro a' c' ended
        obtain ⟨result, rfl⟩ := Prod.mk.inj (done.symm.trans ended)
        obtain rfl := Except.ok.inj result
        exact ih' a middle done
      | (.error cause, middle), ih =>
        refine .bind ih fun a c' ended => ?_
        cases done.symm.trans ended
  | read _ ih => exact .read ih
  | change step => exact .change ⟨step, refl _⟩
  | onTable step => exact .onTable ⟨step, refl _⟩

/-- In the course of a run over any files, whether it ends well or not, structural equality
ends for all two types of every table that comes up, be it before, during or after a step. -/
theorem declareAndCheck_equals_ends (options : CheckerOptions) (files : List SourceFile) :
    (Checker.new options).table.EqualsEndsUntil
        ((Checker.new options).step (declareAndCheck files)).2.table ∧
      (declareAndCheck files).StepsBy (fun c c' => c.table.EqualsEndsUntil c'.table)
        (.new options) := by
  have last := (TypeTable.coherent_step_declareAndCheck options files).inLayers
  have steps : (declareAndCheck files).StepsBy (fun c c' => c.table.Turns c'.table)
      (.new options) :=
    (Tidies.declareAndCheck files _ (tidy_new options)).steps.mono fun _ _ => TypeTable.Passes.turns
  have refl (c : Checker) : c.table.Turns c.table := Relation.ReflTransGen.refl
  have trans (a b c : Checker) (one : a.table.Turns b.table) (two : b.table.Turns c.table) :
      a.table.Turns c.table := Relation.ReflTransGen.trans one two
  refine ⟨last.equalsEndsUntil (steps.after refl trans) (refl _), ?_⟩
  exact (steps.between refl trans).mono fun _ _ step => last.equalsEndsUntil step.1 step.2

end StructuralTyping
