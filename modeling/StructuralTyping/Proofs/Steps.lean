import StructuralTyping.Checker.Run

/-! Steps of a run, taken apart. A step is a function from the checker to an
outcome and the checker afterwards; what follows opens sequencing and the
primitive steps, so that no later proof looks at how steps are represented. The
steps that set a state they have read are then written as changes to the state. -/
namespace StructuralTyping

namespace Checker

variable {α β : Type}

@[simp] theorem step_pure (c : Checker) (a : α) : c.step (pure a) = (.ok a, c) := rfl

/-- The second step of a sequence starts where a successful first one ended. -/
theorem step_bind (c : Checker) (first : CheckM α) (next : α → CheckM β) :
    c.step (first >>= next) =
      match c.step first with
      | (.ok a, between) => between.step (next a)
      | (.error cause, between) => (.error cause, between) := by
  simp only [step, ExceptT.run_bind, StateT.run_bind]
  cases StateT.run (ExceptT.run first) c with
  | mk outcome between => cases outcome <;> rfl

theorem step_bind_ok {c after : Checker} {first : CheckM α} {next : α → CheckM β} {b : β}
    (done : c.step (first >>= next) = (.ok b, after)) :
    ∃ a between, c.step first = (.ok a, between) ∧ between.step (next a) = (.ok b, after) := by
  rw [step_bind] at done
  match outcome : c.step first, done with
  | (.ok a, between), done => exact ⟨a, between, rfl, done⟩

/-- A sequence fails where its first step fails, or its second one. -/
theorem step_bind_error {c after : Checker} {first : CheckM α} {next : α → CheckM β}
    {cause : CheckError} (done : c.step (first >>= next) = (.error cause, after)) :
    c.step first = (.error cause, after) ∨
      ∃ a between, c.step first = (.ok a, between) ∧
        between.step (next a) = (.error cause, after) := by
  rw [step_bind] at done
  match outcome : c.step first, done with
  | (.ok a, between), done => exact .inr ⟨a, between, rfl, done⟩
  | (.error _, _), rfl => exact .inl rfl

/-- Steps with the same outcome from every checker are the same. -/
theorem step_ext {m m' : CheckM α} (same : ∀ c : Checker, c.step m = c.step m') : m = m' :=
  ExceptT.ext (StateT.ext same)

@[simp] theorem step_get (c : Checker) : c.step get = (.ok c, c) := rfl

@[simp] theorem step_set (c d : Checker) : c.step (set d) = (.ok (), d) := rfl

@[simp] theorem step_modify (c : Checker) (f : Checker → Checker) :
    c.step (modify f) = (.ok (), f c) := rfl

@[simp] theorem step_throw (c : Checker) (cause : CheckError) :
    c.step (throw cause : CheckM α) = (.error cause, c) := rfl

@[simp] theorem step_table (c : Checker) : c.step CheckM.table = (.ok c.table, c) := rfl

@[simp] theorem step_onTable (c : Checker) (action : TableM α) :
    c.step (CheckM.onTable action) =
      (.ok (action.run c.table).1, { c with table := (action.run c.table).2 }) := rfl

@[simp] theorem step_addType (c : Checker) (kind : TypeKind) :
    c.step (CheckM.addType kind) = (.ok c.table.size, { c with table := (c.table.add kind).2 }) := rfl

theorem step_assignable (c : Checker) (source target : TypeId) (fresh : Bool) :
    c.step (CheckM.assignable source target fresh) =
      (.ok ((assignable c.options.strictFunctionTypes source target fresh).run c.table).1,
        { c with
          table := ((assignable c.options.strictFunctionTypes source target fresh).run c.table).2 }) :=
  rfl

end Checker

open Checker

section Changes

theorem updateScope_eq (f : Scope → Scope) : CheckM.updateScope f =
    modify fun checker => { checker with scopes := checker.scopes.modifyHead f } := by
  unfold CheckM.updateScope
  refine congrArg modify (funext fun checker => ?_)
  cases scopes : checker.scopes with
  | nil => exact congrArg (fun scopes => { checker with scopes }) scopes
  | cons scope outer => rfl

theorem declareValue_eq (name : String) (id : TypeId) (location : Location) :
    CheckM.declareValue name id location = (do
      let checker ← get
      match checker.scopes with
      | scope :: _ => do
          CheckM.bindValue name id
          if scope.values.contains name then
            CheckM.error location .duplicateIdentifier [name]
      | [] => do
          modify fun checker =>
            { checker with globals := checker.globals.insert name (.variable id) }
          if checker.globals.contains name then
            CheckM.error location .duplicateIdentifier [name]) := by
  refine step_ext fun checker => ?_
  rw [CheckM.declareValue, step_bind, step_bind, step_get]
  cases scopes : checker.scopes with
  | nil => simp only [scopes, step_bind, step_set, step_modify]
  | cons scope outer => simp only [scopes]

theorem checkConstraint_eq (parameter argument : TypeId) (bindings : Bindings)
    (location : Location) : CheckM.checkConstraint parameter argument bindings location = (do
      let checker ← get
      let check : DeferredConstraint :=
        ⟨parameter, argument, bindings, location, checker.currentFile⟩
      if checker.phase = .declaring then
        modify fun checker => { checker with deferred := checker.deferred ++ [check] }
      else CheckM.reportUnsatisfied check) := by
  refine Checker.step_ext fun c => ?_
  rw [CheckM.checkConstraint, Checker.step_bind, Checker.step_bind, Checker.step_get]
  dsimp only
  split
  · rfl
  · rfl

theorem noteReturn_eq (id : TypeId) : noteReturn id = modify fun checker =>
    { checker with returns := checker.returns.modifyHead fun context =>
        { context with
          hasValue := true
          inferred := some (context.inferred.getD id) } } := by
  unfold noteReturn
  refine congrArg modify (funext fun checker => ?_)
  cases returns : checker.returns with
  | nil => exact congrArg (fun returns => { checker with returns }) returns
  | cons context outer => rfl

theorem checkBodyWith_eq (statements : CheckM Unit) (declared : Option TypeId)
    (location : Location) : checkBodyWith statements declared location = (do
      modify fun checker => { checker with returns := ⟨declared, none, false⟩ :: checker.returns }
      statements
      let context := (← get).returns.head?.getD ⟨declared, none, false⟩
      modify fun checker => { checker with returns := checker.returns.tail }
      match declared with
      | some id => do
          if !context.hasValue && !mayOmitValue (← CheckM.table) id then
            CheckM.error location .mustReturnValue []
          return id
      | none => return context.inferred.getD TypeId.void) := by
  rw [checkBodyWith]
  refine congrArg (_ >>= ·) (funext fun _ => congrArg (_ >>= ·) (funext fun _ => ?_))
  refine step_ext fun checker => ?_
  cases declared <;> simp only [step_bind, step_get, step_set, step_modify]

end Changes

end StructuralTyping
