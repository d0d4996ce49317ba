import StructuralTyping.Proofs.RunProperties
import StructuralTyping.Proofs.WrittenFindings

/-! The judgement of type arguments. Whether an argument satisfies the constraint of its
parameter is asked of the table of the moment, and only the answer no is reported. Every
step reports the violations among the arguments that it judges and nothing else in these
words, and leaves the entries alone that were there before. -/
namespace StructuralTyping

open CheckM

/-- What is reported about an argument that, in this table, is not assignable to the
constraint of its parameter under the bindings. -/
def DeferredConstraint.violation? (strict : Bool) (check : DeferredConstraint)
    (t : TypeTable) : Option Diagnostic :=
  match t.constraint? check.parameter with
  | none => none
  | some constraint =>
      let bound := (substitute constraint check.bindings).run t
      let answer := (assignable strict check.argument bound.1 false).run bound.2
      match answer.1 with
      | .ok () => none
      | .error _ =>
          some ((Diagnostic.atLocation check.location .constraintUnsatisfied
            [answer.2.text check.argument, answer.2.text bound.1]).inFile check.file)

/-- A check of an argument and the table in which it is made. -/
abbrev Judgement := DeferredConstraint × TypeTable

/-- What is reported of these checks, in their order. -/
def violations (strict : Bool) (judged : List Judgement) : List Diagnostic :=
  judged.filterMap fun j => j.1.violation? strict j.2

namespace Diagnostic

/-- Whether it says that a constraint is not satisfied. -/
def isUnsatisfied (d : Diagnostic) : Bool := d.code == Message.constraintUnsatisfied.code

@[simp] theorem code_unnamed (d : Diagnostic) : d.unnamed.code = d.code := by
  rw [unnamed]
  split <;> rfl

end Diagnostic

namespace DeferredConstraint

variable {strict : Bool} {check : DeferredConstraint} {t : TypeTable} {d : Diagnostic}

theorem isUnsatisfied_violation (violated : check.violation? strict t = some d) :
    d.isUnsatisfied = true := by
  cases found : t.constraint? check.parameter with
  | none => simp [violation?, found] at violated
  | some constraint =>
      simp only [violation?, found] at violated
      split at violated
      · simp at violated
      · obtain rfl := Option.some.inj violated
        rw [Diagnostic.isUnsatisfied, Diagnostic.code_inFile]
        rfl

end DeferredConstraint

section Violations
variable (strict : Bool)

theorem violations_append (first second : List Judgement) :
    violations strict (first ++ second) = violations strict first ++ violations strict second :=
  List.filterMap_append

theorem violations_singleton (j : Judgement) :
    violations strict [j] = (j.1.violation? strict j.2).toList := by
  rw [violations, List.filterMap_cons]
  cases j.1.violation? strict j.2 <;> rfl

theorem filter_violations (judged : List Judgement) :
    (violations strict judged).filter Diagnostic.isUnsatisfied = violations strict judged := by
  refine List.filter_eq_self.mpr fun d reported => ?_
  obtain ⟨j, -, violated⟩ := List.mem_filterMap.mp reported
  exact DeferredConstraint.isUnsatisfied_violation violated

end Violations

namespace Checker

/-- To check an argument is to report its violation in the table of the moment. -/
theorem step_reportUnsatisfied (c : Checker) (check : DeferredConstraint)
    (placed : c.currentFile = check.file) :
    ∃ t, c.table.Derives t ∧ c.step (reportUnsatisfied check) = (.ok (), { c with
      table := t
      diagnostics := c.diagnostics.append
        (violations c.options.strictFunctionTypes [(check, c.table)]) }) := by
  rw [violations_singleton]
  unfold reportUnsatisfied DeferredConstraint.violation?
  rw [step_bind, step_table]
  dsimp only
  cases c.table.constraint? check.parameter with
  | none => exact ⟨c.table, .refl _, by simp [DiagnosticCollection.append]⟩
  | some constraint =>
      dsimp only
      rw [step_bind, step_onTable]
      have substituted := derives_substitute constraint check.bindings c.table
      generalize (substitute constraint check.bindings).run c.table = bound at substituted ⊢
      have compared :=
        derives_assignable c.options.strictFunctionTypes check.argument bound.1 false bound.2
      dsimp only
      rw [step_bind, step_assignable]
      dsimp only
      generalize (assignable c.options.strictFunctionTypes check.argument bound.1 false).run
        bound.2 = answer at compared ⊢
      have derived := (substituted.trans compared).toDerives
      obtain ⟨verdict, t⟩ := answer
      cases verdict with
      | ok => exact ⟨t, derived, by simp [DiagnosticCollection.append]⟩
      | error mismatch =>
          refine ⟨t, derived, ?_⟩
          simp only [display, step_bind, step_table, step_pure, error, step_report, placed]
          rfl

end Checker

section Queue
variable {c : Checker}

/-- The checks of a queue are judged one after the other, in tables between that before and
that after. -/
theorem step_runDeferred (checks : List DeferredConstraint) (c : Checker) :
    ∃ (judged : List Judgement) (t : TypeTable) (file : Option String),
      judged.map Prod.fst = checks ∧
      (∀ j ∈ judged, c.table.Derives j.2 ∧ j.2.Extends t) ∧ c.table.Extends t ∧
      c.step (runDeferred checks) = (.ok (), { c with
        table := t
        currentFile := file
        diagnostics := c.diagnostics.append (violations c.options.strictFunctionTypes judged) }) := by
  induction checks generalizing c with
  | nil =>
      refine ⟨[], c.table, c.currentFile, rfl, List.forall_mem_nil _, .refl _, ?_⟩
      simp [runDeferred, violations, DiagnosticCollection.append]
  | cons check rest ih =>
      let placed : Checker := { c with currentFile := check.file }
      obtain ⟨t, derived, judgedOne⟩ := placed.step_reportUnsatisfied check rfl
      obtain ⟨judged, t', file, same, between, extended, judgedRest⟩ := ih { placed with
        table := t
        diagnostics := c.diagnostics.append
          (violations c.options.strictFunctionTypes [(check, c.table)]) }
      have whole := derived.extended.trans extended
      refine ⟨(check, c.table) :: judged, t', file, congrArg (check :: ·) same, ?_, whole, ?_⟩
      · refine List.forall_mem_cons.mpr ⟨⟨.refl _, whole⟩, fun j member => ?_⟩
        exact ⟨derived.trans (between j member).1, (between j member).2⟩
      · rw [runDeferred, Checker.step_bind, setFile, Checker.step_modify]
        dsimp only
        rw [Checker.step_bind, judgedOne]
        dsimp only
        rw [judgedRest]
        have whole := violations_append c.options.strictFunctionTypes [(check, c.table)] judged
        simp only [placed, DiagnosticCollection.append, List.append_assoc, ← whole]
        rfl

end Queue

namespace TypeTable.Extends

variable {base t : TypeTable} {id : TypeId}

theorem setKind (extended : base.Extends t) (new : base.size ≤ id) (kind : TypeKind) :
    base.Extends (t.setKind id kind) where
  size := by simpa using extended.size
  kind other inside := by
    have apart : id ≠ other := fun same => Nat.not_lt.mpr new (same ▸ inside)
    rw [← extended.kind other inside]
    simp [TypeTable.setKind, TypeTable.kind, Array.getElem?_setIfInBounds_ne apart]

theorem setConstraint (extended : base.Extends t) (new : base.size ≤ id) (bound : TypeId) :
    base.Extends (t.setConstraint id bound) := by
  unfold TypeTable.setConstraint
  split
  · exact extended.setKind new _
  · exact extended

theorem define (extended : base.Extends t) (new : base.size ≤ id) {kind : TypeKind}
    {t' : TypeTable} (filled : t.define id kind = .ok t') : base.Extends t' := by
  unfold TypeTable.define at filled
  split at filled
  · exact Except.ok.inj filled ▸ extended.setKind new kind
  · exact nomatch filled

theorem addInstantiated (extended : base.Extends t) {bindings : List (String × TypeId)}
    {origin : TypeId} {t' : TypeTable} (built : t.addInstantiated origin bindings = .ok (id, t')) :
    base.Extends t' := by
  unfold TypeTable.addInstantiated at built
  split at built
  · next g _ =>
      cases accepted : TypeTable.orderBindings g.name (g.typeParameters.map t.typeParameterName)
          (.ofList bindings) with
      | error cause => simp [accepted, bind, Except.bind] at built
      | ok ordered =>
          simp only [accepted, bind, Except.bind] at built
          obtain ⟨-, rfl⟩ := Prod.mk.inj (Except.ok.inj built)
          exact extended.trans (.add t _)
  · simp at built

end TypeTable.Extends

/-- A checker with the entries of the base and with its declarations. -/
structure Checker.Underlies (base c : Checker) : Prop where
  options : c.options = base.options
  extended : base.table.Extends c.table
  declared : ∀ name id, base.declaredTypes.find? name = some id →
    c.declaredTypes.find? name = some id

/-- From one checker to the other, some arguments were judged, and their violations are
reported among other things. -/
structure Checker.Judges (base c c' : Checker) : Prop where
  underlies : Underlies base c'
  reported : ∃ (judged : List Judgement) (new : List Diagnostic),
    (∀ j ∈ judged, base.table.Extends j.2) ∧
    c'.diagnostics.toList = c.diagnostics.toList ++ new ∧
    new.filter Diagnostic.isUnsatisfied = violations base.options.strictFunctionTypes judged

/-- The step judges arguments, whether it succeeds or fails, and what it gives is as
described. -/
def JudgesWith (base : Checker) {α : Type} (m : CheckM α) (post : α → Prop) : Prop :=
  ∀ c, base.Underlies c → base.Judges c (c.step m).2 ∧ ∀ a, (c.step m).1 = .ok a → post a

abbrev Judges (base : Checker) {α : Type} (m : CheckM α) : Prop := JudgesWith base m fun _ => True

section Judges
variable {base c c' c'' : Checker}

namespace Checker.Judges

theorem of_silent (underlies : base.Underlies c') (silent : c'.diagnostics = c.diagnostics) :
    base.Judges c c' := by
  refine ⟨underlies, [], [], List.forall_mem_nil _, ?_, rfl⟩
  rw [silent, List.append_nil]

theorem trans (one : base.Judges c c') (two : base.Judges c' c'') :
    base.Judges c c'' := by
  obtain ⟨judged, new, extended, reported, violated⟩ := one.reported
  obtain ⟨judged', new', extended', reported', violated'⟩ := two.reported
  refine ⟨two.underlies, judged ++ judged', new ++ new',
    List.forall_mem_append.mpr ⟨extended, extended'⟩, ?_, ?_⟩
  · rw [reported', reported, List.append_assoc]
  · rw [List.filter_append, violated, violated', violations_append]

/-- A table with the same entries of the base is as good. -/
theorem of_table (underlies : base.Underlies c) {t : TypeTable} (extended : base.table.Extends t) :
    base.Judges c { c with table := t } :=
  .of_silent ⟨underlies.options, extended, underlies.declared⟩ rfl

end Checker.Judges

namespace JudgesWith

variable {α β : Type} {post : β → Prop}

theorem pure {b : β} (holds : post b) : JudgesWith base (Pure.pure b) post :=
  fun _ underlies => ⟨.of_silent underlies rfl, fun _ same => Except.ok.inj same ▸ holds⟩

theorem bind {m : CheckM α} {k : α → CheckM β} {between : α → Prop}
    (first : JudgesWith base m between)
    (next : ∀ a, between a → JudgesWith base (k a) post) :
    JudgesWith base (m >>= k) post := by
  intro c underlies
  obtain ⟨judges, holds⟩ := first c underlies
  rw [Checker.step_bind]
  generalize c.step m = outcome at judges holds
  obtain ⟨result, c'⟩ := outcome
  cases result with
  | error cause => exact ⟨judges, nofun⟩
  | ok a =>
      obtain ⟨later, holds⟩ := next a (holds a rfl) c' judges.underlies
      exact ⟨judges.trans later, holds⟩

/-- What the first step gives does not matter. -/
theorem after {m : CheckM α} {k : α → CheckM β} (first : Judges base m)
    (next : ∀ a, JudgesWith base (k a) post) : JudgesWith base (m >>= k) post :=
  first.bind fun a _ => next a

theorem get_bind {k : Checker → CheckM β}
    (next : ∀ c : Checker, base.Underlies c →
      base.Judges c (c.step (k c)).2 ∧ ∀ a, (c.step (k c)).1 = .ok a → post a) :
    JudgesWith base (get >>= k) post := next

theorem table_bind {k : TypeTable → CheckM β}
    (next : ∀ c : Checker, base.Underlies c →
      base.Judges c (c.step (k c.table)).2 ∧ ∀ a, (c.step (k c.table)).1 = .ok a → post a) :
    JudgesWith base (table >>= k) post := next

theorem modify {f : Checker → Checker}
    (same : ∀ c, (f c).options = c.options ∧ (f c).table = c.table ∧
      (f c).diagnostics = c.diagnostics ∧ (f c).declaredTypes = c.declaredTypes) :
    Judges base (modify f : CheckM PUnit) := by
  intro c underlies
  obtain ⟨options, table, diagnostics, declared⟩ := same c
  refine ⟨.of_silent ⟨options.trans underlies.options, table ▸ underlies.extended, ?_⟩ diagnostics,
    fun _ _ => trivial⟩
  exact declared ▸ underlies.declared

theorem ite {p : Prop} [Decidable p] {yes no : CheckM β} (one : p → JudgesWith base yes post)
    (two : ¬p → JudgesWith base no post) : JudgesWith base (if p then yes else no) post := by
  split
  · next holds => exact one holds
  · next fails => exact two fails

theorem fail (cause : ConstructionError) (location : Location) :
    JudgesWith base (CheckM.fail cause location : CheckM β) post :=
  fun _ underlies => ⟨.of_silent underlies rfl, nofun⟩

end JudgesWith

section Steps

theorem judges_onTable {α : Type} {action : TableM α} (derives : action.Derives) :
    Judges base (onTable action) := fun c underlies =>
  ⟨.of_table underlies (underlies.extended.trans (derives c.table).extended), fun _ _ => trivial⟩

theorem judges_report {d : Diagnostic} (other : d.code ≠ Message.constraintUnsatisfied.code) :
    Judges base (report d) := by
  intro c underlies
  refine ⟨⟨⟨underlies.options, underlies.extended, underlies.declared⟩, [], [_],
    List.forall_mem_nil _, congrArg (·.2.diagnostics.toList) (c.step_report d), ?_⟩,
    fun _ _ => trivial⟩
  rw [List.filter_singleton, Diagnostic.isUnsatisfied, Diagnostic.code_inFile, beq_false_of_ne other]
  rfl

/-- A new entry is behind the base. -/
theorem judges_addType (kind : TypeKind) :
    JudgesWith base (addType kind) fun id => base.table.size ≤ id := by
  intro c underlies
  refine ⟨.of_table underlies (underlies.extended.trans (.add c.table kind)), fun id same => ?_⟩
  exact Except.ok.inj same ▸ underlies.extended.size

theorem judges_modifyTable {f : TypeTable → TypeTable}
    (keeps : ∀ t, base.table.Extends t → base.table.Extends (f t)) :
    Judges base (modify fun checker => { checker with table := f checker.table } :
      CheckM PUnit) := fun _ underlies =>
  ⟨.of_table underlies (keeps _ underlies.extended), fun _ _ => trivial⟩

/-- A declared name that is new changes no other. -/
theorem judges_declareType {name : String} (id : TypeId)
    (free : base.declaredTypes.find? name = none) :
    Judges base (modify fun checker =>
      { checker with declaredTypes := checker.declaredTypes.insert name id } : CheckM PUnit) := by
  intro c underlies
  refine ⟨.of_silent ⟨underlies.options, underlies.extended, fun other known found => ?_⟩ rfl,
    fun _ _ => trivial⟩
  have apart : name ≠ other := fun same => by simp [← same, free] at found
  exact ((Dictionary.find?_insert _ _ _ _).trans (if_neg apart)).trans
    (underlies.declared other known found)

theorem judges_get : Judges base (get : CheckM Checker) :=
  fun _ underlies => ⟨.of_silent underlies rfl, fun _ _ => trivial⟩

theorem scopeProperty_judges (base : Checker) : ScopeProperty (fun _ => True) (Judges base) where
  pure _ := .pure trivial
  bind := .after
  reading _ := judges_get.after
  onTable := judges_onTable
  report _ other := judges_report other.1
  reportOpen parameter here :=
    reportOpen_of (fun _ => True) (fun _ => judges_get.after)
      (fun _ same => judges_report (same ▸ by decide)) (.pure trivial) here parameter
  modifyScopes _ := .modify fun _ => ⟨rfl, rfl, rfl, rfl⟩
  changeScopes _ := .modify fun _ => ⟨rfl, rfl, rfl, rfl⟩
  modifyReturns _ := .modify fun _ => ⟨rfl, rfl, rfl, rfl⟩
  bindGlobal _ _ := .modify fun _ => ⟨rfl, rfl, rfl, rfl⟩

/-- An argument waits, or it is judged in the table of the moment. -/
theorem judges_checkConstraint (parameter argument : TypeId) (bindings : Bindings)
    (location : Location) :
    Judges base (checkConstraint parameter argument bindings location) := by
  refine .get_bind fun c underlies => ?_
  dsimp only
  split
  · exact ⟨.of_silent ⟨underlies.options, underlies.extended, underlies.declared⟩ rfl, fun _ _ => trivial⟩
  let check : DeferredConstraint := ⟨parameter, argument, bindings, location, c.currentFile⟩
  obtain ⟨t, derived, step⟩ := c.step_reportUnsatisfied check rfl
  rw [step]
  refine ⟨⟨⟨underlies.options, underlies.extended.trans derived.extended, underlies.declared⟩,
    [(check, c.table)], _, List.forall_mem_singleton.mpr underlies.extended, rfl, ?_⟩,
    fun _ _ => trivial⟩
  rw [filter_violations, underlies.options]

end Steps

section WrittenTypes

theorem judges_lookupType (name : String) : Judges base (lookupType name) :=
  (scopeProperty_judges base).lookupType name

theorem judges_error (location : Location) {message : Message} (arguments : List String)
    (other : message.code ≠ Message.constraintUnsatisfied.code) :
    Judges base (error location message arguments) :=
  judges_report other

theorem judges_checkConstraints (bindings : Bindings)
    (pairs : List ((TypeId × TypeId) × Location)) :
    Judges base (checkConstraints bindings pairs) := by
  induction pairs with
  | nil => exact .pure trivial
  | cons pair rest ih => exact .after (judges_checkConstraint _ _ _ _) fun _ => ih

theorem judges_instantiateReference (declared : TypeId) (g : GenericType)
    (arguments : List TypeId) (locations : List Location) (location : Location) :
    Judges base (instantiateReference declared g arguments locations location) := by
  refine .after (judges_checkConstraints _ _) fun _ => ?_
  refine .table_bind fun c underlies => ?_
  dsimp only
  split
  · next id t built =>
      exact ⟨.of_table underlies (underlies.extended.addInstantiated built), fun _ _ => trivial⟩
  · exact JudgesWith.fail _ _ c underlies

theorem judges_freshTypeParameters (nodes : List TypeParameterNode) :
    JudgesWith base (freshTypeParameters nodes) fun ids => ∀ id ∈ ids, base.table.size ≤ id := by
  induction nodes with
  | nil => exact .pure (List.forall_mem_nil _)
  | cons node rest ih =>
      rw [freshTypeParameters, List.mapM_cons]
      refine (judges_addType _).bind fun id new => ih.bind fun ids others => .pure ?_
      exact List.forall_mem_cons.mpr ⟨new, others⟩

mutual

theorem judges_resolveType : ∀ node : TypeNode, Judges base (resolveType node)
  | .keyword _ _ => .pure trivial
  | .reference name arguments location => by
      rw [resolveType]
      refine .after (judges_lookupType name) fun found => ?_
      cases found with
      | none => exact .after (judges_error _ _ (by decide)) fun _ => .pure trivial
      | some declared =>
          refine .after (scopeProperty_judges base).table fun t => ?_
          split
          · split
            · exact .after (judges_error _ _ (by decide)) fun _ => .pure trivial
            · exact .after (judges_resolveTypes arguments) fun ids =>
                judges_instantiateReference _ _ _ _ _
          · dsimp only
            split
            · refine .after ((scopeProperty_judges base).display _) fun text => ?_
              exact .after (judges_error _ _ (by decide)) fun _ => .pure trivial
            · exact .pure trivial
  | .literal members _ => by
      rw [resolveType]
      refine .after (judges_resolveMembers [] members) fun properties => ?_
      split
      · exact (scopeProperty_judges base).addType rfl nofun
      · exact .fail _ _
  | .function typeParameters parameters returnType _ => by
      rw [resolveType]
      refine .after (scopeProperty_judges base).pushScope fun _ => ?_
      refine (judges_freshTypeParameters typeParameters).bind fun ids new => ?_
      refine .after ((scopeProperty_judges base).bindTypeParameterNames _ _ fun _ _ => trivial) fun _ => ?_
      refine .after (judges_resolveConstraints typeParameters ids new) fun _ => ?_
      refine .after (judges_resolveParameters none 0 parameters) fun resolved => ?_
      refine .after (judges_resolveType returnType) fun result => ?_
      refine .after (scopeProperty_judges base).popScope fun _ => ?_
      exact (scopeProperty_judges base).addType rfl nofun

theorem judges_resolveTypes : ∀ nodes : List TypeNode, Judges base (resolveTypes nodes)
  | [] => .pure trivial
  | node :: rest => by
      rw [resolveTypes]
      refine .after (judges_resolveType node) fun id => ?_
      exact .after (judges_resolveTypes rest) fun ids => .pure trivial

theorem judges_resolveMembers (seen : List String) :
    ∀ members : List PropertySignature, Judges base (resolveMembers seen members)
  | [] => .pure trivial
  | ⟨name, optional, declaredType, location⟩ :: rest => by
      have resolved : Judges base (do
          let type ← resolveType declaredType
          let properties ← resolveMembers (name :: seen) rest
          return (name, (⟨type, optional⟩ : Property)) :: properties) := by
        refine .after (judges_resolveType declaredType) fun id => ?_
        exact .after (judges_resolveMembers (name :: seen) rest) fun _ => .pure trivial
      rw [resolveMembers]
      split
      · exact .after (.fail _ _) fun _ => resolved
      · exact resolved

theorem judges_resolveConstraints :
    ∀ (nodes : List TypeParameterNode) (ids : List TypeId), (∀ id ∈ ids, base.table.size ≤ id) →
      Judges base (resolveConstraints nodes ids)
  | [], _, _ => by
      rw [resolveConstraints]
      · exact .pure trivial
      · simp
  | _ :: _, [], _ => by
      rw [resolveConstraints]
      · exact .pure trivial
      · simp
  | ⟨_, none, _⟩ :: nodes, _ :: ids, new => by
      rw [resolveConstraints]
      exact judges_resolveConstraints nodes ids (List.forall_mem_cons.mp new).2
  | ⟨_, some node, _⟩ :: nodes, id :: ids, new => by
      obtain ⟨here, later⟩ := List.forall_mem_cons.mp new
      rw [resolveConstraints]
      refine .after (judges_resolveType node) fun bound => ?_
      refine .after (judges_modifyTable fun t extended => extended.setConstraint here bound) fun _ => ?_
      exact judges_resolveConstraints nodes ids later

theorem judges_resolveParameters (context : Option FunctionType) (index : Nat) :
    ∀ parameters : List ParameterNode,
      Judges base (resolveParameters context index parameters)
  | [] => .pure trivial
  | ⟨_, _, none, _⟩ :: rest => by
      rw [resolveParameters]
      refine .after (.pure trivial) fun _ => ?_
      exact .after (judges_resolveParameters context (index + 1) rest) fun _ => .pure trivial
  | ⟨_, _, some node, _⟩ :: rest => by
      rw [resolveParameters]
      refine .after (judges_resolveType node) fun _ => ?_
      exact .after (judges_resolveParameters context (index + 1) rest) fun _ => .pure trivial

end

theorem judges_declareTypeParameters (nodes : List TypeParameterNode) :
    Judges base (declareTypeParameters nodes) := by
  refine (judges_freshTypeParameters nodes).bind fun ids new => ?_
  refine .after ((scopeProperty_judges base).bindTypeParameterNames _ _ fun _ _ => trivial) fun _ => ?_
  exact .after (judges_resolveConstraints nodes ids new) fun _ => .pure trivial

end WrittenTypes

section Interfaces

/-- The body and the parameters of the interface are behind the base. -/
structure PendingInterface.Behind (p : PendingInterface) (base : TypeTable) : Prop where
  body : base.size ≤ p.body
  parameters : ∀ id ∈ p.typeParameters, base.size ≤ id

theorem judges_enterInterface {p : PendingInterface} (behind : p.Behind base.table)
    {declared : TypeId} {top : Bool}
    (free : top = true → base.declaredTypes.find? p.declaration.name = none) :
    JudgesWith base (do
      if top then
        modify fun checker =>
          { checker with
            declaredTypes := checker.declaredTypes.insert p.declaration.name declared }
      else bindType p.declaration.name declared
      return some p) fun begun => ∀ p, begun = some p → p.Behind base.table := by
  have done (_ : PUnit) : JudgesWith base (pure (some p))
      fun begun => ∀ p, begun = some p → p.Behind base.table :=
    .pure fun _ same => Option.some.inj same ▸ behind
  cases top with
  | true => exact .after (judges_declareType declared (free rfl)) done
  | false => exact .after ((scopeProperty_judges base).bindType _ _) done

/-- An interface is entered only under a name that is not declared yet. -/
theorem judges_beginInterface (declaration : InterfaceDeclaration) :
    JudgesWith base (beginInterface declaration) fun begun =>
      ∀ p, begun = some p → p.Behind base.table := by
  refine .get_bind fun c underlies => ?_
  refine (JudgesWith.ite (fun _ => ?_) fun untaken => ?_) c underlies
  · exact .after (judges_error _ _ (by decide)) fun _ => .pure (by simp)
  have free (outside : c.scopes.isEmpty = true) :
      base.declaredTypes.find? declaration.name = none := by
    rw [List.isEmpty_iff.mp outside] at untaken
    refine Option.eq_none_iff_forall_ne_some.mpr fun id found => untaken ?_
    rw [Dictionary.contains, underlies.declared _ _ found]
    rfl
  refine (judges_freshTypeParameters _).bind fun ids parameters => ?_
  refine (judges_addType .pending).bind fun body new => ?_
  have behind : PendingInterface.Behind ⟨declaration, body, ids, c.currentFile⟩ base.table :=
    ⟨new, parameters⟩
  dsimp only
  split
  · exact judges_enterInterface behind free
  · exact (judges_addType _).bind fun declared _ => judges_enterInterface behind free

theorem judges_constrainInterface {p : PendingInterface} (new : p.Behind base.table) :
    Judges base (constrainInterface p) := by
  refine .after (scopeProperty_judges base).pushScope fun _ => ?_
  refine .after ((scopeProperty_judges base).bindTypeParameterNames _ _ fun _ _ => trivial) fun _ => ?_
  refine .after (judges_resolveConstraints _ _ new.parameters) fun _ => ?_
  exact (scopeProperty_judges base).popScope

theorem judges_completeInterface {p : PendingInterface} (new : p.Behind base.table) :
    Judges base (completeInterface p) := by
  refine .after (scopeProperty_judges base).pushScope fun _ => ?_
  refine .after ((scopeProperty_judges base).bindTypeParameterNames _ _ fun _ _ => trivial) fun _ => ?_
  have built : Judges base
      (buildObjectType (some p.declaration.name) p.declaration.members) := by
    refine .after (judges_resolveMembers [] _) fun properties => ?_
    split
    · exact .pure trivial
    · exact .fail _ _
  refine .after built fun o => ?_
  refine .after (scopeProperty_judges base).popScope fun _ => ?_
  refine .table_bind fun c underlies => ?_
  split
  · next t filled => exact ⟨.of_table underlies (underlies.extended.define new.body filled), fun _ _ => trivial⟩
  · exact JudgesWith.fail _ _ c underlies

theorem judges_declareInterface (declaration : InterfaceDeclaration) :
    Judges base (declareInterface declaration) := by
  refine (judges_beginInterface declaration).bind fun begun new => ?_
  cases begun with
  | none => exact .pure trivial
  | some p =>
      have behind := new p rfl
      exact .after (judges_constrainInterface behind) fun _ => judges_completeInterface behind

end Interfaces

theorem runProperty_judges (base : Checker) :
    RunProperty (Judges base) where
  toStepProperty := (scopeProperty_judges base).toStepProperty
  changeScopes := (scopeProperty_judges base).changeScopes
  readWhole _ := judges_get.after
  checkConstraint _ _ _ _ _ := judges_checkConstraint _ _ _ _
  resolveType node _ := judges_resolveType node
  declareTypeParameters nodes _ := judges_declareTypeParameters nodes
  declareInterface declaration _ := judges_declareInterface declaration
  fail _ _ _ := .fail _ _
  modifyFunctions _ := .modify fun _ => ⟨rfl, rfl, rfl, rfl⟩
  setFile _ := .modify fun _ => ⟨rfl, rfl, rfl, rfl⟩

end Judges

end StructuralTyping
