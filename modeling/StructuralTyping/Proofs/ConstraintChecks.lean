import StructuralTyping.Proofs.CompletedRuns
import StructuralTyping.Proofs.DeclaredFindings
import StructuralTyping.Proofs.Judgements

/-! Which type arguments are reported for not satisfying a constraint. The arguments of
top-level declarations wait until every constraint is set and every body is built, and are
judged in the order in which they were written. While statements are checked, an argument
is judged at once, in the table as it is at that moment. -/
namespace StructuralTyping

open CheckM

section Program

/-- What is found in declarations is never a constraint that is not satisfied. -/
theorem code_noteReports {notes : List Note} {d : Diagnostic} (reported : d ∈ noteReports notes) :
    d.code ≠ Message.constraintUnsatisfied.code := by
  obtain ⟨⟨file, finding⟩, -, placed⟩ := List.mem_filterMap.mp reported
  obtain ⟨r, same, rfl⟩ := Option.map_eq_some_iff.mp placed
  rw [Diagnostic.code_inFile]
  have code (message : Message) (location : Location) (arguments : List String) :
      (Diagnostic.atLocation location message arguments).code = message.code := rfl
  cases finding <;> cases same <;> simp only [Diagnostic.code_unnamed, code] <;> decide

theorem filter_of_noteReports {notes : List Note} {ds : List Diagnostic}
    (reported : ds.map Diagnostic.unnamed = noteReports notes) :
    ds.filter Diagnostic.isUnsatisfied = [] := by
  refine List.filter_eq_nil_iff.mpr fun d member unsatisfied => ?_
  have listed : d.unnamed ∈ noteReports notes := reported ▸ List.mem_map_of_mem member
  exact code_noteReports listed (d.code_unnamed.trans (beq_iff_eq.mp unsatisfied))

variable {c c' : Checker}

/-- Declarations are entered, and then the arguments that waited are judged. -/
structure Checker.Declares (c entered : Checker) (queue : List Judgement) (c' : Checker) :
    Prop where
  enters : c.Enters entered
  waited : queue.map Prod.fst = entered.deferred
  between : ∀ j ∈ queue, entered.table.Derives j.2 ∧ j.2.Extends c'.table
  extended : entered.table.Extends c'.table
  options : c'.options = entered.options
  declared : c'.declaredTypes = entered.declaredTypes
  reported : c'.diagnostics.toList =
    entered.diagnostics.toList ++ violations c.options.strictFunctionTypes queue

theorem declareAll_declares (fresh : c.Fresh) {a : Unit}
    (done : c.step declareAll = (.ok a, c')) : ∃ entered queue, c.Declares entered queue c' := by
  obtain ⟨entered, enters, rest⟩ := declareAll_enters fresh done
  obtain ⟨queue, t, file, checks, between, extended, run⟩ :=
    step_runDeferred entered.deferred { entered with deferred := [] }
  rw [Checker.step_bind, run] at rest
  obtain ⟨-, rfl⟩ := Prod.mk.inj rest
  refine ⟨entered, queue, enters, checks, between, extended, rfl, rfl, ?_⟩
  rw [← enters.options]
  rfl

/-- What a run does after its declarations leaves them in place. -/
theorem checkDeclarations_judges (declaring : c.phase = .declaring)
    (done : c.step checkDeclarations = (.ok (), c')) :
    ∃ between, c.step declareAll = (.ok (), between) ∧ between.Judges between c' := by
  obtain ⟨_, _, read, done⟩ := Checker.step_bind_ok done
  obtain ⟨same, rfl⟩ := Prod.mk.inj read
  obtain rfl := Except.ok.inj same
  rw [if_neg (not_not.mpr declaring)] at done
  obtain ⟨_, between, declared, done⟩ := Checker.step_bind_ok done
  obtain ⟨_, _, begun, done⟩ := Checker.step_bind_ok done
  obtain ⟨-, rfl⟩ := Prod.mk.inj begun
  obtain ⟨_, _, read, done⟩ := Checker.step_bind_ok done
  obtain ⟨same, rfl⟩ := Prod.mk.inj read
  obtain rfl := Except.ok.inj same
  obtain ⟨_, last, checked, done⟩ := Checker.step_bind_ok done
  obtain ⟨-, rfl⟩ := Prod.mk.inj done
  have checking : between.Underlies { between with phase := .checking } :=
    ⟨rfl, .refl _, fun _ _ => id⟩
  have whole := ((runProperty_judges between).checkFiles ⟨0, 0⟩ between.files _ checking).1
  rw [checked] at whole
  exact ⟨between, declared, ⟨whole.underlies.options, whole.underlies.extended,
    whole.underlies.declared⟩, whole.reported⟩

/-- The checker that is about to declare these files. -/
def Checker.ofFiles (options : CheckerOptions) (files : List SourceFile) : Checker :=
  { Checker.new options with files := files }

/-- A run that is not aborted enters its declarations, judges the arguments that waited, and
leaves all this in place. -/
theorem declareAndCheck_declares {files : List SourceFile} {options : CheckerOptions}
    (done : (Checker.new options).step (declareAndCheck files) = (.ok (), c)) :
    ∃ entered queue between, (Checker.ofFiles options files).Declares entered queue between ∧
      between.Judges between c := by
  rw [declareAndCheck, Checker.step_bind, step_declareSourceFiles files rfl] at done
  obtain ⟨between, declared, judges⟩ := checkDeclarations_judges rfl done
  have fresh : (Checker.ofFiles options files).Fresh := ⟨rfl, rfl, rfl, rfl, rfl, rfl, rfl⟩
  obtain ⟨entered, queue, declares⟩ := declareAll_declares fresh declared
  exact ⟨entered, queue, between, declares, judges⟩

/-- What is found in the declarations of a program is reported first. -/
theorem Checker.Enters.reported {options : CheckerOptions} {files : List SourceFile}
    {entered : Checker} (enters : (Checker.ofFiles options files).Enters entered) :
    entered.diagnostics.toList.map Diagnostic.unnamed = noteReports (programNotes files) := by
  obtain ⟨reserved, noted⟩ := enters.noted
  exact noted.reported

/-- How the constraints of a program are checked. In the table of the declarations, every
declaration is entered; the queue is what waited for it, and the others are judged while
statements are checked. -/
structure ConstraintsJudged (strict : Bool) (files : List SourceFile) (declared : TypeTable)
    (queue others : List Judgement) (c : Checker) : Prop where
  built : ∀ id, declared.kind id ≠ .pending
  /-- Every argument of a top-level reference waits, in the order of the program. -/
  places : queue.map (fun j => j.1.place) = noteArguments (programNotes files)
  requests : queue.map (fun j => j.1.request) = declared.requests
  queued : ∀ j ∈ queue, declared.Derives j.2 ∧ j.2.Extends c.table
  later : ∀ j ∈ others, declared.Extends j.2
  reported : c.diagnostics.toList.filter Diagnostic.isUnsatisfied =
    violations strict queue ++ violations strict others

/-- In a run that is not aborted, an argument of a top-level reference is reported exactly
when it is not assignable to its constraint in a table that has all declarations with
their constraints and bodies, and that the last table extends. -/
theorem declareAndCheck_judges (files : List SourceFile) (options : CheckerOptions)
    (done : (Checker.new options).step (declareAndCheck files) = (.ok (), c)) :
    ∃ declared queue others,
      ConstraintsJudged options.strictFunctionTypes files declared queue others c := by
  obtain ⟨entered, queue, between, declares, judges⟩ := declareAndCheck_declares done
  obtain ⟨others, new, extended, reported, violated⟩ := judges.reported
  obtain ⟨reserved, noted⟩ := declares.enters.noted
  have places := noted.deferred
  have requests := noted.orderly.queued
  rw [← declares.waited, List.map_map] at places requests
  have sameOptions := declares.options.trans declares.enters.options
  refine ⟨entered.table, queue, others, declares.enters.built, places, requests, ?_, ?_, ?_⟩
  · intro j member
    obtain ⟨derived, before⟩ := declares.between j member
    exact ⟨derived, before.trans judges.underlies.extended⟩
  · exact fun j member => declares.extended.trans (extended j member)
  · rw [reported, declares.reported, List.filter_append, List.filter_append, filter_violations,
      filter_of_noteReports declares.enters.reported, violated, sameOptions]
    rfl

/-- A constraint and a reference that does not satisfy it. -/
def unsatisfiedBox : List SourceFile :=
  [⟨"", [
    .ofInterface "Box" [.bounded "V" (.ofKeyword .string)] [.required "v" (.named "V" [])],
    .ofVariable "x" (some (.named "Box" [.ofKeyword .number])) none]⟩]

theorem unsatisfiedBox_judged :
    ∃ c, (Checker.new .default).step (declareAndCheck unsatisfiedBox) = (.ok (), c) ∧
      ∃ declared queue others,
        ConstraintsJudged false unsatisfiedBox declared queue others c := by
  have unrepeated : Unrepeated (programNameGroups unsatisfiedBox) := by
    unfold Unrepeated
    decide
  obtain ⟨_, c, done, -⟩ := completesFrom_declareAndCheck unrepeated .default
  exact ⟨c, done, declareAndCheck_judges unsatisfiedBox .default done⟩

/-- A local interface whose parameter is constrained by an instance of the interface. -/
def ownConstraint : List SourceFile :=
  [⟨"", [
    .ofFunction "f" [] [] (some (.ofKeyword .void)) [
      .ofInterface "K" [.bounded "V" (.named "K" [.ofKeyword .number])]
        [.required "x" (.ofKeyword .string)]]]⟩]

/-- The table after the check of `ownConstraint`. -/
def ownConstraintTable : TypeTable where
  entries := #[.primitive .string, .primitive .number, .primitive .boolean, .primitive .void,
    .primitive .null, .primitive .undefined, .unknown, .function ⟨[], [], TypeId.void⟩,
    .typeParameter "V" (some 11), .object ⟨some "K", ⟨[("x", ⟨TypeId.string, false⟩)]⟩⟩,
    .generic ⟨"K", [8], 9⟩, .instantiated ⟨10, ⟨[("V", TypeId.number)]⟩⟩]
  resolved := .empty

/-- An argument that is judged on the spot may go unreported although it does not satisfy
the constraint that its parameter has in the end: the constraint is not set yet. -/
theorem ownConstraint_unreported :
    ∃ c, (Checker.new .default).step (declareAndCheck ownConstraint) = (.ok (), c) ∧
      c.diagnostics.toList = [] ∧ (∀ id, c.table.kind id ≠ .pending) ∧
      ∃ check : DeferredConstraint, check.request ∈ c.table.requests ∧
        (check.violation? false c.table).isSome := by
  have ends : ((Checker.new .default).step (declareAndCheck ownConstraint)).1 = .ok () := by
    decide +kernel
  have table : ((Checker.new .default).step (declareAndCheck ownConstraint)).2.table =
      ownConstraintTable := by decide +kernel
  have silent : ((Checker.new .default).step
      (declareAndCheck ownConstraint)).2.diagnostics.isEmpty := by decide +kernel
  generalize (Checker.new .default).step (declareAndCheck ownConstraint) = outcome
    at ends table silent
  obtain ⟨result, c⟩ := outcome
  dsimp only at ends table silent
  have constraint : ownConstraintTable.constraint? 8 = some 11 := by decide
  have bound : (substitute 11 (.ofList [(8, TypeId.number)])).run ownConstraintTable =
      (11, ownConstraintTable) := Prod.ext (by decide +kernel) (by decide +kernel)
  have answer : ((Assignability.assignableWithin false 20 TypeId.number 11 false).run
      (.ofTable ownConstraintTable)).any (fun r => !r.1.isOk) = true := by decide +kernel
  obtain ⟨⟨verdict, σ⟩, done, refused⟩ := (Option.any_eq_true _ _).mp answer
  have answers : Assignability.Answers false ownConstraintTable TypeId.number 11 false verdict
      σ.table := ⟨20, σ, done, rfl⟩
  let check : DeferredConstraint :=
    ⟨8, TypeId.number, .ofList [(8, TypeId.number)], .unknown, none⟩
  refine ⟨c, by rw [ends], List.isEmpty_iff.mp silent, fun id entry => ?_, check, ?_, ?_⟩
  · rw [table] at entry
    have listed := TypeTable.mem_entries_of_kind entry (by simp)
    simp [ownConstraintTable] at listed
  · rw [table]
    decide
  · rw [table, DeferredConstraint.violation?]
    simp only [check, constraint, bound, answers.run_assignable]
    cases verdict with
    | ok => cases refused
    | error mismatch => rfl

end Program

end StructuralTyping
