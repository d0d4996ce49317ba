import StructuralTyping.Proofs.ProgramProperties
import StructuralTyping.Proofs.WrittenFindings
import StructuralTyping.Tree.Build

/-! The level at which unresolved type parameters are reported. Two runs at different
levels go through checkers that are the same but for the level and for what it decides
about: the reports of unresolved type parameters. So the reports at one level tell those
at every other. -/
namespace StructuralTyping

open CheckM

namespace Diagnostic

/-- The diagnostic is about a type parameter that could not be inferred. -/
def isUnresolved (d : Diagnostic) : Bool := d.code == Message.unresolvedTypeParameter.code

theorem isUnresolved_inFile (d : Diagnostic) (file : Option String) :
    (d.inFile file).isUnresolved = d.isUnresolved := by
  rw [isUnresolved, code_inFile, isUnresolved]

theorem withSeverity_inFile (d : Diagnostic) (file : Option String) (severity : Severity) :
    (d.inFile file).withSeverity severity = (d.withSeverity severity).inFile file := by
  cases file with
  | none => rfl
  | some file =>
      rw [inFile, inFile]
      split <;> rfl

/-- The diagnostic as it is reported at a level, if it is reported there. -/
def retold (level : DiagnosticLevel) (d : Diagnostic) : Option Diagnostic :=
  if d.isUnresolved then level.severity?.map d.withSeverity else some d

theorem retold_other (level : DiagnosticLevel) {d : Diagnostic}
    (other : d.code ≠ Message.unresolvedTypeParameter.code) : d.retold level = some d :=
  if_neg (mt beq_iff_eq.mp other)

/-- To report a diagnostic as part of a file does not change at which levels it is reported. -/
theorem retold_inFile (level : DiagnosticLevel) (d : Diagnostic) (file : Option String) :
    (d.inFile file).retold level = (d.retold level).map fun told => told.inFile file := by
  rw [retold, isUnresolved_inFile, retold]
  split
  · cases level.severity? with
    | none => rfl
    | some severity => exact congrArg some (d.withSeverity_inFile file severity)
  · rfl

end Diagnostic

namespace Checker

/-- The checker as it would be if the level had been another one from the start. -/
def retold (level : DiagnosticLevel) (c : Checker) : Checker :=
  { c with
    options := { c.options with unresolvedTypeParameters := level }
    diagnostics := ⟨c.diagnostics.toList.filterMap (Diagnostic.retold level)⟩ }

/-- Whatever the level, the report is one and the same, retold. -/
theorem unresolvedReport?_retold (level : DiagnosticLevel) {c : Checker}
    (loud : c.options.unresolvedTypeParameters = .error) (location : Location)
    (parameter : TypeId) :
    (c.retold level).unresolvedReport? location parameter =
      (c.unresolvedReport? location parameter).bind (Diagnostic.retold level) := by
  rw [unresolvedReport?, unresolvedReport?, loud]
  rfl

theorem step_reportOpen (c : Checker) (location : Location) (parameter : TypeId) :
    c.step (reportOpen location parameter) =
      (.ok (), { c with
        diagnostics := c.diagnostics.append
          ((c.unresolvedReport? location parameter).map
            fun d => d.inFile c.currentFile).toList }) := by
  rw [reportOpen, step_bind, step_get]
  dsimp only
  cases c.unresolvedReport? location parameter with
  | none => simp [DiagnosticCollection.append]
  | some d => exact c.step_report d

end Checker

/-- From a checker that reports unresolved type parameters as errors, the step does the same
as from the checker of another level, and its reports are retold. -/
def Retells (level : DiagnosticLevel) {α : Type} (m : CheckM α) : Prop :=
  ∀ c : Checker, c.options.unresolvedTypeParameters = .error →
    (c.retold level).step m = ((c.step m).1, (c.step m).2.retold level) ∧
      (c.step m).2.options = c.options

section Steps
variable {level : DiagnosticLevel}

theorem Retells.bind {α β : Type} {m : CheckM α} {k : α → CheckM β} (one : Retells level m)
    (two : ∀ a, Retells level (k a)) : Retells level (m >>= k) := by
  intro c loud
  obtain ⟨first, kept⟩ := one c loud
  rw [Checker.step_bind, Checker.step_bind, first]
  match ran : c.step m, kept with
  | (.ok a, between), kept =>
      obtain ⟨second, same⟩ := two a between (kept ▸ loud)
      exact ⟨second, same.trans kept⟩
  | (.error cause, between), kept => exact ⟨rfl, kept⟩

theorem retells_readWhole {α : Type} {k : Checker → CheckM α}
    (unreported : ∀ c, k c.unreported = k c) (next : ∀ c, Retells level (k c)) :
    Retells level (get >>= k) := by
  intro c loud
  have same : k (c.retold level) = k c := (unreported (c.retold level)).symm.trans (unreported c)
  rw [Checker.step_bind, Checker.step_bind, Checker.step_get, Checker.step_get]
  dsimp only
  rw [same]
  exact next c c loud

theorem retells_report {d : Diagnostic}
    (other : d.code ≠ Message.unresolvedTypeParameter.code) : Retells level (report d) := by
  intro c _
  have told : [d.inFile c.currentFile].filterMap (Diagnostic.retold level) =
      [d.inFile c.currentFile] := by
    rw [List.filterMap_cons, Diagnostic.retold_inFile, Diagnostic.retold_other level other]
    rfl
  rw [Checker.step_report, Checker.step_report]
  refine ⟨congrArg (Prod.mk _) ?_, rfl⟩
  simp only [Checker.retold, DiagnosticCollection.add, List.filterMap_append, told]

theorem retells_reportOpen (location : Location) (parameter : TypeId) :
    Retells level (reportOpen location parameter) := by
  intro c loud
  have told := Checker.unresolvedReport?_retold level loud location parameter
  rw [Checker.step_reportOpen, Checker.step_reportOpen, told]
  refine ⟨congrArg (Prod.mk _) ?_, rfl⟩
  simp only [Checker.retold, DiagnosticCollection.append, List.filterMap_append]
  cases c.unresolvedReport? location parameter with
  | none => rfl
  | some d => cases found : d.retold level <;> simp [found, Diagnostic.retold_inFile]

theorem retells_change {f : Checker → Checker} (quiet : Quiet f) :
    Retells level (modify f : CheckM PUnit) := by
  intro c _
  have same : f c = { f c with diagnostics := c.diagnostics, options := c.options } :=
    quiet.reports c c.diagnostics c.options
  have options : (f c).options = c.options := by rw [same]
  have diagnostics : (f c).diagnostics = c.diagnostics := by rw [same]
  refine ⟨congrArg (Prod.mk _) ?_, options⟩
  rw [Checker.step_modify, Checker.retold, quiet.reports, Checker.retold, options, diagnostics]

theorem programProperty_retells (level : DiagnosticLevel) : ProgramProperty (Retells level) where
  pure _ _ _ := ⟨rfl, rfl⟩
  bind := .bind
  throw _ _ _ := ⟨rfl, rfl⟩
  readWhole := retells_readWhole
  onTable _ _ _ := ⟨rfl, rfl⟩
  report := retells_report
  reportOpen := retells_reportOpen
  change := retells_change

theorem retells_checkDeclared (level : DiagnosticLevel) : Retells level checkDeclared := by
  have property := programProperty_retells level
  refine .bind (fun _ _ => ⟨rfl, rfl⟩) fun _ => ?_
  refine property.readWhole (fun _ => rfl) fun c => ?_
  exact property.bind (property.runProperty.checkFiles _ _) fun _ => fun _ _ => ⟨rfl, rfl⟩

end Steps

theorem filterMap_retold_off (ds : List Diagnostic) :
    ds.filterMap (Diagnostic.retold .off) = ds.filter fun d => !d.isUnresolved := by
  rw [← List.filterMap_eq_filter]
  refine congrArg (List.filterMap · ds) (funext fun d => ?_)
  cases unresolved : d.isUnresolved <;>
    simp [Diagnostic.retold, unresolved, Option.guard, DiagnosticLevel.severity?]

theorem filterMap_retold_warning (ds : List Diagnostic) :
    ds.filterMap (Diagnostic.retold .warning) =
      ds.map fun d => if d.isUnresolved then d.withSeverity .warning else d := by
  rw [← List.filterMap_eq_map]
  refine congrArg (List.filterMap · ds) (funext fun d => ?_)
  cases unresolved : d.isUnresolved <;>
    simp [Diagnostic.retold, unresolved, DiagnosticLevel.severity?]

variable (strict : Bool) (files : List SourceFile)

/-- The run at a level is the run that reports unresolved type parameters as errors, retold. -/
theorem declareAndCheck_retold (level : DiagnosticLevel) :
    let loud := (Checker.new ⟨strict, .error⟩).step (declareAndCheck files)
    (Checker.new ⟨strict, level⟩).step (declareAndCheck files) =
      (loud.1, { loud.2 with
        options := ⟨strict, level⟩
        diagnostics := ⟨loud.2.diagnostics.toList.filterMap (Diagnostic.retold level)⟩ }) := by
  intro loud
  have retells : Retells level (do declareAll; checkDeclared) :=
    .bind (programProperty_retells level).declareAll fun _ => retells_checkDeclared level
  obtain ⟨told, options⟩ := retells { Checker.new ⟨strict, .error⟩ with files := files } rfl
  rw [← Checker.step_declareAndCheck] at told options
  rw [Checker.step_declareAndCheck]
  refine told.trans (congrArg (Prod.mk _) ?_)
  rw [Checker.retold, options]
  rfl

/-- The level decides about the reports of unresolved type parameters and about nothing else.
Where it is off, the run ends in the same way and leaves the same checker as where it is
error, with all other reports; where it is warning, the same reports are warnings. -/
theorem declareAndCheck_levels :
    let run (level : DiagnosticLevel) := (Checker.new ⟨strict, level⟩).step (declareAndCheck files)
    let errors := (run .error).2.diagnostics.toList
    run .off = ((run .error).1, { (run .error).2 with
      options := ⟨strict, .off⟩
      diagnostics := ⟨errors.filter fun d => !d.isUnresolved⟩ }) ∧
    run .warning = ((run .error).1, { (run .error).2 with
      options := ⟨strict, .warning⟩
      diagnostics :=
        ⟨errors.map fun d => if d.isUnresolved then d.withSeverity .warning else d⟩ }) := by
  intro run errors
  rw [← filterMap_retold_off, ← filterMap_retold_warning]
  exact ⟨declareAndCheck_retold strict files .off, declareAndCheck_retold strict files .warning⟩

/-- A call from which the type parameter cannot be told. -/
def openCall : SourceFile :=
  ⟨"a.ts", [.ofFunction "f" [.free "T"] [] none [], .ofExpression (.ofCall (.ofName "f") [] [])]⟩

example : DiagnosticLevel.all.map (fun level =>
    ((Checker.new ⟨false, level⟩).step (declareAndCheck [openCall])).2.diagnostics.toList.map
      fun d => (d.code, d.severity)) = [[], [(7062, .warning)], [(7062, .error)]] := by
  decide +kernel

end StructuralTyping
