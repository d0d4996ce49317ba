import StructuralTyping.Proofs.RunProperties
import StructuralTyping.Proofs.WrittenProperties

/-! Properties of steps that carry over from the elementary steps to declaring and
checking a whole program, whatever its files. Such a property may depend on what is
reported, and on the phase. It has to hold of every step that does not look at the reports
and stays in the phase. -/
namespace StructuralTyping

open CheckM

/-- Enter the interfaces of all files. -/
def declareInterfaces (files : List SourceFile) : CheckM Unit := do
  let pending ← beginFiles files
  forInterfaces constrainInterface pending
  forInterfaces completeInterface pending

/-- Check the constraints that had to wait. -/
def finishDeclaring : CheckM Unit := do
  let deferred := (← get).deferred
  modify fun checker => { checker with deferred := [] }
  runDeferred deferred
  setFile none

theorem declareAll_eq : declareAll = (do
    let files := (← get).files
    declareInterfaces files
    declareFiles files
    finishDeclaring) := by
  unfold declareAll declareInterfaces finishDeclaring
  simp only [bind_assoc]

/-- The property holds as well of turning to a file and of what has to wait while
declaring. -/
structure FileProperty (holds : {α : Type} → CheckM α → Prop) : Prop extends
    WrittenProperty (fun _ => True) holds where
  /-- What is read of the checker does not tell reports apart. -/
  readWhole {α : Type} {k : Checker → CheckM α} :
    (∀ c, k c.unreported = k c) → (∀ c, holds (k c)) → holds (get >>= k)
  setFile (file : Option String) : holds (setFile file)
  reportUnsatisfied (check : DeferredConstraint) : holds (reportUnsatisfied check)
  forgetDeferred : holds (modify fun checker => { checker with deferred := [] } : CheckM PUnit)

namespace FileProperty

variable {holds : {α : Type} → CheckM α → Prop} (property : FileProperty holds)

include property

theorem beginInterfaces : ∀ statements : List Statement, holds (beginInterfaces statements)
  | [] => property.pure []
  | .interface declaration :: rest => by
      have reserved : holds (reserveInterface declaration) :=
        property.reserveInterface fun _ _ => trivial
      rw [StructuralTyping.beginInterfaces, beginInterface_eq]
      refine property.bind (property.readWhole (fun _ => rfl) fun c => ?_) fun _ => ?_
      · exact property.bind reserved fun _ => property.pure _
      · exact property.bind (beginInterfaces rest) fun _ => property.pure _
  | .function _ _ :: rest
  | .variable _ _ _ _ :: rest
  | .expression _ _ :: rest
  | .returning _ _ :: rest => beginInterfaces rest

theorem beginFiles (files : List SourceFile) : holds (beginFiles files) := by
  induction files with
  | nil => exact property.pure []
  | cons file rest ih =>
      refine property.bind (property.setFile _) fun _ => ?_
      refine property.bind (property.beginInterfaces file.statements) fun _ => ?_
      exact property.bind ih fun _ => property.pure _

theorem forInterfaces {step : PendingInterface → CheckM Unit} (each : ∀ p, holds (step p))
    (pending : List PendingInterface) : holds (forInterfaces step pending) := by
  induction pending with
  | nil => exact property.pure ()
  | cons p rest ih =>
      exact property.bind (property.setFile _) fun _ => property.bind (each p) fun _ => ih

theorem declareInterfaces (files : List SourceFile) : holds (declareInterfaces files) := by
  have constrained (p : PendingInterface) : holds (constrainInterface p) :=
    property.scopedProperty.constrainInterface (fun _ _ => trivial) _ _ _
  have completed (p : PendingInterface) : holds (completeInterface p) :=
    property.scopedProperty.completeInterface (fun _ _ => trivial) _ _ _
  refine property.bind (property.beginFiles _) fun pending => ?_
  refine property.bind (property.forInterfaces constrained pending) fun _ => ?_
  exact property.forInterfaces completed pending

theorem runDeferred (checks : List DeferredConstraint) : holds (runDeferred checks) := by
  induction checks with
  | nil => exact property.pure ()
  | cons check rest ih =>
      refine property.bind (property.setFile _) fun _ => ?_
      exact property.bind (property.reportUnsatisfied check) fun _ => ih

theorem finishDeclaring : holds finishDeclaring := by
  refine property.readWhole (fun _ => rfl) fun c => ?_
  refine property.bind property.forgetDeferred fun _ => ?_
  exact property.bind (property.runDeferred _) fun _ => property.setFile none

end FileProperty

/-- The change stays in the phase, and neither makes reports nor looks at them. -/
structure Quiet (f : Checker → Checker) : Prop where
  phase (c : Checker) : (f c).phase = c.phase
  reports (c : Checker) (diagnostics : DiagnosticCollection) (options : CheckerOptions) :
    f { c with diagnostics := diagnostics, options := options } =
      { f c with diagnostics := diagnostics, options := options }

/-- The property holds of the elementary steps of a program and survives sequencing. -/
structure ProgramProperty (holds : {α : Type} → CheckM α → Prop) : Prop where
  pure {α : Type} (a : α) : holds (pure a)
  bind {α β : Type} {m : CheckM α} {k : α → CheckM β} :
    holds m → (∀ a, holds (k a)) → holds (m >>= k)
  throw {α : Type} (cause : CheckError) : holds (throw cause : CheckM α)
  readWhole {α : Type} {k : Checker → CheckM α} :
    (∀ c, k c.unreported = k c) → (∀ c, holds (k c)) → holds (get >>= k)
  onTable {α : Type} (action : TableM α) : holds (onTable action)
  report {d : Diagnostic} : d.code ≠ Message.unresolvedTypeParameter.code → holds (report d)
  reportOpen (location : Location) (parameter : TypeId) : holds (reportOpen location parameter)
  change {f : Checker → Checker} : Quiet f → holds (modify f : CheckM PUnit)

namespace ProgramProperty

variable {holds : {α : Type} → CheckM α → Prop} (property : ProgramProperty holds)

include property

theorem setFile (file : Option String) : holds (setFile file) :=
  property.change ⟨fun _ => rfl, fun _ _ _ => rfl⟩

theorem scopeProperty : ScopeProperty (fun _ => True) holds where
  pure := property.pure
  bind := property.bind
  reading bare := property.readWhole fun c => (bare c.unreported).symm.trans (bare c)
  onTable _ := property.onTable _
  report _ other := property.report other.2
  reportOpen parameter _ := property.reportOpen _ parameter
  modifyScopes _ := property.change ⟨fun _ => rfl, fun _ _ _ => rfl⟩
  changeScopes _ := property.change ⟨fun _ => rfl, fun _ _ _ => rfl⟩
  modifyReturns _ := property.change ⟨fun _ => rfl, fun _ _ _ => rfl⟩
  bindGlobal _ _ := property.change ⟨fun _ => rfl, fun _ _ _ => rfl⟩

theorem error (location : Location) {message : Message} (arguments : List String)
    (other : message.code ≠ Message.unresolvedTypeParameter.code) :
    holds (CheckM.error location message arguments) :=
  property.report other

theorem reportUnsatisfied (check : DeferredConstraint) : holds (reportUnsatisfied check) :=
  property.scopeProperty.reportUnsatisfied check fun _ =>
    property.error _ _ (by decide)

theorem checkConstraint (parameter argument : TypeId) (bindings : Bindings)
    (location : Location) : holds (checkConstraint parameter argument bindings location) := by
  rw [checkConstraint_eq]
  refine property.readWhole (fun _ => rfl) fun c => QuietProperty.ite ?_ ?_
  · exact property.change ⟨fun _ => rfl, fun _ _ _ => rfl⟩
  · exact property.reportUnsatisfied _

theorem enterFunction (name : String) (f : DeclaredFunction) : holds (enterFunction name f) := by
  rw [enterFunction_eq]
  refine property.readWhole (fun _ => rfl) fun c => ?_
  refine property.bind (property.change ⟨fun _ => rfl, fun _ _ _ => rfl⟩) fun _ => ?_
  refine QuietProperty.ite (property.error _ _ (by decide)) ?_
  exact property.change ⟨fun _ => rfl, fun _ _ _ => rfl⟩

theorem declaringProperty : DeclaringProperty (fun _ => True) holds where
  toScopeProperty := property.scopeProperty
  changeTable := property.onTable
  declareType _ _ := property.change ⟨fun _ => rfl, fun _ _ _ => rfl⟩
  checkConstraint _ _ _ _ _ := property.checkConstraint _ _ _ _
  fail _ _ := property.throw _
  enterFunction name f _ := property.enterFunction name f
  enterHoisted _ _ := property.change ⟨fun _ => rfl, fun _ _ _ => rfl⟩

theorem runProperty : RunProperty holds where
  toTreeProperty := property.declaringProperty.treeProperty
  readWhole := property.readWhole
  changeScopes := property.scopeProperty.changeScopes
  modifyFunctions _ := property.change ⟨fun _ => rfl, fun _ _ _ => rfl⟩
  setFile := property.setFile

section Declarations

theorem fileProperty : FileProperty holds where
  toWrittenProperty := property.declaringProperty.toWrittenProperty
  readWhole := property.readWhole
  setFile := property.setFile
  reportUnsatisfied := property.reportUnsatisfied
  forgetDeferred := property.change ⟨fun _ => rfl, fun _ _ _ => rfl⟩

theorem declareFiles (files : List SourceFile) : holds (declareFiles files) := by
  induction files with
  | nil => exact property.pure ()
  | cons file rest ih =>
      refine property.bind (property.setFile _) fun _ => property.bind ?_ fun _ => ih
      exact property.declaringProperty.declareStatements _ fun _ _ => trivial

theorem declareAll : holds declareAll := by
  rw [declareAll_eq]
  refine property.readWhole (fun _ => rfl) fun c => ?_
  refine property.bind (property.fileProperty.declareInterfaces _) fun _ => ?_
  exact property.bind (property.declareFiles _) fun _ => property.fileProperty.finishDeclaring

end Declarations

end ProgramProperty

end StructuralTyping
