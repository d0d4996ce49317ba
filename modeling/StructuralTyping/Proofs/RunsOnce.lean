import StructuralTyping.Proofs.ProgramProperties
import StructuralTyping.Tree.Build

/-! Calls on one checker. Nothing but the run itself moves a checker from one phase to the
next. A run whose declarations are entered is over for good, however it ends: from then on
every call is refused and changes nothing. A run that aborts before that leaves the checker
declaring, and the next one starts from what the aborted one left behind. -/
namespace StructuralTyping

open CheckM

section Phases

/-- The step stays in the phase. -/
def KeepsPhase {α : Type} (m : CheckM α) : Prop := ∀ c : Checker, (c.step m).2.phase = c.phase

theorem KeepsPhase.bind {α β : Type} {m : CheckM α} {k : α → CheckM β} (one : KeepsPhase m)
    (two : ∀ a, KeepsPhase (k a)) : KeepsPhase (m >>= k) := by
  intro c
  have first := one c
  rw [Checker.step_bind]
  match ran : c.step m, first with
  | (.ok a, between), first => exact (two a between).trans first
  | (.error cause, between), first => exact first

theorem KeepsPhase.get_bind {α : Type} {k : Checker → CheckM α} (next : ∀ c, KeepsPhase (k c)) :
    KeepsPhase (get >>= k) := .bind (fun _ => rfl) next

theorem programProperty_keepsPhase : ProgramProperty KeepsPhase where
  pure _ _ := rfl
  bind := .bind
  throw _ _ := rfl
  readWhole _ next := .get_bind next
  onTable _ _ := rfl
  report _ _ := rfl
  reportOpen _ parameter :=
    reportOpen_of (fun _ => True) (fun _ next => .get_bind next) (fun _ _ _ => rfl)
      (fun _ => rfl) trivial parameter
  change quiet c := quiet.phase c

end Phases

/-- What can be asked of a checker. -/
inductive CheckerCall where
  | declareSourceFile (file : SourceFile)
  | checkDeclarations
  | checkSourceFile (file : SourceFile)

namespace CheckerCall

def action : CheckerCall → CheckM Unit
  | declareSourceFile file => StructuralTyping.declareSourceFile file
  | checkDeclarations => StructuralTyping.checkDeclarations
  | checkSourceFile file => StructuralTyping.checkSourceFile file

/-- The files that a call adds to those of the checker. -/
def files : CheckerCall → List SourceFile
  | declareSourceFile file => [file]
  | checkDeclarations => []
  | checkSourceFile file => [file]

def isCheck : CheckerCall → Bool
  | declareSourceFile _ => false
  | checkDeclarations => true
  | checkSourceFile _ => true

/-- What a call is answered when it comes too late. -/
def refusal (phase : Phase) : CheckerCall → CheckError
  | declareSourceFile file => .declarationAfterDeclaring file.name
  | checkDeclarations => .alreadyChecked
  | checkSourceFile file =>
      if phase = .done then .alreadyChecked else .declarationAfterDeclaring file.name

/-- The checker with the files of a call. -/
def register (call : CheckerCall) (c : Checker) : Checker :=
  { c with files := c.files ++ call.files }

/-- The call begins a run. -/
structure Begins (call : CheckerCall) (c : Checker) : Prop where
  isCheck : call.isCheck = true
  declaring : c.phase = .declaring

/-- The call begins a run and all declarations are entered. -/
structure Runs (call : CheckerCall) (c : Checker) : Prop extends call.Begins c where
  declared : ((call.register c).step declareAll).1 = .ok ()

end CheckerCall

namespace Checker

/-- The checker after a sequence of calls, whatever each of them was answered. -/
def after (c : Checker) (calls : List CheckerCall) : Checker :=
  calls.foldl (fun c call => (c.step call.action).2) c

variable {c : Checker} {call : CheckerCall}

theorem step_declareSourceFile (declaring : c.phase = .declaring) (file : SourceFile) :
    c.step (declareSourceFile file) = (.ok (), { c with files := c.files ++ [file] }) := by
  rw [declareSourceFile, step_bind, step_get]
  dsimp only
  rw [if_neg (not_not.mpr declaring), step_modify]

theorem step_begins (begins : call.Begins c) :
    c.step call.action = (call.register c).step (do declareAll; checkDeclared) := by
  obtain ⟨isCheck, declaring⟩ := begins
  cases call with
  | declareSourceFile file => exact absurd isCheck Bool.false_ne_true
  | checkDeclarations =>
      have same : CheckerCall.checkDeclarations.register c = c := by
        simp [CheckerCall.register, CheckerCall.files]
      rw [same]
      exact step_checkDeclarations declaring
  | checkSourceFile file =>
      have early : ¬c.phase = .done := by simp [declaring]
      rw [CheckerCall.action, checkSourceFile, step_bind, step_get]
      dsimp only
      rw [if_neg early, step_bind, step_declareSourceFile declaring]
      exact step_checkDeclarations declaring

theorem step_refused (past : c.phase ≠ .declaring) (call : CheckerCall) :
    c.step call.action = (.error (call.refusal c.phase), c) := by
  have late (file : SourceFile) : c.step (declareSourceFile file) =
      (.error (.declarationAfterDeclaring file.name), c) := by
    rw [declareSourceFile, step_bind, step_get]
    dsimp only
    rw [if_pos past, step_throw]
  cases call with
  | declareSourceFile file => exact late file
  | checkDeclarations =>
      rw [CheckerCall.action, checkDeclarations, step_bind, step_get]
      dsimp only
      rw [if_pos past, step_throw, CheckerCall.refusal]
  | checkSourceFile file =>
      rw [CheckerCall.action, checkSourceFile, step_bind, step_get, CheckerCall.refusal]
      dsimp only
      split
      · rw [step_throw]
      · rw [step_bind, late]

theorem after_refused (past : c.phase ≠ .declaring) (calls : List CheckerCall) :
    c.after calls = c := by
  induction calls with
  | nil => rfl
  | cons call rest ih =>
      have same : (c.step call.action).2 = c := by rw [step_refused past]
      rw [after, List.foldl_cons, same]
      exact ih

/-- The end of a run is the last thing to happen in it. -/
theorem phase_checkDeclared (c : Checker) :
    ((c.step checkDeclared).1 = .ok () ∧ (c.step checkDeclared).2.phase = .done) ∨
      ∃ cause, (c.step checkDeclared).1 = .error cause ∧
        (c.step checkDeclared).2.phase = .checking := by
  rw [checkDeclared, step_bind, step_modify]
  dsimp only
  rw [step_bind, step_get]
  dsimp only
  have kept := programProperty_keepsPhase.runProperty.checkFiles ⟨0, 0⟩ c.files { c with phase := .checking }
  rw [step_bind]
  match ran : ({ c with phase := .checking } : Checker).step (checkFiles ⟨0, 0⟩ c.files), kept with
  | (.ok (), between), _ => exact .inl ⟨rfl, rfl⟩
  | (.error cause, between), kept => exact .inr ⟨cause, rfl, kept⟩

/-- A run gets past declaring if the declarations are entered, and is done if it ends. -/
theorem phase_runs (runs : call.Runs c) :
    ((c.step call.action).1 = .ok () ∧ (c.step call.action).2.phase = .done) ∨
      ∃ cause, (c.step call.action).1 = .error cause ∧
        (c.step call.action).2.phase = .checking := by
  have declared := runs.declared
  rw [step_begins runs.toBegins, step_bind]
  generalize (call.register c).step declareAll = entered at declared
  obtain ⟨_, between⟩ := entered
  obtain rfl : _ = Except.ok () := declared
  exact phase_checkDeclared between

/-- A run that aborts while declaring leaves the checker as if there had been none. -/
theorem phase_aborted (begins : call.Begins c) {cause : CheckError}
    (aborted : ((call.register c).step declareAll).1 = .error cause) :
    (c.step call.action).1 = .error cause ∧ (c.step call.action).2.phase = .declaring := by
  have kept := programProperty_keepsPhase.declareAll (call.register c)
  rw [step_begins begins, step_bind]
  generalize (call.register c).step declareAll = entered at aborted kept
  obtain ⟨_, between⟩ := entered
  obtain rfl : _ = Except.error cause := aborted
  exact ⟨rfl, kept.trans begins.declaring⟩

end Checker

/-- A checker runs once, if the declarations of the run are entered: whatever was asked
before, and whether the run ends well or aborts later, all that is asked from then on is
refused and leaves the checker as the run left it. -/
theorem checker_runs_once (options : CheckerOptions) (earlier later : List CheckerCall)
    (call next : CheckerCall) (runs : call.Runs ((Checker.new options).after earlier)) :
    let final := (((Checker.new options).after earlier).step call.action).2
    (Checker.new options).after (earlier ++ call :: later) = final ∧
      final.step next.action = (.error (next.refusal final.phase), final) ∧ ¬next.Begins final := by
  intro final
  have past : final.phase ≠ .declaring := by
    rcases Checker.phase_runs runs with ⟨-, done⟩ | ⟨_, -, checking⟩
    · exact fun declaring => nomatch done.symm.trans declaring
    · exact fun declaring => nomatch checking.symm.trans declaring
  refine ⟨?_, Checker.step_refused past next, fun begins => past begins.declaring⟩
  rw [Checker.after, List.foldl_append, List.foldl_cons]
  exact Checker.after_refused past later

/-- A function whose body declares a member twice, which aborts the check of the body. -/
def brokenBody : SourceFile :=
  ⟨"a.ts", [.ofFunction "f" [] [] none [.ofInterface "A" []
    [.required "x" (.ofKeyword .number), .required "x" (.ofKeyword .string)]]]⟩

theorem brokenBody_refused :
    let final := (Checker.new .default).after [.checkSourceFile brokenBody]
    (Checker.new .default).after [.checkSourceFile brokenBody, .declareSourceFile brokenBody] =
        final ∧
      final.step checkDeclarations = (.error .alreadyChecked, final) := by
  have runs : (CheckerCall.checkSourceFile brokenBody).Runs ((Checker.new .default).after []) :=
    ⟨⟨rfl, rfl⟩, by decide +kernel⟩
  obtain ⟨same, refused, -⟩ :=
    checker_runs_once .default [] [.declareSourceFile brokenBody] _ .checkDeclarations runs
  exact ⟨same, refused⟩

/-- An interface that declares a member twice, and a type parameter of its own name. -/
def brokenInterface : SourceFile :=
  ⟨"a.ts", [.ofInterface "A" [.free "A"]
    [.required "x" (.ofKeyword .number), .required "x" (.ofKeyword .string)]]⟩

/-- A run that aborts while declaring does not count: the second run takes the scope that
the first one left open for a block in which the interface is a duplicate, and ends well. -/
theorem brokenInterface_runsAgain :
    let first := (Checker.new .default).step (checkSourceFile brokenInterface)
    let second := first.2.step checkDeclarations
    first.1 = .error (.construction (.duplicateProperty "x") .unknown) ∧
      second.1 = .ok () ∧
      first.2.diagnostics.toList.map Diagnostic.code = [] ∧
      second.2.diagnostics.toList.map Diagnostic.code = [2300] := by
  decide +kernel

end StructuralTyping
