import StructuralTyping.Proofs.EnteredDeclarations

/-! Where a run stands when it comes to a statement. The declarations are entered in one walk
over the statements and checked in another. The cursor counts in the second walk what the
first one had entered when it was at the same statement, so it points at what was entered
for this one. -/
namespace StructuralTyping

open CheckM

/-- Behind everything that the statements declare. -/
def TopLevelCursor.behind (statements : List Statement) : TopLevelCursor :=
  ⟨(functionNodes statements).length, (writtenTypes statements).length⟩

section Cursor
variable {c c' : Checker} {next : TopLevelCursor} (earlier : List Statement)

theorem behind_append (first second : List Statement) :
    TopLevelCursor.behind (first ++ second) =
      ⟨(functionNodes first).length + (functionNodes second).length,
        (writtenTypes first).length + (writtenTypes second).length⟩ := by
  rw [TopLevelCursor.behind, functionNodes_append, writtenTypes_append, List.length_append,
    List.length_append]

/-- A statement moves the cursor behind what it declares. -/
theorem cursor_checkTopLevelStatement : ∀ statement : Statement,
    c.step (checkTopLevelStatement (.behind earlier) statement) = (.ok next, c') →
      next = .behind (earlier ++ [statement])
  | .interface _, done => by
      rw [behind_append]
      exact (Except.ok.inj (Prod.mk.inj done).1).symm
  | .variable _ _ _ _, done => by
      obtain ⟨_, _, -, done⟩ := Checker.step_bind_ok done
      obtain ⟨_, _, -, done⟩ := Checker.step_bind_ok done
      rw [behind_append]
      exact (Except.ok.inj (Prod.mk.inj done).1).symm
  | .function _ _, done
  | .expression _ _, done
  | .returning _ _, done => by
      obtain ⟨_, _, -, done⟩ := Checker.step_bind_ok done
      rw [behind_append]
      exact (Except.ok.inj (Prod.mk.inj done).1).symm

theorem cursor_checkTopLevelStatements (statements : List Statement)
    (done : c.step (checkTopLevelStatements (.behind earlier) statements) = (.ok next, c')) :
    next = .behind (earlier ++ statements) := by
  induction statements generalizing c earlier with
  | nil =>
      obtain ⟨rfl, -⟩ : _ = next ∧ _ := by simpa [checkTopLevelStatements] using done
      rw [List.append_nil]
  | cons statement rest ih =>
      obtain ⟨_, between, one, others⟩ := Checker.step_bind_ok done
      obtain rfl := cursor_checkTopLevelStatement earlier statement one
      simpa using ih (earlier ++ [statement]) others

/-- Check the files, up to what comes after them. -/
def passFiles (cursor : TopLevelCursor) : List SourceFile → CheckM TopLevelCursor
  | [] => return cursor
  | file :: rest => do
      setFile (some file.name)
      let cursor ← checkTopLevelStatements cursor file.statements
      passFiles cursor rest

theorem checkFiles_append (cursor : TopLevelCursor) (first second : List SourceFile) :
    checkFiles cursor (first ++ second) = (do
      let next ← passFiles cursor first
      checkFiles next second) := by
  induction first generalizing cursor with
  | nil => simp [passFiles]
  | cons file rest ih => simp [checkFiles, passFiles, ih]

theorem cursor_passFiles (files : List SourceFile)
    (done : c.step (passFiles (.behind earlier) files) = (.ok next, c')) :
    next = .behind (earlier ++ allStatements files) := by
  induction files generalizing c earlier with
  | nil =>
      obtain ⟨rfl, -⟩ : _ = next ∧ _ := by simpa [passFiles] using done
      simp [allStatements]
  | cons file rest ih =>
      obtain ⟨_, _, -, done⟩ := Checker.step_bind_ok done
      obtain ⟨_, between, one, others⟩ := Checker.step_bind_ok done
      obtain rfl := cursor_checkTopLevelStatements earlier file.statements one
      simpa [allStatements] using ih _ others

theorem Retaining.passFiles (cursor : TopLevelCursor) (files : List SourceFile) :
    Retaining (passFiles cursor files) := by
  induction files generalizing cursor with
  | nil => exact .pure cursor
  | cons file rest ih =>
      exact .bind (.setFile _) fun _ => .bind (.checkTopLevelStatements _ _) fun next => ih next

theorem declareFiles_append (first second : List SourceFile) :
    declareFiles (first ++ second) = (do
      declareFiles first
      declareFiles second) := by
  induction first with
  | nil => simp [declareFiles]
  | cons file rest ih => simp [declareFiles, ih]

end Cursor

section Declaring

/-- Nothing is declared before a run. -/
theorem lists_new (options : CheckerOptions) (files : List SourceFile) :
    ({ Checker.new options with files := files } : Checker).Lists [] where
  nodes := rfl
  written := rfl
  firsts := nofun
  names := nofun

/-- All the statements have been declared, in their order. -/
theorem enters_declareAll {c c' : Checker} (lists : c.Lists [])
    (done : c.step declareAll = (.ok (), c')) :
    c.DeclaresMore c' ∧ c'.Lists (allStatements c.files) := by
  rw [declareAll_eq, Checker.step_bind, Checker.step_get] at done
  have whole : Enters (allStatements c.files) (do
      declareInterfaces c.files
      declareFiles c.files
      finishDeclaring) :=
    .after (Retaining.fileProperty.declareInterfaces _) fun _ =>
      (enters_declareFiles c.files).before Retaining.fileProperty.finishDeclaring
  exact whole [] c c' lists done

end Declaring

/-- A statement of a program, and what stands around it. -/
structure Place where
  before : List SourceFile
  file : String
  earlier : List Statement
  statement : Statement
  later : List Statement
  after : List SourceFile

namespace Place

variable (p : Place)

/-- The files of the program. -/
def files : List SourceFile :=
  p.before ++ ⟨p.file, p.earlier ++ p.statement :: p.later⟩ :: p.after

/-- What a walk has been over when it comes to the statement. -/
def passed : List Statement := allStatements p.before ++ p.earlier

/-- Declare, up to the statement. -/
def declareEarlier : CheckM Unit := do
  declareInterfaces p.files
  declareFiles p.before
  setFile (some p.file)
  declareStatements p.earlier

/-- Declare, from behind the statement. -/
def declareLater : CheckM Unit := do
  declareStatements p.later
  declareFiles p.after
  finishDeclaring

/-- Check, up to the statement. -/
def checkEarlier : CheckM TopLevelCursor := do
  modify fun checker => { checker with phase := .checking }
  let cursor ← passFiles ⟨0, 0⟩ p.before
  setFile (some p.file)
  checkTopLevelStatements cursor p.earlier

/-- Check, from behind the statement. -/
def checkLater (cursor : TopLevelCursor) : CheckM Unit := do
  let cursor ← checkTopLevelStatements cursor p.later
  checkFiles cursor p.after
  modify fun checker => { checker with currentFile := none, phase := .done }

/-- Declare everything, and check up to the statement. -/
def arrive : CheckM TopLevelCursor := do
  p.declareEarlier
  declareStatements [p.statement]
  p.declareLater
  p.checkEarlier

variable {p} {c : Checker}

theorem step_declareAll (registered : c.files = p.files) :
    c.step declareAll = c.step (do
      p.declareEarlier
      declareStatements [p.statement]
      p.declareLater) := by
  have walk : declareFiles p.files = (do
      declareFiles p.before
      setFile (some p.file)
      declareStatements p.earlier
      declareStatements [p.statement]
      declareStatements p.later
      declareFiles p.after) := by
    rw [files, declareFiles_append, declareFiles, declareStatements_append,
      ← List.singleton_append, declareStatements_append [p.statement]]
    simp only [bind_assoc]
  rw [declareAll_eq, Checker.step_bind, Checker.step_get]
  dsimp only
  rw [registered, walk, declareEarlier, declareLater]
  simp only [bind_assoc]

/-- The files up to the statement, the statement, and what comes after it. -/
theorem checkFiles_files (p : Place) : checkFiles ⟨0, 0⟩ p.files = (do
    let cursor ← passFiles ⟨0, 0⟩ p.before
    setFile (some p.file)
    let cursor ← checkTopLevelStatements cursor p.earlier
    let next ← checkTopLevelStatement cursor p.statement
    let cursor ← checkTopLevelStatements next p.later
    checkFiles cursor p.after) := by
  simp only [files, checkFiles_append, checkFiles, checkTopLevelStatements_append,
    checkTopLevelStatements, bind_assoc]

theorem step_checkDeclared (registered : c.files = p.files) :
    c.step checkDeclared = c.step (do
      let cursor ← p.checkEarlier
      let next ← checkTopLevelStatement cursor p.statement
      p.checkLater next) := by
  simp only [checkDeclared, checkEarlier, checkLater, bind_assoc]
  rw [Checker.step_bind, Checker.step_bind, Checker.step_modify]
  dsimp only
  rw [Checker.step_bind, Checker.step_get]
  dsimp only
  rw [registered, checkFiles_files]
  simp only [bind_assoc]

/-- To arrive at the statement is to declare everything and to check what comes before it. -/
theorem step_arrive (registered : c.files = p.files) :
    c.step p.arrive = c.step (do declareAll; p.checkEarlier) := by
  have split : p.arrive = (do
      (do
        p.declareEarlier
        declareStatements [p.statement]
        p.declareLater)
      p.checkEarlier) := by
    simp only [arrive, bind_assoc]
  rw [split, Checker.step_bind, ← step_declareAll registered]
  exact (Checker.step_bind ..).symm

/-- A run over the files is one up to the statement, over the statement, and from there. -/
theorem step_declareAndCheck (p : Place) (options : CheckerOptions) :
    (Checker.new options).step (declareAndCheck p.files) =
      ({ Checker.new options with files := p.files } : Checker).step (do
        let cursor ← p.arrive
        let next ← checkTopLevelStatement cursor p.statement
        p.checkLater next) := by
  set start : Checker := { Checker.new options with files := p.files }
  rw [Checker.step_declareAndCheck, Checker.step_bind, Checker.step_bind _ p.arrive,
    step_arrive rfl, Checker.step_bind]
  cases done : start.step declareAll with
  | mk outcome between =>
      cases outcome with
      | error cause => rfl
      | ok =>
          obtain ⟨more, -⟩ := enters_declareAll (lists_new options p.files) done
          exact (step_checkDeclared more.files).trans (Checker.step_bind ..)

end Place

section Arrival

theorem enters_declareEarlier (p : Place) : Enters p.passed p.declareEarlier := by
  refine .after (Retaining.fileProperty.declareInterfaces _) fun _ => ?_
  refine (enters_declareFiles p.before).bind ?_
  exact .after (.setFile _) fun _ => enters_declareStatements p.earlier

theorem enters_declareLater (p : Place) :
    Enters (p.later ++ allStatements p.after) p.declareLater := by
  refine (enters_declareStatements p.later).bind ?_
  exact (enters_declareFiles p.after).before Retaining.fileProperty.finishDeclaring

/-- What the cursor points at is what has been entered for the statement, by declaring it
from the checker before. -/
def Statement.EnteredAt (before c : Checker) (cursor : TopLevelCursor) : Statement → Prop
  | .function _ node => ∃ f, c.functions[cursor.functionCount]? = some f ∧ f.node = node
  | .variable _ declaredType _ _ => ∃ declared between,
      before.step (resolveOptionalType declaredType) = (.ok declared, between) ∧
        c.variableTypes[cursor.variableCount]? = some declared
  | _ => True

theorem enteredAt_declared {before here c : Checker} {earlier later : List Statement}
    (lists : before.Lists earlier) (more : here.DeclaresMore c) : ∀ statement : Statement,
    before.step (declareStatements [statement]) = (.ok (), here) →
      c.Lists (earlier ++ statement :: later) →
        statement.EnteredAt before c ⟨before.functions.size, before.variableTypes.size⟩
  | .function _ _, _, whole => by
      rw [lists.size_functions]
      exact whole.function
  | .variable _ _ _ _, done, _ => by
      obtain ⟨_, _, declared, ⟨⟩⟩ := Checker.step_bind_ok done
      obtain ⟨type, between, resolved, pushed⟩ := declareHoisted_resolves declared
      obtain ⟨others, whole⟩ := more.variableTypes
      refine ⟨type, between, resolved, ?_⟩
      rw [← Array.getElem?_toList, ← whole, pushed]
      simp
  | .interface _, _, _ | .expression _ _, _, _ | .returning _ _, _, _ => trivial

/-- When the run comes to a statement, the cursor is where the walk over the declarations
stood when it came there, and points at what was entered then. -/
theorem Place.arrives (p : Place) (options : CheckerOptions) {cursor : TopLevelCursor}
    {c : Checker} (arrived :
      ({ Checker.new options with files := p.files } : Checker).step p.arrive = (.ok cursor, c)) :
    ∃ before, ({ Checker.new options with files := p.files } : Checker).step p.declareEarlier =
        (.ok (), before) ∧
      cursor = ⟨before.functions.size, before.variableTypes.size⟩ ∧
        p.statement.EnteredAt before c cursor := by
  obtain ⟨_, before, earlier, rest⟩ := Checker.step_bind_ok arrived
  obtain ⟨_, here, declared, rest⟩ := Checker.step_bind_ok rest
  obtain ⟨_, between, later, checked⟩ := Checker.step_bind_ok rest
  obtain ⟨-, listsBefore⟩ := enters_declareEarlier p [] _ _ (lists_new options p.files) earlier
  obtain ⟨-, listsHere⟩ := enters_declareStatements [p.statement] _ _ _ listsBefore declared
  obtain ⟨more, lists⟩ := enters_declareLater p _ _ _ listsHere later
  have checking : Retaining p.checkEarlier :=
    .bind (.change fun _ => .of_eq rfl rfl rfl rfl) fun _ => .bind (.passFiles _ _) fun _ =>
      .bind (.setFile _) fun _ => .checkTopLevelStatements _ _
  have kept := checking.keeps between
  rw [checked] at kept
  have lists : c.Lists (p.passed ++ p.statement :: (p.later ++ allStatements p.after)) := by
    simpa using lists.retained kept
  have moved : cursor = .behind p.passed := by
    obtain ⟨_, _, -, checked⟩ := Checker.step_bind_ok checked
    obtain ⟨_, _, one, checked⟩ := Checker.step_bind_ok checked
    obtain ⟨_, _, -, two⟩ := Checker.step_bind_ok checked
    obtain rfl := cursor_passFiles [] p.before one
    exact cursor_checkTopLevelStatements _ p.earlier two
  have counted : cursor = ⟨before.functions.size, before.variableTypes.size⟩ := by
    rw [moved, listsBefore.size_functions, listsBefore.written]
    rfl
  refine ⟨before, earlier, counted, ?_⟩
  rw [counted]
  exact enteredAt_declared listsBefore (more.trans kept.declaresMore) p.statement declared lists

end Arrival

end StructuralTyping
