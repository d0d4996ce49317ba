import StructuralTyping.Proofs.DeclarationOrder
import StructuralTyping.Proofs.RunProperties
import StructuralTyping.Proofs.WrittenProperties

/-! What a program comes to does not depend on how it is cut into files. Two runs over the
same statements in the same order, in whatever files, go through checkers that are the same
but for the files that they mention. -/
namespace StructuralTyping

open CheckM

def PendingInterface.unplaced (p : PendingInterface) : PendingInterface := { p with file := none }

theorem DeclaredFunction.exists_of_unplaced {f f' : DeclaredFunction}
    (same : f.unplaced = f'.unplaced) : ∃ file, f' = { f with file := file } := by
  obtain ⟨node, _, ids, parameters, declared, type, body⟩ := f
  obtain ⟨node', file, ids', parameters', declared', type', body'⟩ := f'
  obtain ⟨rfl, -, rfl, rfl, rfl, rfl, rfl⟩ := DeclaredFunction.mk.inj same
  exact ⟨file, rfl⟩

/-- Both outcomes are values that are related, or both abort in the same way. -/
inductive Agree {α β : Type} (rel : α → β → Prop) :
    Except CheckError α → Except CheckError β → Prop where
  | ok {a : α} {b : β} (related : rel a b) : Agree rel (.ok a) (.ok b)
  | error (cause : CheckError) : Agree rel (.error cause) (.error cause)

theorem Agree.eq {α : Type} {one two : Except CheckError α} (agree : Agree Eq one two) :
    one = two := by
  cases agree with
  | ok related => rw [related]
  | error cause => rfl

/-- The checkers of the two programs are the same but for the files they mention. -/
structure Checker.Twins (files files' : List SourceFile) (c c' : Checker) : Prop where
  same : c.unplaced = c'.unplaced
  left : c.files = files
  right : c'.files = files'

/-- Twins have in common what does not tell files apart. -/
theorem Checker.Twins.part {files files' : List SourceFile} {c c' : Checker} {α : Type}
    (twins : c.Twins files files' c') (part : Checker → α)
    (reads : ∀ c, part c.unplaced = part c) : part c = part c' := by
  rw [← reads c, twins.same, reads c']

/-- From twins, the two steps lead to twins, with related values. -/
def Alike (files files' : List SourceFile) {α β : Type} (rel : α → β → Prop) (m : CheckM α)
    (m' : CheckM β) : Prop :=
  ∀ c c' : Checker, c.Twins files files' c' →
    Agree rel (c.step m).1 (c'.step m').1 ∧ (c.step m).2.Twins files files' (c'.step m').2

/-- The step does not tell files apart. -/
def Blind (files files' : List SourceFile) {α : Type} (m : CheckM α) : Prop :=
  Alike files files' Eq m m

section Sequences
variable {files files' : List SourceFile} {α β α' β' : Type}

namespace Alike

theorem pure {rel : α → β → Prop} {a : α} {b : β} (related : rel a b) :
    Alike files files' rel (pure a) (pure b) := fun _ _ twins => ⟨.ok related, twins⟩

theorem throw {rel : α → β → Prop} (cause : CheckError) :
    Alike files files' rel (throw cause) (throw cause) := fun _ _ twins => ⟨.error cause, twins⟩

theorem bind {rel : α → β → Prop} {rel' : α' → β' → Prop} {m : CheckM α} {m' : CheckM β}
    {k : α → CheckM α'} {k' : β → CheckM β'} (first : Alike files files' rel m m')
    (next : ∀ a b, rel a b → Alike files files' rel' (k a) (k' b)) :
    Alike files files' rel' (m >>= k) (m' >>= k') := by
  intro c c' twins
  obtain ⟨outcome, reached⟩ := first c c' twins
  rw [Checker.step_bind, Checker.step_bind]
  generalize c.step m = ended at outcome reached
  generalize c'.step m' = ended' at outcome reached
  obtain ⟨_, between⟩ := ended
  obtain ⟨_, between'⟩ := ended'
  cases outcome with
  | ok related => exact next _ _ related between between' reached
  | error cause => exact ⟨.error cause, reached⟩

theorem after {rel : α' → β' → Prop} {m m' : CheckM α} {k : α → CheckM α'} {k' : α → CheckM β'}
    (first : Alike files files' Eq m m') (next : ∀ a, Alike files files' rel (k a) (k' a)) :
    Alike files files' rel (m >>= k) (m' >>= k') :=
  first.bind fun a _ same => same ▸ next a

theorem get_bind {rel : α → β → Prop} {k : Checker → CheckM α} {k' : Checker → CheckM β}
    (next : ∀ c c' : Checker, c.Twins files files' c' → Alike files files' rel (k c) (k' c')) :
    Alike files files' rel (get >>= k) (get >>= k') := fun c c' twins => by
  rw [Checker.step_bind, Checker.step_bind]
  exact next c c' twins c c' twins

/-- What is set is made of twins in the same way. -/
theorem set {c c' : Checker} (twins : c.Twins files files' c') (change after : Checker → Checker)
    (commutes : ∀ c, (change c).unplaced = after c.unplaced)
    (keeps : ∀ c, (change c).files = c.files) :
    Alike files files' Eq (set (change c) : CheckM PUnit) (set (change c')) := by
  intro _ _ _
  refine ⟨.ok rfl, ?_, (keeps c).trans twins.left, (keeps c').trans twins.right⟩
  rw [Checker.step_set, Checker.step_set, commutes, commutes, twins.same]

/-- To turn to a file first makes no difference. -/
theorem turn_left {rel : α → β → Prop} {file : Option String} {k : PUnit → CheckM α}
    {m : CheckM β} (alike : Alike files files' rel (k ⟨⟩) m) :
    Alike files files' rel (setFile file >>= k) m := by
  intro c c' twins
  exact alike { c with currentFile := file } c' ⟨twins.same, twins.left, twins.right⟩

theorem turn_right {rel : α → β → Prop} {file : Option String} {m : CheckM α}
    {k : PUnit → CheckM β} (alike : Alike files files' rel m (k ⟨⟩)) :
    Alike files files' rel m (setFile file >>= k) := by
  intro c c' twins
  exact alike c { c' with currentFile := file } ⟨twins.same, twins.left, twins.right⟩

end Alike

/-- A step that reads and changes what is left of a checker without its files. -/
theorem Blind.of_step {m : CheckM α} {value : Checker → α} {change : Checker → Checker}
    (after : Checker → Checker) (ran : ∀ c, c.step m = (.ok (value c), change c))
    (reads : ∀ c, value c.unplaced = value c)
    (commutes : ∀ c, (change c).unplaced = after c.unplaced)
    (keeps : ∀ c, (change c).files = c.files) : Blind files files' m := by
  rintro c c' ⟨same, left, right⟩
  rw [ran, ran]
  refine ⟨?_, ?_, (keeps c).trans left, (keeps c').trans right⟩
  · exact .ok (Checker.Twins.part ⟨same, left, right⟩ value reads)
  · rw [commutes, commutes, same]

end Sequences

section Blindness
variable {files files' : List SourceFile}

theorem blind_report (d : Diagnostic) : Blind files files' (report d) := by
  refine .of_step (fun c => { c with diagnostics := c.diagnostics.add d.unplaced })
    (Checker.step_report · d) (fun _ => rfl) (fun c => ?_) fun _ => rfl
  simp [Checker.unplaced, DiagnosticCollection.add, Diagnostic.unplaced_inFile]

theorem blind_onTable {α : Type} (action : TableM α) : Blind files files' (onTable action) :=
  .of_step (fun c => { c with table := (action.run c.table).2 }) (Checker.step_onTable · action)
    (fun _ => rfl) (fun _ => rfl) fun _ => rfl

/-- A change that neither reads nor changes what mentions files. -/
theorem blind_modify {f : Checker → Checker} (commutes : ∀ c, (f c).unplaced = f c.unplaced)
    (keeps : ∀ c, (f c).files = c.files) : Blind files files' (modify f : CheckM PUnit) :=
  .of_step f (fun _ => rfl) (fun _ => rfl) commutes keeps

/-- What is read does not tell files apart. -/
theorem blind_reading {α : Type} {k : Checker → CheckM α} (unplaced : ∀ c, k c.unplaced = k c)
    (next : ∀ c, Blind files files' (k c)) : Blind files files' (get >>= k) := by
  refine .get_bind fun c c' twins => ?_
  rw [twins.part _ unplaced]
  exact next c'

theorem scopeProperty_blind : ScopeProperty (fun _ => True) (Blind files files') where
  pure _ := .pure rfl
  bind := .after
  reading bare next := blind_reading (fun c => by rw [← bare, Checker.bare_unplaced, bare]) next
  onTable _ := blind_onTable _
  report _ _ := blind_report _
  reportOpen parameter here :=
    reportOpen_of (fun _ => True) blind_reading (fun _ _ => blind_report _) (.pure rfl) here
      parameter
  modifyScopes _ := blind_modify (fun _ => rfl) fun _ => rfl
  changeScopes _ := blind_modify (fun _ => rfl) fun _ => rfl
  modifyReturns _ := blind_modify (fun _ => rfl) fun _ => rfl
  bindGlobal _ _ := blind_modify (fun _ => rfl) fun _ => rfl

/-- Where a check that has to wait was met does not matter to what it finds. -/
theorem blind_reportUnsatisfied (check : DeferredConstraint) :
    Blind files files' (reportUnsatisfied check) :=
  scopeProperty_blind.reportUnsatisfied check fun _ => blind_report _

theorem blind_checkConstraint (parameter argument : TypeId) (bindings : Bindings)
    (location : Location) :
    Blind files files' (checkConstraint parameter argument bindings location) := by
  refine .get_bind fun c c' twins => ?_
  have phase := twins.part Checker.phase fun _ => rfl
  by_cases declaring : c.phase = .declaring
  · rw [if_pos declaring, if_pos (phase ▸ declaring)]
    refine .set twins
      (fun c => { c with
        deferred := c.deferred ++ [⟨parameter, argument, bindings, location, c.currentFile⟩] })
      (fun c => { c with
        deferred := c.deferred ++ [⟨parameter, argument, bindings, location, none⟩] })
      ?_ fun _ => rfl
    intro c
    simp [Checker.unplaced, DeferredConstraint.unplaced]
  · rw [if_neg declaring, if_neg (phase ▸ declaring)]
    exact blind_reportUnsatisfied ⟨parameter, argument, bindings, location, none⟩

theorem blind_enterFunction (name : String) (f : DeclaredFunction) :
    Blind files files' (enterFunction name f) := by
  refine .get_bind fun c c' twins => ?_
  have globals := twins.part Checker.globals fun _ => rfl
  have size := twins.part (fun c => c.functions.size) Checker.size_functions_unplaced
  refine .after (.set twins
    (fun c => { c with functions := c.functions.push { f with file := c.currentFile } })
    (fun c => { c with functions := c.functions.push f.unplaced }) ?_ fun _ => rfl) fun _ => ?_
  · intro c
    simp [Checker.unplaced, DeclaredFunction.unplaced]
  · rw [globals, size]
    split
    · exact blind_report _
    · exact blind_modify (fun _ => rfl) fun _ => rfl

theorem declaringProperty_blind : DeclaringProperty (fun _ => True) (Blind files files') where
  toScopeProperty := scopeProperty_blind
  changeTable action := blind_onTable action
  declareType _ _ := blind_modify (fun _ => rfl) fun _ => rfl
  checkConstraint parameter argument bindings location _ :=
    blind_checkConstraint parameter argument bindings location
  fail _ _ := .throw _
  enterFunction name f _ := blind_enterFunction name f
  enterHoisted _ _ := blind_modify (fun _ => rfl) fun _ => rfl

theorem blind_updateFunction (index : Nat) {change : DeclaredFunction → DeclaredFunction}
    (commutes : ∀ f, (change f).unplaced = change f.unplaced) :
    Blind files files' (updateFunction index change) := by
  refine blind_modify (fun c => ?_) fun _ => rfl
  have functions : (c.functions.modify index change).map DeclaredFunction.unplaced =
      (c.functions.map DeclaredFunction.unplaced).modify index change := by
    apply Array.ext_getElem?
    intro i
    by_cases same : index = i <;> cases found : c.functions[i]? <;>
      simp [Array.getElem?_modify, same, found, commutes]
  exact congrArg (fun functions => { c.unplaced with functions }) functions

theorem blind_checkOpened {types : FunctionTypes}
    (known : ∀ index, Blind files files' (types index)) (f : DeclaredFunction) :
    Blind files files' (checkOpened types f) :=
  declaringProperty_blind.treeProperty.checkOpened known f fun _ _ => trivial

/-- A function is turned to in its file, whichever that is. -/
theorem alike_enterBody (scopes : List Scope) (returns : List ReturnContext)
    (file file' : Option String) :
    Alike files files' Eq (enterBody scopes returns file) (enterBody scopes returns file') :=
  fun _ _ twins => ⟨.ok rfl,
    congrArg (fun c => { c with scopes := scopes, returns := returns }) twins.same,
    twins.left, twins.right⟩

theorem blind_checkFunctionBody {types : FunctionTypes}
    (known : ∀ index, Blind files files' (types index)) (index : Nat) :
    Blind files files' (checkFunctionBody types index) := by
  rw [checkFunctionBody_eq]
  refine .get_bind fun c c' twins => ?_
  have found := congrArg (fun c => c.functions[index]?) twins.same
  rw [Checker.getElem?_functions_unplaced, Checker.getElem?_functions_unplaced] at found
  match c.functions[index]?, c'.functions[index]?, found with
  | none, none, _ => exact .pure rfl
  | some f, some f', found =>
      obtain ⟨file, rfl⟩ := DeclaredFunction.exists_of_unplaced (Option.some.inj found)
      have scopes := twins.part Checker.scopes fun _ => rfl
      have returns := twins.part Checker.returns fun _ => rfl
      dsimp only
      split
      · exact .pure rfl
      refine .after (blind_updateFunction index fun _ => rfl) fun _ => ?_
      refine .after ?_ fun type => blind_updateFunction index fun _ => rfl
      rw [checkEntered_eq, checkEntered_eq, ← scopes, ← returns]
      refine .after (alike_enterBody _ _ _ _) fun _ => ?_
      refine .after (blind_checkOpened known f) fun result => ?_
      refine .after (alike_enterBody _ _ _ _) fun _ => ?_
      rw [finishBody, finishBody]
      cases f.type with
      | some id => exact .pure rfl
      | none => exact declaringProperty_blind.addEntry _

/-- All places are one, since files are not told apart. -/
theorem bodyProperty_blind : BodyProperty (fun (_ : Unit) _ => True)
    (fun _ => Blind files files') fun _ => Blind files files' where
  tree _ := declaringProperty_blind.treeProperty.block
  checkFunctionBody known _ := blind_checkFunctionBody (known ())

theorem blind_functionType (index : Nat) : Blind files files' (functionType index) :=
  bodyProperty_blind.functionType () index

end Blindness

section Joining

theorem beginInterfaces_append (first second : List Statement) :
    beginInterfaces (first ++ second) = (do
      let pending ← beginInterfaces first
      let others ← beginInterfaces second
      return pending ++ others) := by
  induction first with
  | nil => simp [beginInterfaces]
  | cons statement rest ih =>
      cases statement <;>
        simp only [List.cons_append, beginInterfaces, ih, bind_assoc, pure_bind, List.append_assoc]

section Parts
variable {files files' : List SourceFile} (rest : List SourceFile)

/-- The same interfaces, whatever files they are in. -/
def SameInterfaces (pending pending' : List PendingInterface) : Prop :=
  pending.map PendingInterface.unplaced = pending'.map PendingInterface.unplaced

theorem SameInterfaces.append {first first' second second' : List PendingInterface}
    (one : SameInterfaces first first') (two : SameInterfaces second second') :
    SameInterfaces (first ++ second) (first' ++ second') := by
  rw [SameInterfaces, List.map_append, List.map_append, one, two]

theorem alike_beginInterfaces :
    ∀ statements : List Statement,
      Alike files files' SameInterfaces (beginInterfaces statements) (beginInterfaces statements)
  | [] => .pure rfl
  | .interface declaration :: rest => by
      have reserved : Blind files files' (reserveInterface declaration) :=
        declaringProperty_blind.reserveInterface fun _ _ => trivial
      rw [beginInterfaces, beginInterface_eq, bind_assoc]
      refine .get_bind fun c c' _ => ?_
      rw [bind_assoc, bind_assoc]
      refine .after reserved fun entered => ?_
      rw [pure_bind, pure_bind]
      refine (alike_beginInterfaces rest).bind fun pending pending' same => .pure ?_
      exact SameInterfaces.append (by cases entered <;> rfl) same
  | .function _ _ :: rest
  | .variable _ _ _ _ :: rest
  | .expression _ _ :: rest
  | .returning _ _ :: rest => alike_beginInterfaces rest

theorem alike_beginFiles : Alike files files' SameInterfaces (beginFiles rest)
    (beginInterfaces (allStatements rest)) := by
  induction rest with
  | nil => exact .pure rfl
  | cons file rest ih =>
      have split : allStatements (file :: rest) = file.statements ++ allStatements rest := rfl
      rw [split, beginInterfaces_append]
      refine .turn_left ((alike_beginInterfaces file.statements).bind fun _ _ ours => ?_)
      exact ih.bind fun _ _ theirs => .pure (ours.append theirs)

theorem alike_forInterfaces {step : PendingInterface → CheckM Unit}
    (blind : ∀ p, Blind files files' (step p)) (same : ∀ p, step p.unplaced = step p)
    {pending pending' : List PendingInterface} (paired : SameInterfaces pending pending') :
    Alike files files' Eq (forInterfaces step pending) (forInterfaces step pending') := by
  induction pending generalizing pending' with
  | nil =>
      obtain rfl := List.map_eq_nil_iff.mp paired.symm
      exact .pure rfl
  | cons p rest ih =>
      obtain ⟨p', rest', rfl, first, others⟩ := List.map_eq_cons_iff.mp paired.symm
      refine .turn_left (.turn_right ?_)
      rw [← same p, ← first, same p']
      exact .after (blind p') fun _ => ih others.symm

theorem alike_declareFiles :
    Alike files files' Eq (declareFiles rest) (declareStatements (allStatements rest)) := by
  induction rest with
  | nil => exact .pure rfl
  | cons file rest ih =>
      have split : allStatements (file :: rest) = file.statements ++ allStatements rest := rfl
      rw [split, declareStatements_append]
      refine .turn_left (.after ?_ fun _ => ih)
      exact declaringProperty_blind.declareStatements _ fun _ _ => trivial

theorem alike_runDeferred {checks checks' : List DeferredConstraint}
    (same : checks.map DeferredConstraint.unplaced = checks'.map DeferredConstraint.unplaced) :
    Alike files files' Eq (runDeferred checks) (runDeferred checks') := by
  induction checks generalizing checks' with
  | nil =>
      obtain rfl := List.map_eq_nil_iff.mp same.symm
      exact .pure rfl
  | cons check rest ih =>
      obtain ⟨check', rest', rfl, first, others⟩ := List.map_eq_cons_iff.mp same.symm
      have one : reportUnsatisfied check = reportUnsatisfied check' :=
        (congrArg reportUnsatisfied first).symm
      refine .turn_left (.turn_right ?_)
      rw [one]
      exact .after (blind_reportUnsatisfied check') fun _ => ih others.symm

theorem alike_checkFiles (cursor : TopLevelCursor) :
    Alike files files' Eq (checkFiles cursor rest) (do
      let _ ← checkTopLevelStatements cursor (allStatements rest)
      return ()) := by
  induction rest generalizing cursor with
  | nil => exact .pure rfl
  | cons file rest ih =>
      have split : allStatements (file :: rest) = file.statements ++ allStatements rest := rfl
      rw [split, checkTopLevelStatements_append, bind_assoc]
      refine .turn_left (.after ?_ fun next => ih next)
      exact bodyProperty_blind.checkTopLevelStatements () cursor file.statements fun _ _ => trivial

end Parts

/-- The program in one file. -/
def joined (name : String) (files : List SourceFile) : SourceFile := ⟨name, allStatements files⟩

variable (name : String) (files : List SourceFile)

theorem alike_declareAll : Alike files [joined name files] Eq declareAll declareAll := by
  have begun : beginFiles [joined name files] = (do
      setFile (some name)
      beginInterfaces (allStatements files)) := by
    simp [beginFiles, joined]
  have declared : declareFiles [joined name files] = (do
      setFile (some name)
      declareStatements (allStatements files)) := by
    simp [declareFiles, joined]
  have constrained (p : PendingInterface) :
      Blind files [joined name files] (constrainInterface p) :=
    declaringProperty_blind.scopedProperty.constrainInterface (fun _ _ => trivial) _ _ _
  have completed (p : PendingInterface) : Blind files [joined name files] (completeInterface p) :=
    declaringProperty_blind.scopedProperty.completeInterface (fun _ _ => trivial) _ _ _
  refine .get_bind fun c c' twins => ?_
  dsimp only
  rw [twins.left, twins.right, begun, declared]
  refine (Alike.turn_right (alike_beginFiles files)).bind fun pending pending' paired => ?_
  refine .after (alike_forInterfaces constrained (fun _ => rfl) paired) fun _ => ?_
  refine .after (alike_forInterfaces completed (fun _ => rfl) paired) fun _ => ?_
  refine .after (.turn_right (alike_declareFiles files)) fun _ => .get_bind fun d d' waiting => ?_
  refine .after (blind_modify (fun _ => rfl) fun _ => rfl) fun _ => ?_
  refine .after (alike_runDeferred (congrArg Checker.deferred waiting.same)) fun _ => ?_
  exact blind_modify (fun _ => rfl) fun _ => rfl

theorem alike_checkDeclared : Alike files [joined name files] Eq checkDeclared checkDeclared := by
  have checked : checkFiles ⟨0, 0⟩ [joined name files] = (do
      setFile (some name)
      let _ ← checkTopLevelStatements ⟨0, 0⟩ (allStatements files)
      return ()) := by
    simp [checkFiles, joined]
  refine .after (blind_modify (fun _ => rfl) fun _ => rfl) fun _ => ?_
  refine .get_bind fun c c' twins => ?_
  rw [twins.left, twins.right, checked]
  refine .after (.turn_right (alike_checkFiles files _)) fun _ => ?_
  exact blind_modify (fun _ => rfl) fun _ => rfl

/-- The text of the type of a global. To find it out may take the check of a body, which
may abort. -/
def Checker.globalText (c : Checker) (name : String) : Except CheckError (Option String) :=
  (c.step do
    match ← globalType name with
    | none => return none
    | some id => return some (← display id)).1

theorem blind_globalType {files files' : List SourceFile} (global : String) :
    Blind files files' (globalType global) := by
  refine scopeProperty_blind.reading (fun _ => rfl) fun c => ?_
  split
  · exact .pure rfl
  · exact .pure rfl
  · exact .after (blind_functionType _) fun _ => .pure rfl

theorem Checker.Twins.globalText {files files' : List SourceFile} {c c' : Checker}
    (twins : c.Twins files files' c') (global : String) :
    c.globalText global = c'.globalText global := by
  refine Agree.eq (Alike.after (blind_globalType global) (fun found => ?_) c c' twins).1
  cases found with
  | none => exact .pure rfl
  | some id => exact .after (scopeProperty_blind.display id) fun _ => .pure rfl

/-- Whether a program is one file or many makes no difference: the run ends or aborts in the
same way, with the same diagnostics but for their files, and leaves every name with a type
that is shown in the same way. -/
theorem declareAndCheck_joined (options : CheckerOptions) :
    let apart := (Checker.new options).step (declareAndCheck files)
    let whole := (Checker.new options).step (declareAndCheck [joined name files])
    apart.1 = whole.1 ∧
      apart.2.diagnostics.toList.map Diagnostic.unplaced =
        whole.2.diagnostics.toList.map Diagnostic.unplaced ∧
      (∀ global, apart.2.globalText global = whole.2.globalText global) ∧
      ∀ declared, apart.2.declaredText? declared = whole.2.declaredText? declared := by
  intro apart whole
  have twins : Checker.Twins files [joined name files] { Checker.new options with files := files }
      { Checker.new options with files := [joined name files] } := ⟨rfl, rfl, rfl⟩
  obtain ⟨outcome, ends⟩ := (alike_declareAll name files).after
    (fun _ => alike_checkDeclared name files) _ _ twins
  rw [← Checker.step_declareAndCheck, ← Checker.step_declareAndCheck] at outcome ends
  refine ⟨outcome.eq, ?_, ends.globalText, fun declared => ?_⟩
  · exact congrArg (fun c => c.diagnostics.toList) ends.same
  · exact ends.part (fun c => c.declaredText? declared) fun _ => rfl

end Joining

end StructuralTyping
