import StructuralTyping.Proofs.RunProperties
import StructuralTyping.Proofs.WrittenFindings
import StructuralTyping.Proofs.WrittenProperties
import StructuralTyping.Tree.Build

/-! Where diagnostics stand. While code of a file is looked at, that file is the current
one, and all that is reported is about nodes of it. The bodies of functions and the checks
of constraints that have to wait are kept with their files, so they are in the right file
whenever their turn comes. -/
namespace StructuralTyping

open CheckM

/-- The diagnostic is about a node of the file, and it and all its causes carry the name
of the file. -/
structure Diagnostic.StandsIn (file : SourceFile) (d : Diagnostic) : Prop where
  named : d.file = some file.name
  located : ∃ location ∈ file.locations, d.location = some location
  causes : ∀ cause ∈ d.related, cause.file = some file.name ∧ cause.related = []

theorem Diagnostic.Near.standsIn {d : Diagnostic} {file : SourceFile}
    (near : d.Near (· ∈ file.locations)) (named : file.name ≠ "") :
    (d.inFile (some file.name)).StandsIn file := by
  obtain ⟨⟨location, here, inside⟩, flat⟩ := near
  have shown : d.inFile (some file.name) = d.withFile file.name := by simp [inFile, named]
  rw [shown]
  refine ⟨rfl, ⟨location, inside, here⟩, fun cause member => ?_⟩
  obtain ⟨original, listed, rfl⟩ := List.mem_map.mp member
  exact ⟨rfl, flat original listed⟩

def DeclaredFunction.StandsIn (file : SourceFile) (f : DeclaredFunction) : Prop :=
  f.file = some file.name ∧ ∀ location ∈ f.node.locations, location ∈ file.locations

def DeferredConstraint.StandsIn (file : SourceFile) (check : DeferredConstraint) : Prop :=
  check.file = some file.name ∧ check.location ∈ file.locations

def PendingInterface.StandsIn (file : SourceFile) (p : PendingInterface) : Prop :=
  p.file = some file.name ∧ ∀ location ∈ p.declaration.locations, location ∈ file.locations

/-- The files are those of the checker, and all that it has of diagnostics, functions and
waiting checks stands in one of them. -/
structure Checker.Placed (files : List SourceFile) (c : Checker) : Prop where
  registered : c.files = files
  diagnostics : ∀ d ∈ c.diagnostics.toList, ∃ file ∈ files, d.StandsIn file
  functions : ∀ f ∈ c.functions.toList, ∃ file ∈ files, f.StandsIn file
  deferred : ∀ check ∈ c.deferred, ∃ file ∈ files, check.StandsIn file

theorem Checker.Placed.withFunction {files : List SourceFile} {c : Checker}
    (placed : c.Placed files) (index : Nat) {change : DeclaredFunction → DeclaredFunction}
    (keeps : ∀ f, (change f).node = f.node ∧ (change f).file = f.file) :
    (c.withFunction index change).Placed files where
  registered := placed.registered
  diagnostics := placed.diagnostics
  deferred := placed.deferred
  functions f member := by
    obtain ⟨i, found⟩ := List.getElem?_of_mem member
    rw [Checker.withFunction, Array.toList_modify, List.getElem?_modify] at found
    obtain ⟨before, known, changed⟩ := Option.map_eq_some_iff.mp found
    obtain ⟨file, listed, here⟩ := placed.functions before (List.mem_of_getElem? known)
    refine ⟨file, listed, ?_⟩
    split at changed
    · rw [← changed, DeclaredFunction.StandsIn, (keeps before).1, (keeps before).2]
      exact here
    · exact changed ▸ here

section Steps
variable {files : List SourceFile} {α β : Type}

/-- From a placed checker at a file, the step leads to a placed checker. The value it
gives and the file it ends at are as said. -/
def Places (files : List SourceFile) (before : Option String) (m : CheckM α)
    (post : α → Option String → Prop) : Prop :=
  ∀ c : Checker, c.Placed files → c.currentFile = before →
    (c.step m).2.Placed files ∧ ∀ a, (c.step m).1 = .ok a → post a (c.step m).2.currentFile

/-- The step stays in the file. -/
def StaysIn (files : List SourceFile) (file : SourceFile) (m : CheckM α) : Prop :=
  Places files (some file.name) m fun _ after => after = some file.name

namespace Places

variable {before : Option String} {post : β → Option String → Prop}

theorem pure {b : β} (holds : post b before) : Places files before (pure b) post := by
  rintro c placed rfl
  exact ⟨placed, fun _ done => Except.ok.inj done ▸ holds⟩

theorem bind {m : CheckM α} {k : α → CheckM β} {middle : α → Option String → Prop}
    (one : Places files before m middle)
    (two : ∀ a between, middle a between → Places files between (k a) post) :
    Places files before (m >>= k) post := by
  intro c placed current
  have first := one c placed current
  rw [Checker.step_bind]
  match ran : c.step m, first with
  | (.ok a, c'), ⟨placed', ended⟩ => exact two a _ (ended a rfl) c' placed' rfl
  | (.error cause, c'), ⟨placed', _⟩ => exact ⟨placed', fun _ done => nomatch done⟩

theorem get_bind {k : Checker → CheckM β}
    (next : ∀ c : Checker, c.Placed files → c.currentFile = before →
      Places files before (k c) post) :
    Places files before (get >>= k) post := by
  intro c placed current
  rw [Checker.step_bind, Checker.step_get]
  exact next c placed current c placed current

theorem weaken {m : CheckM β} {strong : β → Option String → Prop}
    (places : Places files before m strong) (implies : ∀ b after, strong b after → post b after) :
    Places files before m post := fun c placed current =>
  have ⟨placed', ended⟩ := places c placed current
  ⟨placed', fun b done => implies b _ (ended b done)⟩

/-- A step that leaves alone what stands anywhere. -/
theorem of_step {m : CheckM β} {value : Checker → β} {change : Checker → Checker}
    (ran : ∀ c, c.step m = (.ok (value c), change c))
    (keeps : ∀ c, (change c).files = c.files ∧ (change c).diagnostics = c.diagnostics ∧
      (change c).functions = c.functions ∧ (change c).deferred = c.deferred)
    (ended : ∀ c, c.currentFile = before → post (value c) (change c).currentFile) :
    Places files before m post := by
  intro c placed current
  obtain ⟨registered, diagnostics, functions, deferred⟩ := keeps c
  rw [ran]
  refine ⟨⟨registered.trans placed.registered, ?_, ?_, ?_⟩, fun _ done =>
    Except.ok.inj done ▸ ended c current⟩
  · exact diagnostics ▸ placed.diagnostics
  · exact functions ▸ placed.functions
  · exact deferred ▸ placed.deferred

end Places

theorem places_setFile (before after : Option String) :
    Places files before (setFile after) fun _ file => file = after :=
  .of_step (fun _ => rfl) (fun _ => ⟨rfl, rfl, rfl, rfl⟩) fun _ _ => rfl

theorem places_enterBody (before : Option String) (scopes : List Scope)
    (returns : List ReturnContext) (after : Option String) :
    Places files before (enterBody scopes returns after) fun _ file => file = after :=
  .of_step (fun _ => rfl) (fun _ => ⟨rfl, rfl, rfl, rfl⟩) fun _ _ => rfl

end Steps

section Inside
variable {files : List SourceFile} {file : SourceFile}

theorem StaysIn.bind {α β : Type} {m : CheckM α} {k : α → CheckM β} (one : StaysIn files file m)
    (two : ∀ a, StaysIn files file (k a)) : StaysIn files file (m >>= k) :=
  Places.bind one fun a _ here => by
    obtain rfl := here
    exact two a

theorem StaysIn.of_step {α : Type} {m : CheckM α} {value : Checker → α}
    {change : Checker → Checker} (ran : ∀ c, c.step m = (.ok (value c), change c))
    (keeps : ∀ c, (change c).files = c.files ∧ (change c).diagnostics = c.diagnostics ∧
      (change c).functions = c.functions ∧ (change c).deferred = c.deferred)
    (stays : ∀ c, (change c).currentFile = c.currentFile) : StaysIn files file m :=
  Places.of_step ran keeps fun c current => (stays c).trans current

variable (listed : file ∈ files) (named : file.name ≠ "")

include listed named

theorem staysIn_report {d : Diagnostic} (near : d.Near (· ∈ file.locations)) :
    StaysIn files file (report d) := by
  intro c placed current
  rw [Checker.step_report, current]
  refine ⟨⟨placed.registered, ?_, placed.functions, placed.deferred⟩, fun _ _ => rfl⟩
  rw [DiagnosticCollection.toList_add]
  refine List.forall_mem_append.mpr ⟨placed.diagnostics, List.forall_mem_singleton.mpr ?_⟩
  exact ⟨file, listed, near.standsIn named⟩

theorem staysIn_error {location : Location} (here : location ∈ file.locations)
    (message : Message) (arguments : List String) :
    StaysIn files file (error location message arguments) :=
  staysIn_report listed named (Diagnostic.near_atLocation here message arguments)

theorem scopeProperty_staysIn : ScopeProperty (· ∈ file.locations) (StaysIn files file) where
  pure _ := .pure rfl
  bind := .bind
  reading _ next := .get_bind fun c _ _ => next c
  onTable _ := .of_step (Checker.step_onTable · _) (fun _ => ⟨rfl, rfl, rfl, rfl⟩) fun _ => rfl
  report near _ := staysIn_report listed named near
  reportOpen parameter here :=
    reportOpen_of (· ∈ file.locations) (fun _ next => .get_bind fun c _ _ => next c)
      (fun near _ => staysIn_report listed named near) (.pure rfl) here parameter
  modifyScopes _ := .of_step (fun _ => rfl) (fun _ => ⟨rfl, rfl, rfl, rfl⟩) fun _ => rfl
  changeScopes _ := .of_step (fun _ => rfl) (fun _ => ⟨rfl, rfl, rfl, rfl⟩) fun _ => rfl
  modifyReturns _ := .of_step (fun _ => rfl) (fun _ => ⟨rfl, rfl, rfl, rfl⟩) fun _ => rfl
  bindGlobal _ _ := .of_step (fun _ => rfl) (fun _ => ⟨rfl, rfl, rfl, rfl⟩) fun _ => rfl

theorem staysIn_reportUnsatisfied {check : DeferredConstraint}
    (here : check.location ∈ file.locations) : StaysIn files file (reportUnsatisfied check) :=
  (scopeProperty_staysIn listed named).reportUnsatisfied check fun _ =>
    staysIn_error listed named here _ _

/-- A check that has to wait is kept with the file. -/
theorem staysIn_checkConstraint (parameter argument : TypeId) (bindings : Bindings)
    {location : Location} (here : location ∈ file.locations) :
    StaysIn files file (checkConstraint parameter argument bindings location) := by
  refine Places.get_bind fun c placed current => ?_
  dsimp only
  split
  · rintro _ - -
    rw [Checker.step_set]
    refine ⟨⟨placed.registered, placed.diagnostics, placed.functions, ?_⟩, fun _ _ => current⟩
    refine List.forall_mem_append.mpr ⟨placed.deferred, List.forall_mem_singleton.mpr ?_⟩
    exact ⟨file, listed, current, here⟩
  · exact staysIn_reportUnsatisfied listed named here

/-- A function is kept with the file. -/
theorem staysIn_enterFunction (name : String) {f : DeclaredFunction}
    (inside : ∀ location ∈ f.node.locations, location ∈ file.locations) :
    StaysIn files file (enterFunction name f) := by
  refine Places.get_bind fun c placed current => ?_
  have kept : Places files (some file.name) (set { c with
      functions := c.functions.push { f with file := c.currentFile } } : CheckM PUnit)
      fun _ after => after = some file.name := by
    rintro _ - -
    rw [Checker.step_set]
    refine ⟨⟨placed.registered, placed.diagnostics, ?_, placed.deferred⟩, fun _ _ => current⟩
    rw [Array.toList_push]
    refine List.forall_mem_append.mpr ⟨placed.functions, List.forall_mem_singleton.mpr ?_⟩
    exact ⟨file, listed, current, inside⟩
  refine StaysIn.bind kept fun _ => ?_
  split
  · exact staysIn_error listed named (inside _ f.node.location_mem) _ _
  · exact .of_step (fun _ => rfl) (fun _ => ⟨rfl, rfl, rfl, rfl⟩) fun _ => rfl

theorem declaringProperty_staysIn :
    DeclaringProperty (· ∈ file.locations) (StaysIn files file) where
  toScopeProperty := scopeProperty_staysIn listed named
  changeTable _ := .of_step (Checker.step_onTable · _) (fun _ => ⟨rfl, rfl, rfl, rfl⟩) fun _ => rfl
  declareType _ _ := .of_step (fun _ => rfl) (fun _ => ⟨rfl, rfl, rfl, rfl⟩) fun _ => rfl
  checkConstraint parameter argument bindings _ here :=
    staysIn_checkConstraint listed named parameter argument bindings here
  fail _ _ := fun _ placed _ => ⟨placed, fun _ done => nomatch done⟩
  enterFunction name _ inside := staysIn_enterFunction listed named name inside
  enterHoisted _ _ := .of_step (fun _ => rfl) (fun _ => ⟨rfl, rfl, rfl, rfl⟩) fun _ => rfl

end Inside

section Bodies
variable {files : List SourceFile} (named : ∀ file ∈ files, file.name ≠ "")

include named

/-- The body of a function is checked in the file of the function, and then the check goes
on in the file that asked for it. -/
theorem staysIn_checkFunctionBody {types : FunctionTypes}
    (known : ∀ file ∈ files, ∀ index, StaysIn files file (types index)) {file : SourceFile}
    (listed : file ∈ files) (index : Nat) :
    StaysIn files file (checkFunctionBody types index) := by
  have here := declaringProperty_staysIn listed (named file listed)
  rw [checkFunctionBody_eq]
  refine Places.get_bind fun outside placed current => ?_
  split
  · exact here.pure ()
  · next f found =>
      have member : f ∈ outside.functions.toList :=
        Array.mem_toList_iff.mpr (Array.mem_of_getElem? found)
      obtain ⟨home, among, stands, inside⟩ := placed.functions f member
      have update {change : DeclaredFunction → DeclaredFunction}
          (keeps : ∀ f, (change f).node = f.node ∧ (change f).file = f.file) :
          StaysIn files file (updateFunction index change) := fun c placed current =>
        ⟨placed.withFunction index keeps, fun _ _ => current⟩
      split
      · exact here.pure ()
      refine StaysIn.bind (update fun _ => ⟨rfl, rfl⟩) fun _ => ?_
      refine StaysIn.bind ?_ fun type => update fun _ => ⟨rfl, rfl⟩
      rw [checkEntered_eq]
      refine (places_enterBody _ _ _ _).bind fun _ between entered => ?_
      have there := declaringProperty_staysIn among (named home among)
      have opened := there.treeProperty.checkOpened (known home among) f inside
      obtain rfl : between = some home.name := entered.trans stands
      refine Places.bind opened fun result _ _ => ?_
      refine (places_enterBody _ _ _ _).bind fun _ between back => ?_
      obtain rfl : between = some file.name := back.trans current
      rw [finishBody]
      cases f.type with
      | some id => exact here.pure id
      | none => exact here.addEntry _

theorem bodyProperty_staysIn : BodyProperty
    (fun (file : { file // file ∈ files }) location => location ∈ file.1.locations)
    (fun file => StaysIn files file.1) (fun file => StaysIn files file.1) where
  tree file := (declaringProperty_staysIn file.2 (named _ file.2)).treeProperty.block
  checkFunctionBody known file index :=
    staysIn_checkFunctionBody named (fun home among => known ⟨home, among⟩) file.2 index

end Bodies

section Programs
variable {files : List SourceFile} (named : ∀ file ∈ files, file.name ≠ "")

include named

theorem places_checkFiles (cursor : TopLevelCursor) {rest : List SourceFile}
    (among : ∀ file ∈ rest, file ∈ files) (before : Option String) :
    Places files before (checkFiles cursor rest) fun _ _ => True := by
  induction rest generalizing cursor before with
  | nil => exact .pure trivial
  | cons file rest ih =>
      obtain ⟨listed, later⟩ := List.forall_mem_cons.mp among
      refine (places_setFile _ _).bind ?_
      rintro _ _ rfl
      have statements := (bodyProperty_staysIn named).checkTopLevelStatements ⟨file, listed⟩ cursor
        file.statements fun _ member => member
      exact Places.bind statements fun next after _ => ih next later after

theorem places_beginInterfaces {file : SourceFile} (listed : file ∈ files) :
    ∀ statements : List Statement,
      (∀ location ∈ statementLocations statements, location ∈ file.locations) →
      Places files (some file.name) (beginInterfaces statements) fun begun after =>
        (∀ p ∈ begun, p.StandsIn file) ∧ after = some file.name
  | [], _ => .pure ⟨List.forall_mem_nil _, rfl⟩
  | .interface declaration :: rest, inside => by
      obtain ⟨here, later⟩ := List.forall_mem_append.mp inside
      have property := (declaringProperty_staysIn listed (named file listed)).toWrittenProperty
      have begun : Places files (some file.name) (beginInterface declaration) fun begun after =>
          (∀ p ∈ begun, p.StandsIn file) ∧ after = some file.name := by
        rw [beginInterface_eq]
        refine Places.get_bind fun c placed current => ?_
        refine Places.bind (property.reserveInterface here) fun reserved after same => ?_
        refine .pure ⟨fun p entered => ?_, same⟩
        obtain ⟨_, -, rfl⟩ := Option.map_eq_some_iff.mp entered
        exact ⟨current, here⟩
      refine begun.bind ?_
      rintro pending _ ⟨ours, rfl⟩
      refine (places_beginInterfaces listed rest later).bind ?_
      rintro others _ ⟨theirs, rfl⟩
      refine .pure ⟨List.forall_mem_append.mpr ⟨fun p member => ?_, theirs⟩, rfl⟩
      exact ours p (Option.mem_toList.mp member)
  | .function _ _ :: rest, inside
  | .variable _ _ _ _ :: rest, inside
  | .expression _ _ :: rest, inside
  | .returning _ _ :: rest, inside =>
      places_beginInterfaces listed rest (List.forall_mem_append.mp inside).2

theorem places_beginFiles {rest : List SourceFile} (among : ∀ file ∈ rest, file ∈ files)
    (before : Option String) : Places files before (beginFiles rest) fun begun _ =>
      ∀ p ∈ begun, ∃ file ∈ files, p.StandsIn file := by
  induction rest generalizing before with
  | nil => exact .pure (List.forall_mem_nil _)
  | cons file rest ih =>
      obtain ⟨listed, later⟩ := List.forall_mem_cons.mp among
      refine (places_setFile _ _).bind ?_
      rintro _ _ rfl
      refine (places_beginInterfaces named listed file.statements fun _ member => member).bind ?_
      rintro pending after ⟨ours, -⟩
      refine (ih later after).bind fun others _ theirs => ?_
      exact .pure (List.forall_mem_append.mpr
        ⟨fun p member => ⟨file, listed, ours p member⟩, theirs⟩)

omit named in
theorem places_forInterfaces {step : PendingInterface → CheckM Unit}
    (stays : ∀ file ∈ files, ∀ p : PendingInterface, p.StandsIn file → StaysIn files file (step p))
    {pending : List PendingInterface} (stand : ∀ p ∈ pending, ∃ file ∈ files, p.StandsIn file)
    (before : Option String) :
    Places files before (forInterfaces step pending) fun _ _ => True := by
  induction pending generalizing before with
  | nil => exact .pure trivial
  | cons p rest ih =>
      obtain ⟨⟨file, listed, here⟩, later⟩ := List.forall_mem_cons.mp stand
      refine (places_setFile _ _).bind ?_
      rintro _ _ rfl
      rw [here.1]
      exact Places.bind (stays file listed p here) fun _ after _ => ih later after

theorem places_declareFiles {rest : List SourceFile} (among : ∀ file ∈ rest, file ∈ files)
    (before : Option String) : Places files before (declareFiles rest) fun _ _ => True := by
  induction rest generalizing before with
  | nil => exact .pure trivial
  | cons file rest ih =>
      obtain ⟨listed, later⟩ := List.forall_mem_cons.mp among
      refine (places_setFile _ _).bind ?_
      rintro _ _ rfl
      have declared := (declaringProperty_staysIn listed (named file listed)).declareStatements
        file.statements fun _ member => member
      exact Places.bind declared fun _ after _ => ih later after

theorem places_runDeferred {checks : List DeferredConstraint}
    (stand : ∀ check ∈ checks, ∃ file ∈ files, check.StandsIn file) (before : Option String) :
    Places files before (runDeferred checks) fun _ _ => True := by
  induction checks generalizing before with
  | nil => exact .pure trivial
  | cons check rest ih =>
      obtain ⟨⟨file, listed, here⟩, later⟩ := List.forall_mem_cons.mp stand
      refine (places_setFile _ _).bind ?_
      rintro _ _ rfl
      rw [here.1]
      have reported := staysIn_reportUnsatisfied listed (named file listed) here.2
      exact Places.bind reported fun _ after _ => ih later after

theorem places_declareAll (before : Option String) :
    Places files before declareAll fun _ _ => True := by
  have property {file : SourceFile} (listed : file ∈ files) :=
    (declaringProperty_staysIn listed (named file listed)).toWrittenProperty
  have all : ∀ file ∈ files, file ∈ files := fun _ listed => listed
  refine .get_bind fun c placed _ => ?_
  dsimp only
  rw [placed.registered]
  refine (places_beginFiles named all before).bind fun pending _ stand => ?_
  have constrained : ∀ file ∈ files, ∀ p : PendingInterface, p.StandsIn file →
      StaysIn files file (constrainInterface p) := fun _ listed _ here =>
    (property listed).scopedProperty.constrainInterface here.2 _ _ _
  have completed : ∀ file ∈ files, ∀ p : PendingInterface, p.StandsIn file →
      StaysIn files file (completeInterface p) := fun _ listed _ here =>
    (property listed).scopedProperty.completeInterface here.2 _ _ _
  refine (places_forInterfaces constrained stand _).bind fun _ _ _ => ?_
  refine (places_forInterfaces completed stand _).bind fun _ _ _ => ?_
  refine (places_declareFiles named all _).bind fun _ between _ => ?_
  refine .get_bind fun d waiting _ => ?_
  have emptied : Places files between (modify fun checker => { checker with deferred := [] } :
      CheckM PUnit) fun _ _ => True := fun c placed _ =>
    ⟨⟨placed.registered, placed.diagnostics, placed.functions, List.forall_mem_nil _⟩,
      fun _ _ => trivial⟩
  refine emptied.bind fun _ _ _ => ?_
  refine (places_runDeferred named waiting.deferred _).bind fun _ _ _ => ?_
  exact (places_setFile _ none).weaken fun _ _ _ => trivial

theorem places_checkDeclared (before : Option String) :
    Places files before checkDeclared fun _ _ => True := by
  have checking : Places files before (modify fun checker => { checker with phase := .checking } :
      CheckM PUnit) fun _ _ => True :=
    .of_step (fun _ => rfl) (fun _ => ⟨rfl, rfl, rfl, rfl⟩) fun _ _ => trivial
  refine checking.bind fun _ _ _ => .get_bind fun c placed _ => ?_
  rw [placed.registered]
  refine (places_checkFiles named _ (fun _ listed => listed) _).bind fun _ _ _ => ?_
  exact .of_step (fun _ => rfl) (fun _ => ⟨rfl, rfl, rfl, rfl⟩) fun _ _ => trivial

/-- However a run ends, each diagnostic is about a node of one of the files and carries the
name of that very file, and so do its causes. -/
theorem diagnostics_stand (options : CheckerOptions) :
    ∀ d ∈ ((Checker.new options).step (declareAndCheck files)).2.diagnostics.toList,
      ∃ file ∈ files, d.StandsIn file := by
  rw [Checker.step_declareAndCheck]
  have fresh : ({ Checker.new options with files := files } : Checker).Placed files :=
    ⟨rfl, List.forall_mem_nil _, by simp [Checker.new], List.forall_mem_nil _⟩
  have run := (places_declareAll named none).bind fun _ after _ => places_checkDeclared named after
  exact (run _ fresh rfl).1.diagnostics

end Programs

/-- A call of a function of another file, whose body is wrong, ahead of that file, and a
name declared in both. -/
def crossingFiles : List SourceFile :=
  [⟨"a.ts", [
    .ofInterface "A" [] [],
    .ofExpression (.ofCall (.ofName "f") [] []),
    .ofExpression (.identifier "z" ⟨1, 2⟩)]⟩,
  ⟨"b.ts", [
    .interface ⟨"A", [], [], ⟨3, 4⟩⟩,
    .ofFunction "f" [] [] none [.ofReturn (some (.identifier "y" ⟨5, 6⟩))]]⟩]

theorem crossingFiles_stand :
    let ds := ((Checker.new .default).step (declareAndCheck crossingFiles)).2.diagnostics.toList
    ds.map (fun d => (d.file, d.location)) =
        [(some "b.ts", some ⟨3, 4⟩), (some "b.ts", some ⟨5, 6⟩), (some "a.ts", some ⟨1, 2⟩)] ∧
      ∀ d ∈ ds, ∃ file ∈ crossingFiles, d.StandsIn file :=
  ⟨by decide +kernel, diagnostics_stand (by decide) .default⟩

end StructuralTyping
