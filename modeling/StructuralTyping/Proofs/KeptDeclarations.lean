import StructuralTyping.Proofs.ProgramProperties

/-! What a check leaves alone. A step that neither declares a function nor a variable keeps
the functions and the written types in their places, and makes no name stand for another
function. So it is all the way through a run from where the declarations are entered,
whatever bodies are checked in between. -/
namespace StructuralTyping

open CheckM

/-- Before and after each of its elementary steps, the checker is as required. -/
inductive CheckM.Throughout (required : Checker → Prop) :
    {α : Type} → CheckM α → Checker → Prop where
  | pure {α : Type} (a : α) {c : Checker} : required c → Throughout required (pure a) c
  | throw {α : Type} (cause : CheckError) {c : Checker} : required c →
      Throughout required (throw cause : CheckM α) c
  | bind {α β : Type} {m : CheckM α} {k : α → CheckM β} {c : Checker} :
      Throughout required m c →
      (∀ a c', c.step m = (.ok a, c') → Throughout required (k a) c') →
        Throughout required (m >>= k) c
  | read {α : Type} {k : Checker → CheckM α} {c : Checker} : required c →
      Throughout required (k c) c → Throughout required (get >>= k) c
  | change {f : Checker → Checker} {c : Checker} : required c → required (f c) →
      Throughout required (modify f : CheckM PUnit) c
  | onTable {α : Type} {action : TableM α} {c : Checker} : required c →
      required (c.step (onTable action)).2 → Throughout required (onTable action) c

theorem CheckM.Throughout.after {required : Checker → Prop} {α : Type} {m : CheckM α}
    {c : Checker} (throughout : m.Throughout required c) : required (c.step m).2 := by
  induction throughout with
  | pure _ here => exact here
  | throw _ here => exact here
  | @bind _ _ m k c _ _ first next =>
      rw [Checker.step_bind]
      match done : c.step m, first with
      | (.ok a, between), _ => exact next a between done
      | (.error cause, between), first => exact first
  | read _ _ next => exact next
  | change _ there => exact there
  | onTable _ there => exact there

/-- So it is where the step ends. -/
theorem CheckM.Throughout.after_step {required : Checker → Prop} {α : Type} {m : CheckM α}
    {c c' : Checker} {outcome : Except CheckError α} (throughout : m.Throughout required c)
    (done : c.step m = (outcome, c')) : required c' := by
  have after := throughout.after
  rwa [done] at after

theorem CheckM.Throughout.mono {required required' : Checker → Prop} {α : Type} {m : CheckM α}
    {c : Checker} (throughout : m.Throughout required c)
    (weaker : ∀ c, required c → required' c) : m.Throughout required' c := by
  induction throughout with
  | pure a here => exact .pure a (weaker _ here)
  | throw cause here => exact .throw cause (weaker _ here)
  | bind _ _ first next => exact .bind first next
  | read here _ next => exact .read (weaker _ here) next
  | change here there => exact .change (weaker _ here) (weaker _ there)
  | onTable here there => exact .onTable (weaker _ here) (weaker _ there)

/-- The functions and the written types of variables are where they were. A name that stands
for a function did so before, and no name has been forgotten. -/
structure Checker.Retains (c c' : Checker) : Prop where
  files : c'.files = c.files
  nodes : c'.functions.toList.map DeclaredFunction.node =
    c.functions.toList.map DeclaredFunction.node
  variableTypes : c'.variableTypes = c.variableTypes
  functions : ∀ name index, c'.globals.find? name = some (.function index) →
    c.globals.find? name = some (.function index)
  names : ∀ name, c.globals.contains name = true → c'.globals.contains name = true

namespace Checker.Retains

variable {c c' c'' : Checker}

theorem refl (c : Checker) : c.Retains c := ⟨rfl, rfl, rfl, fun _ _ => id, fun _ => id⟩

theorem trans (one : c.Retains c') (two : c'.Retains c'') : c.Retains c'' where
  files := two.files.trans one.files
  nodes := two.nodes.trans one.nodes
  variableTypes := two.variableTypes.trans one.variableTypes
  functions name index found := one.functions name index (two.functions name index found)
  names name present := two.names name (one.names name present)

/-- Changes elsewhere do not matter. -/
theorem of_eq (files : c'.files = c.files) (functions : c'.functions = c.functions)
    (variableTypes : c'.variableTypes = c.variableTypes) (globals : c'.globals = c.globals) :
    c.Retains c' :=
  ⟨files, by rw [functions], variableTypes, by rw [globals]; exact fun _ _ => id,
    by rw [globals]; exact fun _ => id⟩

/-- A variable may take the place of a function, but not the other way around. -/
theorem bindGlobal (c : Checker) (name : String) (id : TypeId) :
    c.Retains { c with globals := c.globals.insert name (.variable id) } where
  files := rfl
  nodes := rfl
  variableTypes := rfl
  functions other index found := by
    rw [Dictionary.find?_insert] at found
    split at found
    · simp at found
    · exact found
  names other present := by
    rw [Dictionary.contains_insert, present, Bool.or_true]

theorem withFunction (c : Checker) (index : Nat) {change : DeclaredFunction → DeclaredFunction}
    (same : ∀ f, (change f).node = f.node) : c.Retains (c.withFunction index change) :=
  ⟨rfl, Checker.nodes_withFunction same, rfl, fun _ _ => id, fun _ => id⟩

end Checker.Retains

/-- All the way through the step, the declarations are kept. -/
def Retaining {α : Type} (m : CheckM α) : Prop :=
  ∀ start c : Checker, start.Retains c → m.Throughout start.Retains c

namespace Retaining

variable {α β : Type}

theorem keeps {m : CheckM α} (retaining : Retaining m) (c : Checker) : c.Retains (c.step m).2 :=
  (retaining c c (.refl c)).after

theorem pure (a : α) : Retaining (pure a) := fun _ _ kept => .pure a kept

theorem throw (cause : CheckError) : Retaining (throw cause : CheckM α) :=
  fun _ _ kept => .throw cause kept

theorem bind {m : CheckM α} {k : α → CheckM β} (first : Retaining m)
    (next : ∀ a, Retaining (k a)) : Retaining (m >>= k) := by
  intro start c kept
  refine .bind (first start c kept) fun a c' done => next a start c' ?_
  exact (first start c kept).after_step done

theorem read {k : Checker → CheckM α} (next : ∀ c, Retaining (k c)) : Retaining (get >>= k) :=
  fun start c kept => .read kept (next c start c kept)

theorem change {f : Checker → Checker} (keeps : ∀ c : Checker, c.Retains (f c)) :
    Retaining (modify f : CheckM PUnit) :=
  fun _ c kept => .change kept (kept.trans (keeps c))

theorem onTable (action : TableM α) : Retaining (onTable action) :=
  fun _ _ kept => .onTable kept (kept.trans (.of_eq rfl rfl rfl rfl))

theorem report (d : Diagnostic) : Retaining (report d) := change fun _ => .of_eq rfl rfl rfl rfl

theorem scopeProperty : ScopeProperty (fun _ => True) Retaining where
  pure := pure
  bind := bind
  reading _ := read
  onTable _ := onTable _
  report _ _ := report _
  reportOpen parameter here :=
    reportOpen_of (fun _ => True) (fun _ => read) (fun _ _ => report _) (pure ()) here parameter
  modifyScopes _ := change fun _ => .of_eq rfl rfl rfl rfl
  changeScopes _ := change fun _ => .of_eq rfl rfl rfl rfl
  modifyReturns _ := change fun _ => .of_eq rfl rfl rfl rfl
  bindGlobal name id := change fun c => .bindGlobal c name id

theorem reportUnsatisfied (check : DeferredConstraint) : Retaining (reportUnsatisfied check) :=
  scopeProperty.reportUnsatisfied check fun _ => report _

theorem checkConstraint (parameter argument : TypeId) (bindings : Bindings)
    (location : Location) : Retaining (checkConstraint parameter argument bindings location) := by
  rw [checkConstraint_eq]
  refine read fun c => QuietProperty.ite (change fun _ => ?_) (reportUnsatisfied _)
  exact .of_eq rfl rfl rfl rfl

theorem setFile (file : Option String) : Retaining (setFile file) :=
  change fun _ => .of_eq rfl rfl rfl rfl

theorem fileProperty : FileProperty Retaining where
  toScopeProperty := scopeProperty
  changeTable := onTable
  declareType _ _ := change fun _ => .of_eq rfl rfl rfl rfl
  checkConstraint _ _ _ _ _ := checkConstraint _ _ _ _
  fail _ _ := throw _
  readWhole _ := read
  setFile := setFile
  reportUnsatisfied := reportUnsatisfied
  forgetDeferred := change fun _ => .of_eq rfl rfl rfl rfl

theorem resolveOptionalType (node : Option TypeNode) : Retaining (resolveOptionalType node) :=
  fileProperty.treeProperty.resolveOptionalType node ⟨nofun, fun _ _ => trivial⟩

/-- The check of a body changes its function, but not what is written in it. -/
theorem checkFunctionBody {types : FunctionTypes} (known : ∀ index, Retaining (types index))
    (index : Nat) : Retaining (checkFunctionBody types index) := by
  rw [checkFunctionBody_eq]
  refine read fun outside => ?_
  split
  · exact pure ()
  · next f _ =>
      have opened := fileProperty.treeProperty.checkOpened known f fun _ _ => trivial
      refine QuietProperty.ite (pure ()) ?_
      refine bind (change fun c => .withFunction c index node_beginBody) fun _ => ?_
      refine bind ?_ fun type => ?_
      · rw [checkEntered_eq]
        refine bind (change fun _ => .of_eq rfl rfl rfl rfl) fun _ => bind opened fun result => ?_
        refine bind (change fun _ => .of_eq rfl rfl rfl rfl) fun _ => ?_
        rw [finishBody]
        cases f.type with
        | some id => exact pure id
        | none => exact onTable _
      · exact change fun c => .withFunction c index (node_endBody type)

theorem bodyProperty :
    BodyProperty (fun (_ : Unit) _ => True) (fun _ => Retaining) fun _ => Retaining where
  tree _ := fileProperty.treeProperty.block
  checkFunctionBody known _ := checkFunctionBody (known ())

theorem checkTopLevelStatements (cursor : TopLevelCursor) (statements : List Statement) :
    Retaining (checkTopLevelStatements cursor statements) :=
  bodyProperty.checkTopLevelStatements () cursor statements fun _ _ => trivial

/-- From where the declarations are entered, they are kept. -/
theorem checkDeclared : Retaining checkDeclared := by
  refine bind (change fun _ => .of_eq rfl rfl rfl rfl) fun _ => read fun c => ?_
  refine bind (bodyProperty.checkFiles () setFile (fun _ => trivial) _ _) fun _ => ?_
  exact change fun _ => .of_eq rfl rfl rfl rfl

end Retaining

end StructuralTyping
