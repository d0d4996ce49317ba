import StructuralTyping.Proofs.ExpressionLookups
import StructuralTyping.Proofs.StatementPlaces

/-! What is looked up in a run. The functions and the written types of variables are all
there when the check of the statements begins, so the cursor never comes to the end of
either. A function body is checked from wherever its type is needed, and looks inside from
there as well. -/
namespace StructuralTyping

open CheckM

section Bodies
variable {c : Checker} (inside : c.Inside)

theorem modify_append {α : Type} (xs ys : Array α) {index : Nat} (within : index < xs.size)
    (change : α → α) : (xs ++ ys).modify index change = xs.modify index change ++ ys := by
  refine Array.ext_getElem? fun i => ?_
  rw [Array.getElem?_modify, Array.getElem?_append, Array.getElem?_append, Array.size_modify,
    Array.getElem?_modify]
  by_cases same : index = i
  · subst same
    simp [within]
  · simp [same]

include inside

theorem stays_updateFunction {index : Nat} (declared : index < c.functions.size)
    {change : DeclaredFunction → DeclaredFunction}
    (keeps : ∀ f : DeclaredFunction, f.Within c.table.size → (change f).Within c.table.size) :
    StaysFrom c (updateFunction index change) Whatever := by
  have held : (c.withFunction index change).Inside := by
    refine { inside with globals := fun symbol member => ?_, functions := fun f member => ?_ }
    · exact (inside.globals symbol member).mono (Nat.le_refl _) (by simp [Checker.withFunction])
    · obtain ⟨i, found⟩ := Array.mem_iff_getElem?.mp member
      rw [Checker.withFunction, Array.getElem?_modify] at found
      split at found
      · obtain ⟨g, known, rfl⟩ := Option.map_eq_some_iff.mp found
        exact keeps g (inside.functions g (Array.mem_of_getElem? known))
      · exact inside.functions f (Array.mem_of_getElem? found)
  have leads : c.Leads (c.withFunction index change) :=
    ⟨held, Nat.le_refl _, by simp [Checker.withFunction], Nat.le_refl _⟩
  refine (StaysFrom.change (f := (·.withFunction index change)) (fun b => ?_) leads).weaken
    fun _ _ _ _ => trivial
  have same := modify_append c.functions b.functions declared change
  exact congrArg (fun functions => { c.followedBy b with functions }) same

omit inside in
theorem functionScope_within {f : DeclaredFunction} (within : f.Within c.table.size) :
    (functionScope f).Within c.table.size := by
  refine ⟨List.forall_mem_nil _, fun id member => ?_⟩
  obtain ⟨pair, listed, rfl⟩ := List.mem_map.mp (Dictionary.mem_values_ofList member)
  obtain ⟨bound, zipped, rfl⟩ := List.mem_map.mp listed
  exact within.typeParameters _ (List.of_mem_zip zipped).2

theorem stays_enterBody {scopes : List Scope} {returns : List ReturnContext}
    (known : ∀ scope ∈ scopes, scope.Within c.table.size)
    (around : ∀ context ∈ returns, context.Within c.table.size) (file : Option String) :
    StaysFrom c (enterBody scopes returns file) Whatever := by
  have held : ({ c with scopes := scopes, returns := returns, currentFile := file } :
      Checker).Inside :=
    { inside with scopes := known, returns := around }
  exact (StaysFrom.change (fun _ => rfl) (.of_eq held rfl rfl rfl)).weaken fun _ _ _ _ => trivial

section Checked
variable {types : FunctionTypes} (answers : types.Stay)

include answers

theorem stays_checkOpened {f : DeclaredFunction} (within : f.Within c.table.size) :
    StaysFrom c (checkOpened types f) Known := by
  refine (stays_declareParameters inside _ fun p member =>
    within.parameters _ (List.of_mem_zip member).2).bind fun _ c₁ one _ => ?_
  exact stays_checkBodyWith one.inside (one.optional within.returnType)
    (fun _ leads => stays_checkStatements answers _ leads.inside) _

/-- The check of a body starts from the globals alone and goes back to what was around. -/
theorem stays_checkEntered {outside : Checker} (led : outside.Leads c) (held : outside.Inside)
    {f : DeclaredFunction} (within : f.Within c.table.size) :
    StaysFrom c (checkEntered types outside f) Known := by
  rw [checkEntered_eq]
  refine (stays_enterBody inside (List.forall_mem_singleton.mpr
    (functionScope_within within)) (List.forall_mem_nil _) _).bind fun _ c₁ one _ => ?_
  refine (stays_checkOpened one.inside answers (within.mono one.table)).bind ?_
  intro result c₂ two known
  have since := led.trans (one.trans two)
  refine (stays_enterBody two.inside
    (fun scope member => (held.scopes scope member).mono since.table)
    (fun context member => (held.returns context member).mono since.table) _).bind ?_
  intro _ c₃ three _
  have within := within.mono ((one.trans two).trans three).table
  have known := three.known known
  obtain ⟨node, file, ids, parameters, declared, type, state⟩ := f
  cases type with
  | some id => exact .entry three.inside (within.type id rfl)
  | none => exact stays_addFunction three.inside within.typeParameters within.parameters known

theorem stays_checkFunctionBody {index : Nat} (declared : index < c.functions.size) :
    StaysFrom c (checkFunctionBody types index) Whatever := by
  rw [checkFunctionBody_eq]
  refine .read (fun b b' _ => ?_) ?_
  · have one := c.getElem?_functions_followedBy b declared
    have two := c.getElem?_functions_followedBy b' declared
    rw [one, two]
    rfl
  cases found : c.functions[index]? with
  | none => exact .done inside
  | some f =>
      have within := inside.functions f (Array.mem_of_getElem? found)
      refine .ite (.done inside) ?_
      have begun : StaysFrom c (updateFunction index beginBody) Whatever :=
        stays_updateFunction inside declared fun g known =>
          ⟨known.typeParameters, known.parameters, known.returnType, known.type⟩
      refine begun.bind fun _ c₁ one _ => ?_
      refine (stays_checkEntered one.inside answers one inside (within.mono one.table)).bind ?_
      intro type c₂ two known
      have declared := Nat.lt_of_lt_of_le declared (one.trans two).functions
      exact stays_updateFunction two.inside declared fun g held =>
        ⟨held.typeParameters, held.parameters, held.returnType, optionKnown_some known⟩

end Checked

end Bodies

/-- Where the body of a function has to be checked first, its type is an entry afterwards. -/
theorem stay_functionTypeWithin (fuel : Nat) : (functionTypeWithin fuel).Stay := by
  induction fuel with
  | zero => exact fun c index inside _ => .entry inside (inside.basic (Nat.le_refl _))
  | succ fuel ih =>
      intro c index inside declared
      refine .read (.of_same fun b => by rw [c.getElem?_functions_followedBy b declared]) ?_
      split
      · exact .entry inside (inside.basic (Nat.le_refl _))
      · next f found =>
          split
          · next id typed =>
              have within := inside.functions f (Array.mem_of_getElem? found)
              exact .entry inside (within.type id typed)
          refine .ite (.entry inside (inside.basic (Nat.le_refl _))) ?_
          refine (stays_checkFunctionBody inside ih declared).bind fun _ c₁ one _ => ?_
          have declared := Nat.lt_of_lt_of_le declared one.functions
          refine .read (.of_same fun b => by rw [c₁.getElem?_functions_followedBy b declared]) ?_
          refine .entry one.inside ?_
          cases typed : (c₁.functions[index]?.bind fun f => f.type) with
          | none => exact one.inside.basic (Nat.le_refl _)
          | some id =>
              obtain ⟨f, found, typed⟩ := Option.bind_eq_some_iff.mp typed
              exact (one.inside.functions f (Array.mem_of_getElem? found)).type id typed

theorem stay_functionType : FunctionTypes.Stay functionType := by
  intro c index inside declared
  refine .read (fun b b' as => ?_) (stay_functionTypeWithin _ c index inside declared)
  simp [Checker.followedBy, as.functions]

/-- The functions and the variables that the statements declare are there. -/
structure Checker.Covers (c : Checker) (statements : List Statement) : Prop where
  functions : (functionNodes statements).length ≤ c.functions.size
  variableTypes : (writtenTypes statements).length ≤ c.variableTypes.size

section Statements
variable {c c' : Checker} {earlier later : List Statement}

theorem Checker.Lists.covers {statements : List Statement} (lists : c.Lists statements) :
    c.Covers statements :=
  ⟨Nat.le_of_eq lists.size_functions.symm, Nat.le_of_eq lists.written.symm⟩

namespace Checker.Covers

theorem leads {statements : List Statement} (covers : c.Covers statements) (leads : c.Leads c') :
    c'.Covers statements :=
  ⟨Nat.le_trans covers.functions leads.functions,
    Nat.le_trans covers.variableTypes leads.variableTypes⟩

theorem function {name : String} {node : FunctionNode}
    (covers : c.Covers (earlier ++ .function name node :: later)) :
    (TopLevelCursor.behind earlier).functionCount < c.functions.size := by
  have functions := covers.functions
  rw [functionNodes_append, List.length_append, functionNodes, List.length_cons] at functions
  exact Nat.lt_of_lt_of_le (by simp [TopLevelCursor.behind]) functions

theorem writtenType {name : String} {declaredType : Option TypeNode}
    {initializer : Option Expression} {location : Location}
    (covers : c.Covers (earlier ++ .variable name declaredType initializer location :: later)) :
    (TopLevelCursor.behind earlier).variableCount < c.variableTypes.size := by
  have variableTypes := covers.variableTypes
  rw [writtenTypes_append, List.length_append, writtenTypes, List.length_cons] at variableTypes
  exact Nat.lt_of_lt_of_le (by simp [TopLevelCursor.behind]) variableTypes

end Checker.Covers

/-- A result that is known anyway. -/
theorem StaysFrom.giving {α : Type} {m : CheckM α} {post : α → Checker → Prop}
    (stays : StaysFrom c m Whatever)
    (gives : ∀ a c', c.step m = (.ok a, c') → post a c') : StaysFrom c m post :=
  ⟨stays.looks, fun a c' done => ⟨(stays.leads a c' done).1, gives a c' done⟩, stays.stops⟩

theorem stays_checkTopLevelStatement : ∀ (statement : Statement), c.Inside →
    c.Covers (earlier ++ statement :: later) →
      StaysFrom c (checkTopLevelStatement (.behind earlier) statement) Whatever
  | .interface _, inside, _ => .done inside
  | .function _ _, inside, covers =>
      (stays_checkFunctionBody inside stay_functionType covers.function).bind
        fun _ _ leads _ => .done leads.inside
  | .variable name declaredType initializer location, inside, covers => by
      refine .read (.of_same fun b => ?_) ?_
      · rw [c.getElem?_variableTypes_followedBy b covers.writtenType]
      dsimp only
      have known : OptionKnown
          c.variableTypes[(TopLevelCursor.behind earlier).variableCount]?.join c := by
        intro id found
        have present := Array.mem_of_getElem? (Option.join_eq_some_iff.mp found)
        exact inside.variableTypes _ present id rfl
      exact (stays_checkVariable stay_functionType name location initializer inside known).bind
        fun _ _ leads _ => .done leads.inside
  | .expression e location, inside, _ =>
      (stays_checkStatement stay_functionType (.expression e location) inside).bind
        fun _ _ leads _ => .done leads.inside
  | .returning e location, inside, _ =>
      (stays_checkStatement stay_functionType (.returning e location) inside).bind
        fun _ _ leads _ => .done leads.inside

theorem stays_checkTopLevelStatements (statements : List Statement) (inside : c.Inside)
    (covers : c.Covers (earlier ++ (statements ++ later))) :
    StaysFrom c (checkTopLevelStatements (.behind earlier) statements) fun next _ =>
      next = .behind (earlier ++ statements) := by
  refine StaysFrom.giving ?_ fun _ _ => cursor_checkTopLevelStatements earlier statements
  induction statements generalizing c earlier with
  | nil => exact .done inside
  | cons statement rest ih =>
      refine ((stays_checkTopLevelStatement statement inside covers).giving fun _ _ =>
        cursor_checkTopLevelStatement earlier statement).bind ?_
      rintro _ c₁ one rfl
      exact ih one.inside (by simpa using covers.leads one)

theorem stays_checkFiles (files : List SourceFile) (inside : c.Inside)
    (covers : c.Covers (earlier ++ allStatements files)) :
    StaysFrom c (checkFiles (.behind earlier) files) Whatever := by
  induction files generalizing c earlier with
  | nil => exact .done inside
  | cons file rest ih =>
      refine (inside.setFile _).bind fun _ c₁ one _ => ?_
      refine (stays_checkTopLevelStatements file.statements one.inside (covers.leads one)).bind ?_
      rintro _ c₂ two rfl
      refine ih two.inside ?_
      rw [List.append_assoc]
      exact covers.leads (one.trans two)

theorem stays_checkDeclared (inside : c.Inside) (covers : c.Covers (allStatements c.files)) :
    StaysFrom c checkDeclared Whatever := by
  have checking : ({ c with phase := .checking } : Checker).Inside := { inside with }
  refine (StaysFrom.change (fun _ => rfl) (.of_eq checking rfl rfl rfl)).bind ?_
  rintro _ c₁ one rfl
  refine .read (.of_same fun _ => rfl) ?_
  have covers : Checker.Covers _ ([] ++ allStatements c.files) := covers.leads one
  refine (stays_checkFiles _ one.inside covers).bind fun _ c₂ two _ => ?_
  have done : ({ c₂ with currentFile := none, phase := .done } : Checker).Inside :=
    { two.inside with }
  exact (StaysFrom.change (fun _ => rfl) (.of_eq done rfl rfl rfl)).weaken fun _ _ _ _ => trivial

end Statements

section Runs
variable (options : CheckerOptions) (files : List SourceFile)

theorem grounded_initial : TypeTable.initial.Grounded :=
  ⟨TypeTable.WellFormed.of_fits (by decide) rfl, by decide⟩

/-- A new checker holds the types of keywords and nothing else. -/
theorem inside_new : ({ Checker.new options with files := files } : Checker).Inside where
  table := grounded_initial
  scopes := List.forall_mem_nil _
  declaredTypes := List.forall_mem_nil _
  globals := List.forall_mem_nil _
  functions := nofun
  variableTypes := nofun
  hoisted := List.forall_mem_nil _
  deferred := List.forall_mem_nil _
  returns := List.forall_mem_nil _

theorem stays_checkDeclarations : StaysFrom { Checker.new options with files := files }
    checkDeclarations Whatever := by
  have inside := inside_new options files
  have declared : StaysFrom { Checker.new options with files := files } declareAll fun _ c =>
      c.Covers (allStatements c.files) := by
    refine (stays_declareAll inside).giving fun _ c done => ?_
    obtain ⟨more, lists⟩ := enters_declareAll (lists_new options files) done
    rw [more.files]
    exact lists.covers
  refine .read (.of_same fun _ => rfl) (.ite .throw ?_)
  exact declared.bind fun _ _ leads covers => stays_checkDeclared leads.inside covers

/-- A file is registered behind the others. -/
theorem looksInside_declareSourceFiles (c : Checker) :
    CheckM.LooksInside (forIn files PUnit.unit fun file _ => do
      declareSourceFile file
      pure (ForInStep.yield PUnit.unit)) c := by
  induction files generalizing c with
  | nil => exact .pure _ _
  | cons file rest ih =>
      have one : (declareSourceFile file).LooksInside c := by
        refine .read (.of_same fun _ => rfl) ?_
        split
        · exact .throw _ _
        · exact .change fun _ => rfl
      rw [List.forIn_cons, bind_assoc]
      exact .bind one fun _ between _ => ih between

theorem looksInside_declareAndCheck : (declareAndCheck files).LooksInside (.new options) := by
  refine .bind (looksInside_declareSourceFiles files _) fun _ c done => ?_
  rw [step_declareSourceFiles files rfl] at done
  obtain ⟨-, rfl⟩ := Prod.mk.inj done
  exact (stays_checkDeclarations options files).looks

end Runs

section Arguments
variable {types : FunctionTypes}

/-- A pass of inference knows of as many argument types afterwards as before. -/
theorem length_inferArguments (sensitive : Bool) (arguments : List Expression)
    {parameters : List Parameter} {i : Inference} {known : List (Option TypeId)} {c c' : Checker}
    {pass : InferencePass}
    (done : c.step (inferArguments types sensitive i arguments parameters known) =
      (.ok pass, c')) : pass.known.length = known.length := by
  induction arguments generalizing parameters i known c pass c' with
  | nil =>
      obtain ⟨rfl, -⟩ : _ = pass ∧ _ := by simpa [inferArguments] using done
      rfl
  | cons argument arguments ih =>
      match parameters, known with
      | [], known =>
          obtain ⟨rfl, -⟩ : _ = pass ∧ _ := by simpa [inferArguments] using done
          rfl
      | _ :: _, [] =>
          obtain ⟨rfl, -⟩ : _ = pass ∧ _ := by simpa [inferArguments] using done
          rfl
      | parameter :: parameters, first :: rest =>
          rw [inferArguments] at done
          split at done
          · obtain ⟨later, _, inferred, ended⟩ := Checker.step_bind_ok done
            obtain rfl := Except.ok.inj (Prod.mk.inj ended).1
            exact congrArg (· + 1) (ih inferred)
          obtain ⟨context, _, -, done⟩ := Checker.step_bind_ok done
          obtain ⟨id, _, -, done⟩ := Checker.step_bind_ok done
          obtain ⟨⟨outcome, i'⟩, _, -, done⟩ := Checker.step_bind_ok done
          cases outcome with
          | error cause =>
              obtain ⟨_, _, -, ended⟩ := Checker.step_bind_ok done
              obtain rfl := Except.ok.inj (Prod.mk.inj ended).1
              rfl
          | ok =>
              obtain ⟨later, _, inferred, ended⟩ := Checker.step_bind_ok done
              obtain rfl := Except.ok.inj (Prod.mk.inj ended).1
              exact congrArg (· + 1) (ih inferred)

/-- Where as many types are given as there are arguments, known or not, the checks are the
same. Elsewhere they may be anything. -/
structure ArgumentChecks.Agree (count : Nat) (checks others : ArgumentChecks) : Prop where
  infer : ∀ sensitive parameters inference known, known.length = count →
    others.infer sensitive parameters inference known =
      checks.infer sensitive parameters inference known
  check : ∀ parameters known, known.length = count →
    others.check parameters known = checks.check parameters known
  loose : ∀ known, known.length = count → others.loose known = checks.loose known

/-- A pass of inference does not change how many types are given. -/
def ArgumentChecks.KeepsCount (checks : ArgumentChecks) : Prop :=
  ∀ (sensitive : Bool) (parameters : List Parameter) (inference : Inference)
    (known : List (Option TypeId)) (c c' : Checker) (pass : InferencePass),
    c.step (checks.infer sensitive parameters inference known) = (.ok pass, c') →
      pass.known.length = known.length

/-- How to check these arguments. -/
def argumentChecks (types : FunctionTypes) (arguments : List Expression) : ArgumentChecks where
  infer sensitive parameters inference known :=
    inferArguments types sensitive inference arguments parameters known
  check parameters known := checkArguments types arguments parameters known
  loose known := checkLoose types arguments known

/-- From here, both are the same in what follows a success. -/
theorem Checker.step_bind_congr {α β : Type} {c : Checker} {m : CheckM α}
    {k k' : α → CheckM β}
    (same : ∀ a c', c.step m = (.ok a, c') → c'.step (k a) = c'.step (k' a)) :
    c.step (m >>= k) = c.step (m >>= k') := by
  rw [Checker.step_bind, Checker.step_bind]
  match done : c.step m with
  | (.ok a, between) => exact same a between done
  | (.error cause, between) => rfl

section Covered
variable {count : Nat} {checks others : ArgumentChecks} (agree : checks.Agree count others)

include agree

theorem checkInstantiatedCall_agree (signature : FunctionType)
    (instantiated : InstantiatedSignature) {known : List (Option TypeId)}
    (covered : known.length = count) (typeArguments : List TypeNode) (location : Location) :
    checkInstantiatedCall others signature instantiated known typeArguments location =
      checkInstantiatedCall checks signature instantiated known typeArguments location := by
  rw [checkInstantiatedCall, checkInstantiatedCall, agree.check _ _ covered]

theorem checkExplicitCall_agree (callee : TypeId) (signature : FunctionType)
    {unknown : List (Option TypeId)} (covered : unknown.length = count)
    (typeArguments : List TypeNode) (location : Location) :
    checkExplicitCall others callee signature unknown typeArguments location =
      checkExplicitCall checks callee signature unknown typeArguments location := by
  simp only [checkExplicitCall, agree.loose _ covered,
    checkInstantiatedCall_agree agree _ _ covered]

/-- The types that the passes find stand in the places of their arguments. -/
theorem checkInferredCall_agree (keeps : checks.KeepsCount) (signature : FunctionType)
    {unknown : List (Option TypeId)} (covered : unknown.length = count) (location : Location) :
    checkInferredCall others signature unknown location =
      checkInferredCall checks signature unknown location := by
  refine Checker.step_ext fun c => ?_
  rw [checkInferredCall, checkInferredCall, agree.infer _ _ _ _ covered]
  refine Checker.step_bind_congr fun first c₁ found => ?_
  have covered := (keeps _ _ _ _ _ _ _ found).trans covered
  have finish {pass : InferencePass} (covered : pass.known.length = count) (c : Checker) :
      c.step (do
        if pass.failed then
          others.loose pass.known
          return TypeId.unknown
        else
          let instantiated ← onTable (pass.inference.finish.apply signature)
          checkInstantiatedCall others signature instantiated pass.known [] location) =
      c.step (do
        if pass.failed then
          checks.loose pass.known
          return TypeId.unknown
        else
          let instantiated ← onTable (pass.inference.finish.apply signature)
          checkInstantiatedCall checks signature instantiated pass.known [] location) := by
    simp only [agree.loose _ covered, checkInstantiatedCall_agree agree _ _ covered]
  dsimp only
  split
  · rw [pure_bind, pure_bind]
    exact finish covered c₁
  · rw [agree.infer _ _ _ _ covered]
    refine Checker.step_bind_congr fun pass c₂ found => ?_
    exact finish ((keeps _ _ _ _ _ _ _ found).trans covered) c₂

/-- A call starts with no type for any of its arguments, but a place for each. -/
theorem checkCallOf_agree (keeps : checks.KeepsCount) (callee : TypeId)
    (typeArguments : List TypeNode) (location : Location) :
    checkCallOf others callee typeArguments count location =
      checkCallOf checks callee typeArguments count location := by
  have covered : (List.replicate count (none : Option TypeId)).length = count :=
    List.length_replicate
  simp only [checkCallOf, agree.loose _ covered, agree.check _ _ covered,
    checkInferredCall_agree agree keeps _ covered, checkExplicitCall_agree agree _ _ covered]

end Covered

/-- The check of a call never goes by what is done where an argument has no place. -/
theorem checkExpression_call_agree (context : Option TypeId) (callee : Expression)
    (typeArguments : List TypeNode) (arguments : List Expression) (location : Location)
    {others : ArgumentChecks}
    (agree : (argumentChecks types arguments).Agree arguments.length others) :
    checkExpression types context (.call callee typeArguments arguments location) = (do
      let id ← checkExpression types none callee
      checkCallOf others id typeArguments arguments.length location) := by
  rw [checkExpression]
  refine bind_congr fun id => (checkCallOf_agree agree ?_ id typeArguments location).symm
  exact fun sensitive _ _ _ _ _ _ => length_inferArguments sensitive arguments

end Arguments

/-- What a run over the files looks up is there, and is what it is taken for. -/
structure Addressed (options : CheckerOptions) (files : List SourceFile) : Prop where
  /-- Nothing is looked up behind the end of the table of types, of the list of functions, or
  of the list of the written types of variables. -/
  inside : (declareAndCheck files).LooksInside (.new options)
  /-- From where the declarations are entered, a name that stands for a function stands for
  the first one that is declared under the name, at its place in the list. -/
  names : ∀ c, ({ Checker.new options with files := files } : Checker).step declareAll =
    (.ok (), c) → checkDeclared.Throughout (·.NamesFirst (allStatements files)) c
  /-- The run goes by any of the statements. -/
  passes : ∀ p : Place, p.files = files →
    (Checker.new options).step (declareAndCheck files) =
      ({ Checker.new options with files := files } : Checker).step (do
        let cursor ← p.arrive
        let next ← checkTopLevelStatement cursor p.statement
        p.checkLater next)
  /-- When it comes to a statement, the cursor points at what declaring the very statement
  has entered. -/
  cursor : ∀ p : Place, p.files = files → ∀ cursor c,
    ({ Checker.new options with files := files } : Checker).step p.arrive = (.ok cursor, c) →
      ∃ before, ({ Checker.new options with files := files } : Checker).step p.declareEarlier =
          (.ok (), before) ∧
        cursor = ⟨before.functions.size, before.variableTypes.size⟩ ∧
          p.statement.EnteredAt before c cursor
  /-- There is a place for the type of every argument of a call. -/
  arguments : ∀ (types : FunctionTypes) (context : Option TypeId) (callee : Expression)
    (typeArguments : List TypeNode) (arguments : List Expression) (location : Location)
    (others : ArgumentChecks),
    (argumentChecks types arguments).Agree arguments.length others →
      checkExpression types context (.call callee typeArguments arguments location) = (do
        let id ← checkExpression types none callee
        checkCallOf others id typeArguments arguments.length location)

end StructuralTyping
