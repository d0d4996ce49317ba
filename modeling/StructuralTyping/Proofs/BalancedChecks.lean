import StructuralTyping.Proofs.KeptDeclarations
import StructuralTyping.Tree.Build

/-! What a check finds again when it is done. Scopes and return contexts are stacks, and a check
that succeeds leaves both as deep as it found them: an expression leaves them as they were, and a
statement changes the innermost frames at most. In between, the names at the top level stand for
what they stood for. The check of the body of a top-level function puts both stacks and the file
aside and takes them up again, so that it does not tell where it was asked for. -/
namespace StructuralTyping

open CheckM

section Frames

/-- At most the first element is another one, and only if it may be. -/
structure HeadOnly {α : Type} (may : Bool) (before after : List α) : Prop where
  length : after.length = before.length
  tail : after.tail = before.tail
  same : may = false → after = before

namespace HeadOnly

variable {α : Type} {may : Bool} {before between after : List α}

theorem refl (may : Bool) (before : List α) : HeadOnly may before before :=
  ⟨rfl, rfl, fun _ => rfl⟩

theorem trans (one : HeadOnly may before between) (two : HeadOnly may between after) :
    HeadOnly may before after where
  length := two.length.trans one.length
  tail := two.tail.trans one.tail
  same never := (two.same never).trans (one.same never)

theorem of_eq (same : after = before) : HeadOnly may before after := same ▸ refl may before

theorem eq (only : HeadOnly false before after) : after = before := only.same rfl

/-- What may be changed is not said to be. -/
theorem mono {may' : Bool} (only : HeadOnly may before after) (more : may = true → may' = true) :
    HeadOnly may' before after where
  length := only.length
  tail := only.tail
  same never := only.same (by cases may <;> simp_all)

theorem modifyHead (f : α → α) (before : List α) :
    HeadOnly true before (before.modifyHead f) where
  length := List.length_modifyHead
  tail := by cases before <;> rfl
  same := nofun

/-- Below what was pushed stands what stood there before. -/
theorem pop {pushed : α} (only : HeadOnly may (pushed :: before) after) : after.tail = before :=
  only.tail

theorem ne_nil (only : HeadOnly may before after) (filled : before ≠ []) : after ≠ [] := by
  rw [← List.length_pos_iff] at filled ⊢
  exact only.length ▸ filled

end HeadOnly

/-- Which of the innermost frames a step may change. -/
structure Reach where
  scope : Bool
  context : Bool

namespace Reach

/-- As far as the check of an expression reaches. -/
abbrev expression : Reach := ⟨false, false⟩

/-- As far as entering names reaches. -/
abbrev names : Reach := ⟨true, false⟩

/-- As far as the check of a statement reaches. -/
abbrev statement : Reach := ⟨true, true⟩

/-- What reaches as far reaches further as well. -/
structure Le (reach reach' : Reach) : Prop where
  scope : reach.scope = true → reach'.scope = true
  context : reach.context = true → reach'.context = true

end Reach

/-- The stacks are as deep as before, and below the frames that may be changed they are what they
were. The file is the same. -/
structure Checker.FramedAs (reach : Reach) (c c' : Checker) : Prop where
  scopes : HeadOnly reach.scope c.scopes c'.scopes
  returns : HeadOnly reach.context c.returns c'.returns
  file : c'.currentFile = c.currentFile

/-- Every name at the top level stands for what it stood for. -/
structure Checker.NamedAs (c c' : Checker) : Prop where
  globals : c'.globals = c.globals
  declaredTypes : c'.declaredTypes = c.declaredTypes
  hoisted : c'.hoisted = c.hoisted
  variableTypes : c'.variableTypes = c.variableTypes

namespace Checker

variable {reach : Reach} {c c' c'' : Checker}

namespace FramedAs

theorem refl (reach : Reach) (c : Checker) : FramedAs reach c c := ⟨.refl _ _, .refl _ _, rfl⟩

theorem trans (one : FramedAs reach c c') (two : FramedAs reach c' c'') : FramedAs reach c c'' :=
  ⟨one.scopes.trans two.scopes, one.returns.trans two.returns, two.file.trans one.file⟩

theorem mono {reach' : Reach} (framed : FramedAs reach c c') (further : reach.Le reach') :
    FramedAs reach' c c' :=
  ⟨framed.scopes.mono further.scope, framed.returns.mono further.context, framed.file⟩

/-- Changes elsewhere do not matter. -/
theorem of_eq (scopes : c'.scopes = c.scopes) (returns : c'.returns = c.returns)
    (file : c'.currentFile = c.currentFile) : FramedAs reach c c' :=
  ⟨.of_eq scopes, .of_eq returns, file⟩

end FramedAs

namespace NamedAs

theorem refl (c : Checker) : c.NamedAs c := ⟨rfl, rfl, rfl, rfl⟩

theorem trans (one : c.NamedAs c') (two : c'.NamedAs c'') : c.NamedAs c'' :=
  ⟨two.globals.trans one.globals, two.declaredTypes.trans one.declaredTypes,
    two.hoisted.trans one.hoisted, two.variableTypes.trans one.variableTypes⟩

end NamedAs

end Checker

end Frames

/-- From this checker, the step keeps the frames it does not reach, and the names at the top
level. It may enter names in the innermost scope only where there is one, since elsewhere they
would be entered at the top level. -/
structure RestoresFrom {α : Type} (reach : Reach) (c : Checker) (m : CheckM α) : Prop where
  frames : ∀ a c', c.step m = (.ok a, c') → c.FramedAs reach c'
  names : (reach.scope = true → c.scopes ≠ []) → ∀ start : Checker, start.NamedAs c →
    m.Throughout start.NamedAs c

/-- The step does so from every checker. -/
def Restores (reach : Reach) {α : Type} (m : CheckM α) : Prop :=
  ∀ c : Checker, RestoresFrom reach c m

variable {α β : Type} {reach : Reach} {c : Checker}

namespace RestoresFrom

theorem pure (a : α) : RestoresFrom reach c (pure a) where
  frames := by
    rintro _ _ ⟨⟩
    exact .refl _ _
  names _ _ named := .pure a named

theorem throw (cause : CheckError) : RestoresFrom reach c (throw cause : CheckM α) where
  frames := by rintro _ _ ⟨⟩
  names _ _ named := .throw cause named

theorem bind {m : CheckM α} {k : α → CheckM β} (first : RestoresFrom reach c m)
    (next : ∀ a c', c.FramedAs reach c' → RestoresFrom reach c' (k a)) :
    RestoresFrom reach c (m >>= k) where
  frames b c'' done := by
    obtain ⟨a, c', one, two⟩ := Checker.step_bind_ok done
    have framed := first.frames a c' one
    exact framed.trans ((next a c' framed).frames b c'' two)
  names inScope start named := by
    refine .bind (first.names inScope start named) fun a c' done => ?_
    have framed := first.frames a c' done
    refine (next a c' framed).names (fun may => framed.scopes.ne_nil (inScope may)) start ?_
    exact (first.names inScope start named).after_step done

theorem ite {p : Prop} [Decidable p] {yes no : CheckM α} (one : RestoresFrom reach c yes)
    (two : RestoresFrom reach c no) : RestoresFrom reach c (if p then yes else no) := by
  split
  · exact one
  · exact two

theorem read {k : Checker → CheckM α} (next : RestoresFrom reach c (k c)) :
    RestoresFrom reach c (get >>= k) where
  frames := next.frames
  names inScope start named := .read named (next.names inScope start named)

theorem change {f : Checker → Checker} (framed : c.FramedAs reach (f c))
    (named : (reach.scope = true → c.scopes ≠ []) → c.NamedAs (f c)) :
    RestoresFrom reach c (modify f : CheckM PUnit) where
  frames := by
    rintro _ _ ⟨⟩
    exact framed
  names inScope _ before := .change before (before.trans (named inScope))

theorem mono {reach' : Reach} {m : CheckM α} (restores : RestoresFrom reach c m)
    (further : reach.Le reach') : RestoresFrom reach' c m where
  frames a c' done := (restores.frames a c' done).mono further
  names inScope := restores.names fun may => inScope (further.scope may)

end RestoresFrom

namespace Restores

theorem pure (a : α) : Restores reach (pure a) := fun _ => .pure a

theorem throw (cause : CheckError) : Restores reach (throw cause : CheckM α) :=
  fun _ => .throw cause

theorem bind {m : CheckM α} {k : α → CheckM β} (first : Restores reach m)
    (next : ∀ a, Restores reach (k a)) : Restores reach (m >>= k) :=
  fun c => (first c).bind fun a c' _ => next a c'

theorem read {k : Checker → CheckM α} (next : ∀ c, Restores reach (k c)) :
    Restores reach (get >>= k) :=
  fun c => .read (next c c)

theorem mono {reach' : Reach} {m : CheckM α} (restores : Restores reach m)
    (further : reach.Le reach') : Restores reach' m :=
  fun c => (restores c).mono further

/-- A change of something else. -/
theorem change {f : Checker → Checker} (framed : ∀ c : Checker, c.FramedAs reach (f c))
    (named : ∀ c : Checker, c.NamedAs (f c)) : Restores reach (modify f : CheckM PUnit) :=
  fun c => .change (framed c) fun _ => named c

theorem onTable (action : TableM α) : Restores reach (onTable action) := fun c =>
  { frames := by
      rintro _ _ ⟨⟩
      exact .of_eq rfl rfl rfl
    names := fun _ _ named => .onTable named (named.trans ⟨rfl, rfl, rfl, rfl⟩) }

theorem report (d : Diagnostic) : Restores reach (report d) :=
  change (fun _ => .of_eq rfl rfl rfl) fun _ => ⟨rfl, rfl, rfl, rfl⟩

theorem updateScope (f : Scope → Scope) : Restores .names (updateScope f) := by
  rw [updateScope_eq]
  exact change (fun c => ⟨.modifyHead f c.scopes, .refl _ _, rfl⟩) fun _ => ⟨rfl, rfl, rfl, rfl⟩

/-- Steps in a scope of their own do not reach the scopes around. -/
theorem inNewScope {context : Bool} {m : CheckM α} (inside : Restores ⟨true, context⟩ m) :
    Restores ⟨false, context⟩ (inNewScope m) := by
  intro c
  have within := inside { c with scopes := .empty :: c.scopes }
  have filled : (true = true → (Scope.empty :: c.scopes) ≠ []) := fun _ => List.cons_ne_nil _ _
  constructor
  · intro a c' done
    obtain ⟨_, _, ⟨⟩, done⟩ := Checker.step_bind_ok done
    obtain ⟨_, c₁, ran, done⟩ := Checker.step_bind_ok done
    obtain ⟨_, _, ⟨⟩, ⟨⟩⟩ := Checker.step_bind_ok done
    have framed := within.frames _ _ ran
    exact ⟨.of_eq framed.scopes.pop, framed.returns, framed.file⟩
  · intro _ start named
    have pushed : start.NamedAs { c with scopes := .empty :: c.scopes } :=
      named.trans ⟨rfl, rfl, rfl, rfl⟩
    refine .bind (.change named pushed) ?_
    rintro _ _ ⟨⟩
    have ran := within.names filled start pushed
    refine .bind ran fun a c₁ done => ?_
    have after : start.NamedAs c₁ := ran.after_step done
    refine .bind (.change after ⟨after.1, after.2, after.3, after.4⟩) ?_
    rintro _ _ ⟨⟩
    exact .pure a ⟨after.1, after.2, after.3, after.4⟩

theorem quietProperty : QuietProperty (fun _ => True) (Restores reach) where
  pure := pure
  bind := bind
  reading _ := read
  onTable _ := onTable _
  report _ _ := report _
  reportOpen parameter here :=
    reportOpen_of (fun _ => True) (fun _ => read) (fun _ _ => report _) (pure ()) here parameter

theorem error (location : Location) (message : Message) (arguments : List String) :
    Restores reach (error location message arguments) := report _

theorem checkConstraint (parameter argument : TypeId) (bindings : Bindings)
    (location : Location) :
    Restores reach (checkConstraint parameter argument bindings location) := by
  rw [checkConstraint_eq]
  refine read fun c => QuietProperty.ite ?_ ?_
  · exact change (fun _ => .of_eq rfl rfl rfl) fun _ => ⟨rfl, rfl, rfl, rfl⟩
  · exact quietProperty.reportUnsatisfied _ fun _ => report _

/-- What reaches no frame does so wherever it stands. -/
theorem within {m : CheckM α} (restores : Restores .expression m) : Restores reach m :=
  restores.mono ⟨nofun, nofun⟩

theorem scopedProperty :
    ScopedProperty (fun _ => True) (Restores .expression) (Restores .names) where
  toQuietProperty := quietProperty
  within := within
  next := bind
  readingWithin _ := read
  bindType _ _ := updateScope _
  inNewScope := inNewScope
  changeTable := onTable
  checkConstraint _ _ _ _ _ := checkConstraint _ _ _ _
  fail _ _ := throw _

theorem resolveOptionalType (node : Option TypeNode) :
    Restores .expression (resolveOptionalType node) := by
  cases node with
  | none => exact pure none
  | some node => exact bind (scopedProperty.resolveType node fun _ _ => trivial) fun _ => pure _

/-- A name that is entered where there is a scope is entered in that scope. -/
theorem reserveInterface (declaration : InterfaceDeclaration) :
    Restores .names (reserveInterface declaration) := by
  have fresh : Restores .names (freshTypeParameters declaration.typeParameters) :=
    within (scopedProperty.freshTypeParameters _)
  intro c
  have entered (c' : Checker) (framed : c.FramedAs .names c') (declared body : TypeId)
      (ids : List TypeId) : RestoresFrom .names c' (do
        if c.scopes.isEmpty then
          modify fun checker =>
            { checker with
              declaredTypes := checker.declaredTypes.insert declaration.name declared }
        else bindType declaration.name declared
        return some (body, ids)) := by
    dsimp only
    split
    · next outside =>
        refine .bind (.change (.of_eq rfl rfl rfl) fun inScope => ?_) fun _ _ _ => .pure _
        have none : c'.scopes = [] := by
          rw [← List.length_eq_zero_iff, framed.scopes.length, List.isEmpty_iff.mp outside]
          rfl
        exact absurd none (inScope rfl)
    · exact .bind (updateScope _ c') fun _ _ _ => .pure _
  refine .read (.ite (.bind (error _ _ _ c) fun _ _ _ => .pure _) ?_)
  refine .bind (fresh c) fun ids c₁ one => .bind (onTable _ c₁) fun body c₂ two => ?_
  dsimp only
  split
  · exact .bind (.pure _) fun declared c₃ three =>
      entered c₃ (one.trans (two.trans three)) declared body ids
  · exact .bind (onTable _ c₂) fun declared c₃ three =>
      entered c₃ (one.trans (two.trans three)) declared body ids

theorem declareInterface (declaration : InterfaceDeclaration) :
    Restores .names (declareInterface declaration) :=
  scopedProperty.declareInterface (fun _ _ => trivial) (reserveInterface declaration)

theorem declareValue (name : String) (id : TypeId) (location : Location) :
    Restores .names (declareValue name id location) := by
  rw [declareValue_eq]
  refine fun c => .read ?_
  have complained (taken : Bool) : Restores .names (do
      if taken then CheckM.error location .duplicateIdentifier [name]) :=
    QuietProperty.ite (error _ _ _) (pure _)
  split
  · exact .bind (updateScope _ c) fun _ c' _ => complained _ c'
  · next outside =>
      refine .bind (.change (.of_eq rfl rfl rfl) fun inScope => ?_) fun _ c' _ => complained _ c'
      exact absurd outside (inScope rfl)

theorem declareParameters (entered : List (ParameterNode × Parameter)) :
    Restores .names (declareParameters entered) := by
  induction entered with
  | nil => exact pure ()
  | cons parameter rest ih => exact bind (declareValue _ _ _) fun _ => ih

theorem noteReturn (id : TypeId) : Restores .statement (noteReturn id) := by
  rw [noteReturn_eq]
  refine change (fun c => ⟨.refl _ _, .modifyHead _ c.returns, rfl⟩) fun _ => ?_
  exact ⟨rfl, rfl, rfl, rfl⟩

end Restores

section Bodies

/-- Steps in a return context of their own, and what the context is at their end. -/
def inNewContext (declared : Option TypeId) (statements : CheckM Unit) : CheckM ReturnContext := do
  modify fun checker => { checker with returns := ⟨declared, none, false⟩ :: checker.returns }
  statements
  let context := (← get).returns.head?.getD ⟨declared, none, false⟩
  modify fun checker => { checker with returns := checker.returns.tail }
  return context

theorem checkBodyWith_eq_inNewContext (statements : CheckM Unit) (declared : Option TypeId)
    (location : Location) : checkBodyWith statements declared location = (do
      let context ← inNewContext declared statements
      match declared with
      | some id => do
          if !context.hasValue && !mayOmitValue (← CheckM.table) id then
            CheckM.error location .mustReturnValue []
          return id
      | none => return context.inferred.getD TypeId.void) := by
  simp only [checkBodyWith_eq, inNewContext, bind_assoc, pure_bind] <;> rfl

namespace Restores

/-- Steps in a return context of their own do not reach the return contexts around. -/
theorem inNewContext {scope : Bool} {statements : CheckM Unit}
    (inside : Restores ⟨scope, true⟩ statements) (declared : Option TypeId) :
    Restores ⟨scope, false⟩ (inNewContext declared statements) := by
  intro c
  have within := inside { c with returns := ⟨declared, none, false⟩ :: c.returns }
  constructor
  · intro context c' done
    obtain ⟨_, _, ⟨⟩, done⟩ := Checker.step_bind_ok done
    obtain ⟨_, c₁, ran, done⟩ := Checker.step_bind_ok done
    obtain ⟨_, _, ⟨⟩, done⟩ := Checker.step_bind_ok done
    obtain ⟨_, _, ⟨⟩, ⟨⟩⟩ := Checker.step_bind_ok done
    have framed := within.frames _ _ ran
    exact ⟨framed.scopes, .of_eq framed.returns.pop, framed.file⟩
  · intro inScope start named
    have pushed : start.NamedAs { c with returns := ⟨declared, none, false⟩ :: c.returns } :=
      named.trans ⟨rfl, rfl, rfl, rfl⟩
    refine .bind (.change named pushed) ?_
    rintro _ _ ⟨⟩
    have ran := within.names inScope start pushed
    refine .bind ran fun _ c₁ done => ?_
    have after : start.NamedAs c₁ := ran.after_step done
    have popped : start.NamedAs { c₁ with returns := c₁.returns.tail } :=
      after.trans ⟨rfl, rfl, rfl, rfl⟩
    refine .read after (.bind (.change after popped) ?_)
    rintro _ _ ⟨⟩
    exact .pure _ popped

theorem checkBodyWith {scope : Bool} {statements : CheckM Unit}
    (inside : Restores ⟨scope, true⟩ statements) (declared : Option TypeId)
    (location : Location) :
    Restores ⟨scope, false⟩ (checkBodyWith statements declared location) := by
  rw [checkBodyWith_eq_inNewContext]
  refine bind (inNewContext inside declared) fun context => ?_
  cases declared with
  | none => exact pure _
  | some id =>
      refine bind quietProperty.table fun table => ?_
      dsimp only
      split
      · exact bind (error _ _ _) fun _ => pure _
      · exact pure _

/-- The names that a function enters are entered in a scope of its own, and what it returns is
noted in a context of its own. -/
theorem checkFunctionWith {statements : CheckM Unit} (inside : Restores .statement statements)
    (context : Option FunctionType) (node : FunctionNode) :
    Restores .expression (checkFunctionWith statements context node) := by
  have everywhere {locations : List Location} : ∀ l ∈ locations, True := fun _ _ => trivial
  have written := scopedProperty
  have whole : StructuralTyping.checkFunctionWith statements context node = (do
      let signature ← StructuralTyping.inNewScope (do
        let ids ← declareTypeParameters node.typeParameters
        let resolved ← resolveParameters context 0 node.parameters
        StructuralTyping.declareParameters (node.parameters.zip resolved)
        let declared ← StructuralTyping.resolveOptionalType node.returnType
        let result ← StructuralTyping.checkBodyWith statements declared node.location
        return (⟨ids, resolved, result⟩ : FunctionType))
      addType (.function signature)) := by
    simp only [StructuralTyping.checkFunctionWith, StructuralTyping.inNewScope, bind_assoc,
      pure_bind]
  rw [whole]
  refine bind (@inNewScope _ false _ ?_) fun signature => onTable _
  refine bind (written.declareTypeParameters _ everywhere) fun ids => ?_
  refine bind (within (written.resolveParameters _ _ _ everywhere)) fun resolved => ?_
  refine bind (declareParameters _) fun _ => ?_
  refine bind (within (resolveOptionalType _)) fun declared => ?_
  exact bind (checkBodyWith inside _ _) fun _ => pure _

theorem blockProperty :
    BlockProperty false (fun _ => True) (Restores .expression) (Restores .statement) where
  toQuietProperty := quietProperty
  checkConstraint _ _ _ _ _ := checkConstraint _ _ _ _
  resolveType node _ := scopedProperty.resolveType node fun _ _ => trivial
  fail _ _ _ := throw _
  within := within
  next := bind
  readingWithin _ := read
  declareValue _ _ _ _ := (declareValue _ _ _).mono ⟨id, nofun⟩
  bindValue _ _ := (updateScope _).mono ⟨id, nofun⟩
  noteReturn := noteReturn
  declareInterface declaration _ := (declareInterface declaration).mono ⟨id, nofun⟩
  checkFunctionWith context node _ inside := checkFunctionWith inside context node

end Restores

variable {types : FunctionTypes}

/-- The frames are put aside for the body, and taken up again. The body has a scope, so it does not
reach the top level. -/
theorem RestoresFrom.checkEntered (known : ∀ index, Restores .expression (types index))
    {outside : Checker} (framed : outside.FramedAs .expression c) (f : DeclaredFunction) :
    RestoresFrom .expression c (checkEntered types outside f) := by
  have opened : Restores .names (checkOpened types f) :=
    .bind (.declareParameters _) fun _ =>
      .checkBodyWith
        (Restores.blockProperty.checkStatements known _ ⟨nofun, fun _ _ => trivial⟩) _ _
  have finished (result : TypeId) : Restores .expression (finishBody f result) := by
    rw [finishBody]
    cases f.type with
    | some id => exact .pure id
    | none => exact .onTable _
  set entered : Checker :=
    { c with scopes := [functionScope f], returns := [], currentFile := f.file }
  rw [checkEntered_eq]
  constructor
  · intro a c' done
    obtain ⟨_, _, ⟨⟩, done⟩ := Checker.step_bind_ok done
    obtain ⟨result, c₁, -, done⟩ := Checker.step_bind_ok done
    obtain ⟨_, _, ⟨⟩, done⟩ := Checker.step_bind_ok done
    have back : c.FramedAs .expression { c₁ with
        scopes := outside.scopes
        returns := outside.returns
        currentFile := outside.currentFile } :=
      .of_eq framed.scopes.eq.symm framed.returns.eq.symm framed.file.symm
    exact back.trans ((finished result _).frames _ _ done)
  · intro _ start named
    have begun : start.NamedAs entered := named.trans ⟨rfl, rfl, rfl, rfl⟩
    refine .bind (.change named begun) ?_
    rintro _ _ ⟨⟩
    have ran := (opened entered).names (fun _ => List.cons_ne_nil _ _) start begun
    refine .bind ran fun result c₁ done => ?_
    have after : start.NamedAs c₁ := ran.after_step done
    have left : start.NamedAs { c₁ with
        scopes := outside.scopes
        returns := outside.returns
        currentFile := outside.currentFile } :=
      after.trans ⟨rfl, rfl, rfl, rfl⟩
    refine .bind (.change after left) ?_
    rintro _ _ ⟨⟩
    exact (finished result _).names (fun filled => absurd filled Bool.false_ne_true) start left

theorem Restores.checkFunctionBody (known : ∀ index, Restores .expression (types index))
    (index : Nat) : Restores .expression (checkFunctionBody types index) := by
  have noted (change : DeclaredFunction → DeclaredFunction) :
      Restores .expression (updateFunction index change) :=
    .change (fun _ => .of_eq rfl rfl rfl) fun _ => ⟨rfl, rfl, rfl, rfl⟩
  rw [checkFunctionBody_eq]
  refine fun c => .read ?_
  split
  · exact .pure ()
  · next f _ =>
      refine .ite (.pure ()) (.bind (noted _ c) fun _ c₁ framed => ?_)
      exact .bind (.checkEntered known framed f) fun _ c₂ _ => noted _ c₂

theorem bodyProperty_restores : BodyProperty (fun (_ : Unit) _ => True)
    (fun _ => Restores .expression) fun _ => Restores .statement where
  tree _ := Restores.blockProperty
  checkFunctionBody known _ := .checkFunctionBody (known ())

end Bodies

section Isolation

/-- The checker in another place of the program. -/
def Checker.standing (c : Checker) (scopes : List Scope) (returns : List ReturnContext)
    (file : Option String) : Checker :=
  { c with scopes := scopes, returns := returns, currentFile := file }

theorem Checker.standing_standing (c : Checker) (scopes scopes' : List Scope)
    (returns returns' : List ReturnContext) (file file' : Option String) :
    (c.standing scopes returns file).standing scopes' returns' file' =
      c.standing scopes' returns' file' := rfl

theorem Checker.withFunction_standing (c : Checker) (scopes : List Scope)
    (returns : List ReturnContext) (file : Option String) (index : Nat)
    (change : DeclaredFunction → DeclaredFunction) :
    (c.standing scopes returns file).withFunction index change =
      (c.withFunction index change).standing scopes returns file := rfl

/-- What a step has come to, taken back to another place. A step that fails does not come back. -/
def backAt {α : Type} (scopes : List Scope) (returns : List ReturnContext)
    (file : Option String) : Except CheckError α × Checker → Except CheckError α × Checker
  | (.ok a, after) => (.ok a, after.standing scopes returns file)
  | (.error cause, after) => (.error cause, after)

/-- The step does the same wherever it stands. -/
def Unplaced {α : Type} (m : CheckM α) : Prop :=
  ∀ (c : Checker) (scopes : List Scope) (returns : List ReturnContext) (file : Option String),
    (c.standing scopes returns file).step m = backAt scopes returns file (c.step m)

namespace Unplaced

theorem pure (a : α) : Unplaced (pure a) := fun _ _ _ _ => rfl

theorem bind {m : CheckM α} {k : α → CheckM β} (first : Unplaced m) (next : ∀ a, Unplaced (k a)) :
    Unplaced (m >>= k) := by
  intro c scopes returns file
  rw [Checker.step_bind, Checker.step_bind, first]
  match c.step m with
  | (.ok a, between) => exact next a between scopes returns file
  | (.error _, _) => rfl

theorem read {k : Checker → CheckM α}
    (placed : ∀ (c : Checker) scopes returns file, k (c.standing scopes returns file) = k c)
    (next : ∀ c, Unplaced (k c)) : Unplaced (get >>= k) := by
  intro c scopes returns file
  have here := next c c scopes returns file
  rw [Checker.step_bind, Checker.step_bind, Checker.step_get, Checker.step_get]
  dsimp only
  rw [placed, here]

theorem ite {p : Prop} [Decidable p] {yes no : CheckM α} (one : Unplaced yes) (two : Unplaced no) :
    Unplaced (if p then yes else no) := by
  split
  · exact one
  · exact two

theorem onTable (action : TableM α) : Unplaced (onTable action) := fun _ _ _ _ => rfl

/-- A body is checked in the scope of its function and in its file, whoever asks for it. -/
theorem step_checkEntered (types : FunctionTypes) (f : DeclaredFunction) (outside c : Checker)
    (scopes : List Scope) (returns : List ReturnContext) (file : Option String) :
    (c.standing scopes returns file).step
        (checkEntered types (outside.standing scopes returns file) f) =
      backAt scopes returns file (c.step (checkEntered types outside f)) := by
  have finished (result : TypeId) : Unplaced (finishBody f result) := by
    rw [finishBody]
    cases f.type with
    | some id => exact pure id
    | none => exact onTable _
  have entered (scopes : List Scope) (returns : List ReturnContext) (file : Option String)
      (c : Checker) :
      c.step (enterBody scopes returns file) = (.ok (), c.standing scopes returns file) := rfl
  rw [checkEntered_eq, checkEntered_eq, Checker.step_bind, Checker.step_bind, entered, entered]
  dsimp only
  rw [Checker.step_bind, Checker.step_bind, Checker.standing_standing]
  rcases (c.standing [functionScope f] [] f.file).step (checkOpened types f) with
    ⟨_ | result, between⟩
  · rfl
  · dsimp only
    rw [Checker.step_bind, Checker.step_bind, entered, entered]
    dsimp only
    exact finished result (between.standing outside.scopes outside.returns outside.currentFile)
      scopes returns file

theorem checkFunctionBody (types : FunctionTypes) (index : Nat) :
    Unplaced (checkFunctionBody types index) := by
  intro c scopes returns file
  rw [checkFunctionBody_eq, Checker.step_bind, Checker.step_bind, Checker.step_get,
    Checker.step_get]
  dsimp only
  rw [show (c.standing scopes returns file).functions = c.functions from rfl]
  split
  · rfl
  · next f _ =>
      split
      · rfl
      · have entered := step_checkEntered types f c (c.withFunction index beginBody) scopes returns
          file
        rw [Checker.step_bind, Checker.step_bind, Checker.step_updateFunction,
          Checker.step_updateFunction, Checker.withFunction_standing]
        dsimp only
        rw [Checker.step_bind, Checker.step_bind, entered]
        match (c.withFunction index beginBody).step (checkEntered types c f) with
        | (.ok _, _) => rfl
        | (.error _, _) => rfl

theorem functionTypeWithin (fuel index : Nat) : Unplaced (functionTypeWithin fuel index) := by
  cases fuel with
  | zero => exact pure _
  | succ fuel =>
      rw [StructuralTyping.functionTypeWithin]
      refine read (fun _ _ _ _ => rfl) fun c => ?_
      split
      · exact pure _
      · split
        · exact pure _
        · refine ite (pure _) (bind (checkFunctionBody _ index) fun _ => ?_)
          exact read (fun _ _ _ _ => rfl) fun _ => pure _

theorem functionType (index : Nat) : Unplaced (functionType index) :=
  read (fun _ _ _ _ => rfl) fun _ => functionTypeWithin _ index

end Unplaced

end Isolation

/-- How the type of a top-level function is got in a run: from the top level, or from the check of
another body. -/
inductive FunctionTypes.InRun : FunctionTypes → Prop where
  | outermost : InRun functionType
  | nested (fuel : Nat) : InRun (functionTypeWithin fuel)

namespace FunctionTypes.InRun

variable {types : FunctionTypes}

theorem restores : InRun types → ∀ index, Restores .expression (types index)
  | .outermost => bodyProperty_restores.functionType ()
  | .nested fuel => bodyProperty_restores.functionTypeWithin () fuel

theorem unplaced : InRun types → ∀ index, Unplaced (types index)
  | .outermost => .functionType
  | .nested fuel => .functionTypeWithin fuel

end FunctionTypes.InRun

/-- Whatever the checker, a check that succeeds finds again what was around it. An expression
leaves the scopes, the return contexts and the file as they were, and a statement leaves the
stacks as deep as they were and changes the innermost frames at most. What a reference to a
top-level function makes of its body is the same for all scopes, return contexts and files at the
place of the reference: the type, the diagnostics, and everything else that the checker holds. -/
theorem checks_balanced {types : FunctionTypes} (inRun : FunctionTypes.InRun types) (c : Checker) :
    (∀ context expression id c', c.step (checkExpression types context expression) = (.ok id, c') →
      c'.scopes = c.scopes ∧ c'.returns = c.returns ∧ c'.currentFile = c.currentFile) ∧
    (∀ statement c', c.step (checkStatement types statement) = (.ok (), c') →
      c.FramedAs .statement c') ∧
    (∀ cursor statement next c',
      c.step (checkTopLevelStatement cursor statement) = (.ok next, c') →
        c.FramedAs .statement c') ∧
    ∀ index scopes returns file, (c.standing scopes returns file).step (types index) =
      backAt scopes returns file (c.step (types index)) := by
  have known := inRun.restores
  have tree := Restores.blockProperty
  refine ⟨fun context expression id c' done => ?_, fun statement c' done => ?_,
    fun cursor statement next c' done => ?_, fun index => inRun.unplaced index c⟩
  · have checked := tree.checkExpression known context expression ⟨nofun, fun _ _ => trivial⟩
    have framed := (checked c).frames
    exact ⟨(framed _ _ done).scopes.eq, (framed _ _ done).returns.eq, (framed _ _ done).file⟩
  · exact (tree.checkStatement known statement ⟨nofun, fun _ _ => trivial⟩ c).frames _ _ done
  · exact (bodyProperty_restores.checkTopLevelStatement () cursor statement (fun _ _ => trivial)
      c).frames _ _ done

/-- `var x = f;` -/
def laterReference : Statement := .ofVariable "x" none (some (.ofName "f"))

/-- A function that refers to a later one, in whose body a name is missing. -/
def laterBody : List SourceFile :=
  [⟨"a.ts", [
    .ofFunction "g" [] [] none [laterReference],
    .ofFunction "f" [] [] none [.ofReturn (some (.identifier "y" ⟨5, 6⟩))]]⟩]

/-- Declared, and in a block of the body of the first function. -/
def inLaterBody : Checker :=
  (({ Checker.new .default with files := laterBody } : Checker).step declareAll).2.standing
    [.empty, .empty] [⟨none, none, false⟩] (some "a.ts")

/-- The body of the later function is checked because of the reference. The variable is entered in
the innermost scope, and the outer one is as it was. -/
theorem laterBody_balanced :
    ∃ c', inLaterBody.step (checkStatement functionType laterReference) = (.ok (), c') ∧
      inLaterBody.FramedAs .statement c' ∧
      c'.scopes.map (fun scope => scope.values.keys) = [["x"], []] ∧
      c'.diagnostics.toList.map Diagnostic.code = [2304] := by
  have ends : (inLaterBody.step (checkStatement functionType laterReference)).1 = .ok () := by
    decide +kernel
  have entered : (inLaterBody.step (checkStatement functionType laterReference)).2.scopes.map
      (fun scope => scope.values.keys) = [["x"], []] := by
    decide +kernel
  have reported :
      (inLaterBody.step (checkStatement functionType laterReference)).2.diagnostics.toList.map
        Diagnostic.code = [2304] := by
    decide +kernel
  cases run : inLaterBody.step (checkStatement functionType laterReference) with
  | mk outcome c' =>
      rw [run] at ends entered reported
      obtain rfl : outcome = .ok () := ends
      exact ⟨c', rfl, (checks_balanced .outermost inLaterBody).2.1 _ c' run, entered, reported⟩

end StructuralTyping
