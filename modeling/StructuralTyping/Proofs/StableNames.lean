import StructuralTyping.Proofs.BalancedChecks
import StructuralTyping.Proofs.StatementPlaces
import StructuralTyping.Proofs.TidySteps

/-! What the names at the top level stand for in the course of a run. Declaring enters functions
and the variables that bodies may see ahead, and checking enters variables; a name that is entered
already is complained about and left alone, so that no name is ever bound again. A variable with
a written type that no function shares its name with is seen by function bodies under the same
type all the time: ahead of its statement it is found among the hoisted variables, and afterwards
among the globals. -/
namespace StructuralTyping

open CheckM

section Growth

/-- There may be new entries, for these keys. -/
structure Dictionary.GrowsBy {α : Type} (new : String → Prop) (d d' : Dictionary String α) :
    Prop where
  kept : ∀ name value, d.find? name = some value → d'.find? name = some value
  others : ∀ name, ¬ new name → d'.find? name = d.find? name

namespace Dictionary.GrowsBy

variable {α : Type} {new new' : String → Prop} {d d' d'' : Dictionary String α}

theorem refl (new : String → Prop) (d : Dictionary String α) : GrowsBy new d d :=
  ⟨fun _ _ => id, fun _ _ => rfl⟩

theorem of_eq (same : d' = d) : GrowsBy new d d' := same ▸ refl new d

theorem trans (one : GrowsBy new d d') (two : GrowsBy new d' d'') : GrowsBy new d d'' where
  kept name value found := two.kept name value (one.kept name value found)
  others name old := (two.others name old).trans (one.others name old)

theorem mono (grows : GrowsBy new d d') (more : ∀ name, new name → new' name) :
    GrowsBy new' d d' :=
  ⟨grows.kept, fun name old => grows.others name fun named => old (more name named)⟩

/-- A key that is not taken may be entered. -/
theorem insert {name : String} (free : d.contains name = false) (named : new name) (value : α) :
    GrowsBy new d (d.insert name value) where
  kept other value found := by
    have apart : name ≠ other := by
      rintro rfl
      simp [Dictionary.contains, found] at free
    rw [Dictionary.find?_insert, if_neg (by simpa using apart), found]
  others other old := by
    have apart : name ≠ other := by
      rintro rfl
      exact old named
    rw [Dictionary.find?_insert, if_neg (by simpa using apart)]

end Dictionary.GrowsBy

/-- The names that may be new: at the top level, and among the variables that are seen ahead. -/
structure NewNames where
  globals : String → Prop
  hoisted : String → Prop

/-- There are more new names. -/
structure NewNames.Le (new new' : NewNames) : Prop where
  globals : ∀ name, new.globals name → new'.globals name
  hoisted : ∀ name, new.hoisted name → new'.hoisted name

/-- Every name goes on standing for what it stands for, and only these names are new. -/
structure Checker.KeepsNames (new : NewNames) (c c' : Checker) : Prop where
  globals : c.globals.GrowsBy new.globals c'.globals
  hoisted : c.hoisted.GrowsBy new.hoisted c'.hoisted
  declaredTypes : c.declaredTypes.GrowsBy (fun _ => True) c'.declaredTypes

namespace Checker.KeepsNames

variable {new new' : NewNames} {c c' c'' : Checker}

theorem refl (new : NewNames) (c : Checker) : c.KeepsNames new c :=
  ⟨.refl _ _, .refl _ _, .refl _ _⟩

theorem trans (one : c.KeepsNames new c') (two : c'.KeepsNames new c'') : c.KeepsNames new c'' :=
  ⟨one.globals.trans two.globals, one.hoisted.trans two.hoisted,
    one.declaredTypes.trans two.declaredTypes⟩

theorem mono (keeps : c.KeepsNames new c') (more : new.Le new') : c.KeepsNames new' c' :=
  ⟨keeps.globals.mono more.globals, keeps.hoisted.mono more.hoisted, keeps.declaredTypes⟩

/-- Two checkers with the names of a third one have the same names. -/
theorem of_named {start : Checker} (one : start.NamedAs c) (two : start.NamedAs c') :
    c.KeepsNames new c' where
  globals := .of_eq (two.globals.trans one.globals.symm)
  hoisted := .of_eq (two.hoisted.trans one.hoisted.symm)
  declaredTypes := .of_eq (two.declaredTypes.trans one.declaredTypes.symm)

end Checker.KeepsNames

end Growth

section Steps

/-- What is true all the way through relates each state to the next. -/
theorem CheckM.Throughout.stepsBy {required : Checker → Prop} {next : Checker → Checker → Prop}
    {α : Type} {m : CheckM α} {c : Checker} (throughout : m.Throughout required c)
    (related : ∀ a b, required a → required b → next a b) : m.StepsBy next c := by
  induction throughout with
  | pure a _ => exact .pure a _
  | throw cause _ => exact .throw cause _
  | bind _ _ first later => exact .bind first later
  | read _ _ step => exact .read step
  | change here there => exact .change (related _ _ here there)
  | onTable here there => exact .onTable (related _ _ here there)

/-- What is carried over from each state to the next is true all the way through. -/
theorem CheckM.StepsBy.throughout {required : Checker → Prop} {next : Checker → Checker → Prop}
    {α : Type} {m : CheckM α} {c : Checker} (steps : m.StepsBy next c)
    (carried : ∀ a b, next a b → required a → required b) (here : required c) :
    m.Throughout required c := by
  induction steps with
  | pure a _ => exact .pure a here
  | throw cause _ => exact .throw cause here
  | bind _ _ first later =>
      exact .bind (first here) fun a between done =>
        later a between done ((first here).after_step done)
  | read _ step => exact .read here (step here)
  | change step => exact .change here (carried _ _ step here)
  | onTable step => exact .onTable here (carried _ _ step here)

/-- From this checker, each elementary step keeps the names, and at the end the scopes are as deep
as before. -/
structure StableFrom {α : Type} (new : NewNames) (c : Checker) (m : CheckM α) : Prop where
  steps : m.StepsBy (Checker.KeepsNames new) c
  depth : ∀ a c', c.step m = (.ok a, c') → c'.scopes.length = c.scopes.length

/-- The step does so from every checker. -/
def Stable (new : NewNames) {α : Type} (m : CheckM α) : Prop := ∀ c : Checker, StableFrom new c m

variable {α β : Type} {new new' : NewNames} {c : Checker}

namespace StableFrom

theorem bind {m : CheckM α} {k : α → CheckM β} (first : StableFrom new c m)
    (next : ∀ a c', c.step m = (.ok a, c') → StableFrom new c' (k a)) :
    StableFrom new c (m >>= k) where
  steps := .bind first.steps fun a c' done => (next a c' done).steps
  depth b c'' done := by
    obtain ⟨a, c', one, two⟩ := Checker.step_bind_ok done
    exact ((next a c' one).depth b c'' two).trans (first.depth a c' one)

theorem read {k : Checker → CheckM α} (next : StableFrom new c (k c)) :
    StableFrom new c (get >>= k) :=
  ⟨.read next.steps, next.depth⟩

theorem change {f : Checker → Checker} (keeps : c.KeepsNames new (f c))
    (depth : (f c).scopes.length = c.scopes.length) :
    StableFrom new c (modify f : CheckM PUnit) where
  steps := .change keeps
  depth := by
    rintro _ _ ⟨⟩
    exact depth

/-- What keeps the names where there is a scope keeps them there. -/
theorem of_restores {reach : Reach} {m : CheckM α} (restores : RestoresFrom reach c m)
    (inScope : reach.scope = true → c.scopes ≠ []) : StableFrom new c m where
  steps := (restores.names inScope c (.refl c)).stepsBy fun _ _ => .of_named
  depth a c' done := (restores.frames a c' done).scopes.length

theorem mono {m : CheckM α} (stable : StableFrom new c m) (more : new.Le new') :
    StableFrom new' c m :=
  ⟨stable.steps.mono fun _ _ keeps => keeps.mono more, stable.depth⟩

/-- After a step that reaches nothing, the names and the scopes are the same. -/
theorem after {m : CheckM α} {k : α → CheckM β} (first : Restores .expression m)
    (next : ∀ a c', c'.scopes = c.scopes → c.NamedAs c' → StableFrom new c' (k a)) :
    StableFrom new c (m >>= k) := by
  have named := (first c).names nofun c (.refl c)
  refine .bind (.of_restores (first c) nofun) fun a c' done => next a c' ?_ (named.after_step done)
  exact ((first c).frames a c' done).scopes.eq

end StableFrom

namespace Stable

theorem of_restores {m : CheckM α} (restores : Restores .expression m) : Stable new m :=
  fun c => .of_restores (restores c) nofun

theorem pure (a : α) : Stable new (pure a) := of_restores (.pure a)

theorem throw (cause : CheckError) : Stable new (throw cause : CheckM α) :=
  of_restores (.throw cause)

theorem error (location : Location) (message : Message) (arguments : List String) :
    Stable new (error location message arguments) := of_restores (.error _ _ _)

theorem bind {m : CheckM α} {k : α → CheckM β} (first : Stable new m)
    (next : ∀ a, Stable new (k a)) : Stable new (m >>= k) :=
  fun c => (first c).bind fun a c' _ => next a c'

theorem read {k : Checker → CheckM α} (next : ∀ c, Stable new (k c)) : Stable new (get >>= k) :=
  fun c => .read (next c c)

theorem mono {m : CheckM α} (stable : Stable new m) (more : new.Le new') : Stable new' m :=
  fun c => (stable c).mono more

/-- A change of something else. -/
theorem change {f : Checker → Checker} (named : ∀ c : Checker, c.NamedAs (f c))
    (scopes : ∀ c, (f c).scopes = c.scopes) : Stable new (modify f : CheckM PUnit) :=
  fun c => .change (.of_named (.refl c) (named c)) (congrArg List.length (scopes c))

theorem setFile (file : Option String) : Stable new (setFile file) :=
  change (fun _ => ⟨rfl, rfl, rfl, rfl⟩) fun _ => rfl

theorem withinProperty : WithinProperty (fun _ => True) (Restores .expression) (Stable new) where
  toQuietProperty := Restores.quietProperty
  within := of_restores
  next := bind
  readingWithin _ := read

end Stable

end Steps

section Declaring

/-- Some statement declares a function of this name. -/
def DeclaresFunction (statements : List Statement) (name : String) : Prop :=
  ∃ node, .function name node ∈ statements

/-- Some statement declares a variable of this name. -/
def DeclaresVariable (statements : List Statement) (name : String) : Prop :=
  ∃ declaredType initializer location,
    .variable name declaredType initializer location ∈ statements

/-- The names that are new when the statements are declared. -/
def NewNames.declared (statements : List Statement) : NewNames :=
  ⟨DeclaresFunction statements, DeclaresVariable statements⟩

/-- The names that are new when the statements are checked. -/
def NewNames.checked (statements : List Statement) : NewNames :=
  ⟨DeclaresVariable statements, fun _ => False⟩

variable {α β : Type} {new : NewNames} {first second : List Statement}

theorem DeclaresFunction.mono {name : String} (declares : DeclaresFunction first name)
    (among : first ⊆ second) : DeclaresFunction second name :=
  declares.imp fun _ member => among member

theorem DeclaresVariable.mono {name : String} (declares : DeclaresVariable first name)
    (among : first ⊆ second) : DeclaresVariable second name := by
  obtain ⟨declaredType, initializer, location, member⟩ := declares
  exact ⟨declaredType, initializer, location, among member⟩

namespace NewNames

theorem declared_le (among : first ⊆ second) : (declared first).Le (declared second) :=
  ⟨fun _ declares => declares.mono among, fun _ declares => declares.mono among⟩

theorem checked_le (among : first ⊆ second) : (checked first).Le (checked second) :=
  ⟨fun _ declares => declares.mono among, fun _ => id⟩

end NewNames

/-- The signature of a function is read in a scope of its own. -/
theorem declareFunction_eq_inNewScope (name : String) (node : FunctionNode) :
    declareFunction name node = (do
      let signature ← inNewScope (do
        let ids ← declareTypeParameters node.typeParameters
        let parameters ← resolveParameters none 0 node.parameters
        let returnType ← resolveOptionalType node.returnType
        return (ids, parameters, returnType))
      let type ←
        match signature.2.2 with
        | some result => do
            let id ← addType (.function ⟨signature.1, signature.2.1, result⟩)
            pure (some id)
        | none => pure none
      enterFunction name
        ⟨node, none, signature.1, signature.2.1, signature.2.2, type, .unchecked⟩) := by
  simp only [declareFunction_eq, inNewScope, bind_assoc, pure_bind] <;> rfl

namespace Stable

/-- At the top level, an interface is entered only under a name that is free. -/
theorem reserveInterface (declaration : InterfaceDeclaration) :
    Stable new (reserveInterface declaration) := by
  intro c
  rcases outside : c.scopes with _ | ⟨scope, outer⟩
  case cons =>
    exact .of_restores (Restores.reserveInterface declaration c) fun _ => by simp [outside]
  have entered (c' : Checker) (types : c'.declaredTypes.contains declaration.name = false)
      (declared body : TypeId) (ids : List TypeId) : StableFrom new c' (do
        modify fun checker =>
          { checker with
            declaredTypes := checker.declaredTypes.insert declaration.name declared }
        return some (body, ids)) := by
    refine .bind (.change ?_ rfl) fun _ c'' _ => pure _ c''
    exact ⟨.refl _ _, .refl _ _, .insert types trivial declared⟩
  refine .read ?_
  rw [outside]
  dsimp only [List.isEmpty_nil, if_true]
  split
  · exact .bind (error _ _ _ c) fun _ c' _ => pure _ c'
  · next free =>
      have written := Restores.scopedProperty
      refine .after (written.freshTypeParameters _) fun ids c₁ _ one => ?_
      refine .after (written.addEntry .pending) fun body c₂ _ two => ?_
      split
      · refine .after (.pure _) fun declared c₃ _ three => entered c₃ ?_ declared body ids
        rw [((one.trans two).trans three).declaredTypes]
        simpa using free
      · refine .after (written.addEntry _) fun declared c₃ _ three =>
          entered c₃ ?_ declared body ids
        rw [((one.trans two).trans three).declaredTypes]
        simpa using free

theorem beginInterfaces : ∀ statements : List Statement, Stable new (beginInterfaces statements)
  | [] => pure []
  | .interface declaration :: rest => by
      rw [StructuralTyping.beginInterfaces, beginInterface_eq]
      refine bind (read fun c => bind (reserveInterface declaration) fun _ => pure _) fun _ => ?_
      exact bind (beginInterfaces rest) fun _ => pure _
  | .function _ _ :: rest
  | .variable _ _ _ _ :: rest
  | .expression _ _ :: rest
  | .returning _ _ :: rest => beginInterfaces rest

theorem beginFiles (files : List SourceFile) : Stable new (beginFiles files) := by
  induction files with
  | nil => exact pure []
  | cons file rest ih =>
      refine bind (setFile _) fun _ => bind (beginInterfaces file.statements) fun _ => ?_
      exact bind ih fun _ => pure _

theorem forInterfaces {step : PendingInterface → CheckM Unit} (each : ∀ p, Stable new (step p))
    (pending : List PendingInterface) : Stable new (forInterfaces step pending) := by
  induction pending with
  | nil => exact pure ()
  | cons p rest ih => exact bind (setFile _) fun _ => bind (each p) fun _ => ih

theorem declareInterfaces (files : List SourceFile) : Stable new (declareInterfaces files) := by
  have written := Restores.scopedProperty
  refine bind (beginFiles files) fun pending => bind (forInterfaces (fun p => ?_) pending) fun _ =>
    forInterfaces (fun p => ?_) pending
  · exact of_restores (written.constrainInterface (fun _ _ => trivial) _ _ _)
  · exact of_restores (written.completeInterface (fun _ _ => trivial) _ _ _)

/-- A function is entered only under a name that is free. -/
theorem enterFunction (name : String) {f : DeclaredFunction} (named : new.globals name) :
    Stable new (enterFunction name f) := by
  rw [enterFunction_eq]
  refine fun c => .read (.bind (.change ?_ rfl) ?_)
  · exact .of_named (.refl c) ⟨rfl, rfl, rfl, rfl⟩
  rintro _ _ ⟨⟩
  dsimp only
  split
  · exact error _ _ _ _
  · next free =>
      refine .change ⟨.insert ?_ named _, .refl _ _, .refl _ _⟩ rfl
      simpa using free

theorem declareFunction (name : String) (node : FunctionNode) (named : new.globals name) :
    Stable new (declareFunction name node) := by
  have everywhere {locations : List Location} : ∀ l ∈ locations, True := fun _ _ => trivial
  have written := Restores.scopedProperty
  have resolved : Restores .names (do
      let ids ← declareTypeParameters node.typeParameters
      let parameters ← resolveParameters none 0 node.parameters
      let returnType ← resolveOptionalType node.returnType
      return (ids, parameters, returnType)) := by
    refine .bind (written.declareTypeParameters _ everywhere) fun ids => .within ?_
    refine .bind (written.resolveParameters none 0 _ everywhere) fun parameters => ?_
    exact .bind (.resolveOptionalType node.returnType) fun returnType => .pure _
  rw [declareFunction_eq_inNewScope]
  refine bind (of_restores (.inNewScope resolved)) fun signature => ?_
  dsimp only
  split
  · refine bind (of_restores (.onTable _)) fun id => ?_
    exact bind (pure _) fun type => enterFunction name named
  · exact bind (pure none) fun type => enterFunction name named

/-- A variable is seen ahead only under a name that is free. -/
theorem enterHoisted (name : String) (declared : Option TypeId) (named : new.hoisted name) :
    Stable new (enterHoisted name declared) := by
  refine fun c => .change ⟨.refl _ _, ?_, .refl _ _⟩ rfl
  dsimp only
  split
  · exact .refl _ _
  · next free => exact .insert (by simpa using free) named _

theorem declareHoisted (name : String) (declaredType : Option TypeNode)
    (named : new.hoisted name) : Stable new (declareHoisted name declaredType) :=
  bind (of_restores (.resolveOptionalType _)) fun declared => enterHoisted name declared named

theorem declareStatements : ∀ statements : List Statement,
    Stable (.declared statements) (declareStatements statements)
  | [] => pure ()
  | .function name node :: rest =>
      bind (declareFunction name node ⟨node, List.mem_cons_self⟩) fun _ =>
        (declareStatements rest).mono (NewNames.declared_le (List.subset_cons_self _ _))
  | .variable name declaredType initializer location :: rest =>
      bind (declareHoisted name declaredType
          ⟨declaredType, initializer, location, List.mem_cons_self⟩) fun _ =>
        (declareStatements rest).mono (NewNames.declared_le (List.subset_cons_self _ _))
  | .interface _ :: rest
  | .expression _ _ :: rest
  | .returning _ _ :: rest =>
      (declareStatements rest).mono (NewNames.declared_le (List.subset_cons_self _ _))

theorem declareFiles (files : List SourceFile) :
    Stable (.declared (allStatements files)) (declareFiles files) := by
  induction files with
  | nil => exact pure ()
  | cons file rest ih =>
      have here := (declareStatements file.statements).mono
        (NewNames.declared_le (List.subset_append_left _ (allStatements rest)))
      have later := ih.mono (NewNames.declared_le (List.subset_append_right file.statements _))
      exact bind (setFile _) fun _ => bind here fun _ => later

theorem runDeferred (checks : List DeferredConstraint) : Stable new (runDeferred checks) := by
  induction checks with
  | nil => exact pure ()
  | cons check rest ih =>
      have reported : Restores .expression (reportUnsatisfied check) :=
        Restores.quietProperty.reportUnsatisfied check fun _ => .report _
      exact bind (setFile _) fun _ => bind (of_restores reported) fun _ => ih

theorem finishDeclaring : Stable new finishDeclaring := by
  refine read fun c => bind (change (fun _ => ⟨rfl, rfl, rfl, rfl⟩) fun _ => rfl) fun _ => ?_
  exact bind (runDeferred _) fun _ => setFile none

theorem declareAll (c : Checker) :
    StableFrom (.declared (allStatements c.files)) c declareAll := by
  rw [declareAll_eq]
  refine .read (bind (declareInterfaces _) (fun _ => ?_) c)
  exact bind (declareFiles c.files) fun _ => finishDeclaring

end Stable

end Declaring

section Checking
variable {new : NewNames}

namespace Stable

/-- At the top level, a variable is entered only under a name that is free. -/
theorem declareVariable (name : String) (id : TypeId) (location : Location)
    (named : new.globals name) : Stable new (declareVariable name id location) := by
  intro c
  rcases outside : c.scopes with _ | ⟨scope, outer⟩
  case cons =>
    exact .of_restores (Restores.blockProperty.enterVariable trivial name id c) fun _ => by
      simp [outside]
  refine .read ?_
  rw [outside]
  dsimp only [List.isEmpty_nil, Bool.true_and]
  split
  · exact error _ _ _ c
  · next free =>
      rw [declareValue_eq]
      refine .read ?_
      rw [outside]
      refine .bind (.change ⟨.insert ?_ named _, .refl _ _, .refl _ _⟩ rfl) fun _ c' _ => ?_
      · simpa using free
      · exact of_restores (QuietProperty.ite (.error _ _ _) (.pure ())) c'

theorem checkVariable (name : String) (declared : Option TypeId) (location : Location)
    (named : new.globals name) : ∀ initializer : Option Expression,
      Stable new (checkVariable functionType name declared location initializer)
  | none => by
      rw [StructuralTyping.checkVariable]
      exact declareVariable name _ location named
  | some initializer =>
      withinProperty.checkVariable trivial (fun _ _ => trivial)
        (Restores.blockProperty.checkExpression FunctionTypes.InRun.outermost.restores declared
          initializer ⟨nofun, fun _ _ => trivial⟩)
        fun id => declareVariable name id location named

theorem checkTopLevelStatement (cursor : TopLevelCursor) : ∀ statement : Statement,
    Stable (.checked [statement]) (checkTopLevelStatement cursor statement)
  | .interface _ => pure _
  | .function _ _ => by
      have checked := Restores.checkFunctionBody FunctionTypes.InRun.outermost.restores
      exact bind (of_restores (checked cursor.functionCount)) fun _ => pure _
  | .variable name declaredType initializer location => by
      have named : DeclaresVariable [.variable name declaredType initializer location] name :=
        ⟨declaredType, initializer, location, List.mem_singleton_self _⟩
      exact read fun c => bind (checkVariable name _ location named initializer) fun _ => pure _
  | .expression e location => by
      have known := FunctionTypes.InRun.outermost.restores
      have checked := Restores.blockProperty.checkExpression known none e
      rw [StructuralTyping.checkTopLevelStatement, checkStatement]
      refine bind (of_restores (.bind (checked ⟨nofun, fun _ _ => trivial⟩) fun _ => .pure ()))
        fun _ => pure _
      all_goals simp
  | .returning none location => by
      rw [StructuralTyping.checkTopLevelStatement, checkStatement]
      exact bind (withinProperty.checkReturn_none trivial) fun _ => pure _
      all_goals simp
  | .returning (some e) location => by
      have known := FunctionTypes.InRun.outermost.restores
      have checked (context : Option TypeId) :=
        Restores.blockProperty.checkExpression known context e ⟨nofun, fun _ _ => trivial⟩
      -- What is returned is noted in a return context, and no scope is needed for it.
      have noted (id : TypeId) :
          Stable (.checked [.returning (some e) location]) (noteReturn id) := by
        rw [noteReturn_eq]
        exact change (fun _ => ⟨rfl, rfl, rfl, rfl⟩) fun _ => rfl
      rw [StructuralTyping.checkTopLevelStatement, checkStatement]
      refine bind ?_ fun _ => pure _
      exact withinProperty.checkReturn_some trivial (fun _ _ => trivial) checked noted
      all_goals simp

theorem checkTopLevelStatements (cursor : TopLevelCursor) (statements : List Statement) :
    Stable (.checked statements) (checkTopLevelStatements cursor statements) := by
  induction statements generalizing cursor with
  | nil => exact pure cursor
  | cons statement rest ih =>
      have here := (checkTopLevelStatement cursor statement).mono
        (NewNames.checked_le (List.cons_subset_cons statement (List.nil_subset rest)))
      exact bind here fun next => (ih next).mono (NewNames.checked_le (List.subset_cons_self _ _))

theorem passFiles (cursor : TopLevelCursor) (files : List SourceFile) :
    Stable (.checked (allStatements files)) (passFiles cursor files) := by
  induction files generalizing cursor with
  | nil => exact pure cursor
  | cons file rest ih =>
      have here := (checkTopLevelStatements cursor file.statements).mono
        (NewNames.checked_le (List.subset_append_left _ (allStatements rest)))
      have later (next : TopLevelCursor) := (ih next).mono
        (NewNames.checked_le (List.subset_append_right file.statements _))
      exact bind (setFile _) fun _ => bind here later

theorem checkFiles (cursor : TopLevelCursor) (files : List SourceFile) :
    Stable (.checked (allStatements files)) (checkFiles cursor files) := by
  have whole := checkFiles_append cursor files []
  rw [List.append_nil] at whole
  rw [whole]
  exact bind (passFiles cursor files) fun _ => pure ()

theorem checkDeclared (c : Checker) :
    StableFrom (.checked (allStatements c.files)) c checkDeclared := by
  refine .bind (.change (.of_named (.refl c) ?_) rfl) ?_
  · exact ⟨rfl, rfl, rfl, rfl⟩
  rintro _ _ ⟨⟩
  refine .read (bind (checkFiles _ _) (fun _ => ?_) _)
  exact change (fun _ => ⟨rfl, rfl, rfl, rfl⟩) fun _ => rfl

theorem declareSourceFile (file : SourceFile) : Stable new (declareSourceFile file) := by
  refine read fun c => ?_
  split
  · exact throw _
  · exact change (fun _ => ⟨rfl, rfl, rfl, rfl⟩) fun _ => rfl

theorem declareSourceFiles (files : List SourceFile) :
    Stable new (forIn files PUnit.unit fun file _ => do
      StructuralTyping.declareSourceFile file
      Pure.pure (ForInStep.yield PUnit.unit)) := by
  induction files with
  | nil => exact pure _
  | cons file rest ih =>
      rw [List.forIn_cons, bind_assoc]
      exact bind (declareSourceFile file) fun _ => ih

/-- All names may be new in a run. -/
theorem declareAndCheck (files : List SourceFile) :
    Stable ⟨fun _ => True, fun _ => True⟩ (declareAndCheck files) := by
  refine bind (declareSourceFiles files) fun _ => read fun c => ?_
  split
  · exact throw _
  · refine bind (fun c => (declareAll c).mono ⟨fun _ _ => trivial, fun _ _ => trivial⟩) ?_
    intro _ c'
    exact (checkDeclared c').mono ⟨fun _ _ => trivial, fun _ _ => trivial⟩

end Stable

end Checking

section References

/-- Function bodies see this type under the name, whether its variable is entered yet or not. -/
structure Checker.Shows (name : String) (type : TypeId) (c : Checker) : Prop where
  hoisted : c.hoisted.find? name = some type
  globals : ∀ symbol, c.globals.find? name = some symbol → symbol = .variable type

variable {name : String} {type : TypeId} {c c' : Checker} {α : Type} {m : CheckM α}

namespace Checker.Shows

theorem named (shows : c.Shows name type) (same : c.NamedAs c') : c'.Shows name type :=
  ⟨same.hoisted ▸ shows.hoisted, same.globals ▸ shows.globals⟩

/-- Where the variable is not entered, it must not become anything else. -/
theorem keeps {new : NewNames} (shows : c.Shows name type) (old : ¬ new.globals name)
    (kept : c.KeepsNames new c') : c'.Shows name type :=
  ⟨kept.hoisted.kept _ _ shows.hoisted, by rw [kept.globals.others name old]; exact shows.globals⟩

/-- Where the variable is entered, it stays what it is. -/
theorem entered {new : NewNames} (shows : c.Shows name type)
    (bound : c.globals.find? name = some (.variable type)) (kept : c.KeepsNames new c') :
    c'.Shows name type where
  hoisted := kept.hoisted.kept _ _ shows.hoisted
  globals symbol found := by
    rw [kept.globals.kept _ _ bound] at found
    exact (Option.some.inj found).symm

theorem throughout (shows : c.Shows name type) (restores : Restores .expression m) :
    m.Throughout (Checker.Shows name type) c :=
  ((restores c).names nofun c (.refl c)).mono fun _ same => shows.named same

/-- A reference in a function body gets the type, if no block around it has the name. -/
theorem reference (shows : c.Shows name type) (inBody : c.returns ≠ [])
    (visible : findValue? name c.scopes = none) (types : FunctionTypes) (context : Option TypeId)
    (location : Location) :
    c.step (checkExpression types context (.identifier name location)) = (.ok type, c) := by
  rw [checkExpression, checkIdentifier, Checker.step_bind, Checker.step_get]
  dsimp only
  rw [visible]
  dsimp only
  cases entered : c.globals.find? name with
  | some symbol =>
      obtain rfl := shows.globals symbol entered
      rfl
  | none =>
      rw [List.isEmpty_eq_false_iff.mpr inBody, if_neg Bool.false_ne_true, shows.hoisted]
      rfl

end Checker.Shows

/-- A variable of a new name at the top level. -/
theorem step_declareVariable (outside : c.scopes = []) (free : c.globals.find? name = none)
    (id : TypeId) (location : Location) :
    c.step (declareVariable name id location) =
      (.ok (), { c with globals := c.globals.insert name (.variable id) }) := by
  have absent : c.globals.contains name = false := by rw [Dictionary.contains, free]; rfl
  rw [declareVariable, Checker.step_bind, Checker.step_get]
  dsimp only
  rw [absent, Bool.and_false, if_neg Bool.false_ne_true, declareValue_eq, Checker.step_bind,
    Checker.step_get]
  dsimp only
  split
  · next inside => exact absurd (outside.symm.trans inside) (List.cons_ne_nil _ _).symm
  · rw [absent]
    rfl

theorem find?_declareVariable (outside : c.scopes = []) (free : c.globals.find? name = none)
    {id : TypeId} {location : Location} {c' : Checker}
    (done : c.step (declareVariable name id location) = (.ok (), c')) :
    c'.globals.find? name = some (.variable id) := by
  have bound := step_declareVariable outside free id location
  obtain ⟨-, rfl⟩ := Prod.mk.inj (bound.symm.trans done)
  exact (Dictionary.find?_insert ..).trans (if_pos (by simp))

theorem throughout_declareVariable (shows : c.Shows name type) (outside : c.scopes = [])
    (free : c.globals.find? name = none) (location : Location) :
    (declareVariable name type location).Throughout (Checker.Shows name type) c := by
  have absent : c.globals.contains name = false := by rw [Dictionary.contains, free]; rfl
  rw [declareVariable]
  refine .read shows ?_
  rw [absent, Bool.and_false, if_neg Bool.false_ne_true, declareValue_eq]
  refine .read shows ?_
  rw [outside, absent]
  refine .bind (.change shows ⟨shows.hoisted, fun symbol found => ?_⟩) ?_
  · rw [Dictionary.find?_insert, if_pos (by simp)] at found
    exact (Option.some.inj found).symm
  · rintro _ _ ⟨⟩
    refine .pure () ⟨shows.hoisted, fun symbol found => ?_⟩
    rw [Dictionary.find?_insert, if_pos (by simp)] at found
    exact (Option.some.inj found).symm

/-- The check of an initializer against the type of its variable. -/
def checkInitializer (type : TypeId) (location : Location) (initializer : Expression) :
    CheckM Unit := do
  let id ← checkExpression functionType (some type) initializer
  let _ ← checkAssignment initializer id type location .notAssignable

theorem Restores.checkInitializer (type : TypeId) (location : Location)
    (initializer : Expression) :
    Restores .expression (checkInitializer type location initializer) := by
  have known := FunctionTypes.InRun.outermost.restores
  refine .bind (Restores.blockProperty.checkExpression known _ _ ⟨nofun, fun _ _ => trivial⟩)
    fun id => .bind ?_ fun _ => .pure ()
  exact Restores.quietProperty.checkAssignment trivial (fun _ _ => trivial) id type (by decide)

theorem checkVariable_some (location : Location) (initializer : Expression) :
    checkVariable functionType name (some type) location (some initializer) = (do
      checkInitializer type location initializer
      declareVariable name type location) := by
  rw [checkVariable]
  simp only [checkInitializer, bind_assoc, pure_bind]

/-- The statement that enters the variable. -/
theorem checkVariable_shows (shows : c.Shows name type) (outside : c.scopes = [])
    (free : c.globals.find? name = none) (location : Location) :
    ∀ initializer : Option Expression,
      (checkVariable functionType name (some type) location initializer).Throughout
          (Checker.Shows name type) c ∧
        ∀ c', c.step (checkVariable functionType name (some type) location initializer) =
          (.ok (), c') → c'.globals.find? name = some (.variable type)
  | none => by
      rw [checkVariable]
      exact ⟨throughout_declareVariable shows outside free location,
        fun _ done => find?_declareVariable outside free done⟩
  | some initializer => by
      have checked := Restores.checkInitializer type location initializer
      have entered (c₁ : Checker)
          (done : c.step (checkInitializer type location initializer) = (.ok (), c₁)) :
          c.NamedAs c₁ ∧ c₁.scopes = [] ∧ c₁.globals.find? name = none := by
        have named := ((checked c).names nofun c (.refl c)).after_step done
        refine ⟨named, ?_, named.globals ▸ free⟩
        exact ((checked c).frames _ _ done).scopes.eq.trans outside
      rw [checkVariable_some]
      refine ⟨.bind (shows.throughout checked) fun _ c₁ done => ?_, fun c' done => ?_⟩
      · obtain ⟨named, outside, free⟩ := entered c₁ done
        exact throughout_declareVariable (shows.named named) outside free location
      · obtain ⟨_, c₁, done, last⟩ := Checker.step_bind_ok done
        obtain ⟨-, outside, free⟩ := entered c₁ done
        exact find?_declareVariable outside free last

end References

section Places

/-- The walk over what is checked up to the statement. -/
def Place.passEarlier (p : Place) : CheckM TopLevelCursor := do
  let cursor ← passFiles ⟨0, 0⟩ p.before
  setFile (some p.file)
  checkTopLevelStatements cursor p.earlier

theorem Place.checkFiles_split (p : Place) : (do
    checkFiles ⟨0, 0⟩ p.files
    modify fun checker => { checker with currentFile := none, phase := .done } : CheckM Unit) = (do
    let cursor ← p.passEarlier
    let next ← checkTopLevelStatement cursor p.statement
    p.checkLater next) := by
  simp only [checkFiles_files, passEarlier, checkLater, bind_assoc]

namespace Stable

variable (p : Place)

theorem declareEarlier : Stable (.declared p.passed) p.declareEarlier := by
  refine bind (declareInterfaces _) fun _ => bind ?_ fun _ => bind (setFile _) fun _ => ?_
  · exact (declareFiles p.before).mono
      (NewNames.declared_le (List.subset_append_left _ p.earlier))
  · exact (declareStatements p.earlier).mono
      (NewNames.declared_le (List.subset_append_right (allStatements p.before) _))

theorem declareLater : Stable (.declared (p.later ++ allStatements p.after)) p.declareLater := by
  refine bind ?_ fun _ => bind ?_ fun _ => finishDeclaring
  · exact (declareStatements p.later).mono
      (NewNames.declared_le (List.subset_append_left _ (allStatements p.after)))
  · exact (declareFiles p.after).mono
      (NewNames.declared_le (List.subset_append_right p.later _))

theorem passEarlier : Stable (.checked p.passed) p.passEarlier := by
  refine bind ?_ fun _ => bind (setFile _) fun _ => ?_
  · exact (passFiles ⟨0, 0⟩ p.before).mono
      (NewNames.checked_le (List.subset_append_left _ p.earlier))
  · exact (checkTopLevelStatements _ p.earlier).mono
      (NewNames.checked_le (List.subset_append_right (allStatements p.before) _))

theorem checkLater (cursor : TopLevelCursor) :
    Stable (.checked (p.later ++ allStatements p.after)) (p.checkLater cursor) := by
  refine bind ?_ fun _ => bind ?_ fun _ => ?_
  · exact (checkTopLevelStatements _ p.later).mono
      (NewNames.checked_le (List.subset_append_left _ (allStatements p.after)))
  · exact (checkFiles _ p.after).mono
      (NewNames.checked_le (List.subset_append_right p.later _))
  · exact change (fun _ => ⟨rfl, rfl, rfl, rfl⟩) fun _ => rfl

end Stable

/-- The names after a step that succeeds. -/
theorem StableFrom.keeps {α : Type} {new : NewNames} {c c' : Checker} {m : CheckM α}
    {outcome : Except CheckError α} (stable : StableFrom new c m)
    (done : c.step m = (outcome, c')) : c.KeepsNames new c' := by
  have kept := stable.steps.after (.refl new) fun _ _ _ => .trans
  rwa [done] at kept

theorem StableFrom.outside {α : Type} {new : NewNames} {c c' : Checker} {m : CheckM α} {a : α}
    (stable : StableFrom new c m) (outside : c.scopes = []) (done : c.step m = (.ok a, c')) :
    c'.scopes = [] := by
  rw [← List.length_eq_zero_iff, stable.depth a c' done, outside]
  rfl

variable {p : Place} {options : CheckerOptions} {name : String} {node : TypeNode}
  {initializer : Option Expression} {location : Location} {c : Checker}
  (here : p.statement = .variable name (some node) initializer location)
  (first : ¬ DeclaresVariable p.passed name)
  (declared : ({ Checker.new options with files := p.files } : Checker).step declareAll =
    (.ok (), c))

include here first declared

/-- When everything is declared, bodies see the first variable of a name under the type that is
written of it, resolved where it stands. The name is free at the top level, if no function has
it. -/
theorem Place.declares (unshared : ¬ DeclaresFunction (allStatements p.files) name) :
    ∃ type before between,
      ({ Checker.new options with files := p.files } : Checker).step p.declareEarlier =
          (.ok (), before) ∧
        before.step (resolveType node) = (.ok type, between) ∧
        c.Shows name type ∧ c.globals.find? name = none := by
  set start : Checker := { Checker.new options with files := p.files }
  have free : c.globals.find? name = none :=
    ((Stable.declareAll start).keeps declared).globals.others name unshared
  rw [p.step_declareAll rfl, here] at declared
  obtain ⟨_, before, ran, rest⟩ := Checker.step_bind_ok declared
  obtain ⟨_, between, placed, rest⟩ := Checker.step_bind_ok rest
  obtain ⟨_, _, hoisted, ⟨⟩⟩ := Checker.step_bind_ok placed
  obtain ⟨_, resolved, done, ⟨⟩⟩ := Checker.step_bind_ok hoisted
  obtain ⟨type, _, written, ⟨⟩⟩ := Checker.step_bind_ok done
  refine ⟨type, before, _, ran, written, ⟨?_, fun symbol found => ?_⟩, free⟩
  · have unseen : before.hoisted.find? name = none :=
      ((Stable.declareEarlier p start).keeps ran).hoisted.others name first
    have named := (Restores.resolveOptionalType (some node) before).names nofun before (.refl _)
    refine ((Stable.declareLater p _).keeps rest).hoisted.kept name type ?_
    dsimp only
    rw [(named.after_step done).hoisted, Dictionary.contains, unseen]
    simp
  · rw [free] at found
    cases found

omit first in
/-- When the walk comes to the statement, the type that was resolved for it is the next one. -/
theorem Place.noted {type : TypeId} {before between c₁ : Checker} {cursor : TopLevelCursor}
    (ran : ({ Checker.new options with files := p.files } : Checker).step p.declareEarlier =
      (.ok (), before))
    (written : before.step (resolveType node) = (.ok type, between))
    (arrived : ({ c with phase := .checking } : Checker).step p.passEarlier = (.ok cursor, c₁)) :
    c₁.variableTypes[cursor.variableCount]? = some (some type) := by
  have reached : ({ Checker.new options with files := p.files } : Checker).step p.arrive =
      (.ok cursor, c₁) := by
    rw [p.step_arrive rfl, Checker.step_bind, declared]
    exact arrived
  obtain ⟨before', same, -, entered⟩ := p.arrives options reached
  obtain rfl : before = before' := (Prod.mk.inj (ran.symm.trans same)).2
  rw [here] at entered
  obtain ⟨_, _, done, found⟩ := entered
  rw [resolveOptionalType, Checker.step_bind, written] at done
  obtain ⟨⟨⟩, -⟩ := Prod.mk.inj done
  exact found

/-- From there on, bodies see the variable under this type all the time. -/
theorem Place.checks {type : TypeId} {before between : Checker}
    (ran : ({ Checker.new options with files := p.files } : Checker).step p.declareEarlier =
      (.ok (), before))
    (written : before.step (resolveType node) = (.ok type, between))
    (shows : c.Shows name type) (free : c.globals.find? name = none) :
    checkDeclared.Throughout (Checker.Shows name type) c := by
  set start : Checker := { Checker.new options with files := p.files }
  have registered : c.files = p.files :=
    (enters_declareAll (lists_new options p.files) declared).1.files
  set checking : Checker := { c with phase := .checking }
  have began : checking.Shows name type := ⟨shows.hoisted, shows.globals⟩
  refine .bind (.change shows began) ?_
  rintro _ _ ⟨⟩
  refine .read began ?_
  change CheckM.Throughout (Checker.Shows name type) (do
    checkFiles ⟨0, 0⟩ c.files
    modify fun checker => { checker with currentFile := none, phase := .done } : CheckM Unit)
    checking
  rw [registered, Place.checkFiles_split]
  -- Up to the statement, the name stays free.
  have passed := Stable.passEarlier p checking
  refine .bind (passed.steps.throughout (fun _ _ kept shows => shows.keeps first kept) began) ?_
  intro cursor c₁ arrived
  have kept := passed.keeps arrived
  have shows₁ : c₁.Shows name type := began.keeps first kept
  have free₁ : c₁.globals.find? name = none := (kept.globals.others name first).trans free
  have outside : c.scopes = [] := (Stable.declareAll start).outside rfl declared
  have outside₁ : c₁.scopes = [] := passed.outside outside arrived
  -- The statement enters the variable under the type that was resolved for it.
  have resolved := Place.noted here declared ran written arrived
  have placed := checkVariable_shows shows₁ outside₁ free₁ location initializer
  rw [here]
  refine .bind (.read shows₁ (.bind ?_ fun _ c₂ done => .pure _ ?_)) fun next c₂ done => ?_
  · rw [resolved]
    exact placed.1
  · rw [resolved] at done
    exact placed.1.after_step done
  -- From then on, the name stands for it.
  obtain ⟨_, _, ⟨⟩, done⟩ := Checker.step_bind_ok done
  obtain ⟨_, c₃, done, ⟨⟩⟩ := Checker.step_bind_ok done
  rw [resolved] at done
  have bound := placed.2 c₂ done
  have carried (a b : Checker)
      (kept : a.KeepsNames (.checked (p.later ++ allStatements p.after)) b)
      (both : a.Shows name type ∧ a.globals.find? name = some (.variable type)) :
      b.Shows name type ∧ b.globals.find? name = some (.variable type) :=
    ⟨both.1.entered both.2 kept, kept.globals.kept _ _ both.2⟩
  have both := And.intro (placed.1.after_step done) bound
  exact ((Stable.checkLater p _ c₂).steps.throughout carried both).mono fun _ both => both.1

end Places

/-- What a name at the top level stands for, a function, a variable or an interface, it goes on
standing for. -/
def Checker.NamesStay (c c' : Checker) : Prop :=
  (∀ name symbol, c.globals.find? name = some symbol → c'.globals.find? name = some symbol) ∧
    ∀ name id, c.declaredType? name = some id → c'.declaredType? name = some id

/-- A body that is checked ahead of the variable it refers to, in the initializer of another one. -/
def aheadOfVariable : Place where
  before := []
  file := "a.ts"
  earlier := [
    .ofFunction "f" [] [] none [.ofReturn (some (.ofName "x"))],
    .ofVariable "y" none (some (.ofCall (.ofName "f") [] []))]
  statement := .ofVariable "x" (some (.ofKeyword .number)) (some (.ofCall (.ofName "f") [] []))
  later := [.ofVariable "x" (some (.ofKeyword .string)) none]
  after := []

end StructuralTyping
