import StructuralTyping.Proofs.Constructors
import StructuralTyping.Proofs.QueryInvariants
import StructuralTyping.Proofs.Steps

/-! What a step of a run looks up. A step looks inside if it is put together from steps that
do not tell what stands behind the ends of the table, of the list of functions, and of the
list of written types. What keeps a run inside is an invariant of the checker: every type
that it holds is an entry, and every function that it refers to is declared. -/
namespace StructuralTyping

open CheckM
open TableM (Asks)
open TypeTable

/-- What may stand behind the ends of the table and of the lists of a checker. -/
structure Beyond where
  entries : Array TypeKind
  functions : Array DeclaredFunction
  variableTypes : Array (Option TypeId)

/-- As much stands behind every end. -/
structure Beyond.AsMuch (b b' : Beyond) : Prop where
  entries : b.entries.size = b'.entries.size
  functions : b.functions.size = b'.functions.size
  variableTypes : b.variableTypes.size = b'.variableTypes.size

namespace Checker

variable {c : Checker}

/-- The checker with something behind its ends. -/
def followedBy (c : Checker) (b : Beyond) : Checker :=
  { c with
    table := c.table.followedBy b.entries
    functions := c.functions ++ b.functions
    variableTypes := c.variableTypes ++ b.variableTypes }

/-- What is read of the checker does not tell what stands behind its ends. -/
def ReadsInside {β : Type} (c : Checker) (read : Checker → β) : Prop :=
  ∀ b b' : Beyond, b.AsMuch b' → read (c.followedBy b) = read (c.followedBy b')

theorem ReadsInside.of_same {β : Type} {read : Checker → β}
    (same : ∀ b, read (c.followedBy b) = read c) : c.ReadsInside read :=
  fun b b' _ => (same b).trans (same b').symm

theorem getElem?_functions_followedBy (b : Beyond) {index : Nat}
    (inside : index < c.functions.size) :
    (c.followedBy b).functions[index]? = c.functions[index]? :=
  Array.getElem?_append_left inside

theorem getElem?_variableTypes_followedBy (b : Beyond) {index : Nat}
    (inside : index < c.variableTypes.size) :
    (c.followedBy b).variableTypes[index]? = c.variableTypes[index]? :=
  Array.getElem?_append_left inside

end Checker

/-- From this checker, the step looks up nothing but entries, declared functions and written
types. -/
inductive CheckM.LooksInside : {α : Type} → CheckM α → Checker → Prop where
  | pure {α : Type} (a : α) (c : Checker) : CheckM.LooksInside (pure a) c
  | throw {α : Type} (cause : CheckError) (c : Checker) :
      CheckM.LooksInside (throw cause : CheckM α) c
  | bind {α β : Type} {m : CheckM α} {k : α → CheckM β} {c : Checker} : CheckM.LooksInside m c →
      (∀ a c', c.step m = (.ok a, c') → CheckM.LooksInside (k a) c') →
        CheckM.LooksInside (m >>= k) c
  | read {α : Type} {k : Checker → CheckM α} {c : Checker} : c.ReadsInside k →
      CheckM.LooksInside (k c) c → CheckM.LooksInside (get >>= k) c
  /-- A change leaves alone what stands behind the ends. -/
  | change {f : Checker → Checker} {c : Checker} :
      (∀ b, f (c.followedBy b) = (f c).followedBy b) →
        CheckM.LooksInside (modify f : CheckM PUnit) c
  | appendFunction (f : DeclaredFunction) (c : Checker) :
      CheckM.LooksInside
        (modify fun c => { c with functions := c.functions.push f } : CheckM PUnit) c
  | appendVariable (declared : Option TypeId) (c : Checker) :
      CheckM.LooksInside
        (modify fun c => { c with variableTypes := c.variableTypes.push declared } : CheckM PUnit) c
  | onTable {α : Type} {action : TableM α} {c : Checker} : action.LooksInside c.table →
      CheckM.LooksInside (onTable action) c

section Holdings

/-- The types in a scope are entries of a table of this size. -/
structure Scope.Within (scope : Scope) (size : Nat) : Prop where
  values : ∀ id ∈ scope.values.values, id < size
  types : ∀ id ∈ scope.types.values, id < size

theorem Scope.Within.empty (size : Nat) : Scope.empty.Within size :=
  ⟨List.forall_mem_nil _, List.forall_mem_nil _⟩

/-- What a name stands for is an entry or a declared function. -/
def ValueSymbol.Within (size count : Nat) : ValueSymbol → Prop
  | .variable id => id < size
  | .function index => index < count

structure DeclaredFunction.Within (f : DeclaredFunction) (size : Nat) : Prop where
  typeParameters : ∀ id ∈ f.typeParameters, id < size
  parameters : ∀ p ∈ f.parameters, p.type < size
  returnType : ∀ id ∈ f.returnType, id < size
  type : ∀ id ∈ f.type, id < size

structure DeferredConstraint.Within (check : DeferredConstraint) (size : Nat) : Prop where
  parameter : check.parameter < size
  argument : check.argument < size
  bindings : ∀ b ∈ check.bindings.values, b < size

structure ReturnContext.Within (context : ReturnContext) (size : Nat) : Prop where
  declared : ∀ id ∈ context.declared, id < size
  inferred : ∀ id ∈ context.inferred, id < size

/-- Every type that the checker holds is an entry of its table, and every function that it
refers to is declared. -/
structure Checker.Inside (c : Checker) : Prop where
  table : c.table.Grounded
  scopes : ∀ scope ∈ c.scopes, scope.Within c.table.size
  declaredTypes : ∀ id ∈ c.declaredTypes.values, id < c.table.size
  globals : ∀ symbol ∈ c.globals.values, symbol.Within c.table.size c.functions.size
  functions : ∀ f ∈ c.functions, f.Within c.table.size
  variableTypes : ∀ declared ∈ c.variableTypes, ∀ id ∈ declared, id < c.table.size
  hoisted : ∀ id ∈ c.hoisted.values, id < c.table.size
  deferred : ∀ check ∈ c.deferred, check.Within c.table.size
  returns : ∀ context ∈ c.returns, context.Within c.table.size

variable {size size' : Nat}

theorem Scope.Within.mono {scope : Scope} (within : scope.Within size) (larger : size ≤ size') :
    scope.Within size' :=
  ⟨fun id member => Nat.lt_of_lt_of_le (within.values id member) larger,
    fun id member => Nat.lt_of_lt_of_le (within.types id member) larger⟩

theorem ValueSymbol.Within.mono {count count' : Nat} {symbol : ValueSymbol}
    (within : symbol.Within size count) (larger : size ≤ size') (more : count ≤ count') :
    symbol.Within size' count' :=
  match symbol, within with
  | .variable _, within => Nat.lt_of_lt_of_le within larger
  | .function _, within => Nat.lt_of_lt_of_le within more

theorem DeclaredFunction.Within.mono {f : DeclaredFunction} (within : f.Within size)
    (larger : size ≤ size') : f.Within size' :=
  ⟨fun id member => Nat.lt_of_lt_of_le (within.typeParameters id member) larger,
    fun p member => Nat.lt_of_lt_of_le (within.parameters p member) larger,
    fun id member => Nat.lt_of_lt_of_le (within.returnType id member) larger,
    fun id member => Nat.lt_of_lt_of_le (within.type id member) larger⟩

theorem DeferredConstraint.Within.mono {check : DeferredConstraint} (within : check.Within size)
    (larger : size ≤ size') : check.Within size' :=
  ⟨Nat.lt_of_lt_of_le within.parameter larger, Nat.lt_of_lt_of_le within.argument larger,
    fun b member => Nat.lt_of_lt_of_le (within.bindings b member) larger⟩

theorem ReturnContext.Within.mono {context : ReturnContext} (within : context.Within size)
    (larger : size ≤ size') : context.Within size' :=
  ⟨fun id member => Nat.lt_of_lt_of_le (within.declared id member) larger,
    fun id member => Nat.lt_of_lt_of_le (within.inferred id member) larger⟩

end Holdings

namespace Checker

variable {c c' c'' : Checker}

namespace Inside

/-- A table that has grown serves as well. -/
theorem of_table (inside : c.Inside) {t : TypeTable} (grounded : t.Grounded)
    (larger : c.table.size ≤ t.size) : ({ c with table := t } : Checker).Inside where
  table := grounded
  scopes scope member := (inside.scopes scope member).mono larger
  declaredTypes id member := Nat.lt_of_lt_of_le (inside.declaredTypes id member) larger
  globals symbol member := (inside.globals symbol member).mono larger (Nat.le_refl _)
  functions f member := (inside.functions f member).mono larger
  variableTypes declared member id present :=
    Nat.lt_of_lt_of_le (inside.variableTypes declared member id present) larger
  hoisted id member := Nat.lt_of_lt_of_le (inside.hoisted id member) larger
  deferred check member := (inside.deferred check member).mono larger
  returns context member := (inside.returns context member).mono larger

/-- The types that need no declaration. -/
theorem basic (inside : c.Inside) {id : TypeId} (early : id ≤ TypeId.unknown) : id < c.table.size :=
  Nat.lt_of_le_of_lt early inside.table.unknown

theorem keyword (inside : c.Inside) (keyword : Keyword) : TypeId.ofKeyword keyword < c.table.size :=
  inside.basic (by cases keyword <;> decide)

end Inside

/-- Everything that the checker holds later is inside, and nothing has become less. -/
structure Leads (c c' : Checker) : Prop where
  inside : c'.Inside
  table : c.table.size ≤ c'.table.size
  functions : c.functions.size ≤ c'.functions.size
  variableTypes : c.variableTypes.size ≤ c'.variableTypes.size

namespace Leads

theorem refl (inside : c.Inside) : c.Leads c :=
  ⟨inside, Nat.le_refl _, Nat.le_refl _, Nat.le_refl _⟩

/-- Changes outside the table and the lists do not matter. -/
theorem of_eq (inside : c'.Inside) (table : c'.table = c.table)
    (functions : c'.functions = c.functions) (variableTypes : c'.variableTypes = c.variableTypes) :
    c.Leads c' :=
  ⟨inside, Nat.le_of_eq (congrArg TypeTable.size table.symm),
    Nat.le_of_eq (congrArg Array.size functions.symm),
    Nat.le_of_eq (congrArg Array.size variableTypes.symm)⟩

theorem trans (one : c.Leads c') (two : c'.Leads c'') : c.Leads c'' where
  inside := two.inside
  table := Nat.le_trans one.table two.table
  functions := Nat.le_trans one.functions two.functions
  variableTypes := Nat.le_trans one.variableTypes two.variableTypes

theorem known (leads : c.Leads c') {id : TypeId} (known : id < c.table.size) : id < c'.table.size :=
  Nat.lt_of_lt_of_le known leads.table

theorem each (leads : c.Leads c') {ids : List TypeId} (known : ∀ id ∈ ids, id < c.table.size) :
    ∀ id ∈ ids, id < c'.table.size := fun id member => leads.known (known id member)

theorem optional (leads : c.Leads c') {declared : Option TypeId}
    (known : ∀ id ∈ declared, id < c.table.size) : ∀ id ∈ declared, id < c'.table.size :=
  fun id member => leads.known (known id member)

end Leads

end Checker

/-- From this checker, the step looks inside, and where it succeeds everything is inside
again. Where it fails, at least the table is as it should be. -/
structure StaysFrom {α : Type} (c : Checker) (m : CheckM α) (post : α → Checker → Prop) :
    Prop where
  looks : m.LooksInside c
  leads : ∀ a c', c.step m = (.ok a, c') → c.Leads c' ∧ post a c'
  stops : c.Inside → ∀ cause c', c.step m = (.error cause, c') → c'.table.Grounded

/-- The result is an entry. -/
abbrev Known (id : TypeId) (c : Checker) : Prop := id < c.table.size

/-- The results are entries. -/
abbrev AllKnown (ids : List TypeId) (c : Checker) : Prop := ∀ id ∈ ids, id < c.table.size

/-- The result is an entry if there is one. -/
abbrev OptionKnown (declared : Option TypeId) (c : Checker) : Prop :=
  ∀ id ∈ declared, id < c.table.size

theorem optionKnown_none (c : Checker) : OptionKnown none c := nofun

theorem optionKnown_some {c : Checker} {id : TypeId} (known : id < c.table.size) :
    OptionKnown (some id) c := by
  rintro _ ⟨⟩
  exact known

/-- Any result will do. -/
abbrev Whatever {α : Type} (_ : α) (_ : Checker) : Prop := True

namespace StaysFrom

variable {α β : Type} {c : Checker} {post : β → Checker → Prop}

theorem pure {b : β} (inside : c.Inside) (holds : post b c) : StaysFrom c (pure b) post where
  looks := .pure b c
  leads := by
    rintro _ _ ⟨⟩
    exact ⟨.refl inside, holds⟩
  stops _ := nofun

/-- A result that does not matter. -/
theorem done {b : β} (inside : c.Inside) : StaysFrom c (Pure.pure b) Whatever :=
  pure inside trivial

/-- A type that was known before. -/
theorem entry {id : TypeId} (inside : c.Inside) (known : id < c.table.size) :
    StaysFrom c (Pure.pure id) Known := pure inside known

theorem throw {cause : CheckError} : StaysFrom c (throw cause : CheckM β) post where
  looks := .throw cause c
  leads := nofun
  stops inside := by
    rintro _ _ ⟨⟩
    exact inside.table

theorem fail {cause : ConstructionError} {location : Location} :
    StaysFrom c (fail cause location : CheckM β) post := throw

theorem bind {m : CheckM α} {k : α → CheckM β} {middle : α → Checker → Prop}
    (first : StaysFrom c m middle)
    (next : ∀ a c', c.Leads c' → middle a c' → StaysFrom c' (k a) post) :
    StaysFrom c (m >>= k) post where
  looks := by
    refine .bind first.looks fun a c' done => ?_
    obtain ⟨leads, holds⟩ := first.leads a c' done
    exact (next a c' leads holds).looks
  leads b c'' done := by
    obtain ⟨a, c', one, two⟩ := Checker.step_bind_ok done
    obtain ⟨leads, holds⟩ := first.leads a c' one
    obtain ⟨later, result⟩ := (next a c' leads holds).leads b c'' two
    exact ⟨leads.trans later, result⟩
  stops inside cause c'' done := by
    rcases Checker.step_bind_error done with one | ⟨a, c', one, two⟩
    · exact first.stops inside cause c'' one
    · obtain ⟨leads, holds⟩ := first.leads a c' one
      exact (next a c' leads holds).stops leads.inside cause c'' two

theorem weaken {m : CheckM β} {strong : β → Checker → Prop} (stays : StaysFrom c m strong)
    (implies : ∀ b c', c.Leads c' → strong b c' → post b c') : StaysFrom c m post where
  looks := stays.looks
  leads b c' done :=
    have ⟨leads, holds⟩ := stays.leads b c' done
    ⟨leads, implies b c' leads holds⟩
  stops := stays.stops

theorem ite {p : Prop} [Decidable p] {yes no : CheckM β} (one : StaysFrom c yes post)
    (two : StaysFrom c no post) : StaysFrom c (if p then yes else no) post := by
  split
  · exact one
  · exact two

theorem read {k : Checker → CheckM β} (within : c.ReadsInside k) (next : StaysFrom c (k c) post) :
    StaysFrom c (get >>= k) post :=
  ⟨.read within next.looks, next.leads, next.stops⟩

/-- What is asked of the table about entries is asked inside. -/
theorem readTable {k : TypeTable → CheckM β} (within : ∀ t, c.table.Extends t → k t = k c.table)
    (next : StaysFrom c (k c.table) post) : StaysFrom c (CheckM.table >>= k) post :=
  read (k := fun c => k c.table) (.of_same fun b => within _ (.followedBy _ b.entries)) next

theorem change {f : Checker → Checker} (apart : ∀ b, f (c.followedBy b) = (f c).followedBy b)
    (leads : c.Leads (f c)) : StaysFrom c (modify f : CheckM PUnit) fun _ c' => c' = f c where
  looks := .change apart
  leads := by
    rintro _ _ ⟨⟩
    exact ⟨leads, rfl⟩
  stops _ := nofun

/-- A question about the table adds to it at most. -/
theorem onTable {action : TableM α} {Q : α → TypeTable → Prop} (inside : c.Inside)
    (asks : Asks action c.table fun a t => Advances Grounded c.table t ∧ Q a t) :
    StaysFrom c (onTable action) fun a c' => Q a c'.table where
  looks := .onTable asks.looks
  leads := by
    rintro _ _ ⟨⟩
    obtain ⟨advances, holds⟩ := asks.yields
    have larger := advances.extended.size
    exact ⟨⟨inside.of_table (advances.keeps inside.table) larger, larger, Nat.le_refl _,
      Nat.le_refl _⟩, holds⟩
  stops _ := nofun

end StaysFrom

namespace Mismatch

variable {t u : TypeTable} (wellFormed : t.WellFormed) (extended : t.Extends u)

theorem source_mem_mentions (m : Mismatch) : m.source ∈ m.mentions := by
  cases m <;> exact List.mem_cons_self

theorem target_mem_mentions (m : Mismatch) : m.target ∈ m.mentions := by
  cases m <;> exact List.mem_cons_of_mem _ List.mem_cons_self

include wellFormed extended

theorem introduction_extends {m : Mismatch} (within : m.Within t) :
    introduction u m = introduction t m := by
  have source := text_extends wellFormed.toClosed extended (within _ m.source_mem_mentions)
  have target := text_extends wellFormed.toClosed extended (within _ m.target_mem_mentions)
  cases m <;> simp only [introduction, source, target]

/-- The causes of a mismatch of entries are told from entries. -/
theorem causes_extends {m : Mismatch} (within : m.Within t) : causes u m = causes t m := by
  have text {id : TypeId} (known : id < t.size) : u.text id = t.text id :=
    text_extends wellFormed.toClosed extended known
  induction m with
  | incompatible => rfl
  | tooFewArguments => rfl
  | missingProperty name s e =>
      obtain ⟨left, rest⟩ := List.forall_mem_cons.mp within
      rw [causes, causes, text left, text (rest e List.mem_cons_self)]
  | excessProperty names s e =>
      have rest := (List.forall_mem_cons.mp within).2
      rw [causes, causes, excessReport, excessReport, text (rest e List.mem_cons_self)]
  | property name s e cause ih =>
      have below := (List.forall_mem_cons.mp (List.forall_mem_cons.mp within).2).2
      rw [causes, causes, introduction_extends wellFormed extended below, ih below]
  | parameter index s e cause ih =>
      obtain ⟨left, rest⟩ := List.forall_mem_cons.mp within
      obtain ⟨right, below⟩ := List.forall_mem_cons.mp rest
      rw [causes, causes, introduction_extends wellFormed extended below, ih below, parameterName,
        parameterName, parameterName, parameterName, extended.asFunction? left,
        extended.asFunction? right]
  | returnType s e cause ih =>
      obtain ⟨left, rest⟩ := List.forall_mem_cons.mp within
      obtain ⟨right, below⟩ := List.forall_mem_cons.mp rest
      rw [causes, causes, introduction_extends wellFormed extended below, ih below, text left,
        text right]

theorem report_extends {m : Mismatch} (within : m.Within t) (location : Location) (head : Message) :
    m.report u location head = m.report t location head := by
  have source := text_extends wellFormed.toClosed extended (within _ m.source_mem_mentions)
  have target := text_extends wellFormed.toClosed extended (within _ m.target_mem_mentions)
  have causes := causes_extends wellFormed extended within
  cases m with
  | excessProperty names s e =>
      have target : u.text e = t.text e := target
      rw [report, report, excessReport, excessReport, target]
  | _ => simp only [report, causes, source, target]

end Mismatch

namespace Checker.Inside

variable {c : Checker} (inside : c.Inside)

include inside

section Held

theorem withScopes {scopes : List Scope} (within : ∀ scope ∈ scopes, scope.Within c.table.size) :
    ({ c with scopes := scopes } : Checker).Inside :=
  { inside with scopes := within }

theorem withReturns (returns : List ReturnContext)
    (within : ∀ context ∈ returns, context.Within c.table.size) :
    ({ c with returns := returns } : Checker).Inside :=
  { inside with returns := within }

theorem withGlobal {name : String} {symbol : ValueSymbol}
    (within : symbol.Within c.table.size c.functions.size) :
    ({ c with globals := c.globals.insert name symbol } : Checker).Inside :=
  { inside with
    globals := fun other member => (Dictionary.mem_values_insertIn member).elim (· ▸ within)
      (inside.globals other) }

end Held

section Steps

theorem report (d : Diagnostic) : StaysFrom c (report d) Whatever :=
  (StaysFrom.change (fun _ => rfl) (.of_eq { inside with } rfl rfl rfl)).weaken
    fun _ _ _ _ => trivial

theorem error (location : Location) (message : Message) (arguments : List String) :
    StaysFrom c (CheckM.error location message arguments) Whatever :=
  inside.report _

theorem display {id : TypeId} (known : id < c.table.size) :
    StaysFrom c (CheckM.display id) Whatever :=
  .readTable (fun _ extended => by rw [text_extends inside.table.toClosed extended known])
    (.done inside)

theorem reportMismatch {mismatch : Mismatch} (within : mismatch.Within c.table)
    (location : Location) (head : Message) :
    StaysFrom c (CheckM.reportMismatch mismatch location head) Whatever := by
  refine .readTable (fun _ extended => ?_) (inside.report _)
  rw [Mismatch.report_extends inside.table.toWellFormed extended within]

theorem setFile (file : Option String) : StaysFrom c (CheckM.setFile file) Whatever :=
  (StaysFrom.change (fun _ => rfl) (.of_eq { inside with } rfl rfl rfl)).weaken
    fun _ _ _ _ => trivial

theorem modifyScopes {f : List Scope → List Scope}
    (within : ∀ scope ∈ f c.scopes, scope.Within c.table.size) :
    StaysFrom c (modify fun checker => { checker with scopes := f checker.scopes } : CheckM PUnit)
      Whatever :=
  (StaysFrom.change (fun _ => rfl) (.of_eq (inside.withScopes within) rfl rfl rfl)).weaken
    fun _ _ _ _ => trivial

theorem pushScope {scope : Scope} (within : scope.Within c.table.size) :
    StaysFrom c (CheckM.pushScope scope) Whatever :=
  inside.modifyScopes (f := fun scopes => scope :: scopes)
    (List.forall_mem_cons.mpr ⟨within, inside.scopes⟩)

theorem popScope : StaysFrom c CheckM.popScope Whatever :=
  inside.modifyScopes fun scope member => inside.scopes scope (List.mem_of_mem_tail member)

/-- A change to the innermost scope that enters an entry. -/
theorem updateScope {f : Scope → Scope}
    (keeps : ∀ scope, scope.Within c.table.size → (f scope).Within c.table.size) :
    StaysFrom c (CheckM.updateScope f) Whatever := by
  rw [updateScope_eq]
  refine inside.modifyScopes (f := fun scopes => scopes.modifyHead f) ?_
  have within := inside.scopes
  cases scopes : c.scopes with
  | nil => exact List.forall_mem_nil _
  | cons scope outer =>
      rw [scopes] at within
      obtain ⟨innermost, others⟩ := List.forall_mem_cons.mp within
      exact List.forall_mem_cons.mpr ⟨keeps scope innermost, others⟩

theorem bindType (name : String) {id : TypeId} (known : id < c.table.size) :
    StaysFrom c (CheckM.bindType name id) Whatever :=
  inside.updateScope fun _ within => ⟨within.values, fun other member =>
    (Dictionary.mem_values_insertIn member).elim (· ▸ known) (within.types other)⟩

theorem bindValue (name : String) {id : TypeId} (known : id < c.table.size) :
    StaysFrom c (CheckM.bindValue name id) Whatever :=
  inside.updateScope fun _ within => ⟨fun other member =>
    (Dictionary.mem_values_insertIn member).elim (· ▸ known) (within.values other), within.types⟩

theorem bindGlobal (name : String) (symbol : ValueSymbol)
    (within : symbol.Within c.table.size c.functions.size) :
    StaysFrom c (modify fun checker =>
      { checker with globals := checker.globals.insert name symbol } : CheckM PUnit) Whatever :=
  (StaysFrom.change (fun _ => rfl) (.of_eq (inside.withGlobal within) rfl rfl rfl)).weaken
    fun _ _ _ _ => trivial

theorem declareValue (name : String) {id : TypeId} (known : id < c.table.size)
    (location : Location) : StaysFrom c (CheckM.declareValue name id location) Whatever := by
  rw [declareValue_eq]
  refine .read (.of_same fun _ => rfl) ?_
  split
  · refine (inside.bindValue name known).bind fun _ c' leads _ => ?_
    exact .ite (leads.inside.error _ _ _) (.done leads.inside)
  · refine (inside.bindGlobal name (.variable id) known).bind fun _ c' leads _ => ?_
    exact .ite (leads.inside.error _ _ _) (.done leads.inside)

theorem declareVariable (name : String) {id : TypeId} (known : id < c.table.size)
    (location : Location) : StaysFrom c (declareVariable name id location) Whatever :=
  .read (.of_same fun _ => rfl) (.ite (inside.error _ _ _) (inside.declareValue name known location))

theorem noteReturn {id : TypeId} (known : id < c.table.size) :
    StaysFrom c (noteReturn id) Whatever := by
  rw [noteReturn_eq]
  refine (StaysFrom.change (fun _ => rfl) (.of_eq (inside.withReturns _ ?_) rfl rfl rfl)).weaken
    fun _ _ _ _ => trivial
  have within := inside.returns
  cases returns : c.returns with
  | nil => exact List.forall_mem_nil _
  | cons context outer =>
      rw [returns] at within
      obtain ⟨innermost, others⟩ := List.forall_mem_cons.mp within
      refine List.forall_mem_cons.mpr ⟨⟨innermost.declared, fun other first => ?_⟩, others⟩
      cases inferred : context.inferred with
      | none => exact Option.some.inj (by simpa [inferred] using first) ▸ known
      | some before =>
          have same : before = other := by simpa [inferred] using first
          exact same ▸ innermost.inferred before (by simp [inferred])

end Steps

section Queries

theorem resolve {id : TypeId} (known : id < c.table.size) :
    StaysFrom c (CheckM.resolve id) Known :=
  .onTable inside (advances_resolve queryInvariant_grounded inside.table known)

theorem substitute {id : TypeId} {bindings : Bindings} (known : id < c.table.size)
    (bound : ∀ b ∈ bindings.values, b < c.table.size) :
    StaysFrom c (onTable (substitute id bindings)) Known :=
  .onTable inside (advances_substitute queryInvariant_grounded inside.table known bound)

theorem assignable {source target : TypeId} (left : source < c.table.size)
    (right : target < c.table.size) (fresh : Bool) :
    StaysFrom c (CheckM.assignable source target fresh) fun verdict c' =>
      Assignability.Founded verdict c'.table :=
  .read (.of_same fun _ => rfl) <| .onTable inside <|
    Assignability.advances_assignable queryInvariant_grounded _ fresh inside.table left right

theorem addType {kind : TypeKind} (mentions : ∀ m ∈ kind.mentions, m < c.table.size)
    (origin : ∀ i, kind = .instantiated i → ∃ g, c.table.kind i.origin = .generic g) :
    StaysFrom c (addType kind) Known :=
  .onTable inside (advances_add (inside.table.add mentions origin))

end Queries

end Checker.Inside

end StructuralTyping
