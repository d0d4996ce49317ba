import StructuralTyping.Proofs.RunProperties
import StructuralTyping.Proofs.TidyDeclarations

/-! How instances of generic interfaces are resolved in a run. Every table that a run comes
to is tidy, whatever the files. So the body of an instance is the body of the interface with
the arguments in the places of the type parameters, and it stays the same for the rest of
the run. -/
namespace StructuralTyping

open CheckM
open TypeTable

/-- The step keeps the table tidy. -/
def Tidies {α : Type} (m : CheckM α) : Prop :=
  ∀ c : Checker, c.Tidy Outside → TidyFrom Outside c m fun _ _ => True

namespace Tidies

variable {α β : Type}

theorem of_within {m : CheckM α} {post : α → TypeTable → Prop}
    (within : ∀ c : Checker, c.Tidy Outside → TidyWithin Outside c m post) : Tidies m :=
  fun c tidy => TidyFrom.weaken (within c tidy) fun _ _ _ _ _ => trivial

theorem pure (a : α) : Tidies (pure a) := fun _ tidy => .pure tidy trivial

theorem bind {m : CheckM α} {k : α → CheckM β} (first : Tidies m) (next : ∀ a, Tidies (k a)) :
    Tidies (m >>= k) :=
  fun c tidy => (first c tidy).bind fun a c' one _ _ => next a c' one

theorem read {k : Checker → CheckM α} (next : ∀ c, Tidies (k c)) : Tidies (get >>= k) :=
  fun c tidy => .read (next c c tidy)

theorem change {f : Checker → Checker} (table : ∀ c, (f c).table = c.table)
    (keeps : ∀ c : Checker, c.Tidy Outside → (f c).Tidy Outside) :
    Tidies (modify f : CheckM PUnit) :=
  fun c tidy => (TidyFrom.change (table c) (keeps c tidy)).weaken fun _ _ _ _ _ => trivial

theorem report (d : Diagnostic) : Tidies (report d) := of_within fun _ tidy => tidy_report tidy d

theorem setFile (file : Option String) : Tidies (setFile file) := fun _ tidy =>
  tidy_setFile tidy file

theorem stepProperty : StepProperty (fun _ => True) Tidies where
  pure := pure
  bind := bind
  reading _ := read
  onTable derives := of_within fun _ tidy => .onTable tidy derives
  report _ _ := report _
  reportOpen parameter here :=
    reportOpen_of (fun _ => True) (fun _ => read) (fun _ _ => report _) (pure ()) here parameter
  modifyScopes keeps := change (fun _ => rfl) fun c tidy =>
    { tidy with
      scopes := fun scope member id listed => by
        rcases keeps c.scopes scope member with none | ⟨before, known, same⟩
        · rw [none] at listed
          cases listed
        · exact tidy.scopes before known id (same ▸ listed) }
  modifyReturns _ := change (fun _ => rfl) fun _ tidy => { tidy with }
  bindGlobal _ _ := change (fun _ => rfl) fun _ tidy => { tidy with }

theorem treeProperty : TreeProperty false (fun _ => True) Tidies where
  toStepProperty := stepProperty
  checkConstraint _ _ _ _ _ := of_within fun _ tidy => tidy_checkConstraint tidy _ _ _ _
  resolveType node _ := of_within fun _ tidy => tidy_resolveType node tidy
  declareTypeParameters nodes _ _ tidy :=
    (tidy_declareTypeParameters tidy nodes).weaken fun _ _ _ _ _ => trivial
  declareInterface declaration _ _ tidy := tidy_declareInterface tidy declaration
  fail _ _ _ := fun _ _ => .fail

theorem updateFunction (index : Nat) {change : DeclaredFunction → DeclaredFunction}
    (keeps : ∀ f, (change f).typeParameters = f.typeParameters) :
    Tidies (updateFunction index change) := by
  refine Tidies.change (fun _ => rfl) fun c tidy => { tidy with functions := fun f member => ?_ }
  obtain ⟨i, found⟩ := Array.mem_iff_getElem?.mp member
  rw [Array.getElem?_modify] at found
  split at found
  · obtain ⟨g, known, rfl⟩ := Option.map_eq_some_iff.mp found
    rw [keeps]
    exact tidy.functions g (Array.mem_of_getElem? known)
  · exact tidy.functions f (Array.mem_of_getElem? found)

/-- The check of a body knows the type parameters of its function, and afterwards what was
known around it is known again. -/
theorem tidy_checkEntered {types : FunctionTypes} (known : ∀ index, Tidies (types index))
    {outside c : Checker} (around : outside.Tidy Outside) (tidy : c.Tidy Outside)
    (matures : outside.table.Matures c.table) {f : DeclaredFunction}
    (apart : ∀ id ∈ f.typeParameters, c.table.Apart id) :
    TidyFrom Outside c (checkEntered types outside f) fun _ _ => True := by
  rw [checkEntered_eq]
  have entered : ({ c with scopes := [functionScope f], returns := [], currentFile := f.file } :
      Checker).Tidy Outside := by
    refine { tidy with scopes := List.forall_mem_singleton.mpr fun id listed => .apart ?_ }
    obtain ⟨pair, bound, rfl⟩ := List.mem_map.mp (Dictionary.mem_values_ofList listed)
    obtain ⟨zipped, member, rfl⟩ := List.mem_map.mp bound
    exact apart _ (List.of_mem_zip member).2
  refine .bind (.change rfl entered) ?_
  rintro _ _ one - rfl
  have opened := treeProperty.checkOpened known f fun _ _ => trivial
  refine (opened _ one).bind fun result c₂ two further _ => ?_
  have since := matures.trans further
  have left : ({ c₂ with
      scopes := outside.scopes
      returns := outside.returns
      currentFile := outside.currentFile } : Checker).Tidy Outside :=
    { two with
      scopes := fun scope member id listed => since.written (around.scopes scope member id listed) }
  refine .bind (.change rfl left) ?_
  rintro _ _ three - rfl
  rw [finishBody]
  cases f.type with
  | some id => exact .pure three trivial
  | none =>
      have added : Tidies (addType (.function ⟨f.typeParameters, f.parameters, result⟩)) :=
        stepProperty.addType rfl (by simp [TypeKind.flag])
      exact added _ three

theorem checkFunctionBody {types : FunctionTypes} (known : ∀ index, Tidies (types index))
    (index : Nat) : Tidies (checkFunctionBody types index) := by
  rw [checkFunctionBody_eq]
  intro c tidy
  refine .read ?_
  cases found : c.functions[index]? with
  | none => exact .pure tidy trivial
  | some f =>
      refine .ite (.pure tidy trivial) ?_
      have begun : Tidies (StructuralTyping.updateFunction index beginBody) :=
        updateFunction index fun _ => rfl
      refine (begun c tidy).bind fun _ c₁ one matures _ => ?_
      have apart : ∀ id ∈ f.typeParameters, c₁.table.Apart id := fun id listed =>
        matures.apart (tidy.functions f (Array.mem_of_getElem? found) id listed)
      refine (tidy_checkEntered known tidy one matures apart).bind fun type c₂ two _ _ => ?_
      have ended : Tidies (StructuralTyping.updateFunction index (endBody type)) :=
        updateFunction index fun _ => rfl
      exact ended c₂ two

theorem bodyProperty :
    BodyProperty (fun (_ : Unit) _ => True) (fun _ => Tidies) fun _ => Tidies where
  tree _ := treeProperty.block
  checkFunctionBody known _ := checkFunctionBody (known ())

theorem checkDeclared : Tidies checkDeclared := by
  refine bind (change (fun _ => rfl) fun _ tidy => { tidy with }) fun _ => read fun c => ?_
  refine bind (bodyProperty.checkFiles () setFile (fun _ => trivial) _ _) fun _ => ?_
  exact change (fun _ => rfl) fun _ tidy => { tidy with }

theorem declareSourceFiles (files : List SourceFile) :
    Tidies (forIn files PUnit.unit fun file _ => do
      declareSourceFile file
      Pure.pure (ForInStep.yield PUnit.unit)) := by
  induction files with
  | nil => exact pure _
  | cons file rest ih =>
      have one : Tidies (declareSourceFile file) := by
        refine read fun c => ?_
        split
        · exact fun _ _ => .throw
        · exact change (fun _ => rfl) fun _ tidy => { tidy with }
      rw [List.forIn_cons, bind_assoc]
      exact bind one fun _ => ih

theorem checkDeclarations : Tidies checkDeclarations := by
  refine read fun c => ?_
  split
  · exact fun _ _ => .throw
  · exact bind (fun _ tidy => tidy_declareAll tidy) fun _ => checkDeclared

theorem declareAndCheck (files : List SourceFile) : Tidies (declareAndCheck files) :=
  bind (declareSourceFiles files) fun _ => checkDeclarations

end Tidies

theorem tidy_initial : TypeTable.initial.Tidy := by
  have plain : ∀ id g, TypeTable.initial.kind id ≠ .generic g := by
    intro id g generic
    have listed := mem_entries_of_kind generic (by simp)
    simp [TypeTable.initial] at listed
  have instances : ∀ id i, TypeTable.initial.kind id ≠ .instantiated i := by
    intro id i entry
    have listed := mem_entries_of_kind entry (by simp)
    simp [TypeTable.initial] at listed
  have leaves : ∀ id < TypeTable.initial.size, (TypeTable.initial.kind id).parts = [] ∧
      (TypeTable.initial.kind id).binders = [] := by decide
  refine ⟨fun id early => ?_, fun origin g generic => absurd generic (plain origin g),
    fun origin g _ _ generic => absurd generic (plain origin g),
    fun id i entry => absurd entry (instances id i), ?_⟩
  · have inside : id < TypeTable.initial.size := Nat.lt_of_le_of_lt early (by decide)
    refine .of_parts ⟨inside, ?_⟩ ?_ ?_
    · rintro ⟨origin, g, generic, -⟩
      exact plain origin g generic
    · rw [(leaves id inside).2]
      exact List.forall_mem_nil _
    · rw [(leaves id inside).1]
      exact List.forall_mem_nil _
  · rintro key body ⟨⟩

theorem tidy_new (options : CheckerOptions) : (Checker.new options).Tidy Outside where
  table := tidy_initial
  scopes := List.forall_mem_nil _
  declaredTypes := List.forall_mem_nil _
  functions := by
    intro f member
    cases Array.not_mem_empty f member

/-- `interface Box<T> { v: { a: T }, s: string }` and `var b: Box<number>`. -/
def nestedBox : List SourceFile :=
  [⟨"", [
    .ofInterface "Box" [.free "T"]
      [.required "v" (.ofMembers [.required "a" (.named "T" [])]),
        .required "s" (.ofKeyword .string)],
    .ofVariable "b" (some (.named "Box" [.ofKeyword .number])) none]⟩]

/-- The member of the body is made again for `number`, and `string` is kept. -/
example :
    let t := ((Checker.new .default).step (declareAndCheck nestedBox)).2.table
    let resolved := (resolve 11).run t
    t.kind 11 = .instantiated ⟨9, ⟨[("T", TypeId.number)]⟩⟩ ∧
      t.kind 8 = .object ⟨some "Box", ⟨[("v", ⟨10, false⟩), ("s", ⟨TypeId.string, false⟩)]⟩⟩ ∧
      resolved.2.kind resolved.1 =
        .object ⟨none, ⟨[("v", ⟨12, false⟩), ("s", ⟨TypeId.string, false⟩)]⟩⟩ ∧
      resolved.2.kind 12 = .object ⟨none, ⟨[("a", ⟨TypeId.number, false⟩)]⟩⟩ := by
  decide +kernel

end StructuralTyping
