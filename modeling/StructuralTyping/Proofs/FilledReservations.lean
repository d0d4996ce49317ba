import StructuralTyping.Proofs.ConstraintChecks
import StructuralTyping.Proofs.ResolvedInstances
import StructuralTyping.Proofs.StableNames
import StructuralTyping.Proofs.WrittenHistories

/-! Every body that is reserved is filled. The interfaces of a program are begun one after the
other, which reserves their bodies, and completed in the same order before anything is asked. An
interface in a block is completed right after it is begun, and whatever is asked in between finds
the interfaces at the top level built. -/
namespace StructuralTyping

open CheckM

/-- What the type is an interface for: it is the body itself, or generic. -/
def TypeTable.HasBody (t : TypeTable) (id body : TypeId) : Prop :=
  id = body ∨ ∃ g, t.kind id = .generic g ∧ g.body = body

/-- The type is an object type, or a generic interface whose body is one. -/
structure TypeTable.Built (t : TypeTable) (id body : TypeId) : Prop where
  hasBody : t.HasBody id body
  object : ∃ o, t.kind body = .object o

namespace TypeTable

variable {t t' : TypeTable} {id body : TypeId}

theorem HasBody.retained (hasBody : t.HasBody id body) (retains : t.Retains t') :
    t'.HasBody id body :=
  hasBody.imp_right fun ⟨g, generic, same⟩ => ⟨g, retains.generic id g generic, same⟩

theorem Built.retained (built : t.Built id body) (retains : t.Retains t') : t'.Built id body where
  hasBody := built.hasBody.retained retains
  object := built.object.imp fun o => retains.object body o

end TypeTable

section Beginning
variable {c : Checker}

/-- Nothing but the table is different, and nothing has happened to a body. -/
structure Checker.Adds (c : Checker) (history : List Happening) (c' : Checker) : Prop where
  silent : history = []
  same : c' = { c with table := c'.table }

theorem Checker.Adds.trans {c c' c'' : Checker} {history later : List Happening}
    (one : c.Adds history c') (two : c'.Adds later c'') : c.Adds (history ++ later) c'' where
  silent := by rw [one.silent, two.silent]; rfl
  same := two.same.trans (by rw [one.same])

theorem adds_addType {kind : TypeKind} (ready : kind ≠ .pending) :
    RecordedFrom c (addType kind) fun id history c' =>
      c.Adds history c' ∧ c'.table.kind id = kind :=
  .addType ready ⟨⟨rfl, rfl⟩, TypeTable.kind_add_size _ _⟩

theorem adds_freshTypeParameters (nodes : List TypeParameterNode) :
    RecordedFrom c (freshTypeParameters nodes) fun _ => c.Adds := by
  induction nodes generalizing c with
  | nil => exact .pure ⟨rfl, rfl⟩
  | cons node rest ih =>
      rw [freshTypeParameters, List.mapM_cons]
      refine (adds_addType (by simp)).bind fun id history c₁ _ added => ?_
      refine ih.bind fun ids later c₂ _ two => .pure ?_
      exact added.1.trans (two.trans ⟨rfl, rfl⟩)

/-- The body of an interface is reserved, and nothing else. -/
theorem reserves_enterInterface (declaration : InterfaceDeclaration) (file : Option String) :
    RecordedFrom c (enterInterface declaration file) fun entered history c' =>
      history = [.reserved entered.2.body] ∧ c' = { c with table := c'.table } ∧
        c'.table.HasBody entered.1 entered.2.body := by
  refine (adds_freshTypeParameters _).bind fun ids history c₁ _ one => ?_
  have reserved : RecordedFrom c₁ (addType .pending) fun body history c' =>
      history = [.reserved body] ∧ c' = { c₁ with table := c'.table } := by
    rintro _ _ ⟨⟩
    exact ⟨_, .reserve c₁, rfl, rfl⟩
  refine reserved.bind ?_
  rintro body _ c₂ - ⟨rfl, two⟩
  have since : c₂ = { c with table := c₂.table } := two.trans (by rw [one.same])
  rw [one.silent]
  split
  · exact .pure ⟨rfl, since, .inl rfl⟩
  · have ready : TypeKind.generic ⟨declaration.name, ids, body⟩ ≠ .pending := by simp
    refine (adds_addType ready).bind fun declared later c₃ _ ⟨three, entry⟩ => .pure ?_
    refine ⟨by rw [three.silent]; rfl, three.same.trans (by rw [since]), .inr ⟨_, entry, rfl⟩⟩

/-- The interfaces are begun: their bodies are reserved one after the other, and new names stand
for them. -/
structure ReservesBodies (c : Checker) (begun : List PendingInterface) (history : List Happening)
    (c' : Checker) : Prop where
  phase : c'.phase = c.phase
  history : history = begun.map fun p => .reserved p.body
  names : ∀ name id, c'.declaredTypes.find? name = some id →
    c.declaredTypes.find? name = some id ∨ ∃ p ∈ begun, c'.table.HasBody id p.body

theorem ReservesBodies.refl (c : Checker) : ReservesBodies c [] [] c := ⟨rfl, rfl, fun _ _ => .inl⟩

theorem ReservesBodies.trans {c c' c'' : Checker} {begun others : List PendingInterface}
    {history later : List Happening} (one : ReservesBodies c begun history c')
    (retains : c'.table.Retains c''.table) (two : ReservesBodies c' others later c'') :
    ReservesBodies c (begun ++ others) (history ++ later) c'' where
  phase := two.phase.trans one.phase
  history := by rw [one.history, two.history, List.map_append]
  names name id found := by
    rcases two.names name id found with between | ⟨p, listed, hasBody⟩
    · refine (one.names name id between).imp_right fun ⟨p, listed, hasBody⟩ => ?_
      exact ⟨p, List.mem_append_left _ listed, hasBody.retained retains⟩
    · exact .inr ⟨p, List.mem_append_right _ listed, hasBody⟩

theorem reserves_beginInterface (declaration : InterfaceDeclaration) :
    RecordedFrom c (beginInterface declaration) fun begun => ReservesBodies c begun.toList := by
  rw [beginInterface_entered]
  refine .see (fun _ _ => rfl) (.ite (fun _ => ?_) fun _ => ?_)
  · have reported : RecordedFrom c (error declaration.location .duplicateIdentifier
        [declaration.name]) fun _ => ReservesBodies c [] :=
      .change (fun _ => rfl) ⟨rfl, rfl, fun _ _ => .inl⟩
    exact reported.bind fun _ _ c₁ _ here => .pure (here.trans (.refl _) (.refl c₁))
  · refine (reserves_enterInterface _ _).bind ?_
    rintro ⟨declared, p⟩ _ c₁ - ⟨rfl, same, hasBody⟩
    have names (c₂ : Checker) (phase : c₂.phase = c₁.phase) (table : c₂.table = c₁.table)
        (named : ∀ name id, c₂.declaredTypes.find? name = some id →
          c₁.declaredTypes.find? name = some id ∨ id = declared) :
        ReservesBodies c [p] [.reserved p.body] c₂ := by
      refine ⟨phase.trans (by rw [same]), rfl, fun name id found => ?_⟩
      refine (named name id found).imp (fun old => by rwa [same] at old) ?_
      rintro rfl
      exact ⟨p, List.mem_cons_self, table ▸ hasBody⟩
    dsimp only
    split
    · refine .bind (.change (fun _ => rfl) ?_) fun _ _ c₂ _ here => .pure here
      refine names _ rfl rfl fun name id found => ?_
      rw [Dictionary.find?_insert] at found
      split at found
      · exact .inr (Option.some.inj found).symm
      · exact .inl found
    · rw [bindType, updateScope_eq]
      refine .bind (.change (fun _ => rfl) ?_) fun _ _ c₂ _ here => .pure here
      exact names _ rfl rfl fun _ _ => .inl

theorem reserves_beginInterfaces : ∀ (statements : List Statement) {c : Checker},
    RecordedFrom c (beginInterfaces statements) (ReservesBodies c)
  | [], c => .pure (.refl c)
  | .interface declaration :: rest, c => by
      refine (reserves_beginInterface declaration).bind fun begun history c₁ _ here => ?_
      refine (reserves_beginInterfaces rest).bind fun others later c₂ records there => .pure ?_
      rw [List.append_nil]
      exact here.trans records.undergoes.retains there
  | .function _ _ :: rest, c
  | .variable _ _ _ _ :: rest, c
  | .expression _ _ :: rest, c
  | .returning _ _ :: rest, c => reserves_beginInterfaces rest

theorem reserves_beginFiles (files : List SourceFile) :
    RecordedFrom c (beginFiles files) (ReservesBodies c) := by
  induction files generalizing c with
  | nil => exact .pure (.refl c)
  | cons file rest ih =>
      have placed : RecordedFrom c (setFile (some file.name)) fun _ => ReservesBodies c [] :=
        .change (fun _ => rfl) ⟨rfl, rfl, fun _ _ => .inl⟩
      refine placed.bind fun _ history c₁ _ one => ?_
      refine (reserves_beginInterfaces file.statements).bind fun begun here c₂ records two => ?_
      refine ih.bind fun others later c₃ records' three => .pure ?_
      rw [List.append_nil]
      have both := two.trans records'.undergoes.retains three
      exact one.trans (records.undergoes.retains.trans records'.undergoes.retains) both

end Beginning

section Completing
variable {c : Checker}

/-- Bodies are filled with object types once they are built. -/
structure Balanced (history : List Happening) : Prop where
  reserved : ∀ body, .reserved body ∈ history → ∃ o, .filled body (.object o) ∈ history
  filled : ∀ body kind, .filled body kind ∈ history → ∃ o, kind = .object o

theorem balanced_nil : Balanced [] := ⟨nofun, nofun⟩

theorem Balanced.append {history later : List Happening} (one : Balanced history)
    (two : Balanced later) : Balanced (history ++ later) where
  reserved body member := by
    rcases List.mem_append.mp member with member | member
    · exact (one.reserved body member).imp fun _ => List.mem_append_left _
    · exact (two.reserved body member).imp fun _ => List.mem_append_right _
  filled body kind member :=
    (List.mem_append.mp member).elim (one.filled body kind) (two.filled body kind)

/-- A body may be reserved before and filled afterwards. -/
theorem Balanced.around {history : List Happening} (between : Balanced history) (body : TypeId)
    (o : ObjectType) :
    Balanced (.reserved body :: (history ++ [.filled body (.object o)])) where
  reserved other member := by
    rcases List.mem_cons.mp member with same | member
    · obtain rfl := Happening.reserved.inj same
      exact ⟨o, by simp⟩
    · have member : .reserved other ∈ history := by simpa using member
      exact (between.reserved other member).imp fun _ made => by simp [made]
  filled other kind member := by
    have member : .filled other kind ∈ history ∨ other = body ∧ kind = .object o := by
      simpa using member
    exact member.elim (between.filled other kind) fun same => ⟨o, same.2⟩

theorem Asking.balanced {c c' : Checker} {history : List Happening} (asking : Asking c history c') :
    Balanced history where
  reserved body member := by
    obtain ⟨t, same⟩ := asking.asks _ member
    cases same
  filled body kind member := by
    obtain ⟨t, same⟩ := asking.asks _ member
    cases same

/-- What is asked while the members are built comes before the body is filled. -/
theorem fills_completeInterface (p : PendingInterface) :
    RecordedFrom c (completeInterface p) fun _ history c' => ∃ asked o,
      history = asked ++ [.filled p.body (.object o)] ∧ Writing c asked c' := by
  have built : Writes (inNewScope (do
      bindTypeParameterNames false (p.declaration.typeParameters.zip p.typeParameters)
      buildObjectType (some p.declaration.name) p.declaration.members)) :=
    Recorded.inNewScope composes_writing
      (Writes.bind (.bindTypeParameterNames _ _) fun _ => .buildObjectType _ _)
  rw [completeInterface_eq_inNewScope]
  refine (built c).bind fun o asked c₁ _ writing => ?_
  rintro _ c' done
  by_cases pending : c₁.table.kind p.body = .pending
  · have ready : TypeKind.object o ≠ .pending := by simp
    have fill := CheckM.Records.fill p.declaration.location pending ready
    obtain ⟨⟨⟩, rfl⟩ := Prod.mk.inj (fill.step.symm.trans done)
    exact ⟨_, fill, asked, o, rfl, ⟨writing.asks, writing.phase⟩, writing.silent⟩
  · rw [Checker.step_bind, Checker.step_table] at done
    dsimp only at done
    rw [TypeTable.define, if_neg pending] at done
    cases done

theorem silent_forInterfaces {step : PendingInterface → CheckM Unit} (each : ∀ p, Writes (step p))
    (begun : List PendingInterface) : Writes (forInterfaces step begun) := by
  induction begun with
  | nil => exact .pure ()
  | cons p rest ih =>
      exact .bind (Recorded.setFile composes_writing _) fun _ => .bind (each p) fun _ => ih

/-- All these bodies are filled with object types, and nothing else happens. -/
structure FillsBodies (begun : List PendingInterface) (history : List Happening) : Prop where
  all : ∀ p ∈ begun, ∃ o, .filled p.body (.object o) ∈ history
  only : ∀ happening ∈ history, ∃ body o, happening = .filled body (.object o)

/-- While declaring, the bodies are filled one after the other. -/
theorem fills_forInterfaces (begun : List PendingInterface) (declaring : c.phase = .declaring) :
    RecordedFrom c (forInterfaces completeInterface begun) fun _ history c' =>
      c'.phase = .declaring ∧ FillsBodies begun history := by
  induction begun generalizing c with
  | nil => exact .pure ⟨declaring, List.forall_mem_nil _, List.forall_mem_nil _⟩
  | cons p rest ih =>
      refine (Recorded.setFile composes_writing p.file c).bind fun _ placed c₁ _ one => ?_
      have here := one.phase.trans declaring
      rw [one.silent declaring]
      refine (fills_completeInterface p).bind ?_
      rintro _ _ c₂ - ⟨asked, o, rfl, two⟩
      rw [two.silent here]
      refine (ih (two.phase.trans here)).weaken fun _ later c₃ _ ⟨phase, filled⟩ => ?_
      refine ⟨phase, List.forall_mem_cons.mpr ⟨⟨o, List.mem_cons_self⟩, fun q listed => ?_⟩,
        List.forall_mem_cons.mpr ⟨⟨_, _, rfl⟩, filled.only⟩⟩
      exact (filled.all q listed).imp fun _ => List.mem_cons_of_mem _

/-- Bodies that are reserved first and then filled. -/
theorem FillsBodies.balanced {begun : List PendingInterface} {history : List Happening}
    (filled : FillsBodies begun history) :
    Balanced ((begun.map fun p => .reserved p.body) ++ history) where
  reserved body member := by
    rcases List.mem_append.mp member with member | member
    · obtain ⟨p, listed, same⟩ := List.mem_map.mp member
      obtain rfl := Happening.reserved.inj same
      exact (filled.all p listed).imp fun _ => List.mem_append_right _
    · obtain ⟨other, o, same⟩ := filled.only _ member
      cases same
  filled body kind member := by
    rcases List.mem_append.mp member with member | member
    · obtain ⟨p, -, same⟩ := List.mem_map.mp member
      cases same
    · obtain ⟨other, o, same⟩ := filled.only _ member
      exact ⟨o, (Happening.filled.inj same).2⟩

/-- The bodies that the step reserves are filled by it. -/
abbrev Balances {α : Type} (m : CheckM α) : Prop := Recorded (fun _ history _ => Balanced history) m

/-- An interface in a block is completed right after it is begun. -/
theorem balances_declareInterface (declaration : InterfaceDeclaration) :
    Balances (declareInterface declaration) := by
  intro c
  refine (reserves_beginInterface declaration).bind fun begun history c₁ _ reserves => ?_
  rw [reserves.history]
  cases begun with
  | none => exact .pure balanced_nil
  | some p =>
      refine (Writes.constrainInterface p c₁).bind fun _ asked c₂ _ one => ?_
      refine (fills_completeInterface p).weaken ?_
      rintro _ _ c₃ - ⟨further, o, rfl, two⟩
      have between : Balanced (asked ++ further) := one.balanced.append two.balanced
      simpa using between.around p.body o

end Completing

section Checking

theorem composes_balanced : Composes fun _ history _ => Balanced history where
  trans := Balanced.append
  change _ := balanced_nil

theorem Writes.balances {α : Type} {m : CheckM α} (writes : Writes m) : Balances m :=
  fun c => (writes c).weaken fun _ _ _ _ writing => writing.balanced

theorem runProperty_balances : RunProperty Balances where
  toQuietProperty := Recorded.quietProperty composes_balanced fun c t => (asking_once c t).balanced
  modifyScopes _ := .change composes_balanced (fun _ _ => rfl) fun _ => rfl
  modifyReturns _ := .change composes_balanced (fun _ _ => rfl) fun _ => rfl
  bindGlobal _ _ := .change composes_balanced (fun _ _ => rfl) fun _ => rfl
  checkConstraint _ _ _ _ _ := Writes.balances (.checkConstraint _ _ _ _)
  resolveType node _ := Writes.balances (.resolveType node)
  fail cause location _ := .fail cause location
  declareTypeParameters nodes _ := Writes.balances (.declareTypeParameters nodes)
  declareInterface declaration _ := balances_declareInterface declaration
  readWhole _ := .consult composes_balanced fun c t => (asking_once c t).balanced
  changeScopes _ := .change composes_balanced (fun _ _ => rfl) fun _ => rfl
  modifyFunctions _ := .change composes_balanced (fun _ _ => rfl) fun _ => rfl
  setFile _ := .setFile composes_balanced _

end Checking

section Program
variable {c : Checker} {files : List SourceFile}

/-- Whatever is named may be new. -/
def NewNames.any : NewNames := ⟨fun _ => True, fun _ => True⟩

theorem NewNames.le_any (new : NewNames) : new.Le any := ⟨fun _ _ => trivial, fun _ _ => trivial⟩

/-- The interfaces of the program are built. -/
structure Prepared (files : List SourceFile) (history : List Happening) (c : Checker) : Prop where
  silent : ∀ t, .asked t ∉ history
  balanced : Balanced history
  interfaces : ∀ name, interfaceNames (programInterfaces files) name ≠ none →
    ∃ id body, c.declaredTypes.find? name = some id ∧ .reserved body ∈ history ∧
      c.table.Built id body

theorem prepares_declareInterfaces (fresh : c.Fresh) (files : List SourceFile) :
    RecordedFrom c (declareInterfaces files) fun _ => Prepared files := by
  refine (reserves_beginFiles files).bind fun begun history c₁ records reserves => ?_
  have top := (fresh.begun.files files records.step).top
  simp only [List.nil_append] at top
  have constrained := silent_forInterfaces Writes.constrainInterface begun
  refine (constrained c₁).bind fun _ silence c₂ records' writing => ?_
  have declaring₁ := reserves.phase.trans fresh.declaring
  have declaring₂ := writing.phase.trans declaring₁
  rw [writing.silent declaring₁, reserves.history]
  refine (fills_forInterfaces begun declaring₂).weaken ?_
  rintro _ filling c₃ records₃ ⟨-, filled⟩
  -- What is entered while the bodies are built is undone, so the names are those that were begun.
  have kept : c₁.KeepsNames .any c₃ := by
    have written := Restores.scopedProperty
    have one : Stable .any (forInterfaces constrainInterface begun) :=
      .forInterfaces (fun p => .of_restores (written.constrainInterface (fun _ _ => trivial) _ _ _))
        begun
    have two : Stable .any (forInterfaces completeInterface begun) :=
      .forInterfaces (fun p => .of_restores (written.completeInterface (fun _ _ => trivial) _ _ _))
        begun
    exact ((one c₁).keeps records'.step).trans ((two c₂).keeps records₃.step)
  refine ⟨fun t member => ?_, filled.balanced, fun name listed => ?_⟩
  · rcases List.mem_append.mp member with member | member
    · obtain ⟨p, -, same⟩ := List.mem_map.mp member
      cases same
    · obtain ⟨body, o, same⟩ := filled.only _ member
      cases same
  · obtain ⟨id, found⟩ := Option.isSome_iff_exists.mp ((top.unknown_iff name).mpr listed)
    rcases reserves.names name id found with old | ⟨p, member, hasBody⟩
    · simp [fresh.declaredTypes] at old
    · obtain ⟨o, made⟩ := filled.all p member
      have retains := records'.undergoes.retains.trans records₃.undergoes.retains
      have reserved : .reserved p.body ∈ begun.map fun p => Happening.reserved p.body :=
        List.mem_map_of_mem member
      exact ⟨id, p.body, kept.declaredTypes.kept name id found, List.mem_append_left _ reserved,
        hasBody.retained retains, o, records₃.undergoes.built p.body o made⟩

/-- The declarations of a program are entered, and then everything is checked. -/
def enterAndCheck (files : List SourceFile) : CheckM Unit := do
  declareFiles files
  finishDeclaring
  checkDeclared

theorem balances_finishDeclaring : Balances finishDeclaring := by
  have reported (check : DeferredConstraint) : Balances (reportUnsatisfied check) :=
    runProperty_balances.toQuietProperty.reportUnsatisfied check fun _ =>
      .report composes_balanced _
  have checked (checks : List DeferredConstraint) : Balances (runDeferred checks) := by
    induction checks with
    | nil => exact .pure composes_balanced ()
    | cons check rest ih =>
        refine .bind composes_balanced (.setFile composes_balanced _) fun _ => ?_
        exact .bind composes_balanced (reported check) fun _ => ih
  refine .see (fun _ _ _ => rfl) fun c => ?_
  refine .bind composes_balanced (.change composes_balanced (fun _ _ => rfl) fun _ => rfl) ?_
  exact fun _ => .bind composes_balanced (checked _) fun _ => .setFile composes_balanced none

theorem balances_checkDeclared : Balances checkDeclared := by
  have enters (f : Checker → Checker)
      (apart : ∀ (c : Checker) t, f { c with table := t } = { f c with table := t }) :
      Balances (modify f : CheckM PUnit) :=
    fun c => .change (apart c) balanced_nil
  refine .bind composes_balanced (enters _ fun _ _ => rfl) fun _ => ?_
  refine .see (fun _ _ _ => rfl) fun c => ?_
  refine .bind composes_balanced (runProperty_balances.checkFiles _ _) fun _ => ?_
  exact enters _ fun _ _ => rfl

theorem balances_enterAndCheck (files : List SourceFile) : Balances (enterAndCheck files) := by
  refine .bind composes_balanced (Writes.declareFiles files).balances fun _ => ?_
  exact .bind composes_balanced balances_finishDeclaring fun _ => balances_checkDeclared

/-- Names that stand for something go on standing for it. -/
theorem stable_enterAndCheck (files : List SourceFile) (c : Checker) :
    StableFrom .any c (enterAndCheck files) := by
  refine .bind ((Stable.declareFiles files c).mono (NewNames.le_any _)) fun _ c₁ _ => ?_
  refine .bind (Stable.finishDeclaring c₁) fun _ c₂ _ => ?_
  exact (Stable.checkDeclared c₂).mono (NewNames.le_any _)

theorem silent_declareSourceFiles (files : List SourceFile) :
    Writes (forIn files PUnit.unit fun file _ => do
      declareSourceFile file
      pure (ForInStep.yield PUnit.unit)) := by
  induction files with
  | nil => exact .pure _
  | cons file rest ih =>
      have one : Writes (declareSourceFile file) := by
        refine .see (fun _ _ _ => rfl) fun c => ?_
        split
        · exact fun _ => .throw
        · exact .change composes_writing (fun _ _ => rfl) fun _ => rfl
      rw [List.forIn_cons, bind_assoc]
      exact .bind one fun _ => ih

/-- The reservations of a run. -/
structure ReservationsFilled (files : List SourceFile) (history : List Happening) (c : Checker) :
    Prop where
  /-- The name of an interface at the top level stands for it in the end. Its body is reserved, and
  built whenever something is asked. -/
  interfaces : ∀ file ∈ files, ∀ declaration, .interface declaration ∈ file.statements →
    ∃ id body, c.declaredType? declaration.name = some id ∧ .reserved body ∈ history ∧
      c.table.Built id body ∧ ∀ t, .asked t ∈ history → t.Built id body
  /-- What is reserved is filled once, with an object type. -/
  once : ∀ body, .reserved body ∈ history → ∃ o, fillings body history = [.object o]
  reserved : ∀ body kind, .filled body kind ∈ history → .reserved body ∈ history
  settled : ∀ id, c.table.kind id ≠ .pending
  /-- Generic interfaces, those in blocks as well, have object types for their bodies. -/
  generics : ∀ id g, c.table.kind id = .generic g → ∃ o, c.table.kind g.body = .object o

/-- Before the first question, the interfaces at the top level are built; from then on, bodies are
reserved and filled in blocks. -/
theorem reservationsFilled_of_prepared {start c₁ c : Checker} {history later : List Happening}
    (empty : ∀ id, start.table.kind id ≠ .pending) (tidy : c.table.Tidy)
    (prepared : Prepared files history c₁)
    (whole : start.table.Undergoes (history ++ later) c.table)
    (after : c₁.table.Undergoes later c.table) (balanced : Balanced later)
    (kept : ∀ name id, c₁.declaredTypes.find? name = some id →
      c.declaredTypes.find? name = some id) :
    ReservationsFilled files (history ++ later) c := by
  have both := prepared.balanced.append balanced
  have reserved (body : TypeId) (kind : TypeKind)
      (made : .filled body kind ∈ history ++ later) : .reserved body ∈ history ++ later :=
    (whole.waited body kind made).resolve_left (empty body)
  -- Nothing waits at the start, so what waited in the end would be reserved, and so filled.
  have settled (id : TypeId) : c.table.kind id ≠ .pending := by
    intro waits
    obtain ⟨o, made⟩ := both.reserved id ((whole.pending id waits).resolve_left (empty id))
    exact (whole.filled id _ made).2 waits
  refine ⟨fun file listed declaration member => ?_, fun body member => ?_, reserved, settled,
    fun id g generic => (tidy.generics id g generic).body.resolve_left (settled g.body)⟩
  · have placed : (some file.name, declaration) ∈ programInterfaces files :=
      List.mem_flatMap.mpr ⟨file, listed, List.mem_map_of_mem
        (List.mem_filterMap.mpr ⟨.interface declaration, member, rfl⟩)⟩
    have declared : interfaceNames (programInterfaces files) declaration.name ≠ none :=
      fun unknown => (interfaceNames_eq_none_iff _ _).mp unknown (List.mem_map_of_mem placed)
    obtain ⟨id, body, found, made, built⟩ := prepared.interfaces _ declared
    refine ⟨id, body, kept _ id found, List.mem_append_left _ made, built.retained after.retains,
      fun t asked => ?_⟩
    rcases List.mem_append.mp asked with before | since
    · exact absurd before (prepared.silent t)
    · exact built.retained (after.asked t since)
  · obtain ⟨o, made⟩ := both.reserved body member
    have filling := mem_fillings.mpr made
    have single := Nat.le_antisymm (whole.once body) (List.length_pos_of_mem filling)
    obtain ⟨kind, same⟩ := List.length_eq_one_iff.mp single
    rw [same] at filling
    exact ⟨o, List.mem_singleton.mp filling ▸ same⟩

theorem recorded_declareAndCheck (options : CheckerOptions) (files : List SourceFile) :
    RecordedFrom (.new options) (declareAndCheck files) fun _ history c =>
      c.table.Tidy → ReservationsFilled files history c := by
  refine (silent_declareSourceFiles files _).bind fun _ silence c records writing => ?_
  obtain ⟨-, rfl⟩ := Prod.mk.inj (records.step.symm.trans (step_declareSourceFiles files rfl))
  obtain rfl := writing.silent rfl
  refine .see (fun _ _ => rfl) (.ite (fun _ => .throw) fun _ => ?_)
  -- The run is split where the interfaces are built; nothing is asked up to there.
  have whole : (do
      declareAll
      modify fun checker => { checker with phase := .checking }
      checkFiles ⟨0, 0⟩ (← get).files
      modify fun checker => { checker with currentFile := none, phase := .done } : CheckM Unit) =
      (do
        let checker ← get
        declareInterfaces checker.files
        enterAndCheck checker.files) := by
    simp only [declareAll_eq, enterAndCheck, checkDeclared, bind_assoc]
  rw [whole]
  have fresh : ({ Checker.new options with files := files } : Checker).Fresh :=
    ⟨rfl, rfl, rfl, rfl, rfl, rfl, rfl⟩
  refine .see (fun _ _ => rfl) ?_
  refine (prepares_declareInterfaces fresh files).bind fun _ history c₁ records prepared => ?_
  refine (balances_enterAndCheck files c₁).weaken fun _ later c records' balanced => ?_
  have empty (id : TypeId) : (Checker.new options).table.kind id ≠ .pending := by
    intro pending
    have listed := TypeTable.mem_entries_of_kind pending (by simp)
    simp [Checker.new, TypeTable.initial] at listed
  have kept := ((stable_enterAndCheck files c₁).keeps records'.step).declaredTypes.kept
  intro tidy
  change ReservationsFilled files (history ++ later) c
  exact reservationsFilled_of_prepared empty tidy prepared
    (records.undergoes.trans records'.undergoes) records'.undergoes balanced kept

/-- An interface that is mentioned before it is declared, in a constraint and elsewhere, and again
after that, and an interface in a block. -/
def scatteredInterfaces : List SourceFile :=
  [⟨"a.ts", [
    .ofVariable "x" (some (.named "List" [.named "Item" []])) none,
    .ofInterface "List" [.bounded "T" (.named "Item" [])]
      [.required "head" (.named "T" []), .required "tail" (.named "List" [.named "T" []])],
    .ofInterface "Item" [] [.required "value" (.ofKeyword .string)],
    .ofFunction "f" [] [] none [
      .ofInterface "Node" [.free "V"]
        [.required "next" (.named "Node" [.named "V" []]), .required "item" (.named "Item" [])]]]⟩,
   ⟨"b.ts", [.ofInterface "Item" [] []]⟩]

end Program

end StructuralTyping
