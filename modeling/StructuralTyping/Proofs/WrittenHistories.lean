import StructuralTyping.Proofs.ReservationHistory
import StructuralTyping.Proofs.WrittenLookups
import StructuralTyping.Proofs.WrittenProperties

/-! Histories of the steps that make entries of what is written. No body is reserved or filled
by them, and while declaring nothing is asked either: a reference is looked up among the heads of
the entries, and the check of its arguments has to wait. -/
namespace StructuralTyping

open CheckM

variable {α β : Type} {c : Checker}

/-- Where the step succeeds from this checker, it has such a history. -/
def RecordedFrom (c : Checker) (m : CheckM α) (post : α → List Happening → Checker → Prop) :
    Prop :=
  ∀ a c', c.step m = (.ok a, c') → ∃ history, m.Records c a c' history ∧ post a history c'

namespace RecordedFrom

variable {post : β → List Happening → Checker → Prop}

theorem weaken {m : CheckM β} {strong : β → List Happening → Checker → Prop}
    (recorded : RecordedFrom c m strong)
    (implies : ∀ b history c', m.Records c b c' history → strong b history c' →
      post b history c') : RecordedFrom c m post := by
  intro b c' done
  obtain ⟨history, records, holds⟩ := recorded b c' done
  exact ⟨history, records, implies b history c' records holds⟩

/-- The history of what follows comes after the history of the first step. -/
theorem bind {m : CheckM α} {k : α → CheckM β} {middle : α → List Happening → Checker → Prop}
    (first : RecordedFrom c m middle)
    (next : ∀ a history c', m.Records c a c' history → middle a history c' →
      RecordedFrom c' (k a) fun b later => post b (history ++ later)) :
    RecordedFrom c (m >>= k) post := by
  intro b c'' done
  obtain ⟨a, c', one, two⟩ := Checker.step_bind_ok done
  obtain ⟨history, records, holds⟩ := first a c' one
  obtain ⟨later, records', holds'⟩ := next a history c' records holds b c'' two
  exact ⟨history ++ later, .bind records records', holds'⟩

theorem pure {b : β} (holds : post b [] c) : RecordedFrom c (pure b) post := by
  rintro _ _ ⟨⟩
  exact ⟨[], .pure b c, holds⟩

theorem throw {cause : CheckError} : RecordedFrom c (throw cause : CheckM β) post := by
  rintro _ _ ⟨⟩

theorem fail {cause : ConstructionError} {location : Location} :
    RecordedFrom c (fail cause location : CheckM β) post := throw

theorem see {k : Checker → CheckM β}
    (blind : ∀ t, c.table.SameHeads t → k { c with table := t } = k c)
    (next : RecordedFrom c (k c) post) : RecordedFrom c (get >>= k) post := by
  intro b c' done
  obtain ⟨history, records, holds⟩ := next b c' done
  exact ⟨history, .see blind records, holds⟩

/-- Of a table only the heads are seen. -/
theorem seeTable {k : TypeTable → CheckM β}
    (blind : ∀ t, c.table.SameHeads t → k t = k c.table)
    (next : RecordedFrom c (k c.table) post) : RecordedFrom c (table >>= k) post := by
  have whole : (table >>= k) = (get >>= fun checker => k checker.table) :=
    Checker.step_ext fun _ => rfl
  rw [whole]
  exact see blind next

theorem consult {k : Checker → CheckM β}
    (next : RecordedFrom c (k c) fun b history => post b (.asked c.table :: history)) :
    RecordedFrom c (get >>= k) post := by
  intro b c' done
  obtain ⟨history, records, holds⟩ := next b c' done
  exact ⟨.asked c.table :: history, .consult records, holds⟩

theorem change {f : Checker → Checker} {post : PUnit → List Happening → Checker → Prop}
    (apart : ∀ t, f { c with table := t } = { f c with table := t }) (holds : post ⟨⟩ [] (f c)) :
    RecordedFrom c (modify f : CheckM PUnit) post := by
  rintro _ _ ⟨⟩
  exact ⟨[], .change apart, holds⟩

theorem addType {kind : TypeKind} {post : TypeId → List Happening → Checker → Prop}
    (ready : kind ≠ .pending)
    (holds : post c.table.size [] { c with table := (c.table.add kind).2 }) :
    RecordedFrom c (addType kind) post := by
  rintro _ _ ⟨⟩
  exact ⟨[], .add c ready, holds⟩

theorem ite {p : Prop} [Decidable p] {yes no : CheckM β} (one : p → RecordedFrom c yes post)
    (two : ¬ p → RecordedFrom c no post) : RecordedFrom c (if p then yes else no) post := by
  by_cases holds : p
  · rw [if_pos holds]
    exact one holds
  · rw [if_neg holds]
    exact two holds

end RecordedFrom

/-- What is required of histories holds of sequences, and of changes that leave the phase. -/
structure Composes (required : Checker → List Happening → Checker → Prop) : Prop where
  trans {c c' c'' : Checker} {history later : List Happening} :
    required c history c' → required c' later c'' → required c (history ++ later) c''
  change {c c' : Checker} : c'.phase = c.phase → required c [] c'

/-- The step has a history as required, whatever the checker. -/
def Recorded (required : Checker → List Happening → Checker → Prop) (m : CheckM α) : Prop :=
  ∀ c, RecordedFrom c m fun _ => required c

namespace Recorded

variable {required : Checker → List Happening → Checker → Prop} (composes : Composes required)

include composes

theorem pure (a : α) : Recorded required (pure a) := fun _ => .pure (composes.change rfl)

theorem bind {m : CheckM α} {k : α → CheckM β} (first : Recorded required m)
    (next : ∀ a, Recorded required (k a)) : Recorded required (m >>= k) :=
  fun c => (first c).bind fun a _ c' _ here => (next a c').weaken fun _ _ _ _ =>
    composes.trans here

theorem change {f : Checker → Checker}
    (apart : ∀ (c : Checker) (t : TypeTable), f { c with table := t } = { f c with table := t })
    (phase : ∀ c, (f c).phase = c.phase) : Recorded required (modify f : CheckM PUnit) :=
  fun c => .change (apart c) (composes.change (phase c))

omit composes in
theorem see {k : Checker → CheckM α}
    (blind : ∀ (c : Checker) t, c.table.SameHeads t → k { c with table := t } = k c)
    (next : ∀ c, Recorded required (k c)) : Recorded required (get >>= k) :=
  fun c => .see (blind c) (next c c)

omit composes in
theorem seeTable {k : TypeTable → CheckM α} (blind : ∀ t t', t.SameHeads t' → k t' = k t)
    (next : ∀ t, Recorded required (k t)) : Recorded required (table >>= k) :=
  fun c => .seeTable (fun t => blind c.table t) (next c.table c)

theorem display (id : TypeId) : Recorded required (CheckM.display id) := by
  rintro c _ _ ⟨⟩
  exact ⟨[], .display id c, composes.change rfl⟩

theorem addType {kind : TypeKind} (ready : kind ≠ .pending) : Recorded required (addType kind) :=
  fun _ => .addType ready (composes.change rfl)

theorem setConstraint (id bound : TypeId) : Recorded required (modify fun checker =>
    { checker with table := checker.table.setConstraint id bound } : CheckM PUnit) := by
  rintro c _ _ ⟨⟩
  exact ⟨[], .constrain id bound c, composes.change rfl⟩

theorem report (d : Diagnostic) : Recorded required (report d) :=
  change composes (fun _ _ => rfl) fun _ => rfl

theorem error (location : Location) (message : Message) (arguments : List String) :
    Recorded required (error location message arguments) := report composes _

theorem setFile (file : Option String) : Recorded required (setFile file) :=
  change composes (fun _ _ => rfl) fun _ => rfl

theorem updateScope (f : Scope → Scope) : Recorded required (updateScope f) := by
  rw [updateScope_eq]
  exact change composes (fun _ _ => rfl) fun _ => rfl

theorem inNewScope {m : CheckM α} (inside : Recorded required m) :
    Recorded required (inNewScope m) := by
  refine bind composes (change composes (fun _ _ => rfl) fun _ => rfl) fun _ => ?_
  refine bind composes inside fun a => ?_
  exact bind composes (change composes (fun _ _ => rfl) fun _ => rfl) fun _ => pure composes a

omit composes in
theorem fail (cause : ConstructionError) (location : Location) :
    Recorded required (fail cause location : CheckM α) := fun _ => .fail

section Questions
variable (asks : ∀ c t, required c [.asked c.table] { c with table := t })

include asks

theorem consult {k : Checker → CheckM α} (next : ∀ c, Recorded required (k c)) :
    Recorded required (get >>= k) :=
  fun c => .consult ((next c c).weaken fun _ _ _ _ holds => composes.trans (asks c c.table) holds)

/-- Where questions are allowed, so are all steps that leave the names and the bodies alone. -/
theorem quietProperty : QuietProperty (fun _ => True) (Recorded required) where
  pure := pure composes
  bind := bind composes
  reading _ := consult composes asks
  onTable derives := by
    rintro c _ _ ⟨⟩
    exact ⟨[.asked c.table], .ask c derives, asks c _⟩
  report _ _ := report composes _
  reportOpen parameter here :=
    reportOpen_of (fun _ => True) (fun _ => consult composes asks) (fun _ _ => report composes _)
      (pure composes ()) here parameter

end Questions

end Recorded

/-- There are questions at most, and the phase is the same. -/
structure Asking (c : Checker) (history : List Happening) (c' : Checker) : Prop where
  asks : ∀ happening ∈ history, ∃ t, happening = .asked t
  phase : c'.phase = c.phase

/-- Besides, there are no questions while declaring. -/
structure Writing (c : Checker) (history : List Happening) (c' : Checker) : Prop extends
    Asking c history c' where
  silent : c.phase = .declaring → history = []

theorem composes_asking : Composes Asking where
  trans one two :=
    ⟨List.forall_mem_append.mpr ⟨one.asks, two.asks⟩, two.phase.trans one.phase⟩
  change phase := ⟨List.forall_mem_nil _, phase⟩

theorem composes_writing : Composes Writing where
  trans one two :=
    { composes_asking.trans one.toAsking two.toAsking with
      silent := fun declaring => by
        rw [one.silent declaring, two.silent (one.phase.trans declaring)]
        rfl }
  change phase := { composes_asking.change phase with silent := fun _ => rfl }

theorem asking_once (c : Checker) (t : TypeTable) :
    Asking c [.asked c.table] { c with table := t } :=
  ⟨List.forall_mem_singleton.mpr ⟨c.table, rfl⟩, rfl⟩

theorem asks_reportUnsatisfied (check : DeferredConstraint) :
    Recorded Asking (reportUnsatisfied check) :=
  (Recorded.quietProperty composes_asking asking_once).reportUnsatisfied check fun _ =>
    .report composes_asking _

/-- The step writes types. -/
abbrev Writes (m : CheckM α) : Prop := Recorded Writing m

namespace Writes

theorem pure (a : α) : Writes (pure a) := Recorded.pure composes_writing a

theorem bind {m : CheckM α} {k : α → CheckM β} (first : Writes m) (next : ∀ a, Writes (k a)) :
    Writes (m >>= k) := Recorded.bind composes_writing first next

theorem error (location : Location) (message : Message) (arguments : List String) :
    Writes (error location message arguments) := Recorded.error composes_writing _ _ _

theorem pushScope : Writes (pushScope .empty) :=
  .change composes_writing (fun _ _ => rfl) fun _ => rfl

theorem popScope : Writes popScope := .change composes_writing (fun _ _ => rfl) fun _ => rfl

theorem addType {kind : TypeKind} (ready : kind ≠ .pending) : Writes (addType kind) :=
  Recorded.addType composes_writing ready

/-- While declaring, the check waits. -/
theorem checkConstraint (parameter argument : TypeId) (bindings : Bindings)
    (location : Location) : Writes (checkConstraint parameter argument bindings location) := by
  rw [checkConstraint_eq]
  refine fun c => .see (fun _ _ => rfl) (.ite (fun _ => ?_) fun later => ?_)
  · exact .change (fun _ => rfl) (composes_writing.change rfl)
  · exact (asks_reportUnsatisfied _ c).weaken fun _ _ _ _ asking =>
      { asking with silent := fun declaring => absurd declaring later }

theorem checkConstraints (bindings : Bindings) (pairs : List ((TypeId × TypeId) × Location)) :
    Writes (checkConstraints bindings pairs) := by
  induction pairs with
  | nil => exact pure ()
  | cons pair rest ih => exact bind (checkConstraint _ _ _ _) fun _ => ih

theorem lookupType (name : String) : Writes (lookupType name) := by
  refine .see (fun _ _ _ => rfl) fun c => ?_
  split
  · exact pure _
  · exact pure _

theorem bindTypeParameterNames (reportDuplicates : Bool)
    (parameters : List (TypeParameterNode × TypeId)) :
    Writes (bindTypeParameterNames reportDuplicates parameters) := by
  induction parameters with
  | nil => exact pure ()
  | cons parameter rest ih =>
      refine .see (fun _ _ _ => rfl) fun c => ?_
      split
      · exact pure ()
      · refine bind (.updateScope composes_writing _) fun _ => ?_
        dsimp only
        split
        · exact bind (error _ _ _) fun _ => ih
        · exact ih

theorem freshTypeParameters (nodes : List TypeParameterNode) :
    Writes (freshTypeParameters nodes) := by
  induction nodes with
  | nil => exact pure []
  | cons node rest ih =>
      rw [StructuralTyping.CheckM.freshTypeParameters, List.mapM_cons]
      exact bind (addType (by simp)) fun id => bind ih fun ids => pure _

end Writes

section Heads

/-- Of a kind, only the generic interface that it may be is seen. -/
theorem TypeKind.match_head {kind kind' : TypeKind} (whole : GenericType → α) (otherwise : α) :
    kind'.head = kind.head →
      (match kind' with | .generic g => whole g | _ => otherwise) =
        match kind with | .generic g => whole g | _ => otherwise := by
  cases kind <;> cases kind' <;> simp_all [head]

namespace TypeTable.SameHeads

variable {t t' : TypeTable} (same : t.SameHeads t')

include same

theorem typeParameterName (id : TypeId) : t'.typeParameterName id = t.typeParameterName id := by
  have heads := same id
  unfold TypeTable.typeParameterName
  generalize t.kind id = kind at heads
  generalize t'.kind id = kind' at heads
  cases kind <;> cases kind' <;> simp_all [TypeKind.head]

theorem nameArguments (pairs : List (TypeId × TypeId)) :
    t'.nameArguments pairs = t.nameArguments pairs := by
  refine List.filterMap_congr fun (parameter, argument) _ => ?_
  have heads := same parameter
  dsimp only
  generalize t.kind parameter = kind at heads
  generalize t'.kind parameter = kind' at heads
  cases kind <;> cases kind' <;> simp_all [TypeKind.head]

theorem instanceOf (origin : TypeId) (bindings : List (String × TypeId)) :
    t'.instanceOf origin bindings = t.instanceOf origin bindings := by
  unfold TypeTable.instanceOf
  simp only [funext same.typeParameterName]
  exact TypeKind.match_head _ _ (same origin)

end TypeTable.SameHeads

end Heads

namespace Writes

/-- An instance is made of the heads of entries. -/
theorem instantiateReference (declared : TypeId) (g : GenericType) (ids : List TypeId)
    (locations : List Location) (location : Location) :
    Writes (instantiateReference declared g ids locations location) := by
  rw [instantiateReference_eq]
  refine bind (checkConstraints _ _) fun _ => .seeTable (fun t t' same => ?_) fun t => ?_
  · rw [same.nameArguments, same.instanceOf]
  · split
    · exact addType (by simp)
    · exact .fail _ _

mutual

theorem resolveType : ∀ node : TypeNode, Writes (resolveType node)
  | .keyword _ _ => pure _
  | .reference name arguments location => by
      rw [StructuralTyping.resolveType]
      refine bind (lookupType name) fun found => ?_
      cases found with
      | none => exact bind (error _ _ _) fun _ => pure _
      | some declared =>
          refine .seeTable (fun t t' same => ?_) fun t => ?_
          · exact TypeKind.match_head _ _ (same declared)
          · split
            · split
              · exact bind (error _ _ _) fun _ => pure _
              · exact bind (resolveTypes arguments) fun ids => instantiateReference _ _ _ _ _
            · dsimp only
              split
              · refine bind (.display composes_writing _) fun text => ?_
                exact bind (error _ _ _) fun _ => pure _
              · exact pure _
  | .literal members _ => by
      rw [StructuralTyping.resolveType]
      refine bind (resolveMembers [] members) fun properties => ?_
      split
      · exact addType (by simp)
      · exact .fail _ _
  | .function typeParameters parameters returnType _ => by
      rw [StructuralTyping.resolveType]
      refine bind pushScope fun _ => bind (freshTypeParameters _) fun ids => ?_
      refine bind (bindTypeParameterNames _ _) fun _ => ?_
      refine bind (resolveConstraints typeParameters ids) fun _ => ?_
      refine bind (resolveParameters none 0 parameters) fun resolved => ?_
      refine bind (resolveType returnType) fun result => ?_
      exact bind popScope fun _ => addType (by simp)

theorem resolveTypes : ∀ nodes : List TypeNode, Writes (resolveTypes nodes)
  | [] => pure []
  | node :: rest => bind (resolveType node) fun _ => bind (resolveTypes rest) fun _ => pure _

theorem resolveMembers (seen : List String) :
    ∀ members : List PropertySignature, Writes (resolveMembers seen members)
  | [] => pure []
  | ⟨name, optional, declaredType, location⟩ :: rest => by
      have resolved : Writes (do
          let type ← StructuralTyping.resolveType declaredType
          let properties ← StructuralTyping.resolveMembers (name :: seen) rest
          return (name, (⟨type, optional⟩ : Property)) :: properties) :=
        bind (resolveType declaredType) fun _ =>
          bind (resolveMembers (name :: seen) rest) fun _ => pure _
      rw [StructuralTyping.resolveMembers]
      split
      · exact bind (.fail _ _) fun _ => resolved
      · exact resolved

theorem resolveConstraints : ∀ (nodes : List TypeParameterNode) (ids : List TypeId),
    Writes (resolveConstraints nodes ids)
  | [], _ => by
      rw [StructuralTyping.resolveConstraints]
      · exact pure ()
      · simp
  | _ :: _, [] => by
      rw [StructuralTyping.resolveConstraints]
      · exact pure ()
      · simp
  | ⟨_, none, _⟩ :: nodes, _ :: ids => by
      rw [StructuralTyping.resolveConstraints]
      exact resolveConstraints nodes ids
  | ⟨_, some node, _⟩ :: nodes, id :: ids => by
      rw [StructuralTyping.resolveConstraints]
      refine bind (resolveType node) fun bound => ?_
      exact bind (.setConstraint composes_writing id bound) fun _ => resolveConstraints nodes ids

theorem resolveParameters (context : Option FunctionType) (index : Nat) :
    ∀ parameters : List ParameterNode, Writes (resolveParameters context index parameters)
  | [] => pure []
  | ⟨name, optional, annotation, _⟩ :: rest => by
      have others (id : TypeId) : Writes (do
          let parameters ← StructuralTyping.resolveParameters context (index + 1) rest
          return (⟨name, id, optional⟩ : Parameter) :: parameters) :=
        bind (resolveParameters context (index + 1) rest) fun _ => pure _
      match annotation with
      | none =>
          rw [StructuralTyping.resolveParameters]
          exact bind (pure _) others
      | some node =>
          rw [StructuralTyping.resolveParameters]
          exact bind (resolveType node) others

end

theorem resolveOptionalType : ∀ node : Option TypeNode, Writes (resolveOptionalType node)
  | none => pure none
  | some node => bind (resolveType node) fun _ => pure _

theorem declareTypeParameters (nodes : List TypeParameterNode) :
    Writes (declareTypeParameters nodes) := by
  refine bind (freshTypeParameters _) fun ids => bind (bindTypeParameterNames _ _) fun _ => ?_
  exact bind (resolveConstraints _ _) fun _ => pure _

theorem buildObjectType (name : Option String) (members : List PropertySignature) :
    Writes (buildObjectType name members) := by
  refine bind (resolveMembers [] members) fun properties => ?_
  split
  · exact pure _
  · exact .fail _ _

theorem constrainInterface (p : PendingInterface) : Writes (constrainInterface p) := by
  refine bind pushScope fun _ => bind (bindTypeParameterNames _ _) fun _ => ?_
  exact bind (resolveConstraints _ _) fun _ => popScope

section Declaring

theorem enterFunction (name : String) (f : DeclaredFunction) : Writes (enterFunction name f) := by
  rw [enterFunction_eq]
  refine .see (fun _ _ _ => rfl) fun c => ?_
  refine bind (.change composes_writing (fun _ _ => rfl) fun _ => rfl) fun _ => ?_
  split
  · exact error _ _ _
  · exact .change composes_writing (fun _ _ => rfl) fun _ => rfl

theorem declareFunction (name : String) (node : FunctionNode) :
    Writes (declareFunction name node) := by
  rw [declareFunction_eq]
  refine bind pushScope fun _ => bind (declareTypeParameters _) fun ids => ?_
  refine bind (resolveParameters none 0 _) fun resolved => ?_
  refine bind (resolveOptionalType _) fun result => bind popScope fun _ => ?_
  cases result with
  | none => exact bind (pure none) fun _ => enterFunction _ _
  | some result =>
      exact bind (addType (by simp)) fun id => bind (pure _) fun _ => enterFunction _ _

theorem declareHoisted (name : String) (declaredType : Option TypeNode) :
    Writes (declareHoisted name declaredType) :=
  bind (resolveOptionalType declaredType) fun _ =>
    .change composes_writing (fun _ _ => rfl) fun _ => rfl

theorem declareStatements : ∀ statements : List Statement, Writes (declareStatements statements)
  | [] => pure ()
  | .function name node :: rest =>
      bind (declareFunction name node) fun _ => declareStatements rest
  | .variable name declaredType _ _ :: rest =>
      bind (declareHoisted name declaredType) fun _ => declareStatements rest
  | .interface _ :: rest
  | .expression _ _ :: rest
  | .returning _ _ :: rest => declareStatements rest

theorem declareFiles (files : List SourceFile) : Writes (declareFiles files) := by
  induction files with
  | nil => exact pure ()
  | cons file rest ih =>
      refine bind (.setFile composes_writing _) fun _ => ?_
      exact bind (declareStatements file.statements) fun _ => ih

end Declaring

end Writes

end StructuralTyping
