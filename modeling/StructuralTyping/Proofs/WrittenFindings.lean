import StructuralTyping.Checker.WrittenTypes
import StructuralTyping.Proofs.Constructors
import StructuralTyping.Proofs.Findings
import StructuralTyping.Proofs.Steps

/-! Written types are entered with exactly the findings of their tree: these are
reported, and the checks of type arguments are put off, in the order of the tree. While
declarations are entered, the checks that wait are those of the instances in the table,
argument by argument, since every instance is built where it is written and its checks
are put off at that moment. -/
namespace StructuralTyping

open CheckM

/-- A type parameter, an argument for it, and what its constraint is to be taken under. -/
abbrev Request := TypeId × TypeId × Bindings

/-- An argument has to satisfy the constraint of the parameter at its place. -/
def argumentRequests (parameters arguments : List TypeId) : List Request :=
  (parameters.zip arguments).map fun pair =>
    (pair.1, pair.2, .ofList (parameters.zip arguments))

namespace DeferredConstraint

def request (check : DeferredConstraint) : Request :=
  (check.parameter, check.argument, check.bindings)

def place (check : DeferredConstraint) : Location × Option String :=
  (check.location, check.file)

end DeferredConstraint

namespace TypeTable

def requestsOf (t : TypeTable) : TypeKind → List Request
  | .instantiated i =>
      match t.kind i.origin with
      | .generic g => argumentRequests g.typeParameters i.bindings.values
      | _ => []
  | _ => []

/-- What the arguments of all instances in the table have to satisfy. -/
def requests (t : TypeTable) : List Request :=
  (List.range t.size).flatMap fun id => t.requestsOf (t.kind id)

/-- Generic interfaces have type parameters, and instances are instances of them. -/
structure Orderly (t : TypeTable) : Prop where
  parameters : ∀ id g, t.kind id = .generic g → ∀ p ∈ g.typeParameters,
    ∃ name constraint, t.kind p = .typeParameter name constraint
  origins : ∀ id i, t.kind id = .instantiated i → ∃ g, t.kind i.origin = .generic g

theorem asGeneric?_eq_some_iff {t : TypeTable} {id : TypeId} {g : GenericType} :
    t.asGeneric? id = some g ↔ t.kind id = .generic g := by
  unfold asGeneric?
  split <;> simp_all

/-- Generic interfaces and object types stay what they are, no entry becomes a generic
interface, and no others than these entries are reserved. -/
structure Grows (reserved : List TypeId) (t t' : TypeTable) : Prop where
  size : t.size ≤ t'.size
  generic : ∀ id < t.size, ∀ g, t'.kind id = .generic g ↔ t.kind id = .generic g
  object : ∀ id o, t.kind id = .object o → t'.kind id = .object o
  pending : ∀ id, t'.kind id = .pending → t.kind id = .pending ∨ id ∈ reserved

namespace Grows

variable {reserved reserved' : List TypeId} {t t' t'' : TypeTable}

theorem refl (t : TypeTable) : t.Grows [] t :=
  ⟨Nat.le_refl _, fun _ _ _ => .rfl, fun _ _ => id, fun _ => .inl⟩

theorem trans (one : t.Grows reserved t') (two : t'.Grows reserved' t'') :
    t.Grows (reserved ++ reserved') t'' where
  size := Nat.le_trans one.size two.size
  generic id inside g :=
    (two.generic id (Nat.lt_of_lt_of_le inside one.size) g).trans (one.generic id inside g)
  object id o entry := two.object id o (one.object id o entry)
  pending id entry := by
    rcases two.pending id entry with before | new
    · exact (one.pending id before).imp_right (List.mem_append_left _)
    · exact .inr (List.mem_append_right _ new)

theorem add (t : TypeTable) {kind : TypeKind} (new : kind = .pending → t.size ∈ reserved) :
    t.Grows reserved (t.add kind).2 where
  size := by simp
  generic _ inside _ := by rw [kind_add_of_lt inside]
  object id o entry := (kind_add_of_lt (lt_size_of_kind entry (by simp)) kind).trans entry
  pending id entry := by
    have inside : id < t.size + 1 := by simpa using lt_size_of_kind entry (by simp)
    rcases Nat.lt_succ_iff_lt_or_eq.mp inside with before | rfl
    · exact .inl ((kind_add_of_lt before kind).symm.trans entry)
    · exact .inr (new ((kind_add_size t kind).symm.trans entry))

theorem settle (size : t'.size = t.size)
    (each : ∀ id, t'.kind id = t.kind id ∨ (t.kind id).Settles (t'.kind id)) :
    t.Grows [] t' where
  size := Nat.le_of_eq size.symm
  generic id _ g := by
    rcases each id with same | settles
    · rw [same]
    · exact iff_of_false (settles.stable.1 g).2 (settles.stable.1 g).1
  object id o entry := by
    rcases each id with same | settles
    · exact same.trans entry
    · exact absurd entry (settles.not_object o)
  pending id entry := by
    rcases each id with same | settles
    · exact .inl (same ▸ entry)
    · exact absurd entry settles.built

theorem asGeneric? {id : TypeId} (grows : t.Grows reserved t') (inside : id < t.size) :
    t'.asGeneric? id = t.asGeneric? id := by
  refine Option.ext fun g => ?_
  rw [asGeneric?_eq_some_iff, asGeneric?_eq_some_iff, grows.generic id inside g]

end Grows

section Requests
variable {t t' : TypeTable}

theorem requestsOf_congr {kind : TypeKind}
    (origin : ∀ i, kind = .instantiated i → t'.kind i.origin = t.kind i.origin) :
    t'.requestsOf kind = t.requestsOf kind := by
  cases kind with
  | instantiated i => simp only [requestsOf, origin i rfl]
  | _ => rfl

/-- A new entry adds the requests of its own. -/
theorem requests_add (orderly : t.Orderly) (kind : TypeKind) :
    (t.add kind).2.requests = t.requests ++ (t.add kind).2.requestsOf kind := by
  rw [requests, size_add, List.range_succ, List.flatMap_append, List.flatMap_singleton,
    kind_add_size]
  refine congrArg (· ++ _) (List.flatMap_congr fun id member => ?_)
  rw [kind_add_of_lt (List.mem_range.mp member)]
  refine requestsOf_congr fun i entry => ?_
  obtain ⟨g, generic⟩ := orderly.origins id i entry
  exact kind_add_of_lt (lt_size_of_kind generic (by simp)) kind

theorem requests_settle (orderly : t.Orderly) (size : t'.size = t.size)
    (each : ∀ id, t'.kind id = t.kind id ∨ (t.kind id).Settles (t'.kind id)) :
    t'.requests = t.requests := by
  rw [requests, size]
  refine List.flatMap_congr fun id member => ?_
  rcases each id with same | settles
  · rw [same]
    refine requestsOf_congr fun i entry => ?_
    obtain ⟨g, generic⟩ := orderly.origins id i entry
    rcases each i.origin with same | settles
    · exact same
    · exact absurd generic (settles.stable.1 g).1
  · have none {kind : TypeKind} (other : ∀ i, kind ≠ .instantiated i) (t : TypeTable) :
        t.requestsOf kind = [] := by
      cases kind with
      | instantiated i => exact absurd rfl (other i)
      | _ => rfl
    rw [none fun i => (settles.stable.2 i).2, none fun i => (settles.stable.2 i).1]

namespace Orderly

theorem add (orderly : t.Orderly) {kind : TypeKind}
    (generic : ∀ g, kind = .generic g → ∀ p ∈ g.typeParameters,
      ∃ name constraint, t.kind p = .typeParameter name constraint)
    (instantiated : ∀ i, kind = .instantiated i → ∃ g, t.kind i.origin = .generic g) :
    (t.add kind).2.Orderly where
  parameters id g entry p member := by
    have typed : ∃ name constraint, t.kind p = .typeParameter name constraint :=
      (entry_add entry (by simp)).elim (fun old => orderly.parameters id g old p member)
        fun new => generic g new p member
    obtain ⟨name, constraint, before⟩ := typed
    exact ⟨name, constraint, (kind_add_of_lt (lt_size_of_kind before (by simp)) kind).trans before⟩
  origins id i entry := by
    have origin : ∃ g, t.kind i.origin = .generic g :=
      (entry_add entry (by simp)).elim (orderly.origins id i) (instantiated i)
    obtain ⟨g, before⟩ := origin
    exact ⟨g, (kind_add_of_lt (lt_size_of_kind before (by simp)) kind).trans before⟩

theorem settle (orderly : t.Orderly)
    (each : ∀ id, t'.kind id = t.kind id ∨ (t.kind id).Settles (t'.kind id)) : t'.Orderly := by
  have generic {id : TypeId} {g : GenericType} :
      t'.kind id = .generic g ↔ t.kind id = .generic g := by
    rcases each id with same | settles
    · rw [same]
    · exact iff_of_false (settles.stable.1 g).2 (settles.stable.1 g).1
  refine ⟨fun id g entry p member => ?_, fun id i entry => ?_⟩
  · obtain ⟨name, constraint, typed⟩ := orderly.parameters id g (generic.mp entry) p member
    rcases each p with same | settles
    · exact ⟨name, constraint, same.trans typed⟩
    · obtain ⟨after, set⟩ := settles.typeParameter typed
      exact ⟨name, after, set⟩
  · have before : t.kind id = .instantiated i := by
      rcases each id with same | settles
      · exact same ▸ entry
      · exact absurd entry (settles.stable.2 i).2
    exact (orderly.origins id i before).imp fun _ => generic.mpr

end Orderly

end Requests

end TypeTable

namespace Checker

/-- Declarations are being entered, and the checks that wait are those of the instances in
the table. -/
structure Orderly (c : Checker) : Prop where
  declaring : c.phase = .declaring
  table : c.table.Orderly
  queued : c.deferred.map DeferredConstraint.request = c.table.requests

/-- From one checker to the other these notes are taken. -/
structure Noted (reserved : List TypeId) (notes : List Note) (c c' : Checker) : Prop where
  orderly : c'.Orderly
  grows : c.table.Grows reserved c'.table
  reported : c'.diagnostics.toList.map Diagnostic.unnamed =
    c.diagnostics.toList.map Diagnostic.unnamed ++ noteReports notes
  deferred : c'.deferred.map DeferredConstraint.place =
    c.deferred.map DeferredConstraint.place ++ noteArguments notes

/-- Nothing changes but the table, what is reported or put off, and the scopes. -/
def SameBut (c c' : Checker) : Prop :=
  c' = { c with
    table := c'.table
    diagnostics := c'.diagnostics
    deferred := c'.deferred
    scopes := c'.scopes }

/-- What the name stands for at the moment. -/
def meaning? (c : Checker) (name : String) : Option TypeId :=
  match lookupTypeIn name c.scopes with
  | some id => some id
  | none => c.declaredTypes.find? name

/-- The names mean to the checker what they are taken to mean. -/
structure Understands (c : Checker) (names : Names) : Prop where
  inside : ∀ name id, c.meaning? name = some id → id < c.table.size
  arity : ∀ name, (c.meaning? name).map (fun id =>
    (c.table.asGeneric? id).map fun g => g.typeParameters.length) = names name

/-- The findings are noted, and otherwise all is as it was. -/
structure Finds (findings : List Finding) (c c' : Checker) : Prop extends
    c.Noted [] (notesIn c.currentFile findings) c' where
  same : c.SameBut c'
  scopes : c'.scopes = c.scopes

variable {c c' c'' : Checker}

namespace Noted

variable {reserved reserved' : List TypeId} {notes notes' : List Note}

/-- Changes outside the table, the reports and the queue are not noted. -/
theorem of_eq (orderly : c.Orderly) (phase : c'.phase = c.phase) (table : c'.table = c.table)
    (diagnostics : c'.diagnostics = c.diagnostics) (deferred : c'.deferred = c.deferred) :
    c.Noted [] [] c' where
  orderly := ⟨phase.trans orderly.declaring, table ▸ orderly.table,
    by rw [deferred, table, orderly.queued]⟩
  grows := table ▸ .refl _
  reported := by rw [diagnostics]; exact (List.append_nil _).symm
  deferred := by rw [deferred]; exact (List.append_nil _).symm

theorem trans (one : c.Noted reserved notes c') (two : c'.Noted reserved' notes' c'') :
    c.Noted (reserved ++ reserved') (notes ++ notes') c'' where
  orderly := two.orderly
  grows := one.grows.trans two.grows
  reported := by rw [two.reported, one.reported, noteReports_append, List.append_assoc]
  deferred := by rw [two.deferred, one.deferred, noteArguments_append, List.append_assoc]

/-- Notes stay when only other things change. -/
theorem congr (noted : c.Noted reserved notes c') (phase : c''.phase = c'.phase)
    (table : c''.table = c'.table) (diagnostics : c''.diagnostics = c'.diagnostics)
    (deferred : c''.deferred = c'.deferred) : c.Noted reserved notes c'' := by
  have whole := noted.trans (.of_eq noted.orderly phase table diagnostics deferred)
  simpa only [List.append_nil] using whole

/-- A new table that asks for nothing new is not noted. -/
theorem of_table {t : TypeTable} (orderly : c.Orderly) (table : t.Orderly)
    (grows : c.table.Grows reserved t) (requests : t.requests = c.table.requests) :
    c.Noted reserved [] { c with table := t } where
  orderly := ⟨orderly.declaring, table, orderly.queued.trans requests.symm⟩
  grows := grows
  reported := (List.append_nil _).symm
  deferred := (List.append_nil _).symm

end Noted

namespace SameBut

theorem trans (one : c.SameBut c') (two : c'.SameBut c'') : c.SameBut c'' := by
  unfold SameBut at *
  rw [two, one]

theorem withScopes (c : Checker) (scopes : List Scope) :
    c.SameBut { c with scopes := scopes } := rfl

theorem declaredTypes (same : c.SameBut c') : c'.declaredTypes = c.declaredTypes :=
  (congrArg Checker.declaredTypes same).trans rfl

theorem currentFile (same : c.SameBut c') : c'.currentFile = c.currentFile :=
  (congrArg Checker.currentFile same).trans rfl

end SameBut

namespace Finds

variable {findings findings' : List Finding}

theorem refl (orderly : c.Orderly) : c.Finds [] c :=
  ⟨.of_eq orderly rfl rfl rfl rfl, rfl, rfl⟩

theorem trans (one : c.Finds findings c') (two : c'.Finds findings' c'') :
    c.Finds (findings ++ findings') c'' where
  toNoted := by
    have later := two.toNoted
    rw [one.same.currentFile] at later
    rw [notesIn_append]
    exact one.toNoted.trans later
  same := one.same.trans two.same
  scopes := two.scopes.trans one.scopes

end Finds

/-- What a name means does not change with the table. -/
theorem Understands.arity_grows {names : Names} {reserved : List TypeId} {t : TypeTable}
    (understands : c.Understands names) (grows : c.table.Grows reserved t) (name : String) :
    (c.meaning? name).map (fun id =>
      (t.asGeneric? id).map fun g => g.typeParameters.length) = names name := by
  rw [← understands.arity]
  cases found : c.meaning? name with
  | none => rfl
  | some id => simp only [Option.map_some, grows.asGeneric? (understands.inside name id found)]

theorem Understands.congr {names : Names} {reserved : List TypeId} (understands : c.Understands names)
    (grows : c.table.Grows reserved c'.table) (meaning : ∀ name, c'.meaning? name = c.meaning? name) :
    c'.Understands names where
  inside name id found :=
    Nat.lt_of_lt_of_le (understands.inside name id (meaning name ▸ found)) grows.size
  arity name := by rw [meaning, understands.arity_grows grows]

theorem Finds.understands {names : Names} {findings : List Finding} (finds : c.Finds findings c')
    (understands : c.Understands names) : c'.Understands names := by
  refine understands.congr finds.grows fun name => ?_
  rw [meaning?, meaning?, finds.scopes, finds.same.declaredTypes]

end Checker

/-- If the step succeeds, it has noted the findings. -/
def FindsFrom {α : Type} (c : Checker) (findings : List Finding) (m : CheckM α)
    (post : α → Checker → Prop) : Prop :=
  ∀ a c', c.step m = (.ok a, c') → c.Finds findings c' ∧ post a c'

/-- The step notes the findings wherever the names are understood. -/
def FindsWith {α : Type} (names : Names) (findings : List Finding) (m : CheckM α)
    (post : α → Prop) : Prop :=
  ∀ c : Checker, c.Orderly → c.Understands names → FindsFrom c findings m fun a _ => post a

abbrev Finds {α : Type} (names : Names) (findings : List Finding) (m : CheckM α) : Prop :=
  FindsWith names findings m fun _ => True

section Sequences
variable {α β : Type} {c : Checker} {names : Names} {first second : List Finding}

namespace FindsFrom

variable {post : β → Checker → Prop}

theorem pure {b : β} (orderly : c.Orderly) (holds : post b c) :
    FindsFrom c [] (pure b) post := by
  intro a c' done
  obtain ⟨same, rfl⟩ := Prod.mk.inj done
  exact ⟨.refl orderly, Except.ok.inj same ▸ holds⟩

theorem bind {m : CheckM α} {k : α → CheckM β} {between : α → Checker → Prop}
    (one : FindsFrom c first m between)
    (next : ∀ a c', c.Finds first c' → between a c' → FindsFrom c' second (k a) post) :
    FindsFrom c (first ++ second) (m >>= k) post := by
  intro b c' done
  obtain ⟨a, middle, begun, ended⟩ := Checker.step_bind_ok done
  obtain ⟨found, holds⟩ := one a middle begun
  obtain ⟨found', holds'⟩ := next a middle found holds b c' ended
  exact ⟨found.trans found', holds'⟩

/-- The first step has no findings of its own. -/
theorem silent {m : CheckM α} {k : α → CheckM β} {between : α → Checker → Prop}
    (one : FindsFrom c [] m between)
    (next : ∀ a c', c.Finds [] c' → between a c' → FindsFrom c' first (k a) post) :
    FindsFrom c first (m >>= k) post :=
  one.bind next

/-- What follows has no findings of its own. -/
theorem finish {m : CheckM α} {k : α → CheckM β} {between : α → Checker → Prop}
    (one : FindsFrom c first m between)
    (next : ∀ a c', c.Finds first c' → between a c' → FindsFrom c' [] (k a) post) :
    FindsFrom c first (m >>= k) post := by
  have whole := one.bind next
  rwa [List.append_nil] at whole

theorem table_bind {k : TypeTable → CheckM β} (next : FindsFrom c first (k c.table) post) :
    FindsFrom c first (CheckM.table >>= k) post := next

theorem display_bind {id : TypeId} {k : String → CheckM β}
    (next : FindsFrom c first (k (c.table.text id)) post) :
    FindsFrom c first (display id >>= k) post := by
  rw [display, bind_assoc]
  simp only [pure_bind]
  exact table_bind next

/-- A step that fails notes nothing. -/
theorem fail (cause : ConstructionError) (location : Location) :
    FindsFrom c first (CheckM.fail cause location : CheckM β) post :=
  fun _ _ done => nomatch (Prod.mk.inj done).1

theorem fail_bind (cause : ConstructionError) (location : Location) {k : α → CheckM β} :
    FindsFrom c first (CheckM.fail cause location >>= k) post :=
  fun _ _ done => nomatch (Prod.mk.inj done).1

theorem weaken {m : CheckM β} {strong : β → Checker → Prop} (finds : FindsFrom c first m strong)
    (implies : ∀ b c', strong b c' → post b c') : FindsFrom c first m post :=
  fun b c' done => (finds b c' done).imp_right (implies b c')

end FindsFrom

namespace FindsWith

variable {post : β → Prop}

theorem pure {b : β} (holds : post b) : FindsWith names [] (pure b) post :=
  fun _ orderly _ => .pure orderly holds

theorem bind {m : CheckM α} {k : α → CheckM β} {between : α → Prop}
    (one : FindsWith names first m between)
    (next : ∀ a, between a → FindsWith names second (k a) post) :
    FindsWith names (first ++ second) (m >>= k) post :=
  fun c orderly understands => (one c orderly understands).bind fun a c' found holds =>
    next a holds c' found.orderly (found.understands understands)

/-- What the first step gives does not matter. -/
theorem after {m : CheckM α} {k : α → CheckM β} (one : Finds names first m)
    (next : ∀ a, FindsWith names second (k a) post) :
    FindsWith names (first ++ second) (m >>= k) post :=
  one.bind fun a _ => next a

/-- What follows has no findings of its own. -/
theorem map {m : CheckM α} {f : α → β} {between : α → Prop} (one : FindsWith names first m between)
    (implies : ∀ a, between a → post (f a)) :
    FindsWith names first (m >>= fun a => Pure.pure (f a)) post := by
  have whole := one.bind fun a holds => pure (implies a holds)
  rwa [List.append_nil] at whole

end FindsWith

end Sequences

section Steps
variable {names : Names} {c : Checker}

theorem Checker.step_report (c : Checker) (d : Diagnostic) :
    c.step (report d) =
      (.ok (), { c with diagnostics := c.diagnostics.add (d.inFile c.currentFile) }) := by
  cases file : c.currentFile <;> simp [report, step_modify, Diagnostic.inFile, file]

/-- A report is about a finding. -/
theorem findsFrom_error (orderly : c.Orderly) {location : Location} {message : Message}
    {arguments : List String} (finding : Finding)
    (reported : finding.report? = some (Diagnostic.atLocation location message arguments).unnamed) :
    FindsFrom c [finding] (error location message arguments) fun _ c' => c'.table = c.table := by
  intro _ c' done
  rw [error, Checker.step_report] at done
  obtain ⟨-, rfl⟩ := Prod.mk.inj done
  refine ⟨⟨⟨⟨orderly.declaring, orderly.table, orderly.queued⟩, .refl _, ?_, ?_⟩, rfl, rfl⟩, rfl⟩
  · simp [notesIn, noteReports, reported, Diagnostic.unnamed_inFile]
  · have silent : finding.argument? = none := by
      cases finding <;> simp_all [Finding.argument?, Finding.report?]
    simp [notesIn, noteArguments, silent]

theorem findsFrom_table (orderly : c.Orderly) {t : TypeTable} (table : t.Orderly)
    (grows : c.table.Grows [] t) (requests : t.requests = c.table.requests) :
    FindsFrom c [] (modify fun checker => { checker with table := t } : CheckM PUnit)
      fun _ c' => c'.table = t := by
  intro _ c' done
  obtain ⟨-, rfl⟩ := Prod.mk.inj done
  exact ⟨⟨.of_table orderly table grows requests, rfl, rfl⟩, rfl⟩

/-- A new entry that is no instance. -/
theorem Checker.Noted.add (orderly : c.Orderly) {kind : TypeKind} {reserved : List TypeId}
    (new : kind = .pending → c.table.size ∈ reserved)
    (generic : ∀ g, kind = .generic g → ∀ p ∈ g.typeParameters,
      ∃ name constraint, c.table.kind p = .typeParameter name constraint)
    (instantiated : ∀ i, kind ≠ .instantiated i) :
    c.Noted reserved [] { c with table := (c.table.add kind).2 } := by
  have requests : (c.table.add kind).2.requests = c.table.requests := by
    rw [TypeTable.requests_add orderly.table]
    cases kind with
    | instantiated i => exact absurd rfl (instantiated i)
    | _ => exact List.append_nil _
  have table := orderly.table.add generic fun i same => absurd same (instantiated i)
  exact .of_table orderly table (.add c.table new) requests

theorem findsFrom_addType (orderly : c.Orderly) {kind : TypeKind}
    (generic : ∀ g, kind ≠ .generic g) (instantiated : ∀ i, kind ≠ .instantiated i)
    (built : kind ≠ .pending) :
    FindsFrom c [] (addType kind) fun id c' =>
      id = c.table.size ∧ c'.table = (c.table.add kind).2 := by
  intro id c' done
  rw [Checker.step_addType] at done
  obtain ⟨same, rfl⟩ := Prod.mk.inj done
  have noted : c.Noted [] [] { c with table := (c.table.add kind).2 } :=
    .add orderly (fun same => absurd same built) (fun g same => absurd same (generic g)) instantiated
  exact ⟨⟨noted, rfl, rfl⟩, (Except.ok.inj same).symm, rfl⟩

theorem finds_addType {kind : TypeKind} (generic : ∀ g, kind ≠ .generic g)
    (instantiated : ∀ i, kind ≠ .instantiated i) (built : kind ≠ .pending) :
    Finds names [] (addType kind) :=
  fun _ orderly _ =>
    (findsFrom_addType orderly generic instantiated built).weaken fun _ _ _ => trivial

theorem finds_setConstraint (id bound : TypeId) :
    Finds names [] (modify fun checker =>
      { checker with table := checker.table.setConstraint id bound } : CheckM PUnit) := by
  intro c orderly _
  have size := TypeTable.size_setConstraint c.table id bound
  have each (other : TypeId) : (c.table.setConstraint id bound).kind other = c.table.kind other ∨
      (c.table.kind other).Settles ((c.table.setConstraint id bound).kind other) := by
    refine (TypeTable.kind_setConstraint c.table id bound other).imp_right ?_
    rintro ⟨name, before, entry, set⟩
    rw [entry, set]
    exact .constraint name before (some bound)
  have requests := TypeTable.requests_settle orderly.table size each
  have set := findsFrom_table orderly (orderly.table.settle each) (.settle size each) requests
  exact set.weaken fun _ _ _ => trivial

/-- The new type parameters are behind the entries that were there. -/
theorem findsFrom_freshTypeParameters (orderly : c.Orderly) (nodes : List TypeParameterNode) :
    FindsFrom c [] (freshTypeParameters nodes) fun ids c' =>
      c.table.Extends c'.table ∧ ids.length = nodes.length ∧
        ∀ id ∈ ids, c.table.size ≤ id ∧ ∃ name, c'.table.kind id = .typeParameter name none := by
  induction nodes generalizing c with
  | nil => exact .pure orderly ⟨.refl _, rfl, List.forall_mem_nil _⟩
  | cons node rest ih =>
      rw [freshTypeParameters, List.mapM_cons]
      refine (findsFrom_addType orderly (by simp) (by simp) (by simp)).silent ?_
      rintro id one found ⟨rfl, table⟩
      refine (ih found.orderly).silent fun ids two found' ⟨extended, count, each⟩ => ?_
      have first := TypeTable.Extends.add c.table (.typeParameter node.name none)
      rw [table] at extended each
      refine .pure found'.orderly ⟨first.trans extended, by simp [count], ?_⟩
      refine List.forall_mem_cons.mpr ⟨⟨Nat.le_refl _, node.name, ?_⟩, fun id member => ?_⟩
      · exact extended.entry (TypeTable.kind_add_size _ _) (by simp)
      · exact ⟨Nat.le_trans first.size (each id member).1, (each id member).2⟩

end Steps

section References
variable {names : Names} {c : Checker}

/-- While declarations are entered, the checks are put off. -/
theorem Checker.step_checkConstraints (declaring : c.phase = .declaring) (bindings : Bindings)
    (arguments : List ((TypeId × TypeId) × Location)) :
    c.step (checkConstraints bindings arguments) =
      (.ok (), { c with
        deferred := c.deferred ++ arguments.map fun argument =>
          ⟨argument.1.1, argument.1.2, bindings, argument.2, c.currentFile⟩ }) := by
  induction arguments generalizing c with
  | nil => simp [checkConstraints]
  | cons argument rest ih =>
      rw [checkConstraints, step_bind, checkConstraint, step_bind, step_get]
      dsimp only
      rw [if_pos declaring, step_set]
      refine (ih ?_).trans ?_
      · exact declaring
      · simp

/-- An instance in the table and the checks of its arguments in the queue. -/
theorem Checker.Noted.addInstance (orderly : c.Orderly) {declared : TypeId} {g : GenericType}
    (generic : c.table.kind declared = .generic g) {ordered : Dictionary String TypeId}
    {arguments : List TypeId} (values : ordered.values = arguments) {locations : List Location}
    (places : locations.length = (g.typeParameters.zip arguments).length) :
    c.Noted [] (notesIn c.currentFile (locations.map .argument)) { c with
      table := (c.table.add (.instantiated ⟨declared, ordered⟩)).2
      deferred := c.deferred ++
        ((g.typeParameters.zip arguments).zip locations).map fun argument =>
          ⟨argument.1.1, argument.1.2, .ofList (g.typeParameters.zip arguments), argument.2,
            c.currentFile⟩ } := by
  have table : (c.table.add (.instantiated ⟨declared, ordered⟩)).2.Orderly :=
    orderly.table.add nofun fun i same => ⟨g, TypeKind.instantiated.inj same ▸ generic⟩
  have still : (c.table.add (.instantiated ⟨declared, ordered⟩)).2.kind declared = .generic g := by
    rw [TypeTable.kind_add_of_lt (TypeTable.lt_size_of_kind generic (by simp)), generic]
  refine ⟨⟨orderly.declaring, table, ?_⟩, .add c.table nofun, ?_, ?_⟩
  · rw [TypeTable.requests_add orderly.table, TypeTable.requestsOf]
    simp only [still, values, argumentRequests, List.map_append, orderly.queued, List.map_map]
    refine congrArg (_ ++ ·) ?_
    have firsts := congrArg (List.map fun pair =>
      (pair.1, pair.2, Dictionary.ofList (g.typeParameters.zip arguments)))
        (List.map_fst_zip (Nat.le_of_eq places.symm))
    rwa [List.map_map] at firsts
  · simp [notesIn, noteReports, Finding.report?]
  · simp only [List.map_append, List.map_map, notesIn, noteArguments, List.filterMap_map]
    refine congrArg (_ ++ ·) ?_
    conv_rhs => rw [← List.map_snd_zip (Nat.le_of_eq places)]
    simp [List.filterMap_map, Function.comp_def, Finding.argument?, DeferredConstraint.place]

/-- An instance is built together with the requests for its arguments. -/
theorem findsFrom_instantiateReference (orderly : c.Orderly) {declared : TypeId} {g : GenericType}
    (generic : c.table.kind declared = .generic g) {arguments : List TypeId}
    (count : arguments.length = g.typeParameters.length) {locations : List Location}
    (places : locations.length = arguments.length) (location : Location) :
    FindsFrom c (locations.map .argument)
      (instantiateReference declared g arguments locations location) fun _ _ => True := by
  intro id c' done
  obtain ⟨_, one, deferred, done⟩ := Checker.step_bind_ok done
  rw [Checker.step_checkConstraints orderly.declaring] at deferred
  obtain ⟨-, rfl⟩ := Prod.mk.inj deferred
  obtain ⟨_, _, read, done⟩ := Checker.step_bind_ok done
  obtain ⟨same, rfl⟩ := Prod.mk.inj read
  obtain rfl := Except.ok.inj same
  dsimp only at done
  split at done
  · next id t accepted =>
      obtain ⟨-, rfl⟩ := Prod.mk.inj done
      have typed := orderly.table.parameters declared g generic
      have named := TypeTable.filterMap_typeParameter typed arguments
      obtain ⟨ordered, values, rfl⟩ := TypeTable.addInstantiated_eq generic count
        ((congrArg (c.table.addInstantiated declared) named).symm.trans accepted)
      have fits : locations.length = (g.typeParameters.zip arguments).length := by
        simp [count, places]
      exact ⟨⟨.addInstance orderly generic values fits, rfl, rfl⟩, trivial⟩
  · exact nomatch (Prod.mk.inj done).1

end References

section Scopes
variable {names : Names} {c : Checker}

theorem Checker.step_bindType {scope : Scope} {outer : List Scope}
    (scopes : c.scopes = scope :: outer) (name : String) (id : TypeId) :
    c.step (bindType name id) =
      (.ok (), { c with
        scopes := { scope with types := scope.types.insert name id } :: outer }) := by
  simp only [bindType, updateScope, step_modify, scopes]

/-- What the names in the innermost scope stand for when the names of these nodes have
been bound to the types. -/
def Scope.Binds (nodes : List TypeParameterNode) (ids : List TypeId) (before after : Scope) : Prop :=
  ∀ name, if name ∈ nodes.map TypeParameterNode.name
    then ∃ id ∈ ids, after.types.find? name = some id
    else after.types.find? name = before.types.find? name

theorem Scope.Binds.cons {node : TypeParameterNode} {rest : List TypeParameterNode} {id : TypeId}
    {ids : List TypeId} {before after : Scope}
    (binds : Scope.Binds rest ids { before with types := before.types.insert node.name id } after) :
    Scope.Binds (node :: rest) (id :: ids) before after := by
  intro name
  have later := binds name
  simp only [List.map_cons, List.mem_cons]
  by_cases listed : name ∈ rest.map TypeParameterNode.name
  · rw [if_pos listed] at later
    rw [if_pos (.inr listed)]
    obtain ⟨known, member, found⟩ := later
    exact ⟨known, .inr member, found⟩
  · rw [if_neg listed, Dictionary.find?_insert] at later
    split
    · next here =>
        rw [if_pos (here.resolve_right listed).symm] at later
        exact ⟨id, .inl rfl, later⟩
    · next absent =>
        rwa [if_neg fun same => absent (.inl same.symm)] at later

/-- A name may be reported as a duplicate before the next step. -/
theorem finds_duplicate (orderly : c.Orderly) {β : Type} {twice : Bool} {name : String}
    {location : Location} {next : CheckM β} {b : β} {c' : Checker}
    (done : c.step (if twice = true then do
      error location .duplicateIdentifier [name]
      next
    else next) = (.ok b, c')) :
    ∃ c₁, c.Finds (if twice = true then [.duplicate name location] else []) c₁ ∧
      c₁.table = c.table ∧ c₁.step next = (.ok b, c') := by
  cases twice with
  | false => exact ⟨c, .refl orderly, rfl, done⟩
  | true =>
      obtain ⟨_, c₁, reported, later⟩ := Checker.step_bind_ok done
      obtain ⟨found, table⟩ := findsFrom_error orderly (.duplicate name location) rfl _ _ reported
      exact ⟨c₁, found, table, later⟩

/-- Binding the names of type parameters notes those that are bound already. -/
theorem noted_bindTypeParameterNames (orderly : c.Orderly) {scope : Scope} {outer : List Scope}
    (scopes : c.scopes = scope :: outer) (reportDuplicates : Bool) (seen : List String)
    (known : ∀ name, name ∈ scope.types.keys ↔ name ∈ seen) {nodes : List TypeParameterNode}
    {ids : List TypeId} (count : ids.length = nodes.length) {a : Unit} {c' : Checker}
    (done : c.step (bindTypeParameterNames reportDuplicates (nodes.zip ids)) = (.ok a, c')) :
    c.Noted [] (notesIn c.currentFile
      (if reportDuplicates then duplicateFindings seen nodes else [])) c' ∧ c.SameBut c' ∧
      c'.table = c.table ∧ ∃ scope', c'.scopes = scope' :: outer ∧
        Scope.Binds nodes ids scope scope' := by
  induction nodes generalizing c scope seen ids with
  | nil =>
      obtain ⟨-, rfl⟩ := Prod.mk.inj done
      refine ⟨?_, rfl, rfl, scope, scopes, fun name => by simp⟩
      cases reportDuplicates <;> exact .of_eq orderly rfl rfl rfl rfl
  | cons node rest ih =>
      obtain ⟨name, constraint, location⟩ := node
      cases ids with
      | nil => simp at count
      | cons id ids =>
          rw [List.zip_cons_cons, bindTypeParameterNames, Checker.step_bind, Checker.step_get] at done
          simp only [scopes] at done
          rw [Checker.step_bind, Checker.step_bindType scopes] at done
          dsimp only at done
          have entered : c.Noted [] [] { c with
              scopes := { scope with types := scope.types.insert name id } :: outer } :=
            .of_eq orderly rfl rfl rfl rfl
          obtain ⟨c₁, here, table, later⟩ := finds_duplicate entered.orderly done
          have bound : ∀ other, other ∈ (scope.types.insert name id).keys ↔
              other ∈ name :: seen := by
            intro other
            rw [Dictionary.keys_insert, List.mem_cons, ← known]
            split <;> grind
          obtain ⟨rest, same, table', scope', scopes', binds⟩ :=
            ih here.orderly here.scopes _ bound (by simpa using count) later
          have entering : c.SameBut c₁ := (Checker.SameBut.withScopes c _).trans here.same
          refine ⟨?_, entering.trans same, table'.trans table, scope', scopes', binds.cons⟩
          have first : c.Noted [] (notesIn c.currentFile _) c₁ := entered.trans here.toNoted
          have whole := first.trans rest
          rw [entering.currentFile, ← notesIn_append] at whole
          have seen_iff : scope.types.contains name = true ↔ name ∈ seen :=
            (Dictionary.contains_iff _ _).trans (known name)
          cases reportDuplicates with
          | false => exact whole
          | true =>
              simp only [Bool.true_and, seen_iff, if_true] at whole
              rw [if_pos rfl, duplicateFindings]
              exact whole

/-- There is an entry for each of the type parameters, and none of them is generic. -/
structure TypeTable.Provides (t : TypeTable) (nodes : List TypeParameterNode)
    (ids : List TypeId) : Prop where
  count : ids.length = nodes.length
  each : ∀ id ∈ ids, id < t.size ∧ ∀ g, t.kind id ≠ .generic g

theorem TypeTable.Provides.grows {t t' : TypeTable} {nodes : List TypeParameterNode}
    {ids reserved : List TypeId} (provides : t.Provides nodes ids) (grows : t.Grows reserved t') :
    t'.Provides nodes ids where
  count := provides.count
  each id member := by
    obtain ⟨inside, other⟩ := provides.each id member
    exact ⟨Nat.lt_of_lt_of_le inside grows.size,
      fun g entry => other g ((grows.generic id inside g).mp entry)⟩

theorem findsFrom_provided (orderly : c.Orderly) (nodes : List TypeParameterNode) :
    FindsFrom c [] (freshTypeParameters nodes) fun ids c' => c'.table.Provides nodes ids :=
  (findsFrom_freshTypeParameters orderly nodes).weaken fun ids c' ⟨_, count, each⟩ =>
    ⟨count, fun id member => by
      obtain ⟨-, name, entry⟩ := each id member
      exact ⟨TypeTable.lt_size_of_kind entry (by simp), by simp [entry]⟩⟩

/-- In a new scope with the type parameters, their names mean types without arguments, and
all other names mean what they meant. -/
theorem Checker.Understands.bind {c' : Checker} (understands : c.Understands names)
    {reserved : List TypeId} (grows : c.table.Grows reserved c'.table)
    {nodes : List TypeParameterNode} {ids : List TypeId} (provides : c'.table.Provides nodes ids)
    {scope : Scope} (scopes : c'.scopes = scope :: c.scopes)
    (declaredTypes : c'.declaredTypes = c.declaredTypes)
    (binds : Scope.Binds nodes ids .empty scope) : c'.Understands (names.bind nodes) := by
  have inner : ∀ name ∈ nodes.map TypeParameterNode.name, ∃ id ∈ ids, c'.meaning? name = some id := by
    intro name listed
    have found := binds name
    rw [if_pos listed] at found
    obtain ⟨id, member, found⟩ := found
    exact ⟨id, member, by rw [meaning?, scopes, lookupTypeIn, found]⟩
  have outer : ∀ name ∉ nodes.map TypeParameterNode.name, c'.meaning? name = c.meaning? name := by
    intro name absent
    have found := binds name
    rw [if_neg absent] at found
    rw [meaning?, scopes, lookupTypeIn, found, declaredTypes]
    rfl
  refine ⟨fun name id found => ?_, fun name => ?_⟩
  · by_cases listed : name ∈ nodes.map TypeParameterNode.name
    · obtain ⟨id', member, found'⟩ := inner name listed
      obtain rfl := Option.some.inj (found'.symm.trans found)
      exact (provides.each id' member).1
    · rw [outer name listed] at found
      exact Nat.lt_of_lt_of_le (understands.inside name id found) grows.size
  · rw [Names.bind]
    split
    · next listed =>
        obtain ⟨id, member, found⟩ := inner name listed
        have other : c'.table.asGeneric? id = none :=
          Option.eq_none_iff_forall_ne_some.mpr fun g generic =>
            (provides.each id member).2 g (TypeTable.asGeneric?_eq_some_iff.mp generic)
        simp only [found, Option.map_some, other, Option.map_none]
    · next absent => rw [outer name absent, understands.arity_grows grows]

/-- The findings in a new scope with type parameters are those among the parameters and
those inside. -/
theorem findsFrom_scoped (orderly : c.Orderly) (understands : c.Understands names)
    (reportDuplicates : Bool) {nodes : List TypeParameterNode} {fresh : CheckM (List TypeId)}
    (provided : ∀ c' : Checker, c'.Orderly → c'.table = c.table →
      FindsFrom c' [] fresh fun ids c'' => c''.table.Provides nodes ids)
    {α : Type} {inside : List TypeId → CheckM α} {findings : List Finding} {post : α → Prop}
    (each : ∀ ids, ids.length = nodes.length →
      FindsWith (names.bind nodes) findings (inside ids) post) :
    FindsFrom c ((if reportDuplicates then duplicateFindings [] nodes else []) ++ findings) (do
      pushScope .empty
      let ids ← fresh
      bindTypeParameterNames reportDuplicates (nodes.zip ids)
      let a ← inside ids
      popScope
      return a) fun a _ => post a := by
  intro a c' done
  obtain ⟨_, c₁, pushed, done⟩ := Checker.step_bind_ok done
  obtain ⟨-, rfl⟩ := Prod.mk.inj pushed
  have entered : c.Noted [] [] { c with scopes := .empty :: c.scopes } :=
    .of_eq orderly rfl rfl rfl rfl
  obtain ⟨ids, c₂, made, done⟩ := Checker.step_bind_ok done
  obtain ⟨two, provides⟩ := provided _ entered.orderly rfl ids c₂ made
  obtain ⟨_, c₃, bound, done⟩ := Checker.step_bind_ok done
  obtain ⟨three, same₃, table₃, scope, scopes₃, binds⟩ :=
    noted_bindTypeParameterNames two.orderly two.scopes reportDuplicates [] (by simp [Scope.empty,
      Dictionary.empty, Dictionary.keys]) provides.count bound
  have file₂ : c₂.currentFile = c.currentFile := two.same.currentFile
  have bound : c.Noted [] (notesIn c.currentFile _) c₃ :=
    (entered.trans two.toNoted).trans (file₂ ▸ three)
  have same : c.SameBut c₃ := ((Checker.SameBut.withScopes c _).trans two.same).trans same₃
  have understood : c₃.Understands (names.bind nodes) :=
    understands.bind bound.grows (table₃ ▸ provides) scopes₃ same.declaredTypes binds
  obtain ⟨a, c₄, checked, done⟩ := Checker.step_bind_ok done
  obtain ⟨four, holds⟩ := each ids provides.count c₃ bound.orderly understood a c₄ checked
  obtain ⟨_, c₅, popped, done⟩ := Checker.step_bind_ok done
  obtain ⟨-, rfl⟩ := Prod.mk.inj popped
  obtain ⟨result, rfl⟩ := Prod.mk.inj done
  obtain rfl := Except.ok.inj result
  have four' := four.toNoted
  rw [same.currentFile] at four'
  have left : c₄.Noted [] [] { c₄ with scopes := c₄.scopes.tail } :=
    .of_eq four.orderly rfl rfl rfl rfl
  have whole := (bound.trans four').trans left
  simp only [List.append_nil, ← notesIn_append] at whole
  refine ⟨⟨whole, (same.trans four.same).trans (.withScopes c₄ _), ?_⟩, holds⟩
  exact (congrArg List.tail (four.scopes.trans scopes₃)).trans rfl

end Scopes

section WrittenTypes

theorem Checker.step_lookupType (c : Checker) (name : String) :
    c.step (lookupType name) = (.ok (c.meaning? name), c) := by
  rw [lookupType, step_bind, step_get, meaning?]
  dsimp only
  cases lookupTypeIn name c.scopes <;> rfl

theorem FindsFrom.lookup_bind {c : Checker} {findings : List Finding} {β : Type} {name : String}
    {k : Option TypeId → CheckM β} {post : β → Checker → Prop}
    (next : FindsFrom c findings (k (c.meaning? name)) post) :
    FindsFrom c findings (lookupType name >>= k) post := by
  intro b c' done
  rw [Checker.step_bind, Checker.step_lookupType] at done
  exact next b c' done

/-- A report and a type that stands in for what could not be built. -/
theorem findsFrom_reported {c : Checker} (orderly : c.Orderly) {location : Location}
    {message : Message} {arguments : List String} (finding : Finding)
    (reported : finding.report? = some (Diagnostic.atLocation location message arguments).unnamed)
    (id : TypeId) :
    FindsFrom c [finding] (do
      error location message arguments
      return id) fun _ _ => True :=
  (findsFrom_error orderly finding reported).bind fun _ _ found _ => .pure found.orderly trivial

mutual

theorem finds_resolveType :
    ∀ (node : TypeNode) (names : Names), Finds names (node.findings names) (resolveType node)
  | .keyword _ _, names => .pure trivial
  | .reference name arguments location, names => by
      intro c orderly understands
      have meaning := understands.arity name
      rw [resolveType, TypeNode.findings]
      refine .lookup_bind ?_
      cases found : c.meaning? name with
      | none =>
          rw [found] at meaning
          rw [← meaning]
          exact findsFrom_reported orderly (.unknownName name location) rfl _
      | some declared =>
          rw [found] at meaning
          rw [← meaning]
          refine .table_bind ?_
          cases known : c.table.asGeneric? declared with
          | some g =>
              have generic := TypeTable.asGeneric?_eq_some_iff.mp known
              simp only [generic, known, Option.map_some]
              split
              · exact findsFrom_reported orderly (.argumentCount _ _ _) rfl _
              · next fitting =>
                  refine (finds_resolveTypes arguments names c orderly understands).bind ?_
                  intro ids between resolved count
                  have still : between.table.kind declared = .generic g :=
                    (resolved.grows.generic _ (understands.inside name _ found) g).mpr generic
                  have fits : ids.length = g.typeParameters.length := count.trans (not_not.mp fitting)
                  have places : (arguments.map TypeNode.location).length = ids.length := by
                    simp [count]
                  have built := findsFrom_instantiateReference resolved.orderly still fits places
                    location
                  rwa [List.map_map] at built
          | none =>
              have other : ∀ g, c.table.kind declared ≠ .generic g := fun g generic =>
                Option.eq_none_iff_forall_ne_some.mp known g
                  (TypeTable.asGeneric?_eq_some_iff.mpr generic)
              simp only [known, Option.map_some, Option.map_none]
              have reported : FindsFrom c
                  (if arguments.isEmpty then [] else [Finding.notGeneric location]) (do
                    if !arguments.isEmpty then error location .notGeneric [← display declared]
                    return declared) fun _ _ => True := by
                cases arguments with
                | nil => exact .pure orderly trivial
                | cons argument rest =>
                    have same := Diagnostic.unnamed_notGeneric location []
                      [c.table.text declared]
                    exact .display_bind (findsFrom_reported orderly (.notGeneric location)
                      (congrArg some same) _)
              generalize (if arguments.isEmpty then [] else [Finding.notGeneric location]) =
                findings at reported ⊢
              cases kind : c.table.kind declared with
              | generic g => exact absurd kind (other g)
              | _ => exact reported
  | .literal members location, names => by
      intro c orderly understands
      rw [resolveType, TypeNode.findings]
      refine (finds_resolveMembers members [] names c orderly understands).finish ?_
      intro properties between found _
      dsimp only
      split
      · next o _ =>
          have added : Finds names [] (addType (.object o)) :=
            finds_addType (by simp) (by simp) (by simp)
          exact added between found.orderly (found.understands understands)
      · exact .fail _ _
  | .function typeParameters parameters returnType _, names => by
      intro c orderly understands
      have inside (ids : List TypeId) (count : ids.length = typeParameters.length) :
          Finds (names.bind typeParameters) _ (do
            resolveConstraints typeParameters ids
            let parameters ← resolveParameters none 0 parameters
            let returnType ← resolveType returnType
            return (FunctionType.mk ids parameters returnType)) :=
        (finds_resolveConstraints typeParameters ids _ count).after fun _ =>
          (finds_resolveParameters none parameters 0 _).after fun parameters =>
            (finds_resolveType returnType _).map fun _ _ => trivial
      have whole := findsFrom_scoped orderly understands true
        (fun c' orderly _ => findsFrom_provided orderly typeParameters) inside
      have added (f : FunctionType) : Finds names [] (addType (.function f)) :=
        finds_addType (by simp) (by simp) (by simp)
      have built := whole.finish fun f between found _ =>
        added f between found.orderly (found.understands understands)
      rw [resolveType, TypeNode.findings]
      simpa only [bind_assoc, pure_bind, if_true] using built

theorem finds_resolveTypes :
    ∀ (nodes : List TypeNode) (names : Names),
      FindsWith names (typeFindings names nodes) (resolveTypes nodes) fun ids =>
        ids.length = nodes.length
  | [], names => .pure rfl
  | node :: rest, names => by
      rw [resolveTypes, typeFindings]
      exact (finds_resolveType node names).after fun id =>
        (finds_resolveTypes rest names).map fun ids count => congrArg (· + 1) count

/-- A member that repeats a name ends the run. -/
theorem finds_resolveMembers :
    ∀ (members : List PropertySignature) (seen : List String) (names : Names),
      Finds names (memberFindings names members) (resolveMembers seen members)
  | [], _, _ => .pure trivial
  | ⟨name, optional, declaredType, location⟩ :: rest, seen, names => by
      rw [resolveMembers, memberFindings]
      have rest (type : TypeId) : Finds names (memberFindings names rest) (do
          let properties ← resolveMembers (name :: seen) rest
          return (name, Property.mk type optional) :: properties) :=
        (finds_resolveMembers rest (name :: seen) names).map fun _ _ => trivial
      have both := (finds_resolveType declaredType names).after rest
      dsimp only
      split
      · exact fun _ _ _ => .fail_bind _ _
      · exact both

theorem finds_resolveConstraints :
    ∀ (nodes : List TypeParameterNode) (ids : List TypeId) (names : Names),
      ids.length = nodes.length →
        Finds names (constraintFindings names nodes) (resolveConstraints nodes ids)
  | [], _, _, _ => by
      rw [resolveConstraints]
      · exact .pure trivial
      · simp
  | _ :: _, [], _, count => by simp at count
  | ⟨_, none, _⟩ :: nodes, _ :: ids, names, count => by
      rw [resolveConstraints, constraintFindings]
      exact finds_resolveConstraints nodes ids names (by simpa using count)
  | ⟨_, some node, _⟩ :: nodes, id :: ids, names, count => by
      rw [resolveConstraints, constraintFindings]
      refine (finds_resolveType node names).after fun bound => ?_
      have rest := finds_resolveConstraints nodes ids names (by simpa using count)
      exact (finds_setConstraint id bound).after fun _ => rest

theorem finds_resolveParameters (context : Option FunctionType) :
    ∀ (parameters : List ParameterNode) (index : Nat) (names : Names),
      Finds names (parameterFindings names parameters) (resolveParameters context index parameters)
  | [], _, _ => .pure trivial
  | ⟨_, _, none, _⟩ :: rest, index, names => by
      rw [resolveParameters, parameterFindings]
      exact (finds_resolveParameters context rest (index + 1) names).map fun _ _ => trivial
  | ⟨_, _, some node, _⟩ :: rest, index, names => by
      rw [resolveParameters, parameterFindings]
      exact (finds_resolveType node names).after fun _ =>
        (finds_resolveParameters context rest (index + 1) names).map fun _ _ => trivial

end

theorem finds_resolveOptionalType (node : Option TypeNode) (names : Names) :
    Finds names (optionalTypeFindings names node) (resolveOptionalType node) := by
  cases node with
  | none => exact .pure trivial
  | some node => exact (finds_resolveType node names).map fun _ _ => trivial

end WrittenTypes

end StructuralTyping
