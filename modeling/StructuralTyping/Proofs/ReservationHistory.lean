import StructuralTyping.Proofs.StepProperties

/-! What becomes of the bodies of interfaces. A body is reserved when its interface is begun and
filled when its members are built. Up to then, references to the interface are read off the
generic interfaces and the names of type parameters, which are there from the beginning. The
history of a run says when bodies are reserved and filled, and when more than that is asked of
the table. -/
namespace StructuralTyping

open CheckM

/-- What can be seen of an entry while no body is built. -/
def TypeKind.head : TypeKind → Option (GenericType ⊕ String)
  | .generic g => some (.inl g)
  | .typeParameter name _ => some (.inr name)
  | _ => none

/-- The tables have the same generic interfaces, and type parameters of the same names. -/
def TypeTable.SameHeads (t t' : TypeTable) : Prop := ∀ id, (t'.kind id).head = (t.kind id).head

/-- What a history tells. -/
inductive Happening where
  /-- A type was resolved, types were compared, or more than heads was seen in another way. -/
  | asked (table : TypeTable)
  | reserved (body : TypeId)
  | filled (body : TypeId) (kind : TypeKind)

/-- What the body is filled with, one time after the other. -/
def fillings (body : TypeId) (history : List Happening) : List TypeKind :=
  history.filterMap fun
    | .filled other kind => if other = body then some kind else none
    | _ => none

theorem mem_fillings {body : TypeId} {kind : TypeKind} {history : List Happening} :
    kind ∈ fillings body history ↔ .filled body kind ∈ history := by
  refine List.mem_filterMap.trans ⟨?_, fun member => ⟨_, member, if_pos rfl⟩⟩
  rintro ⟨_ | _ | ⟨other, kind'⟩, member, found⟩
  · cases found
  · cases found
  · dsimp only at found
    split at found
    · next same =>
        obtain rfl := Option.some.inj found
        exact same ▸ member
    · cases found

@[simp] theorem fillings_append (body : TypeId) (history later : List Happening) :
    fillings body (history ++ later) = fillings body history ++ fillings body later :=
  List.filterMap_append

/-- The step succeeds with this result and this checker, and has this history. Only what cannot
tell tables with the same heads apart, and display, see the table without asking it, and other
changes of the checker have nothing to do with the table. -/
inductive CheckM.Records :
    {α : Type} → CheckM α → Checker → α → Checker → List Happening → Prop where
  | pure {α : Type} (a : α) (c : Checker) : Records (pure a) c a c []
  | bind {α β : Type} {m : CheckM α} {k : α → CheckM β} {c c' c'' : Checker} {a : α} {b : β}
      {history later : List Happening} : Records m c a c' history → Records (k a) c' b c'' later →
        Records (m >>= k) c b c'' (history ++ later)
  | see {α : Type} {k : Checker → CheckM α} {c c' : Checker} {a : α} {history : List Happening} :
      (∀ t, c.table.SameHeads t → k { c with table := t } = k c) →
        Records (k c) c a c' history → Records (get >>= k) c a c' history
  | consult {α : Type} {k : Checker → CheckM α} {c c' : Checker} {a : α}
      {history : List Happening} :
      Records (k c) c a c' history → Records (get >>= k) c a c' (.asked c.table :: history)
  | display (id : TypeId) (c : Checker) : Records (display id) c (c.table.text id) c []
  | change {f : Checker → Checker} {c : Checker} :
      (∀ t, f { c with table := t } = { f c with table := t }) →
        Records (modify f : CheckM PUnit) c ⟨⟩ (f c) []
  | add {kind : TypeKind} (c : Checker) : kind ≠ .pending →
      Records (addType kind) c c.table.size { c with table := (c.table.add kind).2 } []
  | reserve (c : Checker) :
      Records (addType .pending) c c.table.size { c with table := (c.table.add .pending).2 }
        [.reserved c.table.size]
  | constrain (id bound : TypeId) (c : Checker) :
      Records (modify fun checker =>
        { checker with table := checker.table.setConstraint id bound } : CheckM PUnit) c ⟨⟩
        { c with table := c.table.setConstraint id bound } []
  | fill {id : TypeId} {kind : TypeKind} (location : Location) {c : Checker} :
      c.table.kind id = .pending → kind ≠ .pending →
        Records (do
          match (← table).define id kind with
          | .ok table => modify fun checker => { checker with table := table }
          | .error cause => fail cause location) c () { c with table := c.table.setKind id kind }
          [.filled id kind]
  | ask {α : Type} {action : TableM α} (c : Checker) : action.Derives →
      Records (onTable action) c (action.run c.table).1
        { c with table := (action.run c.table).2 } [.asked c.table]

/-- A history is one of the step that is taken. -/
theorem CheckM.Records.step {α : Type} {m : CheckM α} {c c' : Checker} {a : α}
    {history : List Happening} (records : m.Records c a c' history) :
    c.step m = (.ok a, c') := by
  induction records with
  | bind _ _ first second => rw [Checker.step_bind, first]; exact second
  | see _ _ ih | consult _ ih => exact ih
  | @fill id kind location c pending _ =>
      rw [Checker.step_bind, Checker.step_table]
      dsimp only
      rw [TypeTable.define, if_pos pending]
      rfl
  | _ => rfl

namespace TypeTable

/-- Interfaces stay what they are, and what does not wait for a body never does. -/
structure Retains (t t' : TypeTable) : Prop where
  size : t.size ≤ t'.size
  generic : ∀ id g, t.kind id = .generic g → t'.kind id = .generic g
  object : ∀ id o, t.kind id = .object o → t'.kind id = .object o
  decided : ∀ id < t.size, t.kind id ≠ .pending → t'.kind id ≠ .pending

namespace Retains

variable {t t' t'' : TypeTable}

theorem refl (t : TypeTable) : t.Retains t :=
  ⟨Nat.le_refl _, fun _ _ => id, fun _ _ => id, fun _ _ => id⟩

theorem trans (one : t.Retains t') (two : t'.Retains t'') : t.Retains t'' where
  size := Nat.le_trans one.size two.size
  generic id g entry := two.generic id g (one.generic id g entry)
  object id o entry := two.object id o (one.object id o entry)
  decided id inside ready :=
    two.decided id (Nat.lt_of_lt_of_le inside one.size) (one.decided id inside ready)

theorem of_extends (extended : t.Extends t') : t.Retains t' where
  size := extended.size
  generic _ _ entry := extended.entry entry (by simp)
  object _ _ entry := extended.entry entry (by simp)
  decided id inside ready := by rwa [extended.kind id inside]

theorem setConstraint (t : TypeTable) (id bound : TypeId) :
    t.Retains (t.setConstraint id bound) := by
  have each := t.kind_setConstraint id bound
  refine ⟨Nat.le_of_eq (size_setConstraint t id bound).symm, fun other g entry => ?_,
    fun other o entry => ?_, fun other inside ready => ?_⟩
  · rcases each other with same | ⟨_, _, before, -⟩
    · exact same.trans entry
    · cases before.symm.trans entry
  · rcases each other with same | ⟨_, _, before, -⟩
    · exact same.trans entry
    · cases before.symm.trans entry
  · rcases each other with same | ⟨_, _, -, after⟩
    · exact same ▸ ready
    · simp [after]

theorem setKind {id : TypeId} {kind : TypeKind} (pending : t.kind id = .pending) :
    t.Retains (t.setKind id kind) := by
  have each := kind_setKind (lt_size_of_kind pending (by simp)) kind
  have stays {other : TypeId} {entry : TypeKind} (before : t.kind other = entry)
      (ready : entry ≠ .pending) : (t.setKind id kind).kind other = entry := by
    rw [each, if_neg, before]
    rintro rfl
    exact ready (before.symm.trans pending)
  refine ⟨Nat.le_of_eq (size_setKind t id kind).symm, fun other g entry => ?_,
    fun other o entry => ?_, fun other inside ready => ?_⟩
  · exact stays entry (by simp)
  · exact stays entry (by simp)
  · rw [stays rfl ready]
    exact ready

end Retains

/-- The history accounts for what becomes of the entries that wait for a body. -/
structure Undergoes (t : TypeTable) (history : List Happening) (t' : TypeTable) : Prop where
  retains : t.Retains t'
  asked : ∀ u, .asked u ∈ history → t.Retains u
  pending : ∀ id, t'.kind id = .pending → t.kind id = .pending ∨ .reserved id ∈ history
  new : ∀ id, .reserved id ∈ history → t.size ≤ id
  waited : ∀ id kind, .filled id kind ∈ history → t.kind id = .pending ∨ .reserved id ∈ history
  filled : ∀ id kind, .filled id kind ∈ history → id < t'.size ∧ t'.kind id ≠ .pending
  built : ∀ id o, .filled id (.object o) ∈ history → t'.kind id = .object o
  once : ∀ id, (fillings id history).length ≤ 1

namespace Undergoes

variable {t t' t'' : TypeTable} {history later : List Happening}

/-- Where nothing happens, what waits has waited before. -/
theorem of_retains (retains : t.Retains t')
    (pending : ∀ id, t'.kind id = .pending → t.kind id = .pending) : t.Undergoes [] t' where
  retains := retains
  asked := nofun
  pending id waits := .inl (pending id waits)
  new := nofun
  waited := nofun
  filled := nofun
  built := nofun
  once _ := Nat.zero_le 1

theorem of_extends (extended : t.Extends t')
    (fresh : ∀ id, t.size ≤ id → id < t'.size → t'.kind id ≠ .pending) : t.Undergoes [] t' := by
  refine of_retains (.of_extends extended) fun id waits => ?_
  by_cases inside : id < t.size
  · rwa [← extended.kind id inside]
  · exact absurd waits (fresh id (Nat.le_of_not_lt inside) (lt_size_of_kind waits (by simp)))

theorem refl (t : TypeTable) : t.Undergoes [] t := of_retains (.refl t) fun _ => id

/-- What does not wait is not filled. -/
theorem not_filled (undergoes : t.Undergoes history t') {id : TypeId} (inside : id < t.size)
    (ready : t.kind id ≠ .pending) : fillings id history = [] := by
  refine List.eq_nil_iff_forall_not_mem.mpr fun kind member => ?_
  rcases undergoes.waited id kind (mem_fillings.mp member) with waits | reserved
  · exact ready waits
  · exact Nat.not_lt.mpr (undergoes.new id reserved) inside

theorem trans (one : t.Undergoes history t') (two : t'.Undergoes later t'') :
    t.Undergoes (history ++ later) t'' where
  retains := one.retains.trans two.retains
  asked u member := (List.mem_append.mp member).elim (one.asked u) fun member =>
    one.retains.trans (two.asked u member)
  pending id waits := by
    rcases two.pending id waits with between | reserved
    · exact (one.pending id between).imp_right (List.mem_append_left _)
    · exact .inr (List.mem_append_right _ reserved)
  new id member := (List.mem_append.mp member).elim (one.new id) fun member =>
    Nat.le_trans one.retains.size (two.new id member)
  waited id kind member := by
    rcases List.mem_append.mp member with member | member
    · exact (one.waited id kind member).imp_right (List.mem_append_left _)
    · rcases two.waited id kind member with between | reserved
      · exact (one.pending id between).imp_right (List.mem_append_left _)
      · exact .inr (List.mem_append_right _ reserved)
  filled id kind member := by
    rcases List.mem_append.mp member with member | member
    · obtain ⟨inside, ready⟩ := one.filled id kind member
      exact ⟨Nat.lt_of_lt_of_le inside two.retains.size, two.retains.decided id inside ready⟩
    · exact two.filled id kind member
  built id o member := (List.mem_append.mp member).elim
    (fun member => two.retains.object id o (one.built id o member)) (two.built id o)
  once id := by
    rw [fillings_append, List.length_append]
    cases before : fillings id history with
    | nil => simpa using two.once id
    | cons kind rest =>
        -- It is built by now, so it is not filled again later.
        obtain ⟨inside, ready⟩ := one.filled id kind (mem_fillings.mp (by simp [before]))
        rw [two.not_filled inside ready, ← before]
        exact one.once id

theorem add (t : TypeTable) {kind : TypeKind} (ready : kind ≠ .pending) :
    t.Undergoes [] (t.add kind).2 := by
  refine of_extends (.add t kind) fun id outside inside => ?_
  obtain rfl : id = t.size := by
    rw [size_add] at inside
    omega
  rwa [kind_add_size]

theorem reserve (t : TypeTable) : t.Undergoes [.reserved t.size] (t.add .pending).2 where
  retains := .of_extends (.add t _)
  asked := by simp
  pending id waits := by
    by_cases inside : id < t.size
    · exact .inl (by rwa [← kind_add_of_lt inside])
    · have bound := lt_size_of_kind waits (by simp)
      rw [size_add] at bound
      obtain rfl : id = t.size :=
        Nat.le_antisymm (Nat.le_of_lt_succ bound) (Nat.le_of_not_lt inside)
      exact .inr List.mem_cons_self
  new := by simp
  waited := by simp
  filled := by simp
  built := by simp
  once _ := Nat.zero_le 1

theorem constrain (t : TypeTable) (id bound : TypeId) :
    t.Undergoes [] (t.setConstraint id bound) := by
  refine of_retains (.setConstraint t id bound) fun other waits => ?_
  rcases t.kind_setConstraint id bound other with same | ⟨_, _, -, after⟩
  · exact same ▸ waits
  · cases after.symm.trans waits

theorem fill {id : TypeId} {kind : TypeKind} (pending : t.kind id = .pending)
    (ready : kind ≠ .pending) : t.Undergoes [.filled id kind] (t.setKind id kind) := by
  have inside : id < t.size := lt_size_of_kind pending (by simp)
  have here : (t.setKind id kind).kind id = kind := by rw [kind_setKind inside, if_pos rfl]
  refine ⟨.setKind pending, by simp, fun other waits => ?_, by simp, ?_, ?_, ?_, ?_⟩
  · rw [kind_setKind inside] at waits
    split at waits
    · exact absurd waits ready
    · exact .inl waits
  · rintro other kind' member
    obtain ⟨rfl, rfl⟩ : other = id ∧ kind' = kind := by simpa using member
    exact .inl pending
  · rintro other kind' member
    obtain ⟨rfl, rfl⟩ : other = id ∧ kind' = kind := by simpa using member
    exact ⟨by rwa [size_setKind], by rwa [here]⟩
  · rintro other o member
    obtain ⟨rfl, rfl⟩ : other = id ∧ .object o = kind := by simpa using member
    exact here
  · exact fun other => List.length_filterMap_le _ _

theorem ask {t' : TypeTable} (derives : t.Derives t') : t.Undergoes [.asked t] t' := by
  have quiet : t.Undergoes [] t' := by
    refine of_extends derives.extended fun id outside inside pending => ?_
    have derived := derives.derived id outside inside
    rw [pending] at derived
    cases derived
  exact { quiet with
    asked := fun u member => by
      obtain rfl : u = t := by simpa using member
      exact .refl u
    pending := fun id waits => .inl ((quiet.pending id waits).resolve_right (by simp))
    new := by simp
    waited := by simp
    filled := by simp
    built := by simp
    once := fun _ => Nat.zero_le 1 }

/-- What was asked first may come before. -/
theorem asking (undergoes : t.Undergoes history t') : t.Undergoes (.asked t :: history) t' :=
  (ask (.refl t)).trans undergoes

end Undergoes

end TypeTable

/-- A history accounts for what the step makes of the table. -/
theorem CheckM.Records.undergoes {α : Type} {m : CheckM α} {c c' : Checker} {a : α}
    {history : List Happening} (records : m.Records c a c' history) :
    c.table.Undergoes history c'.table := by
  induction records with
  | pure _ c | display _ c => exact .refl _
  | bind _ _ first second => exact first.trans second
  | see _ _ ih => exact ih
  | consult _ ih => exact ih.asking
  | @change f c apart =>
      have same : (f c).table = c.table := (congrArg Checker.table (apart c.table)).trans rfl
      rw [same]
      exact .refl _
  | add c ready => exact .add _ ready
  | reserve c => exact .reserve _
  | constrain id bound c => exact .constrain _ _ _
  | fill _ pending ready => exact .fill pending ready
  | ask c derives => exact .ask (derives c.table).toDerives

end StructuralTyping
