import StructuralTyping.Proofs.EqualityRules
import StructuralTyping.Proofs.ResolvedInstances
import StructuralTyping.Proofs.RunLookups

/-! What becomes of structural equality when questions are asked in between. Equality reads the
bodies of instantiated types that have been resolved before, and never resolves one. So a yes
is never taken back, and a no can only become a yes where an instantiated type that is met in
one of the two types has been resolved since. -/
namespace StructuralTyping

open Equality
open Inference (Within)

namespace TypeTable

/-- The table is well formed and tidy, as the tables are that a run comes to. -/
structure Coherent (t : TypeTable) : Prop where
  grounded : t.Grounded
  tidy : t.Tidy

/-- The second table is there after a question about types of the first one. -/
inductive Asked (t : TypeTable) : TypeTable → Prop where
  | resolve {x : TypeId} (inside : x < t.size) : Asked t ((resolve x).run t).2
  | substitute {x : TypeId} {bindings : Bindings} (inside : x < t.size)
      (bound : ∀ b ∈ bindings.values, b < t.size) : Asked t ((substitute x bindings).run t).2
  | assignable (strict fresh : Bool) {x y : TypeId} (left : x < t.size) (right : y < t.size) :
      Asked t ((assignable strict x y fresh).run t).2
  | infer {i : Inference} {x y : TypeId} (within : i.Within t) (left : x < t.size)
      (right : y < t.size) : Asked t ((i.infer x y).run t).2
  | excessProperties {x y : TypeId} (left : x < t.size) (right : y < t.size) :
      Asked t ((Assignability.excessProperties x y).run t).2

variable {t u : TypeTable} {a b m : TypeId}

theorem Coherent.layered (coherent : t.Coherent) (id : TypeId) : Layered t id where
  precede m _ i entry :=
    coherent.grounded.precede m (lt_size_of_kind entry (by simp)) i entry
  bodies m _ i body _ found := by
    rintro ⟨j, entry⟩
    obtain ⟨g, -, -, made, -, object, -⟩ := coherent.tidy.remembered _ body found
    exact nomatch object.symm.trans entry

/-- In a table of a run, equality is the greatest relation that is closed under its rules. -/
theorem Coherent.equals_iff (coherent : t.Coherent) : t.equals a b = true ↔ Similar t [] a b :=
  Equality.equals_iff (coherent.layered a) (coherent.layered b)

/-- The table in which a run ends, well or not, is coherent. -/
theorem coherent_step_declareAndCheck (options : CheckerOptions) (files : List SourceFile) :
    ((Checker.new options).step (declareAndCheck files)).2.table.Coherent := by
  have tidies := Tidies.declareAndCheck files _ (tidy_new options)
  have stays := stays_checkDeclarations options files
  have declared := step_declareSourceFiles (c := .new options) files rfl
  have checked : (Checker.new options).step (declareAndCheck files) =
      ({ Checker.new options with files := files } : Checker).step checkDeclarations := by
    rw [declareAndCheck, Checker.step_bind, declared]
    rfl
  rcases done : (Checker.new options).step (declareAndCheck files) with ⟨cause | ⟨⟨⟩⟩, c⟩
  · exact ⟨stays.stops (inside_new options files) cause c (checked ▸ done),
      tidies.stops tidy_initial cause c done⟩
  · exact ⟨(stays.leads _ c (checked ▸ done)).1.inside.table, (tidies.ends _ c done).1.table⟩

/-- A run that ends well leaves a coherent table. -/
theorem coherent_declareAndCheck {options : CheckerOptions} {files : List SourceFile} {c : Checker}
    (done : (Checker.new options).step (declareAndCheck files) = (.ok (), c)) :
    c.table.Coherent := by
  have coherent := coherent_step_declareAndCheck options files
  rwa [done] at coherent

theorem Asked.advances (asked : t.Asked u) (grounded : t.Grounded) : Advances Grounded t u := by
  have query := queryInvariant_grounded
  cases asked with
  | resolve inside => exact (advances_resolve query grounded inside).yields.1
  | substitute inside bound =>
      exact (advances_substitute query grounded inside bound).yields.1
  | assignable strict fresh left right =>
      exact (Assignability.advances_assignable query strict fresh grounded left right).yields.1
  | infer within left right =>
      exact (Inference.advances_infer query grounded within left right).yields.1
  | excessProperties left right =>
      exact (Assignability.advances_excessProperties query grounded left right).yields

theorem Asked.develops (asked : t.Asked u) : t.Develops u := by
  cases asked with
  | resolve => exact derives_resolve _ t
  | substitute => exact derives_substitute _ _ t
  | assignable => exact derives_assignable _ _ _ _ t
  | infer => exact Inference.derives_infer _ _ _ t
  | excessProperties => exact Assignability.derives_excessProperties _ _ t

theorem Asked.coherent (asked : t.Asked u) (coherent : t.Coherent) : u.Coherent where
  grounded := (asked.advances coherent.grounded).keeps coherent.grounded
  tidy := asked.develops.tidy coherent.tidy

/-- Of the instantiated types that are met in the type, the second table remembers no bodies
that the first one does not remember. -/
def KeepsBodies (t u : TypeTable) (id : TypeId) : Prop :=
  ∀ m, t.Meets id m → ∀ i, t.kind m = .instantiated i → ∀ body,
    u.resolved.find? (instantiationKey i) = some body →
      t.resolved.find? (instantiationKey i) = some body

theorem Meets.inside (grounded : t.Grounded) (known : a < t.size) (meets : t.Meets a m) :
    m < t.size :=
  (meets.advances grounded (.refl t) known).2

/-- It is enough to look at a set of types that holds the parts of its members. -/
theorem KeepsBodies.of_closed (ids : List TypeId) (listed : a ∈ ids)
    (closed : ∀ m ∈ ids, (t.kind m).parts ⊆ ids ∧ t.flag m ≠ .instantiated) :
    t.KeepsBodies u a := by
  have plain {m : TypeId} (listed : m ∈ ids) : ¬t.IsInstance m := fun ⟨_, entry⟩ =>
    (closed m listed).2 (congrArg TypeKind.flag entry)
  intro m meets i entry
  have among := mem_of_meets ids listed (fun m listed => ⟨(closed m listed).1, fun body made => by
    obtain rfl := Option.some.inj ((body?_plain (plain listed)).symm.trans made)
    exact listed⟩) meets
  exact absurd ⟨i, entry⟩ (plain among)

theorem KeepsBodies.of_meets (keeps : t.KeepsBodies u a) (meets : t.Meets a m) :
    t.KeepsBodies u m :=
  fun n further => keeps n (meets.trans further)

/-- A body is the same in two tables with the same entry, if it is remembered in both. -/
theorem body?_congr {body : TypeId} (same : u.kind a = t.kind a)
    (found : ∀ i, t.kind a = .instantiated i → t.resolved.find? (instantiationKey i) = some body →
      u.resolved.find? (instantiationKey i) = some body)
    (made : body? t a = some body) : body? u a = some body := by
  by_cases instantiated : t.IsInstance a
  · obtain ⟨i, entry⟩ := instantiated
    rw [body?_instantiated entry] at made
    rw [body?_instantiated (same.trans entry)]
    exact found i entry made
  · have instantiated' : ¬u.IsInstance a := by rwa [IsInstance, same]
    rw [body?_plain instantiated] at made
    rwa [body?_plain instantiated']

section Advancing
variable (grounded : t.Grounded) (advances : Advances Grounded t u)

include grounded advances

/-- Where no more bodies are remembered, nothing more is met. -/
theorem Meets.of_keepsBodies (known : a < t.size) (keeps : t.KeepsBodies u a)
    (meets : u.Meets a m) : t.Meets a m := by
  induction meets with
  | refl => exact .refl
  | tail _ step ih =>
      have same := advances.extended.kind _ (ih.inside grounded known)
      rcases step with part | ⟨i, entry, found⟩
      · exact ih.tail (.inl (same ▸ part))
      · exact ih.tail (.inr ⟨i, same ▸ entry, keeps _ ih i (same ▸ entry) _ found⟩)

/-- What is equal stays so when the table advances. -/
theorem similar_advances (left : a < t.size) (right : b < t.size) {Γ : Pairs}
    (similar : Similar t Γ a b) : Similar u Γ a b := by
  refine ⟨fun Γ x y => Similar t Γ x y ∧ x < t.size ∧ y < t.size, ?_, similar, left, right⟩
  rintro Γ x y ⟨similar, left, right⟩
  refine similar.unfold.transport (advances.extended.kind x left) (advances.extended.kind y right)
    (fun body => body?_congr (advances.extended.kind x left) fun i _ => advances.remembers _ _)
    (fun body => body?_congr (advances.extended.kind y right) fun i _ => advances.remembers _ _)
    id fun own x' y' comes similar =>
      ⟨similar, comes.meets.1.inside grounded left, comes.meets.2.inside grounded right⟩

/-- What is equal later was equal before, if no more bodies are remembered. -/
theorem similar_of_keepsBodies (left : a < t.size) (right : b < t.size) (keeps : t.KeepsBodies u a)
    (keeps' : t.KeepsBodies u b) {Γ : Pairs} (similar : Similar u Γ a b) : Similar t Γ a b := by
  refine ⟨fun Γ x y => Similar u Γ x y ∧ t.Meets a x ∧ t.Meets b y, ?_, similar, .refl, .refl⟩
  rintro Γ x y ⟨similar, meets, meets'⟩
  have left' := meets.inside grounded left
  have right' := meets'.inside grounded right
  have same := advances.extended.kind x left'
  have same' := advances.extended.kind y right'
  refine similar.unfold.transport same.symm same'.symm
    (fun body => body?_congr same.symm fun i entry => keeps x meets i (same ▸ entry) body)
    (fun body => body?_congr same'.symm fun i entry => keeps' y meets' i (same' ▸ entry) body)
    id fun own x' y' comes similar => ⟨similar, meets.trans ?_, meets'.trans ?_⟩
  · exact comes.meets.1.of_keepsBodies grounded advances left' (keeps.of_meets meets)
  · exact comes.meets.2.of_keepsBodies grounded advances right' (keeps'.of_meets meets')

end Advancing

end TypeTable

/-- A question takes back no yes. It changes a no only if it resolves an instantiated type that
is met in one of the two types. -/
theorem equals_asked {t u : TypeTable} (coherent : t.Coherent) (asked : t.Asked u) {a b : TypeId}
    (left : a < t.size) (right : b < t.size) :
    (t.equals a b = true → u.equals a b = true) ∧
      (t.KeepsBodies u a → t.KeepsBodies u b → u.equals a b = t.equals a b) := by
  have advances := asked.advances coherent.grounded
  have yes : t.equals a b = true → u.equals a b = true := by
    rw [coherent.equals_iff, (asked.coherent coherent).equals_iff]
    exact TypeTable.similar_advances coherent.grounded advances left right
  refine ⟨yes, fun keeps keeps' => Bool.eq_iff_iff.mpr ⟨fun later => ?_, yes⟩⟩
  rw [coherent.equals_iff]
  rw [(asked.coherent coherent).equals_iff] at later
  exact TypeTable.similar_of_keepsBodies coherent.grounded advances left right keeps keeps' later

/-- How a step ends and what table it leaves, taken together. -/
theorem Checker.exists_step {α : Type} {m : CheckM α} {c : Checker} {a : α} {t : TypeTable}
    (ends : (c.step m).1 = .ok a) (table : (c.step m).2.table = t) :
    ∃ c', c.step m = (.ok a, c') ∧ c'.table = t :=
  ⟨(c.step m).2, congrArg (·, (c.step m).2) ends, table⟩

/-- `interface Box<T> { value: T }`, `var b: Box<number>` and two variables of the type
`{ value: number }`. -/
def boxedNumber : List SourceFile :=
  [⟨"", [
    .ofInterface "Box" [.free "T"] [.required "value" (.named "T" [])],
    .ofVariable "b" (some (.named "Box" [.ofKeyword .number])) none,
    .ofVariable "o" (some (.ofMembers [.required "value" (.ofKeyword .number)])) none,
    .ofVariable "p" (some (.ofMembers [.required "value" (.ofKeyword .number)])) none]⟩]

/-- The table after the check of `boxedNumber`. -/
def boxedNumberTable : TypeTable where
  entries := TypeTable.initial.entries ++
    #[.typeParameter "T" none, .object ⟨some "Box", ⟨[("value", ⟨7, false⟩)]⟩⟩,
      .generic ⟨"Box", [7], 8⟩, .instantiated ⟨9, ⟨[("T", TypeId.number)]⟩⟩,
      .object ⟨none, ⟨[("value", ⟨TypeId.number, false⟩)]⟩⟩,
      .object ⟨none, ⟨[("value", ⟨TypeId.number, false⟩)]⟩⟩]
  resolved := .empty

theorem step_boxedNumber : ∃ c, (Checker.new .default).step (declareAndCheck boxedNumber) =
    (.ok (), c) ∧ c.table = boxedNumberTable :=
  Checker.exists_step (by decide +kernel) (by decide +kernel)

/-- `Box<number>` and `{ value: number }` are equal only after `Box<number>` is resolved. -/
theorem boxedNumber_equal_later :
    ∃ c, (Checker.new .default).step (declareAndCheck boxedNumber) = (.ok (), c) ∧
      c.table.Asked ((resolve 10).run c.table).2 ∧ c.table.equals 10 11 = false ∧
        ((resolve 10).run c.table).2.equals 10 11 = true := by
  obtain ⟨c, run, table⟩ := step_boxedNumber
  refine ⟨c, run, .resolve ?_, ?_, ?_⟩
  · rw [table]
    decide
  · rw [table]
    decide +kernel
  · rw [table]
    decide +kernel

/-- Whether the types of `o` and `p` are equal has nothing to do with the type of `b`. -/
theorem boxedNumber_unconcerned : boxedNumberTable.Coherent ∧
    boxedNumberTable.Asked ((resolve 10).run boxedNumberTable).2 ∧
    boxedNumberTable.KeepsBodies ((resolve 10).run boxedNumberTable).2 11 ∧
    boxedNumberTable.KeepsBodies ((resolve 10).run boxedNumberTable).2 12 ∧
    ((resolve 10).run boxedNumberTable).2.equals 11 12 = boxedNumberTable.equals 11 12 := by
  have coherent : boxedNumberTable.Coherent := by
    obtain ⟨c, run, table⟩ := step_boxedNumber
    exact table ▸ TypeTable.coherent_declareAndCheck run
  have asked : boxedNumberTable.Asked ((resolve 10).run boxedNumberTable).2 := .resolve (by decide)
  have keeps : ∀ id ∈ [11, 12, TypeId.number],
      boxedNumberTable.KeepsBodies ((resolve 10).run boxedNumberTable).2 id :=
    fun id listed => .of_closed [11, 12, TypeId.number] listed (by decide)
  have one := keeps 11 (by decide)
  have two := keeps 12 (by decide)
  exact ⟨coherent, asked, one, two, (equals_asked coherent asked (by decide) (by decide)).2 one two⟩

end StructuralTyping
