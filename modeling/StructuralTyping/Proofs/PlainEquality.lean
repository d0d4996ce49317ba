import StructuralTyping.Proofs.EqualityRules

/-! The equality of types from which no instantiated type and no generic function type can be
reached. No type parameters correspond there, so a single relation is left, and the comparison
decides the greatest one that is closed under the rules for objects and functions. -/
namespace StructuralTyping

/-- No object type has two properties of one name. -/
def TypeTable.DistinctProperties (t : TypeTable) : Prop :=
  ∀ id o, t.kind id = .object o → o.properties.Distinct

namespace Dictionary

section Keys
variable {κ α β : Type} {d : Dictionary κ α} {d' : Dictionary κ β}

/-- Dictionaries with the same keys are of one size. -/
theorem size_eq_of_keys (distinct : d.Distinct) (distinct' : d'.Distinct)
    (same : ∀ key, key ∈ d.keys ↔ key ∈ d'.keys) : d.size = d'.size := by
  have length := ((List.perm_ext_iff_of_nodup distinct distinct').mpr same).length_eq
  simpa [keys, size] using length

/-- Where all keys of the one are keys of another one that is not larger, the keys are the same. -/
theorem mem_keys_iff_of_size (distinct : d.Distinct) (size : d.size = d'.size)
    (within : ∀ key ∈ d.keys, key ∈ d'.keys) (key : κ) : key ∈ d.keys ↔ key ∈ d'.keys := by
  have larger : d'.keys.length ≤ d.keys.length := by simpa [keys, Dictionary.size] using size.ge
  exact ((distinct.subperm within).perm_of_length_le larger).mem_iff

end Keys

section Lookup
variable {κ α : Type} [DecidableEq κ] {d : Dictionary κ α} {key : κ} {value : α}

theorem mem_keys_iff : key ∈ d.keys ↔ ∃ value, d.find? key = some value := by
  rw [← not_iff_not, ← find?_eq_none_iff, Option.eq_none_iff_forall_not_mem]
  simp

theorem find?_of_mem (distinct : d.Distinct) (member : (key, value) ∈ d.pairs) :
    d.find? key = some value :=
  findIn?_of_mem distinct member

end Lookup

end Dictionary

namespace Equality

open TypeTable

/-- No instantiated type and no generic function type can be reached. -/
structure Plain (t : TypeTable) (id : TypeId) : Prop where
  instances : ∀ m, t.Reaches id m → ¬t.IsInstance m
  generics : ∀ m, t.Reaches id m → ∀ f, t.kind m = .function f → f.isGeneric = false

/-- One step of the rules for types that are plain. -/
inductive PlainRule (t : TypeTable) (R : TypeId → TypeId → Prop) (a b : TypeId) : Prop
  | same (equal : a = b)
  | primitive {p : Primitive} (left : t.kind a = .primitive p) (right : t.kind b = .primitive p)
  | unknown (left : t.kind a = .unknown) (right : t.kind b = .unknown)
  | object {x y : ObjectType} (left : t.kind a = .object x) (right : t.kind b = .object y)
      (names : ∀ name, name ∈ x.properties.keys ↔ name ∈ y.properties.keys)
      (properties : ∀ name p q, x.property? name = some p → y.property? name = some q →
        p.optional = q.optional ∧ R p.type q.type)
  | function {x y : FunctionType} (left : t.kind a = .function x) (right : t.kind b = .function y)
      (arity : x.parameters.length = y.parameters.length)
      (parameters : ∀ pair ∈ x.parameters.zip y.parameters,
        pair.1.optional = pair.2.optional ∧ R pair.1.type pair.2.type)
      (result : R x.returnType y.returnType)

section Plain
variable {t : TypeTable} {a b m : TypeId}

theorem Plain.reaches_of_meets (plain : Plain t a) (meets : t.Meets a m) : t.Reaches a m := by
  induction meets with
  | refl => exact .refl
  | tail _ step ih =>
      rcases step with part | ⟨i, entry, -⟩
      · exact ih.tail part
      · exact absurd ⟨i, entry⟩ (plain.instances _ ih)

theorem Plain.layered (plain : Plain t a) : Layered t a where
  precede m meets i entry := absurd ⟨i, entry⟩ (plain.instances m (plain.reaches_of_meets meets))
  bodies m meets i _ entry :=
    absurd ⟨i, entry⟩ (plain.instances m (plain.reaches_of_meets meets))

theorem Plain.of_meets (plain : Plain t a) (meets : t.Meets a m) : Plain t m where
  instances n reached := plain.instances n ((plain.reaches_of_meets meets).trans reached)
  generics n reached := plain.generics n ((plain.reaches_of_meets meets).trans reached)

/-- A function that is plain declares no type parameters. -/
theorem Plain.declares_nothing (plain : Plain t a) {f : FunctionType}
    (entry : t.kind a = .function f) : f.typeParameters = [] := by
  simpa [FunctionType.isGeneric] using plain.generics a .refl f entry

/-- No type parameters correspond in plain types. -/
theorem Plain.own_eq_nil (plain : Plain t a) {own : Pairs} {x y : TypeId}
    (comes : ComesTo t a b own x y) : own = [] := by
  cases comes with
  | parameter ha | result ha => rw [plain.declares_nothing ha, List.zip_nil_left]
  | _ => rfl

/-- The rules for types that are plain are the rules that remain for them. -/
theorem Rule.plain {R : Pairs → TypeId → TypeId → Prop} {S : TypeId → TypeId → Prop}
    (distinct : t.DistinctProperties) (left : Plain t a) (right : Plain t b)
    (within : ∀ own x y, ComesTo t a b own x y → R [] x y → S x y)
    (rule : Rule t R [] a b) : PlainRule t S a b := by
  cases rule with
  | same equal => exact .same equal
  | corresponding member => exact absurd member List.not_mem_nil
  | primitive ha hb => exact .primitive ha hb
  | unknown ha hb => exact .unknown ha hb
  | @object x y ha hb rule =>
      have found {name : String} {p : Property} (known : x.property? name = some p) :=
        rule.properties name p (Dictionary.mem_of_find? known)
      refine .object ha hb ?_ fun name p q known known' => ?_
      · refine Dictionary.mem_keys_iff_of_size (distinct a x ha) rule.size fun name key => ?_
        obtain ⟨p, known⟩ := Dictionary.mem_keys_iff.mp key
        obtain ⟨q, known', -⟩ := found known
        exact Dictionary.mem_keys_iff.mpr ⟨q, known'⟩
      · obtain ⟨q', known'', optional, related⟩ := found known
        obtain rfl := Option.some.inj (known''.symm.trans known')
        exact ⟨optional,
          within _ _ _ (.property ha hb (Dictionary.mem_of_find? known) known'') related⟩
  | @function x y ha hb rule =>
      have nothing : x.typeParameters.zip y.typeParameters = [] := left.own_eq_nil (.result ha hb)
      rw [nothing, List.nil_append] at rule
      refine .function ha hb rule.arity (fun pair listed => ?_)
        (within _ _ _ (.result ha hb) rule.result)
      obtain ⟨optional, related⟩ := rule.parameters pair listed
      exact ⟨optional, within _ _ _ (.parameter ha hb listed) related⟩
  | arguments ha => exact absurd ⟨_, ha⟩ (left.instances a .refl)
  | bodies either => exact (either.elim (left.instances a .refl) (right.instances b .refl)).elim

theorem PlainRule.rule {R : TypeId → TypeId → Prop} {S : Pairs → TypeId → TypeId → Prop}
    {Γ : Pairs} (distinct : t.DistinctProperties) (left : Plain t a) (right : Plain t b)
    (within : ∀ own x y, ComesTo t a b own x y → R x y → S Γ x y)
    (rule : PlainRule t R a b) : Rule t S Γ a b := by
  cases rule with
  | same equal => exact .same equal
  | primitive ha hb => exact .primitive ha hb
  | unknown ha hb => exact .unknown ha hb
  | @object x y ha hb names properties =>
      refine .object ha hb
        ⟨Dictionary.size_eq_of_keys (distinct a x ha) (distinct b y hb) names, ?_⟩
      intro name p listed
      have known : x.property? name = some p := Dictionary.find?_of_mem (distinct a x ha) listed
      obtain ⟨q, known'⟩ :=
        Dictionary.mem_keys_iff.mp ((names name).mp (Dictionary.mem_keys_iff.mpr ⟨p, known⟩))
      obtain ⟨optional, related⟩ := properties name p q known known'
      exact ⟨q, known', optional, within _ _ _ (.property ha hb listed known') related⟩
  | @function x y ha hb arity parameters result =>
      have declared := left.declares_nothing ha
      refine .function ha hb ?_
      rw [declared, List.zip_nil_left, List.nil_append]
      refine ⟨by rw [declared, right.declares_nothing hb], arity, fun pair listed => ?_,
        within _ _ _ (.result ha hb) result⟩
      obtain ⟨optional, related⟩ := parameters pair listed
      exact ⟨optional, within _ _ _ (.parameter ha hb listed) related⟩

/-- The comparison of plain types ends, and they are equal exactly if a relation that is closed
under the rules for objects and functions contains them. -/
theorem equals_plain (distinct : t.DistinctProperties) (left : Plain t a) (right : Plain t b) :
    (∃ fuel, ∀ more ≥ fuel, equalWithin t more [] a b = some (t.equals a b)) ∧
      (t.equals a b = true ↔ ∃ R, (∀ x y, R x y → PlainRule t R x y) ∧ R a b) := by
  refine ⟨⟨_, fun more enough => equalWithin_searchDepth left.layered right.layered enough⟩, ?_⟩
  rw [equals_iff left.layered right.layered]
  constructor
  · intro similar
    refine ⟨fun x y => Similar t [] x y ∧ Plain t x ∧ Plain t y, ?_, similar, left, right⟩
    rintro x y ⟨similar, left, right⟩
    exact similar.unfold.plain distinct left right fun own x' y' comes similar =>
      ⟨similar, left.of_meets comes.meets.1, right.of_meets comes.meets.2⟩
  · rintro ⟨R, closed, related⟩
    refine ⟨fun _ x y => R x y ∧ Plain t x ∧ Plain t y, ?_, related, left, right⟩
    rintro Γ x y ⟨related, left, right⟩
    exact (closed x y related).rule distinct left right fun own x' y' comes related =>
      ⟨related, left.of_meets comes.meets.1, right.of_meets comes.meets.2⟩

/-- Where no entry is an instantiated type or a generic function type, every type is plain. -/
theorem Plain.of_entries (instances : ∀ i, .instantiated i ∉ t.entries)
    (generics : ∀ f, .function f ∈ t.entries → f.isGeneric = false) (id : TypeId) :
    Plain t id where
  instances m _ := fun ⟨i, entry⟩ => instances i (mem_entries_of_kind entry (by simp))
  generics m _ f entry := generics f (mem_entries_of_kind entry (by simp))

/-- Two lists that are the rest of one another, and a list that is its own rest, with the
properties in another order. -/
def crossedLists : TypeTable :=
  { TypeTable.initial with
    entries := TypeTable.initial.entries ++ #[
      .object ⟨some "Odd", ⟨[("next", ⟨8, false⟩), ("label", ⟨TypeId.string, true⟩)]⟩⟩,
      .object ⟨some "Even", ⟨[("next", ⟨7, false⟩), ("label", ⟨TypeId.string, true⟩)]⟩⟩,
      .object ⟨none, ⟨[("label", ⟨TypeId.string, true⟩), ("next", ⟨9, false⟩)]⟩⟩] }

theorem crossedLists_equal :
    crossedLists.DistinctProperties ∧ Plain crossedLists 7 ∧ Plain crossedLists 9 ∧
      crossedLists.equals 7 9 = true := by
  have distinct : crossedLists.DistinctProperties := by
    intro id o entry
    have listed := mem_entries_of_kind entry (by simp)
    simp only [crossedLists, TypeTable.initial, Array.mem_append, List.mem_toArray, List.mem_cons]
      at listed
    have shapes : o.properties.keys = ["next", "label"] ∨
        o.properties.keys = ["label", "next"] := by
      aesop
    rcases shapes with keys | keys <;> simp [Dictionary.Distinct, keys]
  have plain : ∀ id, Plain crossedLists id :=
    .of_entries (by simp [crossedLists, TypeTable.initial])
      (by simp [crossedLists, TypeTable.initial])
  refine ⟨distinct, plain 7, plain 9, ?_⟩
  refine (equals_plain distinct (plain 7) (plain 9)).2.mpr
    ⟨fun a b => (a = 7 ∧ b = 9) ∨ (a = 8 ∧ b = 9) ∨ a = b, ?_, .inl ⟨rfl, rfl⟩⟩
  rintro a b (⟨rfl, rfl⟩ | ⟨rfl, rfl⟩ | rfl)
  · refine .object rfl rfl (by simp [Dictionary.keys, or_comm]) fun name p q known known' => ?_
    simp only [ObjectType.property?, Dictionary.find?, Dictionary.findIn?] at known known'
    grind
  · refine .object rfl rfl (by simp [Dictionary.keys, or_comm]) fun name p q known known' => ?_
    simp only [ObjectType.property?, Dictionary.find?, Dictionary.findIn?] at known known'
    grind
  · exact .same rfl

end Plain

end Equality

end StructuralTyping
