import StructuralTyping.Proofs.EquivalentTypes

/-! How far structural equality is an equivalence relation. It is reflexive and symmetric. It is
transitive where what it takes for one type parameter is one type parameter, and where instances
of one interface with equivalent bodies have equivalent arguments. Neither goes without saying:
a type parameter is equal to itself also below a function that declares another one in its
place, and the arguments count even where the body does not mention them. -/
namespace StructuralTyping.Equality

open TypeTable

section Symmetry
variable {t : TypeTable} {R : Pairs → TypeId → TypeId → Prop} {Γ : Pairs} {a b : TypeId}

theorem ObjectRule.symm {P : TypeId → TypeId → Prop} {x y : ObjectType}
    (distinct : x.properties.Distinct) (distinct' : y.properties.Distinct)
    (rule : ObjectRule P x y) : ObjectRule (fun b a => P a b) y x where
  size := rule.size.symm
  properties name q listed := by
    have within : ∀ key ∈ x.properties.keys, key ∈ y.properties.keys := fun key known => by
      obtain ⟨p, found⟩ := Dictionary.mem_keys_iff.mp known
      obtain ⟨q, found', -⟩ := rule.properties key p (Dictionary.mem_of_find? found)
      exact Dictionary.mem_keys_iff.mpr ⟨q, found'⟩
    have known := (Dictionary.mem_keys_iff_of_size distinct rule.size within name).mpr
      (Dictionary.mem_keys_iff.mpr ⟨q, Dictionary.find?_of_mem distinct' listed⟩)
    obtain ⟨p, found⟩ := Dictionary.mem_keys_iff.mp known
    obtain ⟨q', found', optional, related⟩ :=
      rule.properties name p (Dictionary.mem_of_find? found)
    obtain rfl := Option.some.inj (found'.symm.trans (Dictionary.find?_of_mem distinct' listed))
    exact ⟨p, found, optional.symm, related⟩

theorem FunctionRule.symm {P : TypeId → TypeId → Prop} {x y : FunctionType}
    (rule : FunctionRule P x y) : FunctionRule (fun b a => P a b) y x where
  declared := rule.declared.symm
  arity := rule.arity.symm
  parameters pair listed := by
    obtain ⟨optional, related⟩ := rule.parameters _ (mem_zip_swap listed)
    exact ⟨optional.symm, related⟩
  result := rule.result

/-- Every rule can be read from right to left. -/
theorem Rule.symm (distinct : t.DistinctProperties) (rule : Rule t R Γ a b) :
    Rule t (fun Δ y x => R (Δ.map Prod.swap) x y) (Γ.map Prod.swap) b a := by
  have back (Δ : Pairs) : (Δ.map Prod.swap).map Prod.swap = Δ := by simp
  cases rule with
  | same equal => exact .same equal.symm
  | corresponding member => exact .corresponding (List.mem_map_of_mem member)
  | primitive ha hb => exact .primitive hb ha
  | unknown ha hb => exact .unknown hb ha
  | object ha hb rule =>
      rw [← back Γ] at rule
      exact .object hb ha (rule.symm (distinct a _ ha) (distinct b _ hb))
  | @function x y ha hb rule =>
      have own : x.typeParameters.zip y.typeParameters ++ Γ =
          (y.typeParameters.zip x.typeParameters ++ Γ.map Prod.swap).map Prod.swap := by
        rw [List.map_append, List.zip_swap, back]
      rw [own] at rule
      exact .function hb ha rule.symm
  | arguments ha hb origin arguments =>
      refine .arguments hb ha origin.symm fun pair listed => ?_
      rw [back]
      exact arguments _ (mem_zip_swap listed)
  | bodies instantiated apart ha hb through related =>
      refine .bodies instantiated.symm (fun i j hi hj => (apart j i hj hi).symm) hb ha
        (fun ⟨hb, ha⟩ => through ⟨ha, hb⟩) ?_
      rwa [back]

theorem Similar.symm (distinct : t.DistinctProperties) (similar : Similar t Γ a b) :
    Similar t (Γ.map Prod.swap) b a := by
  have back (Δ : Pairs) : (Δ.map Prod.swap).map Prod.swap = Δ := by simp
  have start : Similar t ((Γ.map Prod.swap).map Prod.swap) a b := by rwa [back]
  exact ⟨fun Δ y x => Similar t (Δ.map Prod.swap) x y,
    fun Δ y x similar => back Δ ▸ similar.unfold.symm distinct, start⟩

end Symmetry

/-- The pairs of types that a comparison of the two types can come to, with the type parameters
that correspond there. -/
inductive Comes (t : TypeTable) (a b : TypeId) : Pairs → TypeId → TypeId → Prop
  | start : Comes t a b [] a b
  | step {Γ own : Pairs} {x y x' y' : TypeId} (before : Comes t a b Γ x y)
      (next : ComesTo t x y own x' y') : Comes t a b (own ++ Γ) x' y'

/-- What the comparison takes for one type parameter is one type parameter where it stands: the
innermost functions that declare the two declare them in one place, or none does. -/
def Scoped (t : TypeTable) (a b : TypeId) : Prop :=
  ∀ Γ x y, Comes t a b Γ x y → (x = y ∧ t.flag x = .typeParameter) ∨ (x, y) ∈ Γ →
    t.flag x = .typeParameter ∧ t.flag y = .typeParameter ∧ Correspond Γ x y

/-- Where the comparison comes to two instances of one interface, their arguments are equivalent
if their bodies are. -/
def Faithful (t : TypeTable) (a b : TypeId) : Prop :=
  ∀ Γ x y i j, Comes t a b Γ x y → t.kind x = .instantiated i → t.kind y = .instantiated j →
    i.origin = j.origin → ∀ m n, body? t x = some m → body? t y = some n → Equivalent t Γ m n →
      ∀ pair ∈ i.bindings.values.zip j.bindings.values, Equivalent t Γ pair.1 pair.2

section Comparisons
variable {t : TypeTable} {Γ : Pairs} {a b x y : TypeId}

/-- What a comparison comes to is met in the types. -/
theorem Comes.meets (comes : Comes t a b Γ x y) : t.Meets a x ∧ t.Meets b y := by
  induction comes with
  | start => exact ⟨.refl, .refl⟩
  | step _ next ih => exact ⟨ih.1.trans next.meets.1, ih.2.trans next.meets.2⟩

/-- Where no generic function is met, no type parameter can be taken for another one. -/
theorem Scoped.of_ungeneric
    (ungeneric : ∀ m f, t.Meets a m → t.kind m = .function f → f.isGeneric = false) :
    Scoped t a b := by
  intro Γ x y comes
  suffices nothing : Γ = [] by
    subst nothing
    rintro (⟨rfl, flag⟩ | member)
    · exact ⟨flag, flag, rfl⟩
    · exact absurd member List.not_mem_nil
  induction comes with
  | start => rfl
  | @step Γ own x y x' y' before next ih =>
      rw [ih, List.append_nil]
      have declares {f : FunctionType} (entry : t.kind x = .function f) :
          f.typeParameters = [] := by
        simpa [FunctionType.isGeneric] using ungeneric x f before.meets.1 entry
      cases next with
      | parameter hx | result hx => rw [declares hx, List.zip_nil_left]
      | _ => rfl

/-- Instances of different interfaces have nothing to be faithful about. -/
theorem Faithful.of_origins
    (apart : ∀ x y i j, t.Meets a x → t.Meets b y → t.kind x = .instantiated i →
      t.kind y = .instantiated j → i.origin ≠ j.origin) : Faithful t a b :=
  fun _ x y i j comes left right origin =>
    absurd origin (apart x y i j comes.meets.1 comes.meets.2 left right)

end Comparisons

/-- The bodies of all instantiated types are remembered. -/
def AllResolved (t : TypeTable) : Prop := ∀ id, t.IsInstance id → ∃ body, body? t id = some body

theorem AllResolved.of_entries {t : TypeTable}
    (each : ∀ id < t.size, (body? t id).isSome = true) : AllResolved t := fun id ⟨_, entry⟩ =>
  Option.isSome_iff_exists.mp (each id (lt_size_of_kind entry (by simp)))

section Transitivity
variable {t : TypeTable} {Γ : Pairs} {a b c x y : TypeId}

/-- Equal types have equal bodies. -/
theorem Similar.bodies (tidy : t.Tidy) (distinct : t.DistinctProperties) (resolved : AllResolved t)
    (outside : (a, b) ∈ Γ → ¬t.IsInstance a ∧ ¬t.IsInstance b) (similar : Similar t Γ a b)
    (instantiated : t.IsInstance a ∨ t.IsInstance b) :
    ∃ x y, body? t a = some x ∧ body? t b = some y ∧ Similar t Γ x y := by
  have rule := similar.unfold
  cases rule with
  | same equal =>
      subst equal
      obtain ⟨x, made⟩ := resolved a (or_self_iff.mp instantiated)
      exact ⟨x, x, made, made, similar_iff.mpr (.same rfl)⟩
  | corresponding member =>
      obtain ⟨plain, plain'⟩ := outside member
      exact (instantiated.elim plain plain').elim
  | arguments ha hb origin arguments =>
      obtain ⟨x, made⟩ := resolved a ⟨_, ha⟩
      obtain ⟨y, made'⟩ := resolved b ⟨_, hb⟩
      exact ⟨x, y, made, made', tidy.similar_bodies distinct ha hb origin arguments made made'⟩
  | bodies _ _ ha hb _ related => exact ⟨_, _, ha, hb, related⟩
  | _ ha hb => simp [IsInstance, ha, hb] at instantiated

/-- What is scoped is no instantiated type if it is assumed. -/
theorem Scoped.outside (inScope : Scoped t a b) (comes : Comes t a b Γ x y)
    (member : (x, y) ∈ Γ) : ¬t.IsInstance x ∧ ¬t.IsInstance y := by
  obtain ⟨left, right, -⟩ := inScope Γ x y comes (.inr member)
  refine ⟨fun ⟨i, entry⟩ => ?_, fun ⟨i, entry⟩ => ?_⟩
  · simp [flag, entry, TypeKind.flag] at left
  · simp [flag, entry, TypeKind.flag] at right

/-- Types that are equal and scoped are equal once every instantiated type is expanded. -/
theorem Similar.equivalent (tidy : t.Tidy) (distinct : t.DistinctProperties)
    (resolved : AllResolved t) (inScope : Scoped t a b) (similar : Similar t [] a b) :
    Equivalent t [] a b := by
  refine ⟨fun Γ x y => Comes t a b Γ x y ∧ Similar t Γ x y, ?_, .start, similar⟩
  rintro Γ x y ⟨comes, similar⟩
  by_cases instantiated : t.IsInstance x ∨ t.IsInstance y
  · obtain ⟨m, n, made, made', below⟩ :=
      similar.bodies tidy distinct resolved (inScope.outside comes) instantiated
    exact .bodies instantiated made made' ⟨comes.step (.bodies instantiated made made'), below⟩
  have rule := similar.unfold
  cases rule with
  | same equal =>
      subst equal
      have self (Δ : Pairs) (id : TypeId) : Similar t Δ id id := similar_iff.mpr (.same rfl)
      cases entry : t.kind x with
      | typeParameter =>
          have flag : t.flag x = .typeParameter := by rw [flag, entry, TypeKind.flag]
          exact .parameter flag flag (inScope Γ x x comes (.inl ⟨rfl, flag⟩)).2.2
      | generic | pending => exact .rigid rfl (by simp [flag, entry, TypeKind.flag])
      | primitive => exact .primitive entry entry
      | unknown => exact .unknown entry entry
      | instantiated i => exact absurd (.inl ⟨i, entry⟩) instantiated
      | object o =>
          refine .object entry entry ⟨rfl, fun name p listed => ?_⟩
          have found : o.property? name = some p :=
            Dictionary.find?_of_mem (distinct x o entry) listed
          exact ⟨p, found, rfl, comes.step (.property entry entry listed found), self _ _⟩
      | function f =>
          refine .function entry entry ⟨rfl, rfl, fun pair listed => ?_,
            comes.step (.result entry entry), self _ _⟩
          have equal : pair.1 = pair.2 := eq_of_mem_zip (f := fun p => p) rfl pair listed
          exact ⟨congrArg _ equal, comes.step (.parameter entry entry listed), equal ▸ self _ _⟩
  | corresponding member =>
      obtain ⟨left, right, correspond⟩ := inScope Γ x y comes (.inr member)
      exact .parameter left right correspond
  | primitive hx hy => exact .primitive hx hy
  | unknown hx hy => exact .unknown hx hy
  | object hx hy rule =>
      exact .object hx hy (rule.imp fun _ _ _ listed found related =>
        ⟨comes.step (.property hx hy listed found), related⟩)
  | function hx hy rule =>
      exact .function hx hy (rule.imp
        (fun _ listed related => ⟨comes.step (.parameter hx hy listed), related⟩)
        fun related => ⟨comes.step (.result hx hy), related⟩)
  | arguments hx => exact absurd (.inl ⟨_, hx⟩) instantiated
  | bodies instantiated' => exact absurd instantiated' instantiated

/-- Types that are equal once every instantiated type is expanded are equal, if the comparison
is faithful. -/
theorem Equivalent.similar (layered : ∀ id, Layered t id) (faithful : Faithful t a b)
    (equivalent : Equivalent t [] a b) : Similar t [] a b := by
  refine ⟨fun Γ x y => Comes t a b Γ x y ∧ Equivalent t Γ x y, ?_, .start, equivalent⟩
  rintro Γ x y ⟨comes, equivalent⟩
  have rule := equivalent.unfold
  cases rule with
  | parameter _ _ correspond =>
      exact correspond.eq_or_mem.elim .same .corresponding
  | rigid equal => exact .same equal
  | primitive hx hy => exact .primitive hx hy
  | unknown hx hy => exact .unknown hx hy
  | object hx hy rule =>
      exact .object hx hy (rule.imp fun _ _ _ listed found related =>
        ⟨comes.step (.property hx hy listed found), related⟩)
  | function hx hy rule =>
      exact .function hx hy (rule.imp
        (fun _ listed related => ⟨comes.step (.parameter hx hy listed), related⟩)
        fun related => ⟨comes.step (.result hx hy), related⟩)
  | @bodies m n instantiated hx hy related =>
      by_cases one : ∃ i j, t.kind x = .instantiated i ∧ t.kind y = .instantiated j ∧
          i.origin = j.origin
      · obtain ⟨i, j, entry, entry', origin⟩ := one
        refine .arguments entry entry' origin fun pair listed => ⟨?_, ?_⟩
        · exact comes.step (.argument entry entry' origin listed)
        · exact faithful Γ x y i j comes entry entry' origin m n hx hy related pair listed
      · refine .bodies instantiated (fun i j hi hj origin => one ⟨i, j, hi, hj, origin⟩) hx hy ?_
          ⟨comes.step (.bodies instantiated hx hy), related⟩
        rintro ⟨rfl, rfl⟩
        exact instantiated.elim ((layered _).plain_body hx) ((layered _).plain_body hy)

end Transitivity

/-- Structural equality is reflexive and symmetric, and it is transitive where the comparisons
stay in scope and the comparison of the first and the last type is faithful. -/
theorem equals_laws {t : TypeTable} (coherent : t.Coherent) (distinct : t.DistinctProperties)
    (resolved : AllResolved t) :
    (∀ a, t.equals a a = true) ∧ (∀ a b, t.equals a b = t.equals b a) ∧
      ∀ a b c, Scoped t a b → Scoped t b c → Faithful t a c →
        t.equals a b = true → t.equals b c = true → t.equals a c = true := by
  have turned (a b : TypeId) (equal : t.equals a b = true) : t.equals b a = true :=
    coherent.equals_iff.mpr ((coherent.equals_iff.mp equal).symm distinct)
  refine ⟨fun a => coherent.equals_iff.mpr (similar_iff.mpr (.same rfl)),
    fun a b => Bool.eq_iff_iff.mpr ⟨turned a b, turned b a⟩, ?_⟩
  intro a b c inScope inScope' faithful equal equal'
  have one := (coherent.equals_iff.mp equal).equivalent coherent.tidy distinct resolved inScope
  have two := (coherent.equals_iff.mp equal').equivalent coherent.tidy distinct resolved inScope'
  have linked : Linked [] [] := rfl
  have both : Equivalent t [] a c := one.trans coherent.layered linked two
  exact coherent.equals_iff.mpr (both.similar coherent.layered faithful)

/-- Two generic interfaces with the same body, an instance of each, and a variable of the type
that the instances are resolved to. -/
def boxAndCrate : List SourceFile :=
  [⟨"", [
    .ofInterface "Box" [.free "T"] [.required "value" (.named "T" [])],
    .ofInterface "Crate" [.free "T"] [.required "value" (.named "T" [])],
    .ofVariable "b" (some (.named "Box" [.ofKeyword .number])) none,
    .ofVariable "c" (some (.named "Crate" [.ofKeyword .number])) none,
    .ofVariable "o" (some (.ofMembers [.required "value" (.ofKeyword .number)])) none]⟩]

/-- The table after the check of `boxAndCrate`. -/
def boxAndCrateTable : TypeTable where
  entries := TypeTable.initial.entries ++
    #[.typeParameter "T" none, .object ⟨some "Box", ⟨[("value", ⟨7, false⟩)]⟩⟩,
      .generic ⟨"Box", [7], 8⟩,
      .typeParameter "T" none, .object ⟨some "Crate", ⟨[("value", ⟨10, false⟩)]⟩⟩,
      .generic ⟨"Crate", [10], 11⟩,
      .instantiated ⟨9, ⟨[("T", TypeId.number)]⟩⟩, .instantiated ⟨12, ⟨[("T", TypeId.number)]⟩⟩,
      .object ⟨none, ⟨[("value", ⟨TypeId.number, false⟩)]⟩⟩]
  resolved := .empty

/-- The table after the instances are resolved as well. -/
def resolvedBoxAndCrate : TypeTable where
  entries := boxAndCrateTable.entries ++
    #[.object ⟨none, ⟨[("value", ⟨TypeId.number, false⟩)]⟩⟩,
      .object ⟨none, ⟨[("value", ⟨TypeId.number, false⟩)]⟩⟩]
  resolved := ⟨[((9, [TypeId.number]), 16), ((12, [TypeId.number]), 17)]⟩

theorem coherent_resolvedBoxAndCrate : resolvedBoxAndCrate.Coherent := by
  obtain ⟨c, run, table⟩ : ∃ c, (Checker.new .default).step (declareAndCheck boxAndCrate) =
      (.ok (), c) ∧ c.table = boxAndCrateTable :=
    Checker.exists_step (by decide +kernel) (by decide +kernel)
  have coherent := table ▸ TypeTable.coherent_declareAndCheck run
  have box : boxAndCrateTable.Asked ((resolve 13).run boxAndCrateTable).2 := .resolve (by decide)
  have crate : ((resolve 13).run boxAndCrateTable).2.Asked
      ((resolve 14).run ((resolve 13).run boxAndCrateTable).2).2 := .resolve (by decide +kernel)
  have both : ((resolve 14).run ((resolve 13).run boxAndCrateTable).2).2 = resolvedBoxAndCrate := by
    decide +kernel
  exact both ▸ crate.coherent (box.coherent coherent)

/-- `Box<number>` is equal to `{ value: number }`, which is equal to `Crate<number>`. -/
theorem boxAndCrate_equal : resolvedBoxAndCrate.Coherent ∧ resolvedBoxAndCrate.DistinctProperties ∧
    AllResolved resolvedBoxAndCrate ∧ Scoped resolvedBoxAndCrate 13 15 ∧
    Scoped resolvedBoxAndCrate 15 14 ∧ Faithful resolvedBoxAndCrate 13 14 ∧
    resolvedBoxAndCrate.equals 13 15 = true ∧ resolvedBoxAndCrate.equals 15 14 = true ∧
    resolvedBoxAndCrate.equals 13 14 = true := by
  have among {id : TypeId} {kind : TypeKind} (entry : resolvedBoxAndCrate.kind id = kind)
      (known : kind ≠ .unknown) : kind ∈ resolvedBoxAndCrate.entries :=
    mem_entries_of_kind entry known
  simp only [resolvedBoxAndCrate, boxAndCrateTable, TypeTable.initial, Array.mem_append,
    List.mem_toArray, List.mem_cons, List.not_mem_nil, or_false] at among
  have distinct : resolvedBoxAndCrate.DistinctProperties := by
    intro id o entry
    have shapes : o.properties.keys = ["value"] := by
      have listed := among entry (by simp)
      aesop
    simp [Dictionary.Distinct, shapes]
  have resolved : AllResolved resolvedBoxAndCrate := .of_entries (by decide)
  have ungeneric (a b : TypeId) : Scoped resolvedBoxAndCrate a b := by
    refine .of_ungeneric fun m f _ entry => ?_
    have listed := among entry (by simp)
    simp at listed
  have faithful : Faithful resolvedBoxAndCrate 13 14 := by
    refine .of_origins fun x y i j meets meets' left right => ?_
    have one := mem_of_meets [13, 16, TypeId.number] (by decide) (by decide) meets
    have two := mem_of_meets [14, 17, TypeId.number] (by decide) (by decide) meets'
    have box : i.origin = 9 := by
      simp only [List.mem_cons, List.not_mem_nil, or_false] at one
      rcases one with rfl | rfl | rfl
      all_goals cases left
      rfl
    have crate : j.origin = 12 := by
      simp only [List.mem_cons, List.not_mem_nil, or_false] at two
      rcases two with rfl | rfl | rfl
      all_goals cases right
      rfl
    rw [box, crate]
    decide
  have one : resolvedBoxAndCrate.equals 13 15 = true := by decide +kernel
  have two : resolvedBoxAndCrate.equals 15 14 = true := by decide +kernel
  exact ⟨coherent_resolvedBoxAndCrate, distinct, resolved, ungeneric _ _, ungeneric _ _, faithful,
    one, two, (equals_laws coherent_resolvedBoxAndCrate distinct resolved).2.2 13 15 14
      (ungeneric _ _) (ungeneric _ _) faithful one two⟩

/-- Two functions that each give back a value of an interface of their own, which has a generic
method with a parameter of the type of the function around. -/
def rebinding : List SourceFile :=
  let declaring (name parameter : String) : Statement :=
    .ofFunction name [.free parameter] [.required "x" (some (.named parameter []))] none [
      .ofInterface "L" [] [.required "m"
        (.ofSignature [.free "U"] [.required "y" (some (.named parameter []))] (.named "L" []))],
      .ofVariable "l" (some (.named "L" [])) none,
      .ofReturn (some (.ofName "l"))]
  [⟨"", [declaring "f" "T", declaring "h" "V"]⟩]

/-- The table after the check of `rebinding`. -/
def rebindingTable : TypeTable where
  entries := TypeTable.initial.entries ++
    #[.typeParameter "T" none, .typeParameter "V" none,
      .object ⟨some "L", ⟨[("m", ⟨11, false⟩)]⟩⟩, .typeParameter "U" none,
      .function ⟨[10], [⟨"y", 7, false⟩], 9⟩, .function ⟨[7], [⟨"x", 7, false⟩], 9⟩,
      .object ⟨some "L", ⟨[("m", ⟨15, false⟩)]⟩⟩, .typeParameter "U" none,
      .function ⟨[14], [⟨"y", 8, false⟩], 13⟩, .function ⟨[8], [⟨"x", 8, false⟩], 13⟩]
  resolved := .empty

/-- An interface that ignores its type parameter, two instances of it, and a variable of the type
that both are resolved to. -/
def ignoring : List SourceFile :=
  [⟨"", [
    .ofInterface "P" [.free "T"] [.required "x" (.ofKeyword .number)],
    .ofVariable "a" (some (.named "P" [.ofKeyword .number])) none,
    .ofVariable "b" (some (.ofMembers [.required "x" (.ofKeyword .number)])) none,
    .ofVariable "c" (some (.named "P" [.ofKeyword .string])) none]⟩]

/-- The table after the check of `ignoring`. -/
def ignoringTable : TypeTable where
  entries := TypeTable.initial.entries ++
    #[.typeParameter "T" none, .object ⟨some "P", ⟨[("x", ⟨TypeId.number, false⟩)]⟩⟩,
      .generic ⟨"P", [7], 8⟩, .instantiated ⟨9, ⟨[("T", TypeId.number)]⟩⟩,
      .object ⟨none, ⟨[("x", ⟨TypeId.number, false⟩)]⟩⟩,
      .instantiated ⟨9, ⟨[("T", TypeId.string)]⟩⟩]
  resolved := .empty

/-- The methods of the two interfaces differ, but each of them is equal to the functions around,
since `T` stands for itself also where `U` is declared in its place. Two instances of an
interface that ignores its type parameter differ, but both are equal to their body. -/
theorem equals_not_transitive :
    (∃ c, (Checker.new .default).step (declareAndCheck rebinding) = (.ok (), c) ∧
      AllResolved c.table ∧ c.table.equals 11 12 = true ∧ c.table.equals 12 16 = true ∧
        c.table.equals 11 16 = false) ∧
    ∃ c t u, (Checker.new .default).step (declareAndCheck ignoring) = (.ok (), c) ∧
      c.table.Asked t ∧ t.Asked u ∧ AllResolved u ∧ u.equals 10 11 = true ∧
        u.equals 11 12 = true ∧ u.equals 10 12 = false := by
  constructor
  · obtain ⟨c, run, table⟩ : ∃ c, (Checker.new .default).step (declareAndCheck rebinding) =
        (.ok (), c) ∧ c.table = rebindingTable :=
      Checker.exists_step (by decide +kernel) (by decide +kernel)
    refine ⟨c, run, ?_⟩
    rw [table]
    exact ⟨.of_entries (by decide), by decide +kernel, by decide +kernel, by decide +kernel⟩
  · obtain ⟨c, run, table⟩ : ∃ c, (Checker.new .default).step (declareAndCheck ignoring) =
        (.ok (), c) ∧ c.table = ignoringTable :=
      Checker.exists_step (by decide +kernel) (by decide +kernel)
    refine ⟨c, ((resolve 10).run ignoringTable).2,
      ((resolve 12).run ((resolve 10).run ignoringTable).2).2, run, ?_⟩
    rw [table]
    exact ⟨.resolve (by decide), .resolve (by decide +kernel), .of_entries (by decide +kernel),
      by decide +kernel, by decide +kernel, by decide +kernel⟩

end StructuralTyping.Equality
