import Mathlib.Data.List.Perm.Subperm
import StructuralTyping.Proofs.DerivedEntries

/-! What the constructors of types accept. An object type is accepted exactly when its
properties have different names. The bindings of an instance go by the names of the type
parameters, so they are only as good as these names are different: then bindings are
accepted for all declared names, and an accepted instance binds exactly these, in the
order of the declaration. An entry changes only where a declaration is completed. -/
namespace StructuralTyping

namespace Dictionary

variable {κ : Type u} {α : Type v} [DecidableEq κ]

theorem contains_iff (d : Dictionary κ α) (key : κ) : d.contains key = true ↔ key ∈ d.keys := by
  have absent := find?_eq_none_iff d key
  rw [contains, Option.isSome_iff_ne_none]
  exact (not_congr absent).trans Decidable.not_not

theorem insertIn_of_not_mem {key : κ} {value : α} {pairs : List (κ × α)}
    (absent : key ∉ pairs.map Prod.fst) : insertIn key value pairs = pairs ++ [(key, value)] := by
  induction pairs with
  | nil => rfl
  | cons pair rest ih =>
      obtain ⟨apart, absent⟩ := not_or.mp (List.mem_cons.not.mp absent)
      rw [insertIn, if_neg (Ne.symm apart), ih absent, List.cons_append]

/-- A list without repeated keys is a dictionary as it stands. -/
theorem pairs_ofList {pairs : List (κ × α)} (distinct : (pairs.map Prod.fst).Nodup) :
    (ofList pairs).pairs = pairs := by
  suffices grown : ∀ d : Dictionary κ α, (d.keys ++ pairs.map Prod.fst).Nodup →
      (pairs.foldl (fun d pair => d.insert pair.1 pair.2) d).pairs = d.pairs ++ pairs from
    grown empty distinct
  clear distinct
  induction pairs with
  | nil => exact fun d _ => (List.append_nil _).symm
  | cons pair rest ih =>
      intro d distinct
      have new : pair.1 ∉ d.keys := fun known =>
        (List.nodup_append.mp distinct).2.2 _ known _ List.mem_cons_self rfl
      have inserted : d.insert pair.1 pair.2 = ⟨d.pairs ++ [pair]⟩ :=
        congrArg Dictionary.mk (insertIn_of_not_mem new)
      rw [List.foldl_cons, inserted, ih]
      · exact List.append_assoc _ _ _
      · simpa [keys] using distinct

theorem contains_ofList (pairs : List (κ × α)) (key : κ) :
    (ofList pairs).contains key = true ↔ key ∈ pairs.map Prod.fst := by
  suffices grown : ∀ d : Dictionary κ α,
      (pairs.foldl (fun d pair => d.insert pair.1 pair.2) d).contains key = true ↔
        d.contains key = true ∨ key ∈ pairs.map Prod.fst from
    (grown empty).trans (or_iff_right Bool.false_ne_true)
  induction pairs with
  | nil => exact fun _ => (or_iff_left List.not_mem_nil).symm
  | cons pair rest ih =>
      intro d
      rw [List.foldl_cons, ih, contains_insert, Bool.or_eq_true, decide_eq_true_eq, List.map_cons,
        List.mem_cons, eq_comm]
      tauto

/-- The keys of a dictionary come from the list it was made of. -/
theorem mem_keys_ofList {pairs : List (κ × α)} {key : κ} (member : key ∈ (ofList pairs).keys) :
    key ∈ pairs.map Prod.fst :=
  (contains_ofList pairs key).mp ((contains_iff _ key).mpr member)

/-- A list that fills a dictionary of its own length repeats no key. -/
theorem distinct_of_size_ofList {pairs : List (κ × α)}
    (size : (ofList pairs).size = pairs.length) : (pairs.map Prod.fst).Nodup := by
  have contained : (ofList pairs).keys.Subperm (pairs.map Prod.fst) :=
    List.subperm_of_subset (distinct_ofList pairs) fun _ => mem_keys_ofList
  have same := contained.perm_of_length_le (by simpa [keys, Dictionary.size] using Nat.le_of_eq size.symm)
  exact same.nodup_iff.mp (distinct_ofList pairs)

/-- Looking up every key gives back the pairs. -/
theorem filterMap_find?_ofList {pairs : List (κ × α)} (distinct : (pairs.map Prod.fst).Nodup) :
    ((pairs.map Prod.fst).filterMap fun key => ((ofList pairs).find? key).map fun v => (key, v)) =
      pairs := by
  have found : ∀ pair ∈ pairs,
      ((ofList pairs).find? pair.1).map (fun v => (pair.1, v)) = some pair := by
    intro pair member
    rw [find?, pairs_ofList distinct, findIn?_of_mem distinct member]
    rfl
  rw [List.filterMap_map]
  exact (List.filterMap_congr found).trans List.filterMap_some

end Dictionary

namespace ObjectType

/-- No name repeats if the names differ from each other and from those before. -/
theorem firstRepeated_eq_none_iff (seen : List String) (properties : List (String × Property)) :
    firstRepeated seen properties = none ↔
      (properties.map Prod.fst).Nodup ∧ ∀ name ∈ properties.map Prod.fst, name ∉ seen := by
  induction properties generalizing seen with
  | nil => simp [firstRepeated]
  | cons property rest ih =>
      obtain ⟨name, property⟩ := property
      by_cases known : name ∈ seen
      · simp [firstRepeated, known]
      · simp only [firstRepeated, List.contains_eq_mem, known, decide_false, Bool.false_eq_true,
          if_false, ih, List.map_cons, List.nodup_cons, List.mem_cons, not_or]
        grind

theorem ofProperties_eq_ok_iff (name : Option String) (properties : List (String × Property))
    (o : ObjectType) :
    ofProperties name properties = .ok o ↔
      (properties.map Prod.fst).Nodup ∧ o = ⟨name, ⟨properties⟩⟩ := by
  have distinct := firstRepeated_eq_none_iff [] properties
  unfold ofProperties
  cases repeated : firstRepeated [] properties with
  | some found => simp_all
  | none => simp_all [eq_comm]

end ObjectType

namespace TypeKind

/-- What may fill a reserved entry. An object type is built from properties whose names
are different. -/
def Fills : TypeKind → Prop
  | object o => o.properties.Distinct
  | function _ => True
  | unknown => True
  | _ => False

/-- How an entry may change: a type parameter gets a constraint, or a reserved entry is
filled. -/
inductive Settles : TypeKind → TypeKind → Prop
  | constraint (name : String) (before after : Option TypeId) :
      Settles (typeParameter name before) (typeParameter name after)
  | body {kind : TypeKind} : kind.Fills → Settles pending kind

namespace Settles

variable {old new : TypeKind} (settles : Settles old new)

include settles

/-- Generic interfaces and instances do not change, and nothing becomes one. -/
theorem stable : (∀ g, old ≠ .generic g ∧ new ≠ .generic g) ∧
    ∀ i, old ≠ .instantiated i ∧ new ≠ .instantiated i := by
  cases settles with
  | constraint => simp
  | body fills => cases new <;> simp_all [Fills]

theorem ne_basic : (∀ name, old ≠ .primitive name) ∧ old ≠ .unknown := by
  cases settles <;> simp

theorem not_object (o : ObjectType) : old ≠ .object o := by
  cases settles <;> simp

theorem distinct {o : ObjectType} (isObject : new = .object o) : o.properties.Distinct := by
  subst isObject
  cases settles with
  | body fills => exact fills

/-- No entry becomes reserved. -/
theorem built : new ≠ .pending := by
  cases settles with
  | constraint => simp
  | body fills =>
      rintro rfl
      exact fills

/-- A type parameter keeps its name. -/
theorem typeParameter {name : String} {before : Option TypeId}
    (isParameter : old = .typeParameter name before) : ∃ after, new = .typeParameter name after := by
  subst isParameter
  cases settles with
  | constraint _ _ after => exact ⟨after, rfl⟩

omit settles

section Tables
variable {t t' : TypeTable}
  (each : ∀ id, t'.kind id = t.kind id ∨ (t.kind id).Settles (t'.kind id)) {id : TypeId}

include each

theorem generic_iff {g : GenericType} : t'.kind id = .generic g ↔ t.kind id = .generic g := by
  rcases each id with same | settles
  · rw [same]
  · exact iff_of_false (settles.stable.1 g).2 (settles.stable.1 g).1

theorem instantiated_iff {i : InstantiatedType} :
    t'.kind id = .instantiated i ↔ t.kind id = .instantiated i := by
  rcases each id with same | settles
  · rw [same]
  · exact iff_of_false (settles.stable.2 i).2 (settles.stable.2 i).1

end Tables

end Settles

end TypeKind

namespace TypeTable

/-- Changes of entries that settle declarations keep the table well-formed. -/
theorem WellFormed.settle {t t' : TypeTable} (wellFormed : t.WellFormed) (size : t'.size = t.size)
    (resolved : t'.resolved = t.resolved)
    (each : ∀ id, t'.kind id = t.kind id ∨
      (t.kind id).Settles (t'.kind id) ∧ ∀ m ∈ (t'.kind id).mentions, m < t.size) :
    t'.WellFormed := by
  have settled (id : TypeId) := (each id).imp_right And.left
  refine ⟨fun id inside m mentioned => ?_, fun id inside i entry => ?_,
    fun id inside i entry => ?_, ?_⟩
  · rw [size] at inside ⊢
    rcases each id with same | ⟨-, mentions⟩
    · exact wellFormed.mentions id inside m (same ▸ mentioned)
    · exact mentions m mentioned
  · obtain ⟨g, origin⟩ := wellFormed.origin id (size ▸ inside) i
      ((TypeKind.Settles.instantiated_iff settled).mp entry)
    exact ⟨g, (TypeKind.Settles.generic_iff settled).mpr origin⟩
  · exact wellFormed.precede id (size ▸ inside) i
      ((TypeKind.Settles.instantiated_iff settled).mp entry)
  · rw [resolved, size]
    exact wellFormed.remembered

section Bindings
variable {declared : List String} {supplied : Dictionary String TypeId}

theorem pairs_filterMap_find? (known : ∀ name ∈ declared, name ∈ supplied.keys) :
    (declared.filterMap fun name => (supplied.find? name).map fun id => (name, id)).map Prod.fst =
      declared := by
  induction declared with
  | nil => rfl
  | cons name rest ih =>
      obtain ⟨here, later⟩ := List.forall_mem_cons.mp known
      obtain ⟨id, found⟩ : ∃ id, supplied.find? name = some id :=
        Option.isSome_iff_exists.mp ((Dictionary.contains_iff supplied name).mpr here)
      simp [found, ih later]

/-- Bindings that are accepted bind the declared names, in their order, if these are
different. -/
theorem keys_orderBindings {origin : String} {ordered : Dictionary String TypeId}
    (distinct : declared.Nodup) (accepted : orderBindings origin declared supplied = .ok ordered) :
    ordered.keys = declared := by
  unfold orderBindings at accepted
  split at accepted
  · simp at accepted
  · split at accepted
    · next all =>
        have known : ∀ name ∈ declared, name ∈ supplied.keys := fun name member =>
          (Dictionary.contains_iff supplied name).mp (List.all_eq_true.mp all name member)
        have names := pairs_filterMap_find? known
        have listed := Dictionary.pairs_ofList (names.symm ▸ distinct)
        rw [← Except.ok.inj accepted, Dictionary.keys, listed, names]
    · simp at accepted

/-- What ordered bindings bind names to comes from the supplied bindings. -/
theorem values_orderBindings {origin : String} {ordered : Dictionary String TypeId} {id : TypeId}
    (accepted : orderBindings origin declared supplied = .ok ordered) (bound : id ∈ ordered.values) :
    id ∈ supplied.values := by
  unfold orderBindings at accepted
  split at accepted
  · simp at accepted
  · split at accepted
    · rw [← Except.ok.inj accepted] at bound
      obtain ⟨⟨name, value⟩, member, rfl⟩ := List.mem_map.mp (Dictionary.mem_values_ofList bound)
      obtain ⟨declaredName, -, mapped⟩ := List.mem_filterMap.mp member
      obtain ⟨id, found, same⟩ := Option.map_eq_some_iff.mp mapped
      obtain ⟨rfl, rfl⟩ := Prod.mk.inj same
      exact List.mem_map_of_mem (Dictionary.mem_of_find? found)
    · simp at accepted

/-- Bindings that are accepted for as many arguments as there are names bind the names to
the arguments in their order. -/
theorem orderBindings_zip {origin : String} {ordered : Dictionary String TypeId}
    {arguments : List TypeId} (count : arguments.length = declared.length)
    (accepted : orderBindings origin declared (.ofList (declared.zip arguments)) = .ok ordered) :
    ordered.pairs = declared.zip arguments := by
  have names : (declared.zip arguments).map Prod.fst = declared :=
    List.map_fst_zip (Nat.le_of_eq count.symm)
  unfold orderBindings at accepted
  split at accepted
  · simp at accepted
  · next size =>
      have length : (declared.zip arguments).length = declared.length := by simp [count]
      have distinct := Dictionary.distinct_of_size_ofList ((not_not.mp size).trans length.symm)
      have listed := Dictionary.filterMap_find?_ofList distinct
      rw [names] at listed
      split at accepted
      · rw [← Except.ok.inj accepted, listed]
        exact Dictionary.pairs_ofList distinct
      · simp at accepted

/-- Bindings for all declared names are accepted. -/
theorem orderBindings_accepts (origin : String) {bindings : List (String × TypeId)}
    (names : bindings.map Prod.fst = declared) (distinct : declared.Nodup) :
    ∃ ordered, orderBindings origin declared (.ofList bindings) = .ok ordered := by
  have listed : (Dictionary.ofList bindings).pairs = bindings :=
    Dictionary.pairs_ofList (names ▸ distinct)
  have keys : (Dictionary.ofList bindings).keys = declared := by
    rw [Dictionary.keys, listed, names]
  have size : (Dictionary.ofList bindings).size = declared.length := by
    rw [← keys, Dictionary.keys, List.length_map, Dictionary.size]
  have all : declared.all (Dictionary.ofList bindings).contains = true :=
    List.all_eq_true.mpr fun name member =>
      (Dictionary.contains_iff _ name).mpr (keys.symm ▸ member)
  unfold orderBindings
  rw [if_neg (not_not.mpr size), if_pos all]
  exact ⟨_, rfl⟩

end Bindings

/-- Arguments go by the names of the parameters at their places. -/
theorem filterMap_typeParameter {t : TypeTable} {parameters : List TypeId}
    (typed : ∀ p ∈ parameters, ∃ name constraint, t.kind p = .typeParameter name constraint)
    (arguments : List TypeId) :
    ((parameters.zip arguments).filterMap fun (parameter, argument) =>
      match t.kind parameter with
      | .typeParameter name _ => some (name, argument)
      | _ => none) = (parameters.map t.typeParameterName).zip arguments := by
  induction parameters generalizing arguments with
  | nil => rfl
  | cons parameter rest ih =>
      obtain ⟨⟨name, constraint, entry⟩, typed⟩ := List.forall_mem_cons.mp typed
      cases arguments with
      | nil => rfl
      | cons argument arguments =>
          simp only [List.zip_cons_cons, List.filterMap_cons, entry, List.map_cons, ih typed,
            typeParameterName]

/-- An entry was there or is what was added. -/
theorem entry_add {t : TypeTable} {kind kind' : TypeKind} {id : TypeId}
    (entry : (t.add kind).2.kind id = kind') (known : kind' ≠ .unknown) :
    t.kind id = kind' ∨ kind = kind' := by
  have inside : id < t.size + 1 := by simpa using lt_size_of_kind entry known
  rcases Nat.lt_succ_iff_lt_or_eq.mp inside with before | rfl
  · exact .inl ((kind_add_of_lt before kind).symm.trans entry)
  · exact .inr ((kind_add_size t kind).symm.trans entry)

/-- A generic interface has type parameters, with different names. -/
structure Headed (t : TypeTable) (g : GenericType) : Prop where
  parameters : ∀ p ∈ g.typeParameters, ∃ name constraint, t.kind p = .typeParameter name constraint
  distinct : (g.typeParameters.map t.typeParameterName).Nodup

theorem Headed.congr {t t' : TypeTable} {g : GenericType} (headed : t.Headed g)
    (parameters : ∀ p ∈ g.typeParameters, ∃ constraint,
      t'.kind p = .typeParameter (t.typeParameterName p) constraint) : t'.Headed g where
  parameters p member := ⟨_, parameters p member⟩
  distinct := by
    have same : g.typeParameters.map t'.typeParameterName =
        g.typeParameters.map t.typeParameterName :=
      List.map_congr_left fun p member => by
        obtain ⟨constraint, entry⟩ := parameters p member
        rw [typeParameterName, entry]
    exact same ▸ headed.distinct

/-- A generic interface takes arguments for all its parameters. -/
theorem addInstantiated_accepts {t : TypeTable} {origin : TypeId} {g : GenericType}
    (generic : t.kind origin = .generic g) (headed : t.Headed g)
    {bindings : List (String × TypeId)}
    (names : bindings.map Prod.fst = g.typeParameters.map t.typeParameterName) :
    ∃ ordered, t.addInstantiated origin bindings =
      .ok (t.add (.instantiated ⟨origin, ordered⟩)) := by
  obtain ⟨ordered, accepted⟩ := orderBindings_accepts g.name names headed.distinct
  refine ⟨ordered, ?_⟩
  rw [addInstantiated, generic]
  simp only [accepted]
  rfl

/-- Arguments that are accepted for all parameters become the values of the bindings. -/
theorem addInstantiated_eq {t t' : TypeTable} {origin id : TypeId} {g : GenericType}
    (generic : t.kind origin = .generic g) {arguments : List TypeId}
    (count : arguments.length = g.typeParameters.length)
    (built : t.addInstantiated origin ((g.typeParameters.map t.typeParameterName).zip arguments) =
      .ok (id, t')) :
    ∃ ordered : Dictionary String TypeId, ordered.values = arguments ∧
      t' = (t.add (.instantiated ⟨origin, ordered⟩)).2 := by
  rw [addInstantiated, generic] at built
  cases accepted : orderBindings g.name (g.typeParameters.map t.typeParameterName)
      (.ofList ((g.typeParameters.map t.typeParameterName).zip arguments)) with
  | error cause => simp [accepted, bind, Except.bind] at built
  | ok ordered =>
      simp only [accepted, bind, Except.bind] at built
      obtain ⟨-, rfl⟩ := Prod.mk.inj (Except.ok.inj built)
      refine ⟨ordered, ?_, rfl⟩
      rw [Dictionary.values, orderBindings_zip (by simp [count]) accepted]
      exact List.map_snd_zip (by simp [count])

end TypeTable

end StructuralTyping
