import StructuralTyping.Proofs.InstantiatedSignatures
import StructuralTyping.Proofs.ReplacedTypes
import StructuralTyping.Proofs.TableIntegrity

/-! Inference after substitution. Matching the parameter types of a function against what
they become when its type parameters are replaced finds the types that were chosen, up to
one thing: a type that the replacement leaves as it is equals its pattern, and matching does
not look into such a pattern. -/
namespace StructuralTyping

open TableM (Yields)
open TypeTable

namespace TypeTable

/-- At most this many types that have to do with the type parameters are nested. -/
inductive Nests (t : TypeTable) (bound : TypeId → Prop) : Nat → TypeId → Prop where
  | parameter {levels : Nat} {p : TypeId} (isBound : bound p) : Nests t bound levels p
  | unconcerned {levels : Nat} {id : TypeId} (unconcerned : t.Unconcerned bound id) :
      Nests t bound levels id
  | composite {levels : Nat} {id : TypeId}
      (parts : ∀ m ∈ (t.kind id).parts, Nests t bound levels m) : Nests t bound (levels + 1) id

/-- On the way down to the type parameter, the bindings affect every type that is met. -/
inductive Exposed (t : TypeTable) (bindings : Bindings) (p : TypeId) : TypeId → Prop where
  | itself (bound : bindings.contains p = true) : Exposed t bindings p p
  | part {id m : TypeId} (unbound : bindings.find? id = none) (affected : t.Affected bindings id)
      (part : m ∈ (t.kind id).parts) (inside : Exposed t bindings p m) : Exposed t bindings p id

variable {t t' : TypeTable} {bound : TypeId → Prop} {bindings : Bindings} {levels : Nat}
  {id p : TypeId}

namespace Nests

theorem succ (nests : t.Nests bound levels id) : t.Nests bound (levels + 1) id := by
  induction nests with
  | parameter isBound => exact .parameter isBound
  | unconcerned unconcerned => exact .unconcerned unconcerned
  | composite _ ih => exact .composite ih

theorem «extends» (wellFormed : t.WellFormed) (extended : t.Extends t')
    (nests : t.Nests bound levels id) (inside : id < t.size) : t'.Nests bound levels id := by
  induction nests with
  | parameter isBound => exact .parameter isBound
  | unconcerned unconcerned =>
      exact .unconcerned (unconcerned.of_extends wellFormed extended inside)
  | composite _ ih =>
      refine .composite fun m part => ?_
      rw [extended.kind _ inside] at part
      exact ih m part (wellFormed.part inside part)

/-- A type that is affected and nests only so deep is not met again on the way down. -/
theorem not_recursive (chosen : ∀ p, bindings.contains p = true ↔ bound p)
    (parameters : ∀ p, bound p → t.flag p = .typeParameter) (nests : t.Nests bound levels id)
    (affected : t.Affected bindings id) : ¬t.Recursive id := by
  induction nests with
  | parameter isBound =>
      intro recursive
      obtain ⟨m, part, -⟩ := Relation.TransGen.head'_iff.mp recursive
      rw [(TypeKind.leaf_of_typeParameter (parameters _ isBound)).1] at part
      exact List.not_mem_nil part
  | unconcerned unconcerned =>
      exact absurd affected (unconcerned.mono fun p => (chosen p).mp).not_affected
  | composite _ ih =>
      intro recursive
      obtain ⟨m, part, reached⟩ := Relation.TransGen.head'_iff.mp recursive
      obtain ⟨n, below, concerned⟩ := affected
      exact ih m part ⟨n, reached.trans below, concerned⟩ (.tail' reached part)

theorem of_reaches (parameters : ∀ p, bound p → t.flag p = .typeParameter)
    (nests : t.Nests bound levels id) {m : TypeId} (reached : t.Reaches id m) :
    t.Nests bound levels m := by
  induction nests with
  | @parameter _ p isBound =>
      rcases Relation.ReflTransGen.cases_head reached with rfl | ⟨n, part, -⟩
      · exact .parameter isBound
      · rw [(TypeKind.leaf_of_typeParameter (parameters p isBound)).1] at part
        exact absurd part List.not_mem_nil
  | unconcerned unconcerned => exact .unconcerned (unconcerned.of_reaches reached)
  | composite parts ih =>
      rcases Relation.ReflTransGen.cases_head reached with rfl | ⟨n, part, further⟩
      · exact .composite parts
      · exact (ih n part further).succ

end Nests

theorem Exposed.extends_iff (wellFormed : t.WellFormed) (extended : t.Extends t')
    (inside : id < t.size) : t'.Exposed bindings p id ↔ t.Exposed bindings p id := by
  constructor
  · intro exposed
    induction exposed with
    | itself bound => exact .itself bound
    | part unbound affected part _ ih =>
        rw [extended.kind _ inside] at part
        exact .part unbound ((Affected.extends_iff wellFormed extended inside).mp affected) part
          (ih (wellFormed.part inside part))
  · intro exposed
    induction exposed with
    | itself bound => exact .itself bound
    | part unbound affected part _ ih =>
        have further := ih (wellFormed.part inside part)
        rw [← extended.kind _ inside] at part
        exact .part unbound ((Affected.extends_iff wellFormed extended inside).mpr affected) part
          further

theorem equals_self (id : TypeId) : t.equals id id = true := by
  obtain ⟨depth, positive⟩ : ∃ depth, Equality.searchDepth t = depth + 1 :=
    Nat.exists_eq_succ_of_ne_zero (Nat.ne_of_gt (Nat.pow_pos (Nat.succ_pos _)))
  rw [equals, positive, Equality.equalWithin, if_pos (.inl rfl)]
  rfl

/-- What is exposed occurs. -/
theorem Exposed.reaches (exposed : t.Exposed bindings p id) : t.Reaches id p := by
  induction exposed with
  | itself => exact .refl
  | part _ _ part _ ih => exact ih.head part

/-- A type parameter that is bound to another type is exposed wherever it occurs. -/
theorem Exposed.of_reaches (leaves : ∀ p, bindings.contains p = true → t.flag p = .typeParameter)
    (bound : bindings.contains p = true) (moved : bindings.find? p ≠ some p)
    (reached : t.Reaches id p) : t.Exposed bindings p id := by
  obtain ⟨b, found⟩ := Option.isSome_iff_exists.mp bound
  have concerned : t.Concerned bindings p :=
    .inl ⟨b, found, fun same => moved (same ▸ found)⟩
  induction reached using Relation.ReflTransGen.head_induction_on with
  | refl => exact .itself bound
  | @head id m part further ih =>
      refine .part ?_ ⟨p, further.head part, concerned⟩ part ih
      by_contra bound
      have leaf := leaves id (Option.ne_none_iff_isSome.mp bound)
      rw [(TypeKind.leaf_of_typeParameter leaf).1] at part
      exact List.not_mem_nil part

end TypeTable

namespace Inference

variable {t : TypeTable} {i i' i'' : Inference} {bindings : Bindings} {parameters : List TypeId}
  {levels : Nat} {pattern actual : TypeId}

section Runs

theorem MatchM.run_table_bind {α : Type} (k : TypeTable → MatchM α) :
    (MatchM.table >>= k).run.run (t, i) = (k t).run.run (t, i) := rfl

theorem MatchM.run_inference_bind {α : Type} (k : Inference → MatchM α) :
    (MatchM.inference >>= k).run.run (t, i) = (k i).run.run (t, i) := rfl

theorem run_matchWithin (fuel : Nat) (pattern actual : TypeId) :
    (matchWithin (fuel + 1) pattern actual).run.run (t, i) =
      if t.isWildcard actual = true then (.ok (), t, i)
      else if pattern ∈ i.typeParameters then (matchParameter pattern actual).run.run (t, i)
      else if pattern = actual ∨ (pattern, actual) ∈ i.visiting then (.ok (), t, i)
      else if depthLimit ≤ i.visiting.length then (.ok (), t, i)
      else (MatchM.within pattern actual
        (matchStructure (matchWithin fuel) pattern actual)).run.run (t, i) := by
  rw [matchWithin_succ, MatchM.run_table_bind]
  by_cases wildcard : t.isWildcard actual = true
  · rw [if_pos wildcard, if_pos wildcard]
    rfl
  · rw [if_neg wildcard, if_neg wildcard, MatchM.run_inference_bind]
    split_ifs <;> rfl

theorem run_matchParameter (parameter actual : TypeId) :
    (matchParameter parameter actual).run.run (t, i) =
      match i.bindings.find? parameter with
      | none => (.ok (), t, { i with bindings := i.bindings.insert parameter actual })
      | some first =>
          if t.equals first actual = true then (.ok (), t, i)
          else (.error (.inconsistent parameter first actual), t, i) := by
  rw [matchParameter, MatchM.run_inference_bind]
  cases i.bindings.find? parameter with
  | none => rfl
  | some first =>
      dsimp only
      rw [MatchM.run_table_bind]
      split_ifs <;> rfl

theorem matchAll_concat (matchPair : TypeId → TypeId → MatchM Unit)
    (pairs : List (TypeId × TypeId)) (last : TypeId × TypeId) :
    matchAll matchPair (pairs ++ [last]) = (do
      matchAll matchPair pairs
      matchPair last.1 last.2) := by
  induction pairs with
  | nil => simp [matchAll]
  | cons pair rest ih => simp [matchAll, ih]

/-- Properties of the same names in the same order correspond by position. -/
theorem filterMap_property? {o : ObjectType} : ∀ {ps qs : List (String × Property)},
    ps.map Prod.fst = qs.map Prod.fst → (∀ q ∈ qs, o.property? q.1 = some q.2) →
      ps.filterMap (fun (name, x) => (o.property? name).map fun y => (x.type, y.type)) =
        (ps.map fun p => p.2.type).zip (qs.map fun q => q.2.type)
  | [], [], _, _ => rfl
  | [], _ :: _, names, _ => nomatch names
  | _ :: _, [], names, _ => nomatch names
  | (name, x) :: ps, (name', y) :: qs, names, found => by
      obtain ⟨rfl, later⟩ := List.cons.inj names
      obtain ⟨here, others⟩ := List.forall_mem_cons.mp found
      have rest := filterMap_property? later others
      simp only [List.filterMap_cons, here, Option.map_some, List.map_cons, List.zip_cons_cons,
        rest]

/-- Types of one shape are matched part by part. -/
theorem run_matchStructure (matchPair : TypeId → TypeId → MatchM Unit)
    (shape : (t.kind actual).shape = (t.kind pattern).shape)
    (distinct : ∀ o, t.kind actual = .object o → o.properties.Distinct) :
    (matchStructure matchPair pattern actual).run.run (t, i) =
      (matchAll matchPair ((t.kind pattern).parts.zip (t.kind actual).parts)).run.run (t, i) := by
  rw [matchStructure, MatchM.run_table_bind]
  have flag := congrArg TypeKind.flag shape
  rw [TypeKind.flag_shape, TypeKind.flag_shape] at flag
  cases isPattern : t.kind pattern with
  | object p =>
      cases isActual : t.kind actual with
      | object a =>
          rw [isPattern, isActual] at shape
          have names := congrArg Dictionary.keys (ObjectType.mk.inj (TypeKind.object.inj shape)).2
          rw [Dictionary.keys_mapValues, Dictionary.keys_mapValues] at names
          dsimp only
          rw [filterMap_property? names.symm fun q member =>
            Dictionary.findIn?_of_mem (distinct a isActual) member]
          simp [TypeKind.parts, Dictionary.values, Function.comp_def]
      | _ => simp [isPattern, isActual, TypeKind.flag] at flag
  | function p =>
      cases isActual : t.kind actual with
      | function a =>
          rw [isPattern, isActual] at shape
          have count := congrArg List.length (FunctionType.mk.inj (TypeKind.function.inj shape)).2.1
          simp only [List.length_map] at count
          rw [TypeKind.parts, TypeKind.parts, List.zip_append (by simpa using count.symm),
            List.zip_map]
          exact congrArg (fun m => m.run.run (t, i)) (matchAll_concat matchPair _ (_, _)).symm
      | _ => simp [isPattern, isActual, TypeKind.flag] at flag
  | instantiated p =>
      cases isActual : t.kind actual with
      | instantiated a =>
          rw [isPattern, isActual] at shape
          have origin := (InstantiatedType.mk.inj (TypeKind.instantiated.inj shape)).1
          dsimp only
          rw [if_pos origin.symm]
          rfl
      | _ => simp [isPattern, isActual, TypeKind.flag] at flag
  | _ =>
      cases isActual : t.kind actual with
      | object | function | instantiated => simp [isPattern, isActual, TypeKind.flag] at flag
      | _ => rfl

theorem run_within (pattern actual : TypeId) (m : MatchM Unit) :
    (MatchM.within pattern actual m).run.run (t, i) =
      let ran := m.run.run (t, { i with visiting := (pattern, actual) :: i.visiting })
      (ran.1, ran.2.1, { ran.2.2 with visiting := ran.2.2.visiting.tail }) := rfl

end Runs

/-- What has been bound agrees with the bindings, and the patterns around this one nest
more deeply than it does. -/
structure Underway (t : TypeTable) (parameters : List TypeId) (bindings : Bindings) (levels : Nat)
    (i : Inference) : Prop where
  typeParameters : i.typeParameters = parameters
  agrees : ∀ p b, i.bindings.find? p = some b → bindings.find? p = some b
  above : ∀ pair ∈ i.visiting, ¬t.Nests (· ∈ parameters) levels pair.1
  shallow : i.visiting.length + levels ≤ depthLimit

/-- Exactly the exposed type parameters have got their types. -/
structure Recovers (bindings : Bindings) (exposed : TypeId → Prop) (i i' : Inference) : Prop where
  typeParameters : i'.typeParameters = i.typeParameters
  visiting : i'.visiting = i.visiting
  found : ∀ p, exposed p → i'.bindings.find? p = bindings.find? p
  others : ∀ p, ¬exposed p → i'.bindings.find? p = i.bindings.find? p

namespace Recovers

variable {exposed exposed' : TypeId → Prop}

theorem nothing (none : ∀ p, ¬exposed p) : Recovers bindings exposed i i :=
  ⟨rfl, rfl, fun p here => absurd here (none p), fun _ _ => rfl⟩

theorem trans (one : Recovers bindings exposed i i') (two : Recovers bindings exposed' i' i'') :
    Recovers bindings (fun p => exposed p ∨ exposed' p) i i'' where
  typeParameters := two.typeParameters.trans one.typeParameters
  visiting := two.visiting.trans one.visiting
  found p either := by
    by_cases later : exposed' p
    · exact two.found p later
    · exact (two.others p later).trans (one.found p (either.resolve_right later))
  others p neither := by
    rw [not_or] at neither
    exact (two.others p neither.2).trans (one.others p neither.1)

theorem congr (recovers : Recovers bindings exposed i i') (same : ∀ p, exposed p ↔ exposed' p) :
    Recovers bindings exposed' i i' := by
  rwa [← funext fun p => propext (same p)]

theorem underway (recovers : Recovers bindings exposed i i')
    (underway : Underway t parameters bindings levels i) :
    Underway t parameters bindings levels i' where
  typeParameters := recovers.typeParameters.trans underway.typeParameters
  agrees p b found := by
    by_cases here : exposed p
    · exact recovers.found p here ▸ found
    · exact underway.agrees p b (recovers.others p here ▸ found)
  above := recovers.visiting ▸ underway.above
  shallow := recovers.visiting ▸ underway.shallow

end Recovers

theorem Underway.fewer (underway : Underway t parameters bindings (levels + 1) i) :
    Underway t parameters bindings levels i where
  typeParameters := underway.typeParameters
  agrees := underway.agrees
  above pair member nests := underway.above pair member nests.succ
  shallow := Nat.le_trans (Nat.le_add_right _ 1) underway.shallow

/-- The matching ends well, it leaves the table alone, and it finds the types of exactly the
exposed type parameters. -/
def Recovering (t : TypeTable) (bindings : Bindings) (exposed : TypeId → Prop) (m : MatchM Unit)
    (i : Inference) : Prop :=
  ∃ i', m.run.run (t, i) = (.ok (), t, i') ∧ Recovers bindings exposed i i'

theorem recovering_matchAll {matchPair : TypeId → TypeId → MatchM Unit}
    (exposed : TypeId → TypeId → Prop) (pairs : List (TypeId × TypeId))
    (each : ∀ pair ∈ pairs, ∀ i, Underway t parameters bindings levels i →
      Recovering t bindings (exposed · pair.1) (matchPair pair.1 pair.2) i)
    (underway : Underway t parameters bindings levels i) :
    Recovering t bindings (fun p => ∃ pair ∈ pairs, exposed p pair.1)
      (matchAll matchPair pairs) i := by
  induction pairs generalizing i with
  | nil => exact ⟨i, rfl, .nothing fun p => by simp⟩
  | cons pair rest ih =>
      obtain ⟨here, later⟩ := List.forall_mem_cons.mp each
      obtain ⟨i', first, recovers⟩ := here i underway
      obtain ⟨i'', second, recovers'⟩ := ih later (recovers.underway underway)
      refine ⟨i'', ?_, (recovers.trans recovers').congr fun p => by simp⟩
      rw [matchAll, ExceptT.run_bind, StateT.run_bind, first]
      exact second

theorem exists_mem_zip_iff {as bs : List TypeId} {holds : TypeId → Prop}
    (count : as.length = bs.length) :
    (∃ pair ∈ as.zip bs, holds pair.1) ↔ ∃ a ∈ as, holds a := by
  conv_rhs => rw [← List.map_fst_zip (Nat.le_of_eq count)]
  simp only [List.mem_map, exists_exists_and_eq_and]

section Matching
variable (chosen : ∀ p, bindings.contains p = true ↔ p ∈ parameters)
  (leaves : ∀ p ∈ parameters, t.flag p = .typeParameter)
  (real : ∀ p b, bindings.find? p = some b → t.isWildcard b = false)

include chosen

/-- A type parameter is bound to its type, or has been before. -/
theorem recovering_parameter (fuel : Nat) (listed : pattern ∈ parameters)
    (real : ∀ p b, bindings.find? p = some b → t.isWildcard b = false)
    (replaced : t.Replaced bindings pattern actual)
    (underway : Underway t parameters bindings levels i) :
    Recovering t bindings (fun p => t.Exposed bindings p pattern)
      (matchWithin (fuel + 1) pattern actual) i := by
  have bound := (chosen pattern).mpr listed
  obtain ⟨b, found⟩ := Option.isSome_iff_exists.mp bound
  obtain rfl := replaced.eq_of_bound found
  have exposed : ∀ p, t.Exposed bindings p pattern ↔ p = pattern := by
    intro p
    constructor
    · rintro (_ | ⟨unbound, _, _, _⟩)
      · rfl
      · cases unbound.symm.trans found
    · rintro rfl
      exact .itself bound
  have listed' : pattern ∈ i.typeParameters := underway.typeParameters ▸ listed
  rw [Recovering, run_matchWithin, if_neg (by simp [real pattern actual found]), if_pos listed',
    run_matchParameter]
  cases before : i.bindings.find? pattern with
  | none =>
      refine ⟨_, rfl, rfl, rfl, fun p here => ?_, fun p other => ?_⟩
      · rw [(exposed p).mp here, Dictionary.find?_insert, if_pos rfl, found]
      · rw [Dictionary.find?_insert, if_neg fun same => other ((exposed p).mpr same.symm)]
  | some first =>
      obtain rfl := Option.some.inj ((underway.agrees pattern first before).symm.trans found)
      dsimp only
      rw [if_pos (equals_self first)]
      refine ⟨i, rfl, rfl, rfl, fun p here => ?_, fun _ _ => rfl⟩
      rw [(exposed p).mp here, before, found]

/-- A type that is kept says nothing. -/
theorem recovering_kept (fuel : Nat) (unlisted : pattern ∉ parameters)
    (unaffected : ¬t.Affected bindings pattern) (replaced : t.Replaced bindings pattern actual)
    (underway : Underway t parameters bindings levels i) :
    Recovering t bindings (fun p => t.Exposed bindings p pattern)
      (matchWithin (fuel + 1) pattern actual) i := by
  obtain rfl := replaced.eq_of_not_affected unaffected
  have none : ∀ p, ¬t.Exposed bindings p actual := by
    rintro p (bound | ⟨-, affected, -, -⟩)
    · exact unlisted ((chosen actual).mp bound)
    · exact unaffected affected
  refine ⟨i, ?_, .nothing none⟩
  rw [run_matchWithin]
  split_ifs with wildcard listed
  · rfl
  · exact absurd (underway.typeParameters ▸ listed) unlisted
  · rfl
  · simp_all
  · simp_all

include leaves

/-- A type that is affected is matched part by part. -/
theorem recovering_composite (fuel : Nat) (unlisted : pattern ∉ parameters)
    (affected : t.Affected bindings pattern) (replaced : t.Replaced bindings pattern actual)
    (distinct : ∀ o, t.kind actual = .object o → o.properties.Distinct)
    (nests : t.Nests (· ∈ parameters) (levels + 1) pattern)
    (smaller : ¬t.Nests (· ∈ parameters) levels pattern)
    (each : ∀ pair ∈ (t.kind pattern).parts.zip (t.kind actual).parts,
      t.Replaced bindings pair.1 pair.2 → ∀ i, Underway t parameters bindings levels i →
        Recovering t bindings (t.Exposed bindings · pair.1) (matchWithin fuel pair.1 pair.2) i)
    (underway : Underway t parameters bindings (levels + 1) i) :
    Recovering t bindings (fun p => t.Exposed bindings p pattern)
      (matchWithin (fuel + 1) pattern actual) i := by
  have changed : pattern ≠ actual := by
    rintro rfl
    exact replaced.not_affected (fun p bound => leaves p ((chosen p).mp bound)) affected
  cases replaced with
  | bound found =>
      exact absurd ((chosen pattern).mp (Option.isSome_iff_exists.mpr ⟨_, found⟩)) unlisted
  | kept unaffected => exact absurd affected unaffected
  | rebuilt unbound _ shape _ parts =>
      have real : t.isWildcard actual = false := by
        rw [isWildcard, flag, ← TypeKind.flag_shape, shape, TypeKind.flag_shape]
        exact TypeKind.not_wildcard_of_composite (affected.composite unbound)
      have unlisted' : pattern ∉ i.typeParameters := underway.typeParameters ▸ unlisted
      have unvisited : ¬(pattern = actual ∨ (pattern, actual) ∈ i.visiting) :=
        not_or.mpr ⟨changed, fun visited => underway.above _ visited nests⟩
      have shallow : ¬depthLimit ≤ i.visiting.length := by
        have limit := underway.shallow
        omega
      have inside : Underway t parameters bindings levels
          { i with visiting := (pattern, actual) :: i.visiting } := by
        refine ⟨underway.typeParameters, underway.agrees, ?_, ?_⟩
        · exact List.forall_mem_cons.mpr ⟨smaller, underway.fewer.above⟩
        · have limit := underway.shallow
          rw [List.length_cons]
          omega
      obtain ⟨i', ran, recovers⟩ := recovering_matchAll (t.Exposed bindings) _
        (fun pair zipped => each pair zipped (parts pair zipped)) inside
      refine ⟨{ i' with visiting := i'.visiting.tail }, ?_, ?_⟩
      · rw [run_matchWithin, if_neg (by simp [real]), if_neg unlisted', if_neg unvisited,
          if_neg shallow, run_within, run_matchStructure _ shape distinct, ran]
      · have exposed : ∀ p, (∃ pair ∈ (t.kind pattern).parts.zip (t.kind actual).parts,
            t.Exposed bindings p pair.1) ↔ t.Exposed bindings p pattern := by
          intro p
          rw [exists_mem_zip_iff (TypeKind.length_parts_of_shape shape).symm]
          constructor
          · rintro ⟨part, member, below⟩
            exact .part unbound affected member below
          · rintro (bound | ⟨-, -, member, below⟩)
            · exact absurd ((chosen pattern).mp bound) unlisted
            · exact ⟨_, member, below⟩
        have congr := recovers.congr exposed
        exact ⟨congr.typeParameters, congrArg List.tail congr.visiting, congr.found, congr.others⟩

theorem recovering_matchWithin
    (real : ∀ p b, bindings.find? p = some b → t.isWildcard b = false)
    (distinct : ∀ id o, t.kind id = .object o → o.properties.Distinct) (fuel : Nat)
    (enough : levels < fuel) (nests : t.Nests (· ∈ parameters) levels pattern)
    (replaced : t.Replaced bindings pattern actual)
    (underway : Underway t parameters bindings levels i) :
    Recovering t bindings (fun p => t.Exposed bindings p pattern)
      (matchWithin fuel pattern actual) i := by
  induction levels generalizing fuel pattern actual i with
  | zero =>
      obtain ⟨fuel, rfl⟩ := Nat.exists_eq_succ_of_ne_zero (Nat.ne_of_gt enough)
      cases nests with
      | parameter listed => exact recovering_parameter chosen fuel listed real replaced underway
      | unconcerned unconcerned =>
          exact recovering_kept chosen fuel unconcerned.not_bound
            (unconcerned.mono fun p => (chosen p).mp).not_affected replaced underway
  | succ levels ih =>
      by_cases smaller : t.Nests (· ∈ parameters) levels pattern
      · exact ih fuel (by omega) smaller replaced underway.fewer
      obtain ⟨fuel, rfl⟩ := Nat.exists_eq_succ_of_ne_zero (Nat.ne_of_gt (Nat.zero_lt_of_lt enough))
      have unlisted : pattern ∉ parameters := fun listed => smaller (.parameter listed)
      by_cases affected : t.Affected bindings pattern
      · refine recovering_composite chosen leaves fuel unlisted affected replaced (distinct actual)
          nests smaller (fun pair zipped replaced i underway => ?_) underway
        have part : t.Nests (· ∈ parameters) levels pair.1 := by
          cases nests with
          | parameter listed => exact absurd listed unlisted
          | unconcerned unconcerned => exact absurd (.unconcerned unconcerned) smaller
          | composite parts => exact parts pair.1 (List.of_mem_zip zipped).1
        exact ih fuel (by omega) part replaced underway
      · exact recovering_kept chosen fuel unlisted affected replaced underway

theorem recovering_inferAll
    (real : ∀ p b, bindings.find? p = some b → t.isWildcard b = false)
    (distinct : ∀ id o, t.kind id = .object o → o.properties.Distinct)
    (sites : List (TypeId × TypeId))
    (nests : ∀ site ∈ sites, t.Nests (· ∈ parameters) depthLimit site.1)
    (replaced : ∀ site ∈ sites, t.Replaced bindings site.1 site.2)
    (underway : Underway t parameters bindings depthLimit i) :
    ∃ i', (i.inferAll sites).run t = ((.ok (), i'), t) ∧
      Recovers bindings (fun p => ∃ site ∈ sites, t.Exposed bindings p site.1) i i' := by
  induction sites generalizing i with
  | nil => exact ⟨i, rfl, .nothing fun p => by simp⟩
  | cons site rest ih =>
      obtain ⟨nestsHere, nestsLater⟩ := List.forall_mem_cons.mp nests
      obtain ⟨here, later⟩ := List.forall_mem_cons.mp replaced
      obtain ⟨i', first, recovers⟩ := recovering_matchWithin chosen leaves real distinct
        (depthLimit + 1) (Nat.lt_succ_self _) nestsHere here underway
      obtain ⟨i'', second, recovers'⟩ := ih nestsLater later (recovers.underway underway)
      have inferred : (i.infer site.1 site.2).run t = ((.ok (), i'), t) := by
        change (let ran := (matchWithin (depthLimit + 1) site.1 site.2).run.run (t, i)
          ((ran.1, ran.2.2), ran.2.1)) = _
        rw [first]
      refine ⟨i'', ?_, (recovers.trans recovers').congr fun p => by simp⟩
      rw [inferAll, TableM.run_bind, inferred]
      exact second

end Matching

end Inference

section Instantiating
variable {t : TypeTable} {id : TypeId} {f : FunctionType} {bindings : Bindings}

open Inference

/-- The types of the parameters of a function after type parameters are replaced. -/
def FunctionType.argumentsFor (f : FunctionType) (bindings : Bindings) : TableM (List TypeId) :=
  f.parameters.mapM fun p => substitute p.type bindings

/-- A call of the function with these types, and without type arguments. -/
def FunctionType.callFor (f : FunctionType) (id : TypeId) (bindings : Bindings) :
    TableM (Except InferenceError InstantiatedSignature) := do
  instantiate id (← f.argumentsFor bindings) none

/-- When the inference is closed, its bindings and what it has left open go into the
signature. -/
theorem instantiate_of_inferAll (entry : t.kind id = .function f) {arguments : List TypeId}
    {i : Inference} (ran : ((ofTypeParameters f.typeParameters).inferAll
      ((f.parameters.map Parameter.type).zip arguments)).run t = ((.ok (), i), t)) :
    Yields (instantiate id arguments none) t fun outcome _ => ∃ signature, outcome = .ok signature ∧
      signature.bindings = i.finish.bindings ∧ signature.unresolved = i.finish.unresolved := by
  have read : Yields (get : TableM TypeTable) t fun u t' => u = t ∧ t' = t := ⟨rfl, rfl⟩
  refine read.bind ?_
  rintro _ t ⟨rfl, rfl⟩
  rw [asFunction?, entry]
  have inferred : Yields ((ofTypeParameters f.typeParameters).inferAll
      ((f.parameters.map Parameter.type).zip arguments)) t fun result t' =>
        result = (.ok (), i) ∧ t' = t := by
    rw [Yields, ran]
    exact ⟨rfl, rfl⟩
  refine inferred.bind ?_
  rintro _ t ⟨rfl, rfl⟩
  exact ⟨_, rfl, rfl, rfl⟩

variable (intact : t.Intact) (entry : t.kind id = .function f)
  (chosen : ∀ p, bindings.contains p = true ↔ p ∈ f.typeParameters)
  (leaves : ∀ p ∈ f.typeParameters, t.flag p = .typeParameter)
  (nests : ∀ p ∈ f.parameters, t.Nests (· ∈ f.typeParameters) depthLimit p.type)

include intact entry chosen leaves nests

theorem yields_argumentsFor (bound : ∀ b ∈ bindings.values, b < t.size) :
    Yields (f.argumentsFor bindings) t fun arguments u => Advances Intact t u ∧
      List.Forall₂ (fun p a => u.Replaced bindings p.type a) f.parameters arguments := by
  have grounded {u : TypeTable} (intact : u.Intact) : u.Grounded :=
    ⟨intact.toWellFormed, queryInvariant_intact.unknown intact⟩
  let made (p : Parameter) (a : TypeId) (u : TypeTable) : Prop :=
    u.Intact ∧ p.type < u.size ∧ a < u.size ∧ u.Replaced bindings p.type a
  have stable : ∀ p a u u', Advances Intact u u' → made p a u → made p a u' := by
    rintro p a u u' advances ⟨holds, known, known', replaced⟩
    exact ⟨advances.keeps holds, advances.inside known, advances.inside known',
      replaced.extends holds.toWellFormed advances.extended known known'⟩
  have step : ∀ p ∈ f.parameters, ∀ u, Advances Intact t u →
      Yields (substitute p.type bindings) u fun a u' => Advances Intact u u' ∧ made p a u' := by
    intro p member u advances
    have inside := intact.toWellFormed.parameter entry p member
    have holds := advances.keeps intact
    have advanced := (advances_substitute queryInvariant_intact holds (advances.inside inside)
      (advances.each bound)).yields
    have finite : ∀ m, t.Reaches p.type m → t.Recursive m → ¬t.Affected bindings m :=
      fun m reached recursive affected =>
        ((nests p member).of_reaches leaves reached).not_recursive chosen leaves affected recursive
    have replaced := replaced_substitute intact.toWellFormed bound finite advances.extended
      (grounded holds) inside
    exact ⟨advanced.1, advanced.1.keeps holds, advanced.1.inside (advances.inside inside),
      replaced.2⟩
  refine (Yields.sequential.mapM Advances.growth stable step).weaken ?_
  exact fun arguments u made => ⟨made.1, made.2.imp fun _ _ each => each.2.2.2⟩

/-- Inference from these arguments finds the types that were chosen. -/
theorem recovering_arguments {u : TypeTable} {arguments : List TypeId}
    (advances : Advances Intact t u)
    (real : ∀ b ∈ bindings.values, b < t.size ∧ t.isWildcard b = false)
    (pairs : List.Forall₂ (fun p a => u.Replaced bindings p.type a) f.parameters arguments) :
    ∃ i, ((ofTypeParameters f.typeParameters).inferAll
        ((f.parameters.map Parameter.type).zip arguments)).run u = ((.ok (), i), u) ∧
      Recovers bindings (fun p => ∃ q ∈ f.parameters, t.Exposed bindings p q.type)
        (.ofTypeParameters f.typeParameters) i := by
  have wellFormed := intact.toWellFormed
  have extended := advances.extended
  have inside : ∀ type ∈ f.parameters.map Parameter.type, type < t.size :=
    List.forall_mem_map.mpr (wellFormed.parameter entry)
  have nested : ∀ type ∈ f.parameters.map Parameter.type,
      t.Nests (· ∈ f.typeParameters) depthLimit type := List.forall_mem_map.mpr nests
  have leaves' : ∀ p ∈ f.typeParameters, u.flag p = .typeParameter := by
    intro p listed
    have known := (wellFormed.signature entry).typeParameters p listed
    rw [flag, extended.kind p known]
    exact leaves p listed
  have real' : ∀ p b, bindings.find? p = some b → u.isWildcard b = false := by
    intro p b found
    obtain ⟨known, real⟩ := real b (List.mem_map_of_mem (Dictionary.mem_of_find? found))
    rw [isWildcard, flag, extended.kind b known]
    exact real
  obtain ⟨count, zipped⟩ := List.forall₂_iff_zip.mp (List.forall₂_map_left_iff.mpr pairs)
  have listed {site : TypeId × TypeId}
      (member : site ∈ (f.parameters.map Parameter.type).zip arguments) :
      site.1 ∈ f.parameters.map Parameter.type := (List.of_mem_zip member).1
  obtain ⟨i, ran, recovers⟩ := recovering_inferAll (t := u) chosen leaves' real'
    (advances.keeps intact).distinct ((f.parameters.map Parameter.type).zip arguments)
    (fun site member =>
      (nested site.1 (listed member)).extends wellFormed extended (inside site.1 (listed member)))
    (fun _ => zipped) (i := .ofTypeParameters f.typeParameters)
    ⟨rfl, by rintro _ _ ⟨⟩, List.forall_mem_nil _, Nat.le_of_eq (Nat.zero_add _)⟩
  refine ⟨i, ran, recovers.congr fun p => ?_⟩
  rw [exists_mem_zip_iff count]
  simp only [List.mem_map, exists_exists_and_eq_and]
  refine exists_congr fun q => and_congr_right fun member => ?_
  exact Exposed.extends_iff wellFormed extended (wellFormed.parameter entry q member)

/-- A call with the types that the parameters become when the type parameters are replaced
finds the types that were chosen for the exposed type parameters. A type parameter for which
another type was chosen is exposed wherever it occurs. -/
theorem callFor_recovers (bound : ∀ b ∈ bindings.values, b < t.size ∧ t.isWildcard b = false) :
    Yields (f.callFor id bindings) t fun outcome _ =>
      ∃ signature, outcome = .ok signature ∧ ∀ p ∈ f.typeParameters,
        ((∃ q ∈ f.parameters, t.Exposed bindings p q.type) →
          signature.bindings.find? p = bindings.find? p ∧ p ∉ signature.unresolved) ∧
        ((¬∃ q ∈ f.parameters, t.Exposed bindings p q.type) →
          signature.bindings.find? p = some TypeId.unknown ∧ p ∈ signature.unresolved) ∧
        (bindings.find? p ≠ some p →
          ((∃ q ∈ f.parameters, t.Exposed bindings p q.type) ↔
            ∃ q ∈ f.parameters, t.Reaches q.type p)) := by
  refine (yields_argumentsFor intact entry chosen leaves nests fun b member =>
    (bound b member).1).bind ?_
  rintro arguments u ⟨advances, pairs⟩
  obtain ⟨i, ran, recovers⟩ :=
    recovering_arguments intact entry chosen leaves nests advances bound pairs
  refine (instantiate_of_inferAll (advances.extended.entry entry (by simp)) ran).weaken ?_
  rintro outcome _ ⟨signature, rfl, bound, unresolved⟩
  refine ⟨signature, rfl, fun p listed => ?_⟩
  rw [bound, unresolved]
  have closed := find?_finish i (p := p) (by rw [recovers.typeParameters]; exact listed)
  refine ⟨fun exposed => ?_, fun hidden => ?_, fun moved => ⟨?_, ?_⟩⟩
  · obtain ⟨b, found⟩ := Option.isSome_iff_exists.mp ((chosen p).mpr listed)
    rw [found]
    exact closed.1 b ((recovers.found p exposed).trans found)
  · exact closed.2 (recovers.others p hidden)
  · rintro ⟨q, member, exposed⟩
    exact ⟨q, member, exposed.reaches⟩
  · rintro ⟨q, member, reached⟩
    refine ⟨q, member, .of_reaches ?_ ((chosen p).mpr listed) moved reached⟩
    exact fun p bound => leaves p ((chosen p).mp bound)

end Instantiating

section Pairs

open TableOperation (makeTypeParameter makeObject makeFunction)

/-- A function of two objects that share the second type parameter. -/
def pairSignature : FunctionType :=
  ⟨[7, 8], [⟨"x", 9, false⟩, ⟨"y", 10, false⟩], TypeId.void⟩

/-- `<T, U>(x: { a: T; b: U; }, y: { c: U; }) => void`. -/
def pairTable : TypeTable :=
  [makeTypeParameter "T", makeTypeParameter "U", makeObject [("a", ⟨7, false⟩), ("b", ⟨8, false⟩)],
    makeObject [("c", ⟨8, false⟩)], makeFunction pairSignature].foldl
      (fun t op => (op.run t).2) .initial

theorem pairTable_reached : pairTable.Reached := by
  refine .step _ (.step _ (.step _ (.step _ (.step _ .initial ?_) ?_) ?_) ?_) ?_
  all_goals exact ⟨by decide, nofun, nofun⟩

/-- With `number` for `T` and `U` itself for `U`, the first argument tells both. -/
theorem pairTable_recovers :
    ∃ signature, ((pairSignature.callFor 11 ⟨[(7, TypeId.number), (8, 8)]⟩).run pairTable).1 =
        .ok signature ∧
      signature.bindings.find? 7 = some TypeId.number ∧ 7 ∉ signature.unresolved ∧
      signature.bindings.find? 8 = some 8 ∧ 8 ∉ signature.unresolved := by
  have nests : ∀ p ∈ pairSignature.parameters,
      pairTable.Nests (· ∈ pairSignature.typeParameters) Inference.depthLimit p.type := by
    refine List.forall_mem_cons.mpr ⟨.composite fun m part => ?_,
      List.forall_mem_singleton.mpr (.composite fun m part => ?_)⟩
    · exact .parameter (part : m ∈ [7, 8])
    · exact .parameter (List.mem_cons_of_mem _ (part : m ∈ [8]))
  have chosen : ∀ p, Dictionary.contains ⟨[(7, TypeId.number), (8, 8)]⟩ p = true ↔
      p ∈ pairSignature.typeParameters := fun p => by
    simp [Dictionary.contains_iff, Dictionary.keys, pairSignature]
  have entry : pairTable.kind 11 = .function pairSignature := rfl
  obtain ⟨signature, ran, each⟩ := callFor_recovers pairTable_reached.intact entry
    chosen (by decide) nests (by decide)
  have affected : pairTable.Affected ⟨[(7, TypeId.number), (8, 8)]⟩ 9 :=
    ⟨7, .single (by decide), .inl ⟨TypeId.number, rfl, by decide⟩⟩
  have first : ⟨"x", 9, false⟩ ∈ pairSignature.parameters := List.mem_cons_self
  obtain ⟨one, -, -⟩ := each 7 (by decide)
  obtain ⟨two, -, -⟩ := each 8 (by decide)
  obtain ⟨bound, listed⟩ := one ⟨_, first, .part rfl affected (by decide) (.itself rfl)⟩
  obtain ⟨bound', listed'⟩ := two ⟨_, first, .part rfl affected (by decide) (.itself rfl)⟩
  exact ⟨signature, ran, bound, listed, bound', listed'⟩

/-- The type parameter itself, chosen for the type parameter of `<T>(x: { a: T; }) => void`,
is not found: the object stays as it is. -/
theorem unmovedParameter_unresolved :
    let f : FunctionType := ⟨[7], [⟨"x", 8, false⟩], TypeId.void⟩
    let t := [makeTypeParameter "T", makeObject [("a", ⟨7, false⟩)], makeFunction f].foldl
      (fun t op => (op.run t).2) .initial
    t.kind 9 = .function f ∧ t.Reaches 8 7 ∧
      ∃ signature, ((f.callFor 9 ⟨[(7, 7)]⟩).run t).1 = .ok signature ∧
        signature.unresolved = [7] ∧ signature.bindings.find? 7 = some TypeId.unknown ∧
        t.equals TypeId.unknown 7 = false := by
  refine ⟨by decide, .single (by decide), _, rfl, by decide, by decide, by decide +kernel⟩

end Pairs

end StructuralTyping
