import StructuralTyping.Proofs.AcceptedPairs
import StructuralTyping.Proofs.EqualityHistory
import StructuralTyping.Proofs.PlainTypes

/-! Type parameters on the left of a comparison. Where the constraints of a type parameter come
to an end, the comparison goes from one to the next, and what it answers in the end is what is
answered about the last one alone: the pairs on the way, which are assumed there, are granted
anyway, since they lead back to the pair that is in progress. Where the constraints go round in
a circle, the comparison comes back to a pair in progress and assumes it. -/
namespace StructuralTyping

open Equality TypeTable
open TableM (Yields)

namespace TypeTable

variable {t u : TypeTable}

/-- In so many steps the constraints lead from a type to one that has no constraint. -/
inductive LeadsTo (t : TypeTable) : Nat → TypeId → TypeId → Prop where
  | last {c : TypeId} (free : t.constraint? c = none) : LeadsTo t 0 c c
  | step {n : Nat} {p bound c : TypeId} (constraint : t.constraint? p = some bound)
      (rest : LeadsTo t n bound c) : LeadsTo t (n + 1) p c

theorem LeadsTo.free {n : Nat} {p c : TypeId} (leads : t.LeadsTo n p c) :
    t.constraint? c = none := by
  induction leads with
  | last free => exact free
  | step _ _ ih => exact ih

theorem LeadsTo.unique {m n : Nat} {p c d : TypeId} (one : t.LeadsTo m p c)
    (two : t.LeadsTo n p d) : m = n ∧ c = d := by
  induction one generalizing n with
  | last free =>
      cases two with
      | last => exact ⟨rfl, rfl⟩
      | step constraint => exact nomatch free.symm.trans constraint
  | step constraint _ ih =>
      cases two with
      | last free => exact nomatch free.symm.trans constraint
      | step constraint' rest =>
          obtain rfl := Option.some.inj (constraint.symm.trans constraint')
          obtain ⟨rfl, same⟩ := ih rest
          exact ⟨rfl, same⟩

theorem kind_of_constraint {p bound : TypeId} (constraint : t.constraint? p = some bound) :
    ∃ name, t.kind p = .typeParameter name (some bound) := by
  unfold constraint? at constraint
  split at constraint
  · next name c entry => exact ⟨name, constraint ▸ entry⟩
  · cases constraint

theorem constraint_of_kind {p : TypeId} {name : String} {constraint : Option TypeId}
    (entry : t.kind p = .typeParameter name constraint) : t.constraint? p = constraint := by
  rw [constraint?, entry]

/-- Constraints are a part of the entry. -/
theorem Extends.constraint? (extended : t.Extends u) {p bound : TypeId}
    (constraint : t.constraint? p = some bound) : u.constraint? p = some bound := by
  obtain ⟨name, entry⟩ := kind_of_constraint constraint
  exact constraint_of_kind (extended.entry entry (by simp))

theorem LeadsTo.extends {n : Nat} {q c : TypeId} (leads : t.LeadsTo n q c)
    (extended : t.Extends u) (inside : c < t.size) : u.LeadsTo n q c := by
  induction leads with
  | @last c free =>
      refine .last ?_
      rwa [TypeTable.constraint?, extended.kind c inside]
  | step constraint _ ih => exact .step (extended.constraint? constraint) (ih inside)

/-- The type is not there as the body of instances. -/
structure Alone (t : TypeTable) (id : TypeId) : Prop where
  unremembered : ∀ key, t.resolved.find? key ≠ some id
  undeclared : ∀ origin g, t.kind origin = .generic g → g.body ≠ id

theorem Alone.develops {id : TypeId} (alone : t.Alone id) (inside : id < t.size) (tidy : t.Tidy)
    (develops : t.Develops u) : u.Alone id := by
  have generics {v : TypeTable} (later : t.Develops v) {origin : TypeId} {g : GenericType}
      (generic : v.kind origin = .generic g) : t.kind origin = .generic g :=
    later.toDerives.kind_of_not_derived generic (by simp) rfl
  refine ⟨?_, fun origin g generic => alone.undeclared origin g (generics develops generic)⟩
  induction develops with
  | start => exact alone.unremembered
  | add _ _ _ ih => exact ih
  | @remember s v key g body begun before origin built run unmade _ ih =>
      intro key' found
      rw [TypeTable.remember, Dictionary.find?_insert] at found
      split at found
      · obtain rfl := Option.some.inj found
        have made := made_substitute g.body (g.bind key.2) s
        rw [Yields, run] at made
        have declared := generics begun origin
        rcases made.2 with bound | same | new
        · have parameter := GenericType.mem_of_contains_bind
            (Option.isSome_iff_exists.mpr ⟨_, bound⟩ : (g.bind key.2).contains g.body = true)
          have flag := (tidy.generics _ g declared).parameters _ parameter
          rcases (tidy.generics _ g declared).body with pending | ⟨o, object⟩
          · simp [pending, TypeKind.flag, TypeTable.flag] at flag
          · simp [object, TypeKind.flag, TypeTable.flag] at flag
        · exact alone.undeclared _ g declared same.symm
        · exact absurd (begun.extended.inside inside) (Nat.not_lt.mpr new)
      · exact ih key' found

/-- Only the type itself is resolved to it. -/
theorem Alone.eq_of_resolve {id m : TypeId} (alone : t.Alone id) (tidy : t.Tidy)
    (run : (resolve m).run t = (id, u)) (later : u.Alone id) : m = id ∧ u = t := by
  have resolves := t.resolves m
  rw [Yields, run] at resolves
  dsimp only at resolves
  cases resolves with
  | plain => exact ⟨rfl, rfl⟩
  | remembered _ found => exact absurd found (alone.unremembered _)
  | pending _ _ origin => exact absurd rfl (alone.undeclared _ _ origin)
  | @made i =>
      refine absurd ?_ (later.unremembered (instantiationKey i))
      rw [remember, Dictionary.find?_insert, if_pos rfl]
  | stray entry _ stray =>
      obtain ⟨g, made⟩ := tidy.instances _ _ entry
      exact absurd made.origin (stray g)

/-- The body of an instance is remembered and is an object, unless it is not built yet. -/
theorem body_of_resolve {id body : TypeId} (tidy : t.Tidy)
    (run : (resolve id).run t = (body, u)) (solid : u.isWildcard body = false) :
    body? u id = some body ∧ (body = id ∨ u.flag body = .object) := by
  have develops := develops_of_resolve run
  have later : u.Tidy := develops.tidy tidy
  have object {key : TypeId × List TypeId} (found : u.resolved.find? key = some body) :
      u.flag body = .object := by
    obtain ⟨g, -, declared, made, -, entry, -⟩ := later.remembered key body found
    simp [flag, entry, TypeKind.flag]
  have resolves := t.resolves id
  rw [Yields, run] at resolves
  dsimp only at resolves
  cases resolves with
  | plain plain =>
      refine ⟨body?_plain ?_, .inl rfl⟩
      rintro ⟨i, entry⟩
      exact plain (congrArg TypeKind.flag entry)
  | remembered entry found => exact ⟨(body?_instantiated entry).trans found, .inr (object found)⟩
  | pending _ _ _ pending =>
      simp [isWildcard, flag, pending, TypeKind.flag, TypeFlag.isWildcard] at solid
  | @made i g body w entry unmade origin built made =>
      have found : (w.remember (instantiationKey i) body).resolved.find? (instantiationKey i) =
          some body := by rw [remember, Dictionary.find?_insert, if_pos rfl]
      have kept := develops.extended.entry entry (by simp)
      exact ⟨(body?_instantiated kept).trans found, .inr (object found)⟩
  | stray entry _ stray =>
      obtain ⟨g, made⟩ := tidy.instances _ _ entry
      exact absurd made.origin (stray g)

end TypeTable

namespace Assignability

/-- A target that is compared as it stands: neither a wildcard nor a type parameter, and neither
an instance nor the body of one. -/
structure Definite (t : TypeTable) (id : TypeId) : Prop where
  solid : t.isWildcard id = false
  other : t.flag id ≠ .typeParameter
  whole : t.flag id ≠ .instantiated
  alone : t.Alone id

theorem Definite.develops {t u : TypeTable} {id : TypeId} (definite : Definite t id)
    (tidy : t.Tidy) (develops : t.Develops u) : Definite u id := by
  have inside := lt_size_of_not_isWildcard definite.solid
  have same := develops.extended.kind id inside
  exact ⟨(develops.extended.isWildcard inside).trans definite.solid,
    fun flag => definite.other ((congrArg TypeKind.flag same).symm.trans flag),
    fun flag => definite.whole ((congrArg TypeKind.flag same).symm.trans flag),
    definite.alone.develops inside tidy develops⟩

section Steps
variable {strict : Bool} {related : Related} {σ : Session} {x y q bound t : TypeId}
  {two : TypeTable}

/-- A type parameter is related as its constraint is. -/
theorem run_structureRelated_constraint (constraint : σ.table.constraint? q = some bound) :
    (structureRelated strict related x y q t).run σ = ((related bound y).run σ).map fun r =>
      (r.1.mapError fun _ => .incompatible x y, r.2) := by
  obtain ⟨name, entry⟩ := kind_of_constraint constraint
  rw [structureRelated, StateT.run_bind, StateT.run_get, pure_bind]
  dsimp only
  rw [entry]
  dsimp only
  rw [StateT.run_bind, Option.map_eq_bind]
  refine congrArg _ (funext fun r => ?_)
  obtain ⟨verdict, σ'⟩ := r
  cases verdict <;> rfl

/-- A type parameter with an accepted constraint is accepted, and no trace is left. -/
theorem run_bodiesRelated_constraint (definite : Definite two t)
    (first : (resolve x).run σ.table = (q, two)) (constraint : two.constraint? q = some bound)
    (accepted : ∀ expanded, (q, t) ∉ σ.inProgress →
      (related bound t).run (Session.entered { σ with table := two } q t expanded) =
        some (.ok (), Session.entered { σ with table := two } q t expanded)) :
    (bodiesRelated strict related x t).run σ = some (.ok (), { σ with table := two }) := by
  have second : (resolve t).run two = (t, two) := run_resolve_plain definite.whole
  by_cases passes : Session.Passes { σ with table := two } x t q t
  · exact run_bodiesRelated_of_passes first second passes
  · have outside : (q, t) ∉ σ.inProgress := fun assumed => passes (.inr (.inr (.inl assumed)))
    rw [run_bodiesRelated_of_not_passes first second passes,
      run_structureRelated_constraint
        (σ := Session.entered { σ with table := two } q t (q != x || t != t)) constraint,
      accepted _ outside]
    have left := Session.exited_entered (σ := { σ with table := two }) outside (q != x || t != t)
    simp only [Option.map_some, left]
    rfl

end Steps

section Chains
variable {strict : Bool} {table : TypeTable} {c body t : TypeId}

/-- There is no shortcut to a definite target. -/
theorem Definite.apart {id : TypeId} (definite : Definite table t) (i j : InstantiatedType)
    (_ : table.kind id = .instantiated i) (entry : table.kind t = .instantiated j) :
    i.origin ≠ j.origin :=
  absurd (congrArg TypeKind.flag entry) definite.whole

theorem flag_of_constraint {q bound : TypeId} (constraint : table.constraint? q = some bound) :
    table.flag q = .typeParameter := by
  obtain ⟨name, entry⟩ := kind_of_constraint constraint
  exact congrArg TypeKind.flag entry

theorem Definite.ne_of_parameter {q : TypeId} (definite : Definite table t)
    (parameter : table.flag q = .typeParameter) : q ≠ t := by
  rintro rfl
  exact definite.other parameter

theorem run_resolve_parameter {q : TypeId} (parameter : table.flag q = .typeParameter) :
    (resolve q).run table = (q, table) :=
  run_resolve_plain (by simp [parameter])

/-- A type parameter that is not in progress is entered. -/
theorem run_relatedWithin_parameter {σ : Session} {q : TypeId} (definite : Definite σ.table t)
    (parameter : σ.table.flag q = .typeParameter) (outside : (q, t) ∉ σ.inProgress) (fuel : Nat) :
    (relatedWithin strict (fuel + 1) q t).run σ =
      ((structureRelated strict (relatedWithin strict fuel) q t q t).run
        (σ.entered q t false)).map fun r => (r.1, r.2.exited q t false) := by
  have differ := definite.ne_of_parameter parameter
  have compared : ¬σ.Passes q t q t := by
    have solid : σ.table.isWildcard q = false := by rw [isWildcard, parameter]; rfl
    simp [Session.Passes, Session.Limited, differ, outside, solid, definite.solid]
  rw [run_relatedWithin_apart definite.apart differ,
    run_bodiesRelated_of_not_passes (run_resolve_parameter parameter)
      (run_resolve_plain definite.whole) compared]
  simp

/-- The way along constraints to a pair that is in progress is granted. -/
theorem run_relatedWithin_leads {n fuel : Nat} {q : TypeId} (definite : Definite table t)
    (made : body? table c = some body) (leads : table.LeadsTo n q c) (enough : n < fuel)
    {σ : Session} (here : σ.table = table) (held : (body, t) ∈ σ.inProgress) :
    (relatedWithin strict fuel q t).run σ = some (.ok (), σ) := by
  induction leads generalizing σ fuel with
  | @last c =>
      obtain ⟨fuel, rfl⟩ := Nat.exists_eq_succ_of_ne_zero (Nat.ne_zero_of_lt enough)
      subst here
      by_cases same : c = t
      · rw [relatedWithin, if_pos same]
        rfl
      · rw [run_relatedWithin_apart definite.apart same]
        exact run_bodiesRelated_of_passes (run_resolve_body made) (run_resolve_plain definite.whole)
          (.inr (.inr (.inl held)))
  | step constraint _ ih =>
      obtain ⟨fuel, rfl⟩ := Nat.exists_eq_succ_of_ne_zero (Nat.ne_zero_of_lt enough)
      subst here
      have parameter := flag_of_constraint constraint
      rw [run_relatedWithin_apart definite.apart (definite.ne_of_parameter parameter)]
      refine run_bodiesRelated_constraint definite (run_resolve_parameter parameter) constraint
        fun expanded _ => ?_
      exact ih made (Nat.lt_of_succ_lt_succ enough) rfl
        (Std.ExtTreeSet.mem_insert.mpr (.inr held))

end Chains

section Ways

/-- Ways along constraints that lead in so many steps from type parameters to one type, and the
body of that type. -/
structure Ways (base : TypeTable) (begun : TypeId → Prop) (limit : Nat) (c body t : TypeId) :
    Prop where
  tidy : base.Tidy
  inside : c < base.size
  definite : Definite base t
  made : body? base c = some body
  leads : ∀ q, begun q → ∃ n bound, base.constraint? q = some bound ∧ n < limit ∧
    base.LeadsTo n bound c

theorem Ways.develops {base u : TypeTable} {begun : TypeId → Prop} {limit : Nat} {c body t : TypeId}
    (ways : Ways base begun limit c body t) (develops : base.Develops u) :
    Ways u begun limit c body t where
  tidy := develops.tidy ways.tidy
  inside := develops.extended.inside ways.inside
  definite := ways.definite.develops ways.tidy develops
  made :=
    body?_congr (develops.extended.kind c ways.inside) (fun _ _ => develops.remembers) ways.made
  leads q started := by
    obtain ⟨n, bound, constraint, few, leads⟩ := ways.leads q started
    exact ⟨n, bound, develops.extended.constraint? constraint, few,
      leads.extends develops.extended ways.inside⟩

/-- In the one session the type parameters where the ways begin are being compared with the
target, in the other only the body to which the ways lead. Otherwise the sessions are alike. -/
structure Ahead (base : TypeTable) (begun : TypeId → Prop) (body t : TypeId) (σ σ' : Session) :
    Prop where
  table : σ'.table = σ.table
  depth : σ'.expansionDepth = σ.expansionDepth
  developed : base.Develops σ.table
  held : (body, t) ∈ σ'.inProgress
  progress : ∀ pair, pair ∈ σ.inProgress ↔ pair ∈ σ'.inProgress ∨ pair.2 = t ∧ begun pair.1

variable {base : TypeTable} {begun : TypeId → Prop} {limit : Nat} {c body t : TypeId}
  {σ σ' τ τ' : Session} {strict : Bool}

namespace Ahead

theorem onTable {α : Type} {action : TableM α} (derives : action.Derives) :
    Mirrors (Ahead base begun body t) (RelationM.onTable action) (RelationM.onTable action) := by
  intro σ σ' a τ ahead done
  rw [run_onTable] at done
  obtain ⟨rfl, rfl⟩ := Prod.mk.inj (Option.some.inj done)
  refine ⟨_, by rw [run_onTable, ahead.table], ?_⟩
  exact ⟨rfl, ahead.depth, ahead.developed.trans (derives _), ahead.held, ahead.progress⟩

theorem aligned : Aligned (Ahead base begun body t) :=
  ⟨fun _ _ ahead => ahead.table, fun s e => onTable (derives_instantiateAgainst s e)⟩

theorem entered (ahead : Ahead base begun body t σ σ') (s e : TypeId) (expanded : Bool) :
    Ahead base begun body t (σ.entered s e expanded) (σ'.entered s e expanded) where
  table := ahead.table
  depth := congrArg (· + _) ahead.depth
  developed := ahead.developed
  held := Std.ExtTreeSet.mem_insert.mpr (.inr ahead.held)
  progress pair := by
    simp only [Session.entered, Std.ExtTreeSet.mem_insert, ahead.progress pair, or_assoc]

theorem exited (ahead : Ahead base begun body t τ τ') {s e : TypeId} (expanded : Bool)
    (other : (s, e) ≠ (body, t)) (further : ¬(e = t ∧ begun s)) :
    Ahead base begun body t (τ.exited s e expanded) (τ'.exited s e expanded) where
  table := ahead.table
  depth := congrArg (· - _) ahead.depth
  developed := ahead.developed
  held := Std.ExtTreeSet.mem_erase.mpr
    ⟨fun same => other (Std.LawfulEqCmp.eq_of_compare same), ahead.held⟩
  progress pair := by
    simp only [Session.exited, Std.ExtTreeSet.mem_erase, ahead.progress pair]
    have apart : pair.2 = t ∧ begun pair.1 → comparePairs (s, e) pair ≠ .eq := by
      rintro assumed same
      obtain rfl := Std.LawfulEqCmp.eq_of_compare same
      exact further assumed
    tauto

end Ahead

/-- Without the pairs on the way the answers are the same, with more fuel. -/
theorem Ways.mirrors_bodiesRelated (ways : Ways base begun limit c body t) {fuel : Nat}
    (mirrors : ∀ x y, Mirrors (Ahead base begun body t) (relatedWithin strict fuel x y)
      (relatedWithin strict (fuel + limit) x y)) (x y : TypeId) :
    Mirrors (Ahead base begun body t) (bodiesRelated strict (relatedWithin strict fuel) x y)
      (bodiesRelated strict (relatedWithin strict (fuel + limit)) x y) := by
  intro σ σ' a τ ahead done
  rcases first : (resolve x).run σ.table with ⟨s, one⟩
  rcases second : (resolve y).run one with ⟨e, two⟩
  have first' : (resolve x).run σ'.table = (s, one) := by rw [ahead.table, first]
  have before : base.Develops one := ahead.developed.trans (develops_of_resolve first)
  have developed : base.Develops two := before.trans (develops_of_resolve second)
  have now : Ahead base begun body t { σ with table := two } { σ' with table := two } :=
    ⟨rfl, ahead.depth, developed, ahead.held, ahead.progress⟩
  by_cases hit : e = t ∧ begun s
  · obtain ⟨rfl, started⟩ := hit
    have there := ways.develops developed
    have here := ways.develops before
    obtain ⟨rfl, rfl⟩ := here.definite.alone.eq_of_resolve here.tidy second there.definite.alone
    have assumed : (s, y) ∈ σ.inProgress := (ahead.progress (s, y)).mpr (.inr ⟨rfl, started⟩)
    rw [run_bodiesRelated_of_passes first second (.inr (.inr (.inl assumed)))] at done
    obtain ⟨rfl, rfl⟩ := Prod.mk.inj (Option.some.inj done)
    obtain ⟨n, bound, constraint, few, leads⟩ := there.leads s started
    refine ⟨_, run_bodiesRelated_constraint there.definite first' constraint ?_, now⟩
    exact fun expanded _ => run_relatedWithin_leads there.definite there.made leads
      (Nat.lt_add_left fuel few) rfl (Std.ExtTreeSet.mem_insert.mpr (.inr ahead.held))
  · have same : Session.Passes { σ' with table := two } x y s e ↔
        Session.Passes { σ with table := two } x y s e := by
      simp only [Session.Passes, Session.Limited, ahead.depth, ahead.progress (s, e),
        or_iff_left hit]
    by_cases passes : Session.Passes { σ with table := two } x y s e
    · rw [run_bodiesRelated_of_passes first second passes] at done
      obtain ⟨rfl, rfl⟩ := Prod.mk.inj (Option.some.inj done)
      exact ⟨_, run_bodiesRelated_of_passes first' second (same.mpr passes), now⟩
    · rw [run_bodiesRelated_of_not_passes first second passes] at done
      obtain ⟨⟨verdict, ρ⟩, run, exits⟩ := Option.map_eq_some_iff.mp done
      obtain ⟨rfl, rfl⟩ := Prod.mk.inj exits
      obtain ⟨ρ', run', later⟩ := mirrors_structureRelated Ahead.aligned mirrors x y s e _ _ _ _
        (now.entered s e (s != x || e != y)) run
      refine ⟨ρ'.exited s e (s != x || e != y), ?_, later.exited _ ?_ hit⟩
      · rw [run_bodiesRelated_of_not_passes first' second (fun yes => passes (same.mp yes)), run']
        rfl
      · rintro pair
        refine passes (same.mp (.inr (.inr (.inl ?_))))
        rw [pair]
        exact ahead.held

theorem Ways.mirrors_relatedWithin (ways : Ways base begun limit c body t) (fuel : Nat)
    (x y : TypeId) :
    Mirrors (Ahead base begun body t) (relatedWithin strict fuel x y)
      (relatedWithin strict (fuel + limit) x y) := by
  induction fuel generalizing x y with
  | zero => exact fun _ _ _ _ _ done => nomatch done
  | succ fuel ih =>
      rw [Nat.add_right_comm, relatedWithin, relatedWithin]
      refine .ite (.pure _) ((mirrors_instancesRelated Ahead.aligned ih x y).bind fun found => ?_)
      exact .ite (.pure _) (ways.mirrors_bodiesRelated ih x y)

end Ways

section Answers

/-- There is one answer to a question. -/
theorem Answers.unique {strict fresh : Bool} {table after after' : TypeTable} {x y : TypeId}
    {verdict verdict' : Verdict} (one : Answers strict table x y fresh verdict after)
    (two : Answers strict table x y fresh verdict' after') : verdict = verdict' ∧ after = after' :=
  Prod.mk.inj (one.run_assignable.symm.trans two.run_assignable)

variable {strict : Bool} {table : TypeTable} {c t : TypeId} {σ τ : Session} {verdict : Verdict}
  {fuel : Nat}

/-- A session in which nothing is in progress but type parameters on the way to a type. -/
structure OnTheWay (table : TypeTable) (c t : TypeId) (least limit : Nat) (σ : Session) : Prop where
  here : σ.table = table
  flat : σ.expansionDepth = 0
  begun : ∀ pair ∈ σ.inProgress, pair.2 = t ∧ ∃ n, least < n ∧ n ≤ limit ∧ table.LeadsTo n pair.1 c

/-- A comparison goes along the constraints, and comes to an answer about the last one. -/
theorem exists_last_answer (definite : Definite table t) {n limit : Nat} {q : TypeId}
    (leads : table.LeadsTo n q c) (few : n ≤ limit) (onTheWay : OnTheWay table c t n limit σ)
    (done : (relatedWithin strict fuel q t).run σ = some (verdict, τ)) :
    ∃ fuel' verdict' σ' τ', OnTheWay table c t 0 limit σ' ∧
      (relatedWithin strict fuel' c t).run σ' = some (verdict', τ') ∧ τ'.table = τ.table ∧
      (verdict = .ok () ↔ verdict' = .ok ()) := by
  induction leads generalizing σ τ fuel verdict with
  | last => exact ⟨fuel, verdict, σ, τ, onTheWay, done, rfl, .rfl⟩
  | @step n q bound c constraint rest ih =>
      cases fuel with
      | zero => cases done
      | succ fuel =>
          have outside : (q, t) ∉ σ.inProgress := fun assumed => by
            obtain ⟨-, m, more, -, again⟩ := onTheWay.begun _ assumed
            exact Nat.ne_of_lt more (LeadsTo.unique (.step constraint rest) again).1
          have entered : OnTheWay table c t n limit (σ.entered q t false) := by
            refine ⟨onTheWay.here, onTheWay.flat, fun pair member => ?_⟩
            rcases Std.ExtTreeSet.mem_insert.mp member with same | before
            · obtain rfl := Std.LawfulEqCmp.eq_of_compare same
              exact ⟨rfl, n + 1, Nat.lt_succ_self n, few, .step constraint rest⟩
            · obtain ⟨aim, m, more, below, others⟩ := onTheWay.begun pair before
              exact ⟨aim, m, Nat.lt_of_succ_lt more, below, others⟩
          obtain rfl := onTheWay.here
          rw [run_relatedWithin_parameter definite (flag_of_constraint constraint) outside,
            run_structureRelated_constraint (σ := σ.entered q t false) constraint,
            Option.map_map] at done
          obtain ⟨⟨given, ρ⟩, run, same⟩ := Option.map_eq_some_iff.mp done
          obtain ⟨rfl, rfl⟩ := Prod.mk.inj same
          obtain ⟨fuel', verdict', σ', τ', later, answered, table, same⟩ :=
            ih (Nat.le_of_succ_le few) entered run
          refine ⟨fuel', verdict', σ', τ', later, answered, table, Iff.trans ?_ same⟩
          cases given <;> simp [Except.mapError]

/-- A type parameter without a constraint is refused. -/
theorem refused_of_unbounded {limit : Nat} (definite : Definite table t)
    (free : table.constraint? c = none) (parameter : table.flag c = .typeParameter)
    (onTheWay : OnTheWay table c t 0 limit σ)
    (done : (relatedWithin strict fuel c t).run σ = some (verdict, τ)) : verdict ≠ .ok () := by
  have outside : (c, t) ∉ σ.inProgress := fun assumed => by
    obtain ⟨-, n, more, -, again⟩ := onTheWay.begun _ assumed
    exact Nat.ne_of_gt more (LeadsTo.unique again (.last free)).1
  obtain rfl := onTheWay.here
  cases fuel with
  | zero => cases done
  | succ fuel =>
      rw [run_relatedWithin_parameter definite parameter outside, structureRelated,
        StateT.run_bind, StateT.run_get, pure_bind] at done
      have unbounded : ∃ name, σ.table.kind c = .typeParameter name none := by
        cases entry : σ.table.kind c with
        | typeParameter name constraint =>
            rw [constraint_of_kind entry] at free
            exact ⟨name, by rw [free]⟩
        | _ => simp [flag, entry, TypeKind.flag] at parameter
      obtain ⟨name, entry⟩ := unbounded
      have entered : (σ.entered c t false).table.kind c = .typeParameter name none := entry
      dsimp only at done
      rw [entered] at done
      obtain ⟨rfl, -⟩ := Prod.mk.inj (Option.some.inj done)
      simp

/-- Under the body of the last type, what is on the way is ahead of what begins there. -/
theorem OnTheWay.ahead {limit : Nat} (onTheWay : OnTheWay table c t 0 limit σ) (u : TypeTable)
    (body : TypeId) (expanded : Bool) : Ahead u (fun q => (q, t) ∈ σ.inProgress) body t
      (Session.entered { σ with table := u } body t expanded)
      (Session.entered { Session.ofTable table with table := u } body t expanded) where
  table := rfl
  depth := by simp [Session.entered, Session.ofTable, onTheWay.flat]
  developed := .refl u
  held := Std.ExtTreeSet.mem_insert_self
  progress pair := by
    have begun : pair ∈ σ.inProgress ↔ pair.2 = t ∧ (pair.1, t) ∈ σ.inProgress := by
      constructor
      · intro assumed
        obtain ⟨rfl, -⟩ := onTheWay.begun pair assumed
        exact ⟨rfl, assumed⟩
      · rintro ⟨rfl, assumed⟩
        exact assumed
    simp [Session.entered, Session.ofTable, ← begun]

section Last
variable {u : TypeTable} {body : TypeId} {limit : Nat} (tidy : table.Tidy)
  (definite : Definite table t) (other : table.flag c ≠ .typeParameter)
  (onTheWay : OnTheWay table c t 0 limit σ) (first : (resolve c).run table = (body, u))

include tidy other onTheWay first

/-- The body of the last type is no type parameter, so it is not passed on the way. -/
theorem OnTheWay.outside (solid : u.isWildcard body = false) : (body, t) ∉ σ.inProgress := by
  intro assumed
  have develops := develops_of_resolve first
  obtain ⟨-, n, more, -, leads⟩ := onTheWay.begun _ assumed
  cases leads with
  | last => exact Nat.lt_irrefl 0 more
  | step constraint =>
      rcases (body_of_resolve tidy first solid).2 with rfl | object
      · exact other (flag_of_constraint constraint)
      · have flag := flag_of_constraint (develops.extended.constraint? constraint)
        exact nomatch flag.symm.trans object

theorem OnTheWay.passes_iff : Session.Passes { σ with table := u } c t body t ↔
    Session.Passes { Session.ofTable table with table := u } c t body t := by
  cases wild : u.isWildcard body with
  | true => exact iff_of_true (.inr (.inl (.inl wild))) (.inr (.inl (.inl wild)))
  | false =>
      simp [Session.Passes, Session.Limited, Session.ofTable, expansionLimit, onTheWay.flat,
        onTheWay.outside tidy other first wild]

include definite

theorem OnTheWay.ways (solid : u.isWildcard body = false) :
    Ways u (fun q => (q, t) ∈ σ.inProgress) limit c body t := by
  have develops := develops_of_resolve first
  have inside : c < table.size := by
    refine lt_size_of_kind rfl fun unknown => ?_
    rw [run_resolve_plain (by simp [flag, unknown, TypeKind.flag])] at first
    obtain ⟨rfl, rfl⟩ := Prod.mk.inj first
    simp [isWildcard, flag, unknown, TypeKind.flag, TypeFlag.isWildcard] at solid
  refine ⟨develops.tidy tidy, develops.extended.inside inside, definite.develops tidy develops,
    (body_of_resolve tidy first solid).1, fun q started => ?_⟩
  obtain ⟨-, n, more, few, leads⟩ := onTheWay.begun _ started
  cases leads with
  | last => exact absurd more (Nat.lt_irrefl 0)
  | @step n _ bound _ constraint rest =>
      exact ⟨n, bound, develops.extended.constraint? constraint, few,
        rest.extends develops.extended inside⟩

/-- The answer about the last type is its answer alone. -/
theorem exists_answer_alone (done : (relatedWithin strict fuel c t).run σ = some (verdict, τ)) :
    ∃ fuel' τ', (relatedWithin strict fuel' c t).run (.ofTable table) = some (verdict, τ') ∧
      τ'.table = τ.table := by
  cases fuel with
  | zero => cases done
  | succ fuel =>
      by_cases same : c = t
      · rw [relatedWithin, if_pos same] at done
        obtain ⟨rfl, rfl⟩ := Prod.mk.inj (Option.some.inj done)
        refine ⟨1, .ofTable table, ?_, onTheWay.here.symm⟩
        rw [relatedWithin, if_pos same]
        rfl
      have later : Definite u t := definite.develops tidy (develops_of_resolve first)
      have second : (resolve t).run u = (t, u) := run_resolve_plain later.whole
      have alone (fuel : Nat) : (relatedWithin strict (fuel + 1) c t).run (.ofTable table) =
          (bodiesRelated strict (relatedWithin strict fuel) c t).run (.ofTable table) :=
        run_relatedWithin_apart definite.apart same fuel
      have begin' := onTheWay.here ▸ first
      rw [run_relatedWithin_apart (onTheWay.here ▸ definite.apart) same] at done
      by_cases passes : Session.Passes { σ with table := u } c t body t
      · rw [run_bodiesRelated_of_passes begin' second passes] at done
        obtain ⟨rfl, rfl⟩ := Prod.mk.inj (Option.some.inj done)
        have passes' := (onTheWay.passes_iff tidy other first).mp passes
        exact ⟨1, _, (alone 0).trans (run_bodiesRelated_of_passes first second passes'), rfl⟩
      · have solid : u.isWildcard body = false :=
          Bool.eq_false_iff.mpr fun wild => passes (.inr (.inl (.inl wild)))
        have ways := onTheWay.ways tidy definite other first solid
        rw [run_bodiesRelated_of_not_passes begin' second passes] at done
        obtain ⟨⟨verdict', ρ⟩, run, exits⟩ := Option.map_eq_some_iff.mp done
        obtain ⟨rfl, rfl⟩ := Prod.mk.inj exits
        obtain ⟨ρ', run', later⟩ := mirrors_structureRelated Ahead.aligned
          (ways.mirrors_relatedWithin fuel) c t body t _ _ _ _
          (onTheWay.ahead u body (body != c || t != t)) run
        have passes' := fun yes => passes ((onTheWay.passes_iff tidy other first).mpr yes)
        refine ⟨fuel + limit + 1, ρ'.exited body t (body != c || t != t), ?_, later.table⟩
        rw [alone, run_bodiesRelated_of_not_passes first second passes', run']
        rfl

end Last

/-- Constraints that go round in a circle come back to a pair in progress. -/
theorem accepted_of_endless (definite : Definite table t) {q : TypeId}
    (endless : ∀ n c, ¬table.LeadsTo n q c) (here : σ.table = table)
    (few : (σ.openPairs table.size).card < fuel) :
    (relatedWithin strict fuel q t).run σ = some (.ok (), σ) := by
  induction fuel generalizing q σ with
  | zero => exact absurd few (Nat.not_lt_zero _)
  | succ fuel ih =>
      cases constraint : table.constraint? q with
      | none => exact absurd (.last constraint) (endless 0 q)
      | some bound =>
          have parameter := flag_of_constraint constraint
          have left : q < table.size := by
            obtain ⟨name, entry⟩ := kind_of_constraint constraint
            exact lt_size_of_kind entry (by simp)
          have right : t < table.size := lt_size_of_not_isWildcard definite.solid
          subst here
          rw [run_relatedWithin_apart definite.apart (definite.ne_of_parameter parameter)]
          refine run_bodiesRelated_constraint definite (run_resolve_parameter parameter) constraint
            fun expanded outside => ih ?_ rfl ?_
          · exact fun n c leads => endless (n + 1) c (.step constraint leads)
          · exact Nat.lt_of_lt_of_le (Session.openPairs_entered left right outside expanded)
              (Nat.le_of_lt_succ few)

/-- What is answered about a type parameter, or another type, and a definite target is a yes
just where the constraints lead to a type that is no type parameter and is accepted, or to
nothing, since they go round in a circle. -/
theorem accepted_iff_constraint {p : TypeId} {after : TypeTable} (tidy : table.Tidy)
    (definite : Definite table t) (answered : Answers strict table p t false verdict after) :
    verdict = .ok () ↔
      (∃ n c, table.LeadsTo n p c ∧ table.flag c ≠ .typeParameter ∧
        Answers strict table c t false (.ok ()) after) ∨
      ∀ n c, ¬table.LeadsTo n p c := by
  obtain ⟨fuel, τ, done, rfl⟩ := answers_iff.mp answered
  by_cases ends : ∃ n c, table.LeadsTo n p c
  · obtain ⟨n, c, leads⟩ := ends
    have start : OnTheWay table c t n n (.ofTable table) :=
      ⟨rfl, rfl, fun pair assumed => by simp [Session.ofTable] at assumed⟩
    obtain ⟨fuel', verdict', σ', τ', onTheWay, last, same, iff⟩ :=
      exists_last_answer definite leads (Nat.le_refl n) start done
    rw [iff]
    constructor
    · rintro rfl
      have other : table.flag c ≠ .typeParameter := fun parameter =>
        refused_of_unbounded definite leads.free parameter onTheWay last rfl
      obtain ⟨fuel'', ρ, alone, same'⟩ :=
        exists_answer_alone tidy definite other onTheWay rfl last
      exact .inl ⟨n, c, leads, other, answers_iff.mpr ⟨fuel'', ρ, alone, same'.trans same⟩⟩
    · rintro (⟨m, d, leads', other, accepted⟩ | endless)
      · obtain ⟨rfl, rfl⟩ := leads.unique leads'
        obtain ⟨fuel'', ρ, alone, same'⟩ :=
          exists_answer_alone tidy definite other onTheWay rfl last
        have given := answers_iff.mpr ⟨fuel'', ρ, alone, rfl⟩
        exact (given.unique accepted).1
      · exact absurd leads (endless n c)
  · have endless : ∀ n c, ¬table.LeadsTo n p c := fun n c leads => ends ⟨n, c, leads⟩
    have accepted : Answers strict table p t false (.ok ()) table := answers_iff.mpr
      ⟨_, _, accepted_of_endless definite endless rfl (Nat.lt_succ_self _), rfl⟩
    exact iff_of_true (answered.unique accepted).1 (.inr endless)

end Answers

section Programs

/-- `interface Link { next: Link }` and
`var f: <T extends U, U extends { next: T }>(x: T) => void`. -/
def linked : List SourceFile :=
  [⟨"", [
    .ofInterface "Link" [] [.required "next" (.named "Link" [])],
    .ofVariable "f" (some (.ofSignature [.bounded "T" (.named "U" []),
      .bounded "U" (.ofMembers [.required "next" (.named "T" [])])]
      [.required "x" (some (.named "T" []))] (.ofKeyword .void))) none]⟩]

/-- The table after the check of `linked`. -/
def linkedTable : TypeTable where
  entries := TypeTable.initial.entries ++
    #[.object ⟨some "Link", ⟨[("next", ⟨7, false⟩)]⟩⟩, .typeParameter "T" (some 9),
      .typeParameter "U" (some 10), .object ⟨none, ⟨[("next", ⟨8, false⟩)]⟩⟩,
      .function ⟨[8, 9], [⟨"x", 8, false⟩], TypeId.void⟩]
  resolved := .empty

/-- `T` is accepted as a `Link`, so the object that its constraints lead to is accepted. -/
theorem linked_accepted : ∃ n c after, linkedTable.LeadsTo n 8 c ∧
    linkedTable.flag c ≠ .typeParameter ∧ Answers true linkedTable c 7 false (.ok ()) after := by
  have tidy : linkedTable.Tidy := by
    obtain ⟨c, run, table⟩ : ∃ c, (Checker.new .default).step (declareAndCheck linked) =
        (.ok (), c) ∧ c.table = linkedTable :=
      Checker.exists_step (by decide +kernel) (by decide +kernel)
    exact table ▸ (coherent_declareAndCheck run).tidy
  have definite : Definite linkedTable 7 := by
    refine ⟨rfl, by decide, by decide, fun key => nofun, fun origin g generic => ?_⟩
    have listed := mem_entries_of_kind generic (by simp)
    simp [linkedTable, TypeTable.initial] at listed
  obtain ⟨after, answers⟩ : ∃ after, Answers true linkedTable 8 7 false (.ok ()) after :=
    exists_accepted (by decide +kernel : ((assignableWithin true 8 8 7 false).run
      (.ofTable linkedTable)).any (fun r => r.1.isOk) = true)
  rcases (accepted_iff_constraint tidy definite answers).mp rfl with ⟨n, c, leads⟩ | endless
  · exact ⟨n, c, after, leads⟩
  · exact absurd (.step rfl (.step rfl (.last rfl))) (endless 2 10)

/-- `var f: <T extends T>(x: T) => void`. -/
def selfConstraint : List SourceFile :=
  [⟨"", [.ofVariable "f" (some (.ofSignature [.bounded "T" (.named "T" [])]
    [.required "x" (some (.named "T" []))] (.ofKeyword .void))) none]⟩]

/-- The table after the check of `selfConstraint`. -/
def selfConstraintTable : TypeTable where
  entries := TypeTable.initial.entries ++
    #[.typeParameter "T" (some 7), .function ⟨[7], [⟨"x", 7, false⟩], TypeId.void⟩]
  resolved := .empty

/-- `interface Box<V> { value: V }`, a function type with six type parameters, each of which has
the next one as its constraint, and the last one `number`, and `var b: Box<number>`. -/
def longWay : List SourceFile :=
  [⟨"", [
    .ofInterface "Box" [.free "V"] [.required "value" (.named "V" [])],
    .ofVariable "f" (some (.ofSignature [.bounded "A" (.named "B" []), .bounded "B" (.named "C" []),
      .bounded "C" (.named "D" []), .bounded "D" (.named "E" []), .bounded "E" (.named "F" []),
      .bounded "F" (.ofKeyword .number)] [.required "x" (some (.named "A" []))]
      (.ofKeyword .void))) none,
    .ofVariable "b" (some (.named "Box" [.ofKeyword .number])) none]⟩]

/-- The table after the check of `longWay`. -/
def longWayTable : TypeTable where
  entries := TypeTable.initial.entries ++
    #[.typeParameter "V" none, .object ⟨some "Box", ⟨[("value", ⟨7, false⟩)]⟩⟩,
      .generic ⟨"Box", [7], 8⟩, .typeParameter "A" (some 11), .typeParameter "B" (some 12),
      .typeParameter "C" (some 13), .typeParameter "D" (some 14), .typeParameter "E" (some 15),
      .typeParameter "F" (some TypeId.number),
      .function ⟨[10, 11, 12, 13, 14, 15], [⟨"x", 10, false⟩], TypeId.void⟩,
      .instantiated ⟨9, ⟨[("V", TypeId.number)]⟩⟩]
  resolved := .empty

/-- A type parameter that is its own constraint is accepted as a number. And since every step
along the constraints counts as an expansion where the target is an instance, the first of the
six type parameters is accepted as a `Box<number>`, as which a number is refused. -/
theorem constraints_overlooked :
    (∃ c, (Checker.new .default).step (declareAndCheck selfConstraint) = (.ok (), c) ∧
      (∀ n d, ¬c.table.LeadsTo n 7 d) ∧
        ∀ strict, ∃ after, Answers strict c.table 7 TypeId.number false (.ok ()) after) ∧
    ∃ c, (Checker.new .default).step (declareAndCheck longWay) = (.ok (), c) ∧
      c.table.LeadsTo 6 10 TypeId.number ∧ ∀ strict,
        (∃ after, Answers strict c.table 10 17 false (.ok ()) after) ∧
          ∃ mismatch after,
            Answers strict c.table TypeId.number 17 false (.error mismatch) after := by
  constructor
  · obtain ⟨c, run, table⟩ : ∃ c, (Checker.new .default).step (declareAndCheck selfConstraint) =
        (.ok (), c) ∧ c.table = selfConstraintTable :=
      Checker.exists_step (by decide +kernel) (by decide +kernel)
    refine ⟨c, run, ?_⟩
    rw [table]
    refine ⟨fun n d leads => ?_, fun strict => exists_accepted ((by decide +kernel : ∀ strict,
      ((assignableWithin strict 4 7 TypeId.number false).run (.ofTable selfConstraintTable)).any
        (fun r => r.1.isOk) = true) strict)⟩
    induction n with
    | zero => cases leads with | last free => cases free
    | succ n ih =>
        cases leads with
        | step constraint rest =>
            obtain rfl := Option.some.inj (constraint : some 7 = _)
            exact ih rest
  · obtain ⟨c, run, table⟩ : ∃ c, (Checker.new .default).step (declareAndCheck longWay) =
        (.ok (), c) ∧ c.table = longWayTable :=
      Checker.exists_step (by decide +kernel) (by decide +kernel)
    refine ⟨c, run, ?_⟩
    rw [table]
    refine ⟨.step rfl (.step rfl (.step rfl (.step rfl (.step rfl (.step rfl (.last rfl)))))),
      fun strict => ⟨exists_accepted ((by decide +kernel : ∀ strict,
        ((assignableWithin strict 12 10 17 false).run (.ofTable longWayTable)).any
          (fun r => r.1.isOk) = true) strict), exists_refused ((by decide +kernel : ∀ strict,
        ((assignableWithin strict 12 TypeId.number 17 false).run (.ofTable longWayTable)).any
          (fun r => !r.1.isOk) = true) strict)⟩⟩

end Programs

end Assignability

end StructuralTyping
