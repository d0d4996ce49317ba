import Mathlib.Logic.Function.Iterate
import StructuralTyping.Proofs.DerivedEntries
import StructuralTyping.Proofs.RemainingParameters

/-! What a question leaves behind. Entries and remembered bodies stay, new entries only
mention entries before them, and so every type known before is shown and looked up as it
was. Substitution goes down through the entries of the table it began with and never comes
through one twice, cyclic or not, so what would happen at a greater depth does not matter. -/
namespace StructuralTyping

open TableM (Yields)
open TypeTable

namespace TypeTable

theorem Closed.add {t : TypeTable} {kind : TypeKind} (closed : t.Closed)
    (mentions : ∀ m ∈ kind.mentions, m < t.size) : (t.add kind).2.Closed where
  mentions id inside m mentioned := by
    rw [size_add] at inside ⊢
    rcases Nat.lt_succ_iff_lt_or_eq.mp inside with before | rfl
    · rw [kind_add_of_lt before] at mentioned
      exact Nat.lt_succ_of_lt (closed.mentions id before m mentioned)
    · rw [kind_add_size] at mentioned
      exact Nat.lt_succ_of_lt (mentions m mentioned)
  remembered key body found := by
    obtain ⟨origin, arguments, known⟩ := closed.remembered key body found
    rw [size_add]
    exact ⟨Nat.lt_succ_of_lt origin, fun a member => Nat.lt_succ_of_lt (arguments a member),
      Nat.lt_succ_of_lt known⟩

/-- Since the table `base`, the entries that were appended mention only entries before them. -/
structure Ascending (base t : TypeTable) : Prop extends t.Closed where
  unknown : TypeId.unknown < t.size
  below : ∀ id, base.size ≤ id → id < t.size → ∀ m ∈ (t.kind id).mentions, m < id

namespace Ascending

variable {base t : TypeTable}

theorem start (closed : base.Closed) (unknown : TypeId.unknown < base.size) :
    base.Ascending base :=
  ⟨closed, unknown, fun _ outside inside => absurd inside (Nat.not_lt.mpr outside)⟩

theorem add {kind : TypeKind} (ascending : base.Ascending t)
    (mentions : ∀ m ∈ kind.mentions, m < t.size) : base.Ascending (t.add kind).2 where
  toClosed := ascending.toClosed.add mentions
  unknown := by
    rw [size_add]
    exact Nat.lt_succ_of_lt ascending.unknown
  below id outside inside m mentioned := by
    rw [size_add] at inside
    rcases Nat.lt_succ_iff_lt_or_eq.mp inside with before | rfl
    · rw [kind_add_of_lt before] at mentioned
      exact ascending.below id outside before m mentioned
    · rw [kind_add_size] at mentioned
      exact mentions m mentioned

end Ascending

theorem queryInvariant_ascending (base : TypeTable) : QueryInvariant (Ascending base) where
  closed ascending := ascending.toClosed
  unknown ascending := ascending.unknown
  object ascending _ pairs := by
    refine ascending.add fun m mentioned => ?_
    obtain ⟨p, listed, rfl⟩ := List.mem_map.mp mentioned
    obtain ⟨pair, member, rfl⟩ := List.mem_map.mp listed
    exact forall₂_right (fun _ _ parts => parts.2.2) pairs pair member
  function {t id f parameters returnType} keep ascending entry pairs result := by
    refine ascending.add fun m mentioned => ?_
    simp only [TypeKind.mentions, List.mem_append, List.mem_map, List.mem_singleton] at mentioned
    obtain own | ⟨p, member, rfl⟩ | rfl := mentioned
    · exact (ascending.toClosed.signature entry).typeParameters m (List.mem_of_mem_filter own)
    · exact forall₂_right (Q := fun q => q.type < t.size) (fun _ _ parts => parts.2) pairs p member
    · exact result
  instantiated {t id i arguments} ascending entry pairs := by
    have origin := ascending.toClosed.instanceOrigin entry
    refine ascending.add fun m mentioned => ?_
    rcases List.mem_cons.mp mentioned with rfl | listed
    · exact origin
    · obtain ⟨pair, member, rfl⟩ := List.mem_map.mp listed
      exact forall₂_right (Q := fun q => q.2 < t.size) (fun _ _ parts => parts.2) pairs pair member
  remember {u t id i g body} held entry _ _ extended ascending inside := by
    refine ⟨⟨ascending.mentions, fun key body' found => ?_⟩, ascending.unknown, ascending.below⟩
    rw [Dictionary.find?_insert] at found
    split at found
    · next same =>
        obtain rfl := Option.some.inj found
        subst same
        exact ⟨extended.inside (held.toClosed.instanceOrigin entry),
          fun a member => extended.inside (held.toClosed.argument entry a member), inside⟩
    · exact ascending.remembered key body' found

end TypeTable

/-- What can be asked of a table. -/
inductive Query where
  | substitute (id : TypeId) (bindings : Bindings)
  | resolve (id : TypeId)
  | infer (inference : Inference) (pattern actual : TypeId)
  | contextualType (inference : Inference) (pattern : TypeId)
  | apply (instantiation : Instantiation) (signature : FunctionType)
  | instantiate (id : TypeId) (argumentTypes : List TypeId) (explicit : Option (List TypeId))
  | excessProperties (source target : TypeId)
  | assignable (strict : Bool) (source target : TypeId) (fresh : Bool)

namespace Query

/-- The types that a question is about. -/
def mentions : Query → List TypeId
  | substitute id bindings => id :: bindings.values
  | resolve id => [id]
  | infer i pattern actual => pattern :: actual :: i.bindings.values
  | contextualType i pattern => pattern :: i.bindings.values
  | apply i signature => (TypeKind.function signature).mentions ++ (i.bindings.values ++ i.unresolved)
  | instantiate id argumentTypes explicit => id :: (argumentTypes ++ explicit.getD [])
  | excessProperties source target => [source, target]
  | assignable _ source target _ => [source, target]

/-- The table once the question is answered, whatever the answer is. -/
def after (t : TypeTable) : Query → TypeTable
  | substitute id bindings => ((StructuralTyping.substitute id bindings).run t).2
  | resolve id => ((StructuralTyping.resolve id).run t).2
  | infer i pattern actual => ((i.infer pattern actual).run t).2
  | contextualType i pattern => ((i.contextualType pattern).run t).2
  | apply i signature => ((i.apply signature).run t).2
  | instantiate id argumentTypes explicit =>
      ((StructuralTyping.instantiate id argumentTypes explicit).run t).2
  | excessProperties source target => ((Assignability.excessProperties source target).run t).2
  | assignable strict source target fresh =>
      ((StructuralTyping.assignable strict source target fresh).run t).2

variable {t : TypeTable} (q : Query)

theorem develops (t : TypeTable) : t.Develops (q.after t) := by
  cases q with
  | substitute id bindings => exact derives_substitute id bindings t
  | resolve id => exact derives_resolve id t
  | infer i pattern actual => exact Inference.derives_infer i pattern actual t
  | contextualType i pattern => exact Inference.derives_contextualType i pattern t
  | apply i signature => exact Instantiation.derives_apply i signature t
  | instantiate id argumentTypes explicit => exact derives_instantiate id argumentTypes explicit t
  | excessProperties source target => exact Assignability.derives_excessProperties source target t
  | assignable strict source target fresh => exact derives_assignable strict source target fresh t

/-- What an inference binds at last is what it has found, or `unknown`. -/
theorem contextual_inside {i : Inference} (within : ∀ b ∈ i.bindings.values, b < t.size)
    (unknown : TypeId.unknown < t.size) :
    ∀ b ∈ (i.typeParameters.foldl
      (fun bindings p => if bindings.contains p then bindings else bindings.insert p TypeId.unknown)
      i.bindings).values, b < t.size := by
  refine List.foldlRecOn (motive := fun bindings : Bindings => ∀ b ∈ bindings.values, b < t.size)
    i.typeParameters _ within fun bindings known p _ => ?_
  split
  · exact known
  · exact fun b member => (Dictionary.mem_values_insertIn member).elim (· ▸ unknown) (known b)

theorem keeps {inv : TypeTable → Prop} (query : QueryInvariant inv) (holds : inv t)
    (within : ∀ id ∈ q.mentions, id < t.size) : inv (q.after t) := by
  cases q with
  | substitute id bindings =>
      obtain ⟨inside, bound⟩ := List.forall_mem_cons.mp within
      exact (advances_substitute query holds inside bound).yields.1.keeps holds
  | resolve id =>
      exact (advances_resolve query holds (within id (by simp [mentions]))).yields.1.keeps holds
  | infer i pattern actual =>
      obtain ⟨left, others⟩ := List.forall_mem_cons.mp within
      obtain ⟨right, found⟩ := List.forall_mem_cons.mp others
      exact (Inference.advances_infer query holds found left right).yields.1.keeps holds
  | contextualType i pattern =>
      obtain ⟨inside, found⟩ := List.forall_mem_cons.mp within
      exact (advances_substitute query holds inside
        (contextual_inside found (query.unknown holds))).yields.1.keeps holds
  | apply i signature =>
      obtain ⟨parts, others⟩ := List.forall_mem_append.mp within
      obtain ⟨bound, unresolved⟩ := List.forall_mem_append.mp others
      obtain ⟨typeParameters, signature'⟩ := List.forall_mem_append.mp parts
      obtain ⟨parameters, returnType⟩ := List.forall_mem_append.mp signature'
      have inside : signature.Within t :=
        ⟨typeParameters, fun p member => parameters _ (List.mem_map_of_mem member),
          returnType _ (List.mem_singleton_self _)⟩
      exact (Instantiation.advances_apply query holds bound unresolved inside).yields.1.keeps holds
  | instantiate id argumentTypes explicit =>
      obtain ⟨inside, others⟩ := List.forall_mem_cons.mp within
      obtain ⟨arguments, written⟩ := List.forall_mem_append.mp others
      refine (advances_instantiate query holds inside arguments ?_).yields.1.keeps holds
      rintro ids rfl
      exact written
  | excessProperties source target =>
      exact (Assignability.advances_excessProperties query holds (within _ (by simp [mentions]))
        (within _ (by simp [mentions]))).yields.keeps holds
  | assignable strict source target fresh =>
      exact (Assignability.advances_assignable query strict fresh holds
        (within _ (by simp [mentions])) (within _ (by simp [mentions]))).yields.1.keeps holds

end Query

section Depth

/-- One level of a substitution, with something else for the levels below. -/
def Substitution.level (bindings : Bindings) (below : List TypeId → TypeId → TableM TypeId)
    (visiting : List TypeId) (id : TypeId) : TableM TypeId :=
  match bindings.find? id with
  | some bound => return bound
  | none =>
      if id ∈ visiting then return id
      else do
        let kind ← TableM.kind id
        let rebuilt ← kind.rebuildM bindings (below (id :: visiting))
        if rebuilt = kind then return id else TableM.add rebuilt.unnamed

/-- A substitution that goes down as many levels and comes to something else there. -/
def substituteAbove (below : List TypeId → TypeId → TableM TypeId) (depth : Nat) (id : TypeId)
    (bindings : Bindings) : TableM TypeId :=
  if bindings.isEmpty then return id
  else (Substitution.level bindings)^[depth] below [] id

/-- Resolving with a substitution in place of the one that is used. -/
def resolveBy (replace : TypeId → Bindings → TableM TypeId) (id : TypeId) : TableM TypeId := do
  let table ← get
  match table.kind id with
  | .instantiated i =>
      let key := TypeTable.instantiationKey i
      match table.resolved.find? key with
      | some body => return body
      | none =>
          match table.kind i.origin with
          | .generic g =>
              if table.kind g.body = .pending then return g.body
              else do
                let body ← replace g.body (.ofList (g.typeParameters.zip i.bindings.values))
                modify fun t => { t with resolved := t.resolved.insert key body }
                return body
          | _ => return TypeId.unknown
  | _ => return id

theorem resolveBy_substitute : resolveBy substitute = resolve := rfl

open Substitution (level applyWithin applyWithin_rebuilds)

variable {base : TypeTable} {bindings : Bindings}

theorem applyWithin_succ (fuel : Nat) :
    applyWithin bindings (fuel + 1) = level bindings (applyWithin bindings fuel) := by
  funext visiting id
  cases found : bindings.find? id with
  | some bound => rw [applyWithin, level, found]
  | none =>
      rw [level, found]
      by_cases visited : id ∈ visiting
      · rw [applyWithin, found]
        dsimp only
        rw [if_pos visited, if_pos visited]
      · dsimp only
        rw [applyWithin_rebuilds found visited, if_neg visited]

/-- From every later table the computations do the same, and the first entries stay. -/
def Coincide {α : Type} (base : TypeTable) (m m' : TableM α) : Prop :=
  ∀ u, base.Extends u → m.run u = m'.run u ∧ base.Extends (m'.run u).2

namespace Coincide

variable {α β : Type}

theorem pure (a : α) : Coincide base (pure a) (pure a) := fun _ extended => ⟨rfl, extended⟩

theorem bind {m m' : TableM α} {k k' : α → TableM β} (first : Coincide base m m')
    (next : ∀ a, Coincide base (k a) (k' a)) : Coincide base (m >>= k) (m' >>= k') := by
  intro u extended
  obtain ⟨same, later⟩ := first u extended
  obtain ⟨same', last⟩ := next (m'.run u).1 (m'.run u).2 later
  refine ⟨?_, last⟩
  rw [TableM.run_bind, TableM.run_bind, same]
  exact same'

theorem add (kind : TypeKind) : Coincide base (TableM.add kind) (TableM.add kind) :=
  fun u extended => ⟨rfl, extended.trans (.add u kind)⟩

theorem kind {id : TypeId} {k k' : TypeKind → TableM β} (inside : id < base.size)
    (next : Coincide base (k (base.kind id)) (k' (base.kind id))) :
    Coincide base (TableM.kind id >>= k) (TableM.kind id >>= k') := by
  intro u extended
  rw [← extended.kind id inside] at next
  exact next u extended

theorem mapM {f f' : α → TableM β} {items : List α}
    (each : ∀ a ∈ items, Coincide base (f a) (f' a)) :
    Coincide base (items.mapM f) (items.mapM f') := by
  induction items with
  | nil => exact .pure []
  | cons a rest ih =>
      obtain ⟨here, others⟩ := List.forall_mem_cons.mp each
      rw [List.mapM_cons, List.mapM_cons]
      exact here.bind fun b => (ih others).bind fun bs => .pure (b :: bs)

theorem mapValuesM {κ : Type} {f f' : α → TableM β} {d : Dictionary κ α}
    (each : ∀ a ∈ d.values, Coincide base (f a) (f' a)) :
    Coincide base (d.mapValuesM f) (d.mapValuesM f') := by
  refine (Coincide.mapM fun pair member => ?_).bind fun pairs => .pure _
  exact (each pair.2 (List.mem_map_of_mem member)).bind fun b => .pure _

theorem rebuildM {descend descend' : TypeId → TableM TypeId} {kind : TypeKind}
    (each : ∀ m ∈ kind.parts, Coincide base (descend m) (descend' m)) :
    Coincide base (kind.rebuildM bindings descend) (kind.rebuildM bindings descend') := by
  cases kind with
  | object o =>
      refine (Coincide.mapValuesM fun p member => ?_).bind fun properties => .pure _
      exact (each p.type (List.mem_map_of_mem member)).bind fun m => .pure _
  | function f =>
      refine (Coincide.mapM fun p member => ?_).bind fun parameters => ?_
      · exact (each p.type (List.mem_append_left _ (List.mem_map_of_mem member))).bind
          fun m => .pure _
      · exact (each f.returnType (List.mem_append_right _ (List.mem_singleton_self _))).bind
          fun m => .pure _
  | instantiated i => exact (Coincide.mapValuesM each).bind fun arguments => .pure _
  | _ => exact .pure _

end Coincide

/-- The way down is no longer than the table: whatever stands below it does not matter. -/
theorem coincide_levels (closed : base.Closed) (below : List TypeId → TypeId → TableM TypeId)
    (depth fuel : Nat) {visiting : List TypeId} {id : TypeId}
    (through : base.CameThrough visiting id) (inside : id < base.size)
    (deep : base.size < visiting.length + depth) (fueled : base.size < visiting.length + fuel) :
    Coincide base ((level bindings)^[depth] below visiting id)
      (applyWithin bindings fuel visiting id) := by
  induction depth generalizing visiting id fuel with
  | zero => exact absurd through.length_le (by omega)
  | succ depth ih =>
      cases fuel with
      | zero => exact absurd through.length_le (by omega)
      | succ fuel =>
          rw [Function.iterate_succ_apply', applyWithin_succ, level, level]
          split
          · exact .pure _
          split
          · exact .pure _
          next unvisited =>
          refine .kind inside ((Coincide.rebuildM fun m part => ?_).bind fun rebuilt => ?_)
          · exact ih fuel (through.down unvisited inside part) (closed.part inside part)
              (by rw [List.length_cons]; omega) (by rw [List.length_cons]; omega)
          · split
            · exact .pure _
            · exact .add _

variable {t : TypeTable}

/-- A substitution ends before it has gone down as many levels as there are types. -/
theorem run_substituteAbove (closed : t.Closed) {id : TypeId} (inside : id < t.size)
    (below : List TypeId → TypeId → TableM TypeId) {depth : Nat} (deep : t.size < depth)
    (bindings : Bindings) :
    (substituteAbove below depth id bindings).run t = (substitute id bindings).run t := by
  rw [substituteAbove, substitute]
  split
  · rfl
  · exact (coincide_levels closed below depth (t.size + 1) (.start t id) inside (by simpa)
      (by simp) t (.refl t)).1

theorem run_resolveBy (closed : t.Closed) (id : TypeId)
    (below : List TypeId → TypeId → TableM TypeId) {depth : Nat} (deep : t.size < depth) :
    (resolveBy (substituteAbove below depth) id).run t = (resolve id).run t := by
  have read : (get : TableM TypeTable).run t = (t, t) := rfl
  rw [← resolveBy_substitute, resolveBy, resolveBy, TableM.run_bind, TableM.run_bind, read]
  dsimp only
  split
  · split
    · rfl
    · split
      · next g generic =>
          split
          · rfl
          · rw [TableM.run_bind, run_substituteAbove closed (closed.genericBody generic) below deep]
            rfl
      · rfl
  · rfl

end Depth

section Questions
variable {t : TypeTable}

theorem Query.ascends (closed : t.Closed) (unknown : TypeId.unknown < t.size) (q : Query)
    (within : ∀ id ∈ q.mentions, id < t.size) : t.Ascending (q.after t) :=
  q.keeps (queryInvariant_ascending t) (.start closed unknown) within

/-- A question leaves every entry and every remembered body as it was. In a table that
mentions only its own entries, types are shown as before, substitution and resolution end
within the depth of the table, and what a question about entries appends mentions entries
before it. -/
theorem query_extends (t : TypeTable) (q : Query) :
    (∀ id < t.size, id < (q.after t).size ∧ (q.after t).kind id = t.kind id ∧
      (q.after t).flag id = t.flag id ∧ (q.after t).asObject? id = t.asObject? id) ∧
    (∀ key body, t.resolved.find? key = some body →
      (q.after t).resolved.find? key = some body) ∧
    (t.Closed →
      (∀ id < t.size, (q.after t).text id = t.text id) ∧
      (∀ below depth, t.size < depth → ∀ id < t.size,
        (∀ bindings, (substituteAbove below depth id bindings).run t =
          (substitute id bindings).run t) ∧
        (resolveBy (substituteAbove below depth) id).run t = (resolve id).run t) ∧
      (TypeId.unknown < t.size → (∀ id ∈ q.mentions, id < t.size) →
        (q.after t).Closed ∧ ∀ id, t.size ≤ id → id < (q.after t).size →
          ∀ m ∈ ((q.after t).kind id).mentions, m < id)) := by
  have develops := q.develops t
  have extended := develops.extended
  refine ⟨fun id inside => ?_, fun key body => develops.remembers, fun closed => ⟨?_, ?_, ?_⟩⟩
  · exact ⟨extended.inside inside, extended.kind id inside,
      congrArg TypeKind.flag (extended.kind id inside), extended.asObject? inside⟩
  · exact fun id inside => text_extends closed extended inside
  · exact fun below depth deep id inside =>
      ⟨run_substituteAbove closed inside below deep, run_resolveBy closed id below deep⟩
  · intro unknown within
    have ascends := q.ascends closed unknown within
    exact ⟨ascends.toClosed, ascends.below⟩

end Questions

section Lists

/-- `List<T>` with a value and the rest of the list, and `List<number>`. -/
def listTable : TypeTable where
  entries := TypeTable.initial.entries ++
    #[.typeParameter "T" none, .object ⟨some "List", ⟨[("value", ⟨7, false⟩), ("rest", ⟨10, true⟩)]⟩⟩,
      .generic ⟨"List", [7], 8⟩, .instantiated ⟨9, ⟨[("T", 7)]⟩⟩,
      .instantiated ⟨9, ⟨[("T", TypeId.number)]⟩⟩]
  resolved := .empty

/-- The body of a list is resolved, which makes a type for the rest of the list. -/
theorem listTable_extends :
    let after := (Query.resolve 11).after listTable
    after.size = 14 ∧ after.kind 12 = .instantiated ⟨9, ⟨[("T", TypeId.number)]⟩⟩ ∧
      after.kind 13 = .object ⟨none, ⟨[("value", ⟨TypeId.number, false⟩), ("rest", ⟨12, true⟩)]⟩⟩ ∧
      after.kind 8 = listTable.kind 8 ∧ after.text 11 = listTable.text 11 ∧
      (∀ m ∈ (after.kind 13).mentions, m < 13) ∧
      (resolveBy (substituteAbove (fun _ _ => pure TypeId.unknown) 13) 11).run listTable =
        (resolve 11).run listTable := by
  have closed : listTable.Closed := (WellFormed.of_fits (by decide) rfl).toClosed
  have within : ∀ id ∈ (Query.resolve 11).mentions, id < listTable.size := by decide
  obtain ⟨kept, -, rest⟩ := query_extends listTable (.resolve 11)
  obtain ⟨shown, ends, appended⟩ := rest closed
  refine ⟨by decide, by decide, by decide, (kept 8 (by decide)).2.1, shown 11 (by decide), ?_,
    (ends _ 13 (by decide) 11 (by decide)).2⟩
  exact (appended (by decide) within).2 13 (by decide) (by decide)

end Lists

end StructuralTyping
