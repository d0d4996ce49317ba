import StructuralTyping.Proofs.ComparisonRuns
import StructuralTyping.Proofs.TableLookups

/-! Invariants of the table under queries. A query only appends copies of entries, with
parts that are entries, and remembers bodies. An invariant that survives these two
survives substitution, resolution, inference, instantiation and every comparison, and
whatever these look up and give is an entry. -/
namespace StructuralTyping

open TableM (Asks)

namespace TypeTable

/-- The table is extended, the invariant is kept, and the bodies that have been made are
remembered. -/
structure Advances (inv : TypeTable → Prop) (t t' : TypeTable) : Prop where
  extended : t.Extends t'
  keeps : inv t → inv t'
  remembers : ∀ key body, t.resolved.find? key = some body → t'.resolved.find? key = some body

namespace Advances

variable {inv : TypeTable → Prop} {t t' t'' : TypeTable}

theorem refl (t : TypeTable) : Advances inv t t := ⟨.refl t, id, fun _ _ => id⟩

theorem trans (one : Advances inv t t') (two : Advances inv t' t'') : Advances inv t t'' :=
  ⟨one.extended.trans two.extended, two.keeps ∘ one.keeps,
    fun key body found => two.remembers key body (one.remembers key body found)⟩

theorem growth : Growth (Advances inv) := ⟨.refl, .trans⟩

theorem add {kind : TypeKind} (holds : inv (t.add kind).2) : Advances inv t (t.add kind).2 :=
  ⟨.add t kind, fun _ => holds, fun _ _ found => found⟩

theorem inside {id : TypeId} (advances : Advances inv t t') (known : id < t.size) : id < t'.size :=
  Nat.lt_of_lt_of_le known advances.extended.size

theorem each {ids : List TypeId} (advances : Advances inv t t') (known : ∀ id ∈ ids, id < t.size) :
    ∀ id ∈ ids, id < t'.size :=
  fun id member => advances.inside (known id member)

end Advances

/-- The invariant survives what queries do to a table. -/
structure QueryInvariant (inv : TypeTable → Prop) : Prop where
  closed {t : TypeTable} : inv t → t.Closed
  unknown {t : TypeTable} : inv t → TypeId.unknown < t.size
  object {t : TypeTable} {id : TypeId} {o : ObjectType} {properties : Dictionary String Property} :
    inv t → t.kind id = .object o →
      List.Forall₂ (fun p q => q.1 = p.1 ∧ q.2.optional = p.2.optional ∧ q.2.type < t.size)
        o.properties.pairs properties.pairs →
      inv (t.add (.object ⟨none, properties⟩)).2
  function {t : TypeTable} {id : TypeId} {f : FunctionType} {parameters : List Parameter}
      {returnType : TypeId} (keep : TypeId → Bool) :
    inv t → t.kind id = .function f →
      List.Forall₂ (fun (p q : Parameter) => q.optional = p.optional ∧ q.type < t.size)
        f.parameters parameters →
      returnType < t.size →
      inv (t.add (.function ⟨f.typeParameters.filter keep, parameters, returnType⟩)).2
  instantiated {t : TypeTable} {id : TypeId} {i : InstantiatedType}
      {arguments : Dictionary String TypeId} :
    inv t → t.kind id = .instantiated i →
      List.Forall₂ (fun p q => q.1 = p.1 ∧ q.2 < t.size) i.bindings.pairs arguments.pairs →
      inv (t.add (.instantiated ⟨i.origin, arguments⟩)).2
  /-- A body that is remembered was made from the body of the origin in a table before. -/
  remember {u t : TypeTable} {id : TypeId} {i : InstantiatedType} {g : GenericType}
      {body : TypeId} :
    inv u → u.kind id = .instantiated i → u.kind i.origin = .generic g →
      (substitute g.body (.ofList (g.typeParameters.zip i.bindings.values))).run u = (body, t) →
      u.Extends t → inv t → body < t.size →
      inv { t with resolved := t.resolved.insert (instantiationKey i) body }

/-- Everything mentioned is an entry, and so is the type `unknown`, which queries fall back on. -/
structure Grounded (t : TypeTable) : Prop extends t.WellFormed where
  unknown : TypeId.unknown < t.size

namespace Grounded

variable {t : TypeTable} (grounded : t.Grounded)

include grounded

theorem add {kind : TypeKind} (mentions : ∀ m ∈ kind.mentions, m < t.size)
    (origin : ∀ i, kind = .instantiated i → ∃ g, t.kind i.origin = .generic g) :
    (t.add kind).2.Grounded where
  toWellFormed := (grounded.toWellFormed.sound.add (fun m member => ⟨mentions m member, trivial⟩)
    origin nofun).toWellFormed
  unknown := Nat.lt_of_lt_of_le grounded.unknown (Extends.add t kind).size

theorem addObject {name : Option String} {properties : Dictionary String Property}
    (each : ∀ q ∈ properties.pairs, q.2.type < t.size) :
    (t.add (.object ⟨name, properties⟩)).2.Grounded := by
  refine grounded.add (fun m mentioned => ?_) nofun
  obtain ⟨p, listed, rfl⟩ := List.mem_map.mp mentioned
  obtain ⟨pair, member, rfl⟩ := List.mem_map.mp listed
  exact each pair member

theorem addFunction {f : FunctionType} (typeParameters : ∀ p ∈ f.typeParameters, p < t.size)
    (parameters : ∀ p ∈ f.parameters, p.type < t.size) (result : f.returnType < t.size) :
    (t.add (.function f)).2.Grounded := by
  refine grounded.add (fun m mentioned => ?_) nofun
  simp only [TypeKind.mentions, List.mem_append, List.mem_map, List.mem_singleton] at mentioned
  obtain own | ⟨p, member, rfl⟩ | rfl := mentioned
  · exact typeParameters m own
  · exact parameters p member
  · exact result

theorem addInstance {i : InstantiatedType} {g : GenericType} (origin : t.kind i.origin = .generic g)
    (arguments : ∀ p ∈ i.bindings.pairs, p.2 < t.size) :
    (t.add (.instantiated i)).2.Grounded := by
  refine grounded.add (fun m mentioned => ?_) fun j same => ?_
  · rcases List.mem_cons.mp mentioned with rfl | listed
    · exact lt_size_of_kind origin nofun
    · obtain ⟨pair, member, rfl⟩ := List.mem_map.mp listed
      exact arguments pair member
  · exact TypeKind.instantiated.inj same ▸ ⟨g, origin⟩

end Grounded

theorem queryInvariant_grounded : QueryInvariant Grounded where
  closed grounded := grounded.toClosed
  unknown grounded := grounded.unknown
  object grounded _ pairs := grounded.addObject (forall₂_right (fun _ _ parts => parts.2.2) pairs)
  function _ grounded entry pairs result := by
    refine grounded.addFunction (fun p member => ?_)
      (forall₂_right (fun _ _ parts => parts.2) pairs) result
    refine grounded.mentions _ (lt_size_of_kind entry (by simp)) p ?_
    simp [entry, TypeKind.mentions, List.mem_of_mem_filter member]
  instantiated grounded entry pairs := by
    obtain ⟨g, origin⟩ := grounded.origin _ (lt_size_of_kind entry (by simp)) _ entry
    exact grounded.addInstance origin (forall₂_right (fun _ _ parts => parts.2) pairs)
  remember held entry generic _ extended grounded inside := by
    have origin := Nat.lt_of_lt_of_le (held.instanceOrigin entry) extended.size
    have arguments := fun a member => Nat.lt_of_lt_of_le (held.argument entry a member) extended.size
    exact ⟨(sound_remember grounded.toWellFormed.sound origin arguments ⟨inside, trivial⟩).toWellFormed,
      grounded.unknown⟩

end TypeTable

open TypeTable

section Queries
variable {inv : TypeTable → Prop} (query : QueryInvariant inv) {bindings : Bindings}

theorem advances_add {t : TypeTable} {kind : TypeKind} (holds : inv (t.add kind).2) :
    Asks (TableM.add kind) t fun id t' => Advances inv t t' ∧ id < t'.size :=
  .add ⟨.add holds, by simp⟩

include query

theorem advances_applyWithin (fuel : Nat) {visiting : List TypeId} {id : TypeId} {t : TypeTable}
    (holds : inv t) (inside : id < t.size) (bound : ∀ b ∈ bindings.values, b < t.size) :
    Asks (Substitution.applyWithin bindings fuel visiting id) t fun id' t' =>
      Advances inv t t' ∧ id' < t'.size := by
  induction fuel generalizing visiting id t with
  | zero => exact .pure ⟨.refl t, inside⟩
  | succ fuel ih =>
      have kept : Asks (pure id) t fun id' t' => Advances inv t t' ∧ id' < t'.size :=
        .pure ⟨.refl t, inside⟩
      rw [Substitution.applyWithin]
      cases found : bindings.find? id with
      | some b => exact .pure ⟨.refl t, bound b (List.mem_map_of_mem (Dictionary.mem_of_find? found))⟩
      | none =>
          dsimp only
          split
          · exact kept
          have mentions := (query.closed holds).mentions id inside
          have descend : ∀ m ∈ (t.kind id).mentions, ∀ t', Advances inv t t' →
              Asks (Substitution.applyWithin bindings fuel (id :: visiting) m) t' fun m' t'' =>
                Advances inv t' t'' ∧ m' < t''.size := fun m mentioned t' advances =>
            ih (advances.keeps holds) (advances.inside (mentions m mentioned)) (advances.each bound)
          have stable : ∀ (_ m : TypeId) u u', Advances inv u u' → m < u.size → m < u'.size :=
            fun _ _ _ _ advances known => advances.inside known
          refine (Asks.kind inside).bind ?_
          rintro k t ⟨rfl, same⟩
          have later {u : TypeTable} (advances : Advances inv t u) : u.kind id = k :=
            (advances.extended.kind id inside).trans same.symm
          rw [← same] at descend mentions
          split
          · next o =>
              have replaced := Asks.sequential.properties Advances.growth stable fun p member =>
                descend p.type (List.mem_map_of_mem member)
              refine replaced.bind ?_
              rintro properties u ⟨advances, pairs⟩
              split
              · exact .pure ⟨advances, advances.inside inside⟩
              · have added := query.object (advances.keeps holds) (later advances) pairs
                exact (advances_add added).weaken fun _ _ grown =>
                  ⟨advances.trans grown.1, grown.2⟩
          · next f =>
              have replaced := Asks.sequential.parameters Advances.growth stable
                fun (p : Parameter) (member : p ∈ f.parameters) =>
                  descend p.type (by simp only [TypeKind.mentions]; grind)
              refine replaced.bind ?_
              rintro parameters u ⟨advances, pairs⟩
              have result := descend f.returnType (by simp [TypeKind.mentions]) u advances
              refine result.bind ?_
              rintro returnType u' ⟨further, resultInside⟩
              have reached := advances.trans further
              split
              · exact .pure ⟨reached, reached.inside inside⟩
              · have each : List.Forall₂ (fun (p q : Parameter) =>
                    q.optional = p.optional ∧ q.type < u'.size) f.parameters parameters :=
                  pairs.imp fun _ _ kept =>
                    ⟨by rw [kept.1], further.inside kept.2⟩
                have added := query.function (fun p => !bindings.contains p) (reached.keeps holds)
                  (later reached) each resultInside
                exact (advances_add added).weaken fun _ _ grown =>
                  ⟨reached.trans grown.1, grown.2⟩
          · next i =>
              have replaced := Asks.sequential.mapValuesM Advances.growth stable
                fun (a : TypeId) (member : a ∈ i.bindings.values) =>
                  descend a (by simp [TypeKind.mentions, member])
              refine replaced.bind ?_
              rintro arguments u ⟨advances, pairs⟩
              split
              · exact .pure ⟨advances, advances.inside inside⟩
              · have added := query.instantiated (advances.keeps holds) (later advances) pairs
                exact (advances_add added).weaken fun _ _ grown =>
                  ⟨advances.trans grown.1, grown.2⟩
          · exact kept

theorem advances_substitute {id : TypeId} {t : TypeTable} (holds : inv t) (inside : id < t.size)
    (bound : ∀ b ∈ bindings.values, b < t.size) :
    Asks (substitute id bindings) t fun id' t' => Advances inv t t' ∧ id' < t'.size := by
  rw [substitute]
  split
  · exact .pure ⟨.refl t, inside⟩
  · refine .read (fun more more' same => ?_)
      (advances_applyWithin query (t.size + 1) holds inside bound)
    rw [size_followedBy, size_followedBy, same]

theorem advances_resolve {id : TypeId} {t : TypeTable} (holds : inv t) (inside : id < t.size) :
    Asks (resolve id) t fun id' t' => Advances inv t t' ∧ id' < t'.size := by
  have closed := query.closed holds
  refine .read (.of_same fun u extended resolved => ?_) ?_
  · dsimp only
    rw [extended.kind id inside, resolved]
    split
    · next i instantiated =>
        rw [extended.kind i.origin (closed.instanceOrigin instantiated)]
        split
        · rfl
        · split
          · next g generic =>
              rw [extended.kind g.body (closed.genericBody generic)]
          · rfl
    · rfl
  split
  · next i instantiated =>
      have origin := closed.instanceOrigin instantiated
      have arguments := closed.argument instantiated
      dsimp only
      split
      · next body found => exact .pure ⟨.refl t, (closed.remembered _ body found).2.2⟩
      · next unmade =>
        split
        case h_2 => exact .pure ⟨.refl t, query.unknown holds⟩
        next g generic =>
        have body := closed.genericBody generic
        split
        · exact .pure ⟨.refl t, body⟩
        · have made (m : TableM TypeId) : TableM.Yields m t fun body u => m.run t = (body, u) := rfl
          refine ((advances_substitute query holds body ?_).and (made _)).bind ?_
          · intro b member
            obtain ⟨pair, supplied, rfl⟩ := List.mem_map.mp (Dictionary.mem_values_ofList member)
            exact arguments pair.2 (List.of_mem_zip supplied).2
          · rintro body' u ⟨⟨advances, new⟩, run⟩
            have remembered := query.remember holds instantiated generic run advances.extended
              (advances.keeps holds) new
            have kept : Asks (modify fun t => { t with
                resolved := t.resolved.insert (instantiationKey i) body' } : TableM PUnit) u
                fun _ t' => Advances inv t t' ∧ body' < t'.size := by
              refine ⟨.remember _ _ u, ⟨⟨advances.extended.size, advances.extended.kind⟩,
                fun _ => remembered, fun key body found => ?_⟩, new⟩
              have other : instantiationKey i ≠ key := by
                rintro rfl
                simp [unmade] at found
              change (u.resolved.insert (instantiationKey i) body').find? key = some body
              rw [Dictionary.find?_insert, if_neg other]
              exact advances.remembers key body found
            exact kept.bind fun _ _ holds => .pure holds
  · exact .pure ⟨.refl t, inside⟩

end Queries

/-- The types that an error is about. -/
def InferenceError.mentions : InferenceError → List TypeId
  | notAFunction id => [id]
  | typeArgumentCount _ _ => []
  | inconsistent parameter first second => [parameter, first, second]

/-- An error is about entries. -/
def InferenceError.Within (e : InferenceError) (t : TypeTable) : Prop := ∀ m ∈ e.mentions, m < t.size

namespace Inference

/-- What has been found has the property. -/
def Found (known : TypeTable → TypeId → Prop) (i : Inference) (t : TypeTable) : Prop :=
  ∀ b ∈ i.bindings.values, known t b

/-- The type is an entry. -/
abbrev Entry (t : TypeTable) (id : TypeId) : Prop := id < t.size

/-- What has been found are entries. -/
abbrev Within (i : Inference) (t : TypeTable) : Prop := i.Found Entry t

/-- A property of entries that queries keep and that passes on to the parts and the body of
a type. -/
structure PassesOn (inv : TypeTable → Prop) (known : TypeTable → TypeId → Prop) : Prop where
  inside {t : TypeTable} {id : TypeId} : known t id → id < t.size
  advances {t t' : TypeTable} {id : TypeId} : inv t → Advances inv t t' → known t id → known t' id
  part {t : TypeTable} {id m : TypeId} :
    inv t → known t id → m ∈ (t.kind id).parts → known t m
  body {t : TypeTable} {id : TypeId} :
    inv t → known t id → TableM.Yields (resolve id) t fun body t' => known t' body

theorem passesOn_entry {inv : TypeTable → Prop} (query : QueryInvariant inv) :
    PassesOn inv Entry where
  inside := id
  advances _ advances inside := advances.inside inside
  part holds inside part := (query.closed holds).part inside part
  body holds inside := (advances_resolve query holds inside).yields.2

/-- The inference looks for the same type parameters as before, and what it has bound since
is among them. -/
structure Continues (i i' : Inference) : Prop where
  typeParameters : i'.typeParameters = i.typeParameters
  bindings : ∀ p, i'.bindings.contains p = true → i.bindings.contains p = true ∨ p ∈ i.typeParameters

namespace Continues

variable {i i' i'' : Inference}

theorem refl (i : Inference) : i.Continues i := ⟨rfl, fun _ => .inl⟩

theorem trans (one : i.Continues i') (two : i'.Continues i'') : i.Continues i'' where
  typeParameters := two.typeParameters.trans one.typeParameters
  bindings p bound :=
    (two.bindings p bound).elim (one.bindings p) fun listed => .inr (one.typeParameters ▸ listed)

end Continues

/-- The matching has kept the invariant and bound type parameters that are looked for to
types with the property, up to a conflict as well, which is about entries. -/
structure Matched {α : Type} (inv : TypeTable → Prop) (known : TypeTable → TypeId → Prop)
    (t : TypeTable) (i : Inference) (post : α → TypeTable → Prop)
    (outcome : Except InferenceError α × TypeTable × Inference) : Prop where
  advances : Advances inv t outcome.2.1
  found : outcome.2.2.Found known outcome.2.1
  continues : i.Continues outcome.2.2
  holds : ∀ a, outcome.1 = .ok a → post a outcome.2.1
  conflict : ∀ e, outcome.1 = .error e → e.Within outcome.2.1

/-- From this table and inference, the matching looks inside, and this is what it comes to. -/
structure Matches {α : Type} (inv : TypeTable → Prop) (known : TypeTable → TypeId → Prop)
    (m : MatchM α) (t : TypeTable) (i : Inference) (post : α → TypeTable → Prop) : Prop where
  looks : m.LooksInside (t, i)
  comes : Matched inv known t i post (m.run.run (t, i))

/-- Any result will do. -/
abbrev Anything {α : Type} (_ : α) (_ : TypeTable) : Prop := True

namespace Matches

variable {α β : Type} {inv : TypeTable → Prop} {known : TypeTable → TypeId → Prop} {t : TypeTable}
  {i : Inference}

theorem pure {a : α} {post : α → TypeTable → Prop} (found : i.Found known t) (holds : post a t) :
    Matches inv known (pure a) t i post :=
  ⟨.pure a (t, i), .refl t, found, .refl i, fun _ same => Except.ok.inj same ▸ holds, nofun⟩

theorem bind {m : MatchM α} {k : α → MatchM β} {middle : α → TypeTable → Prop}
    {post : β → TypeTable → Prop} (first : Matches inv known m t i middle)
    (next : ∀ a t' i', Advances inv t t' → i'.Found known t' → middle a t' →
      Matches inv known (k a) t' i' post) : Matches inv known (m >>= k) t i post := by
  obtain ⟨looks, comes⟩ := first
  refine ⟨.bind looks fun a s' done => ?_, ?_⟩
  · rw [done] at comes
    exact (next a s'.1 s'.2 comes.advances comes.found (comes.holds a rfl)).looks
  rw [ExceptT.run_bind, StateT.run_bind]
  generalize m.run.run (t, i) = outcome at comes
  obtain ⟨advances, found, continues, holds, conflict⟩ := comes
  obtain ⟨result, t', i'⟩ := outcome
  cases result with
  | error e =>
      exact ⟨advances, found, continues, nofun, fun _ same => Except.error.inj same ▸ conflict e rfl⟩
  | ok a =>
      have later := (next a t' i' advances found (holds a rfl)).comes
      exact ⟨advances.trans later.advances, later.found, continues.trans later.continues,
        later.holds, later.conflict⟩

theorem read {k : TypeTable × Inference → MatchM β} {post : β → TypeTable → Prop}
    (inside : t.ReadsInside fun u => k (u, i)) (next : Matches inv known (k (t, i)) t i post) :
    Matches inv known (get >>= k) t i post :=
  ⟨.read inside next.looks, next.comes⟩

theorem onTable {m : TableM α} {post : α → TypeTable → Prop} (passes : PassesOn inv known)
    (holds : inv t) (found : i.Found known t)
    (asks : Asks m t fun a t' => Advances inv t t' ∧ post a t') :
    Matches inv known (MatchM.onTable m) t i post :=
  have ⟨advances, result⟩ := asks.yields
  ⟨.onTable asks.looks, advances, fun b member => passes.advances holds advances (found b member),
    .refl i, fun _ same => Except.ok.inj same ▸ result, nofun⟩

theorem ite {p : Prop} [Decidable p] {yes no : MatchM α} {post : α → TypeTable → Prop}
    (one : Matches inv known yes t i post) (two : Matches inv known no t i post) :
    Matches inv known (if p then yes else no) t i post := by
  split
  · exact one
  · exact two

/-- The pairs that are visited do not matter. -/
theorem within {m : MatchM Unit} (pattern actual : TypeId)
    (inner : Matches inv known m t { i with visiting := (pattern, actual) :: i.visiting } Anything) :
    Matches inv known (MatchM.within pattern actual m) t i Anything :=
  have ⟨advances, found, continues, holds, conflict⟩ := inner.comes
  ⟨.within inner.looks, advances, found, ⟨continues.typeParameters, continues.bindings⟩, holds,
    conflict⟩

end Matches

section Matching
variable {inv : TypeTable → Prop} (query : QueryInvariant inv) {known : TypeTable → TypeId → Prop}
  (passes : PassesOn inv known)

/-- Matching a pattern against an actual type with the property. -/
def MatchesPairs (inv : TypeTable → Prop) (known : TypeTable → TypeId → Prop)
    (matchPair : TypeId → TypeId → MatchM Unit) : Prop :=
  ∀ (t : TypeTable) (i : Inference) (pattern actual : TypeId), inv t → i.Found known t →
    pattern < t.size → known t actual → Matches inv known (matchPair pattern actual) t i Anything

include passes

theorem matches_matchAll {matchPair : TypeId → TypeId → MatchM Unit}
    (each : MatchesPairs inv known matchPair) (pairs : List (TypeId × TypeId)) {t : TypeTable}
    {i : Inference} (holds : inv t) (found : i.Found known t)
    (inside : ∀ pair ∈ pairs, pair.1 < t.size ∧ known t pair.2) :
    Matches inv known (matchAll matchPair pairs) t i Anything := by
  induction pairs generalizing t i with
  | nil => exact .pure found trivial
  | cons pair rest ih =>
      obtain ⟨here, later⟩ := List.forall_mem_cons.mp inside
      refine (each t i pair.1 pair.2 holds found here.1 here.2).bind ?_
      intro _ t' i' advances found' _
      refine ih (advances.keeps holds) found' fun other member => ?_
      exact ⟨advances.inside (later other member).1,
        passes.advances holds advances (later other member).2⟩

theorem matches_matchParameter {t : TypeTable} {i : Inference} {parameter actual : TypeId}
    (closed : t.Closed) (found : i.Found known t) (listed : parameter ∈ i.typeParameters)
    (inside : parameter < t.size) (isKnown : known t actual) :
    Matches inv known (matchParameter parameter actual) t i Anything := by
  refine .read (fun _ _ _ => rfl) ?_
  dsimp only
  split
  · refine ⟨.record _ _ _, .refl t, fun b member => ?_, ⟨rfl, fun p bound => ?_⟩,
      fun _ _ => trivial, by rintro _ ⟨⟩⟩
    · rcases Dictionary.mem_values_insertIn member with rfl | before
      · exact isKnown
      · exact found b before
    · by_cases same : parameter = p
      · exact .inr (same ▸ listed)
      · have added : (i.bindings.insert parameter actual).contains p = true := bound
        exact .inl (by simpa [Dictionary.contains_insert, same] using added)
  · next first earlier =>
      have before :=
        passes.inside (found first (List.mem_map_of_mem (Dictionary.mem_of_find? earlier)))
      have actualInside := passes.inside isKnown
      refine .read (fun more more' same => ?_) (.ite (.pure found trivial) ?_)
      · have answer : (t.followedBy more).equals first actual =
            (t.followedBy more').equals first actual :=
          closed.readsInside_equals before actualInside more more' same
        dsimp only
        rw [answer]
      refine ⟨.throw _ _, .refl t, found, .refl i, by simp, ?_⟩
      rintro _ ⟨⟩ m mentioned
      simp only [InferenceError.mentions, List.mem_cons, List.not_mem_nil, or_false] at mentioned
      rcases mentioned with rfl | rfl | rfl
      · exact inside
      · exact before
      · exact actualInside

include query

theorem matches_matchStructure {matchPair : TypeId → TypeId → MatchM Unit}
    (each : MatchesPairs inv known matchPair) {t : TypeTable} {i : Inference}
    {pattern actual : TypeId} (holds : inv t) (found : i.Found known t) (left : pattern < t.size)
    (right : known t actual) :
    Matches inv known (matchStructure matchPair pattern actual) t i Anything := by
  have closed := query.closed holds
  have inside := passes.inside right
  have byBody : Matches inv known (do
      let patternBody ← MatchM.onTable (resolve pattern)
      let actualBody ← MatchM.onTable (resolve actual)
      if patternBody = pattern ∧ actualBody = actual then return ()
      else matchPair patternBody actualBody) t i Anything := by
    refine (Matches.onTable passes holds found (advances_resolve query holds left)).bind ?_
    intro patternBody t' i' one found' leftBody
    have holds' := one.keeps holds
    have rightBody := passes.body holds' (passes.advances holds one right)
    have resolved : Asks (resolve actual) t' fun body t'' => Advances inv t' t'' ∧ known t'' body :=
      ((advances_resolve query holds' (one.inside inside)).and rightBody).weaken
        fun _ _ both => ⟨both.1.1, both.2⟩
    refine (Matches.onTable passes holds' found' resolved).bind ?_
    intro actualBody t'' i'' two found'' rightKnown
    refine .ite (.pure found'' trivial) ?_
    exact each t'' i'' _ _ (two.keeps holds') found'' (two.inside leftBody) rightKnown
  refine .read (.of_same fun u extended _ => ?_) ?_
  · dsimp only
    rw [extended.kind pattern left, extended.kind actual inside]
  dsimp only
  split
  · next p a isPattern isActual =>
      have part {m : TypeId} (part : m ∈ (TypeKind.function a).parts) : known t m :=
        passes.part holds right (isActual ▸ part)
      refine (matches_matchAll passes each _ holds found fun pair member => ?_).bind ?_
      · obtain ⟨⟨x, y⟩, zipped, rfl⟩ := List.mem_map.mp member
        obtain ⟨inPattern, inActual⟩ := List.of_mem_zip zipped
        exact ⟨closed.parameter isPattern x inPattern,
          part (List.mem_append_left _ (List.mem_map_of_mem inActual))⟩
      · intro _ t' i' advances found' _
        exact each t' i' _ _ (advances.keeps holds) found'
          (advances.inside (closed.returnType isPattern))
          (passes.advances holds advances (part (List.mem_append_right _ (List.mem_singleton_self _))))
  · next p a isPattern isActual =>
      refine .ite (matches_matchAll passes each _ holds found fun pair member => ?_) byBody
      obtain ⟨inPattern, inActual⟩ := List.of_mem_zip member
      exact ⟨closed.argument isPattern _ inPattern,
        passes.part holds right (isActual ▸ inActual)⟩
  · exact byBody
  · exact byBody
  · next p a isPattern isActual =>
      refine matches_matchAll passes each _ holds found fun pair member => ?_
      obtain ⟨⟨name, x⟩, inPattern, mapped⟩ := List.mem_filterMap.mp member
      obtain ⟨y, found, rfl⟩ := Option.map_eq_some_iff.mp mapped
      have inActual : y.type ∈ (TypeKind.object a).parts :=
        List.mem_map_of_mem (List.mem_map_of_mem (Dictionary.mem_of_find? found))
      exact ⟨closed.property isPattern x (List.mem_map_of_mem inPattern),
        passes.part holds right (isActual ▸ inActual)⟩
  · exact .pure found trivial

theorem matches_matchWithin (fuel : Nat) : MatchesPairs inv known (matchWithin fuel) := by
  induction fuel with
  | zero => exact fun _ _ _ _ _ found _ _ => .pure found trivial
  | succ fuel ih =>
      intro t i pattern actual holds found left right
      rw [matchWithin_succ]
      refine .read (.of_same fun u extended _ => ?_) (.ite (.pure found trivial) ?_)
      · dsimp only
        rw [isWildcard, flag, extended.kind actual (passes.inside right)]
        rfl
      refine .read (fun _ _ _ => rfl) ?_
      dsimp only
      split
      · next listed =>
          exact matches_matchParameter passes (query.closed holds) found listed left right
      · refine .ite (.pure found trivial) (.ite (.pure found trivial) (.within _ _ ?_))
        exact matches_matchStructure query passes ih holds found left right

theorem infer_found {t : TypeTable} {i : Inference} {pattern actual : TypeId} (holds : inv t)
    (found : i.Found known t) (left : pattern < t.size) (right : known t actual) :
    Asks (i.infer pattern actual) t fun outcome t' =>
      Advances inv t t' ∧ outcome.2.Found known t' ∧ i.Continues outcome.2 ∧
        ∀ e, outcome.1 = .error e → e.Within t' :=
  have ⟨looks, comes⟩ :=
    matches_matchWithin query passes (depthLimit + 1) t i pattern actual holds found left right
  ⟨.infer looks, comes.advances, comes.found, comes.continues, comes.conflict⟩

theorem inferAll_found (pairs : List (TypeId × TypeId)) {t : TypeTable} {i : Inference}
    (holds : inv t) (found : i.Found known t)
    (inside : ∀ pair ∈ pairs, pair.1 < t.size ∧ known t pair.2) :
    Asks (i.inferAll pairs) t fun outcome t' =>
      Advances inv t t' ∧ outcome.2.Found known t' ∧ i.Continues outcome.2 ∧
        ∀ e, outcome.1 = .error e → e.Within t' := by
  induction pairs generalizing t i with
  | nil => exact .pure ⟨.refl t, found, .refl i, nofun⟩
  | cons pair rest ih =>
      obtain ⟨here, later⟩ := List.forall_mem_cons.mp inside
      refine (infer_found query passes holds found here.1 here.2).bind ?_
      rintro ⟨result, i'⟩ t' ⟨advances, found', continues, conflict⟩
      cases result with
      | error e =>
          exact .pure ⟨advances, found', continues,
            fun _ same => Except.error.inj same ▸ conflict e rfl⟩
      | ok =>
          refine (ih (advances.keeps holds) found' fun other member => ?_).weaken ?_
          · exact ⟨advances.inside (later other member).1,
              passes.advances holds advances (later other member).2⟩
          · exact fun _ _ ⟨more, found, further, conflict⟩ =>
              ⟨advances.trans more, found, continues.trans further, conflict⟩

omit passes

theorem advances_infer {t : TypeTable} {i : Inference} {pattern actual : TypeId} (holds : inv t)
    (within : i.Within t) (left : pattern < t.size) (right : actual < t.size) :
    Asks (i.infer pattern actual) t fun outcome t' =>
      Advances inv t t' ∧ outcome.2.Within t' ∧ i.Continues outcome.2 ∧
        ∀ e, outcome.1 = .error e → e.Within t' :=
  infer_found query (passesOn_entry query) holds within left right

theorem advances_inferAll (pairs : List (TypeId × TypeId)) {t : TypeTable} {i : Inference}
    (holds : inv t) (within : i.Within t)
    (inside : ∀ pair ∈ pairs, pair.1 < t.size ∧ pair.2 < t.size) :
    Asks (i.inferAll pairs) t fun outcome t' =>
      Advances inv t t' ∧ outcome.2.Within t' ∧ i.Continues outcome.2 ∧
        ∀ e, outcome.1 = .error e → e.Within t' :=
  inferAll_found query (passesOn_entry query) pairs holds within inside

omit query

/-- What holds of the bindings found, and still does when a parameter that is left is bound
to `unknown`, holds when the inference is closed. -/
theorem finish_induction {motive : Instantiation → Prop} (i : Inference)
    (start : motive ⟨i.bindings, []⟩)
    (step : ∀ result, motive result → ∀ p ∈ i.typeParameters,
      motive ⟨result.bindings.insert p TypeId.unknown, result.unresolved ++ [p]⟩) :
    motive i.finish := by
  refine List.foldlRecOn i.typeParameters _ start fun result holds p member => ?_
  split
  · exact holds
  · exact step result holds p member

/-- Closing an inference binds the type `unknown` at most. -/
theorem within_finish {i : Inference} {t : TypeTable} (within : i.Within t)
    (unknown : TypeId.unknown < t.size) : ∀ b ∈ i.finish.bindings.values, b < t.size :=
  i.finish_induction (motive := fun result => ∀ b ∈ result.bindings.values, b < t.size) within
    fun _ known _ _ b member => (Dictionary.mem_values_insertIn member).elim (· ▸ unknown) (known b)

/-- What is left open when an inference is closed is among the type parameters. -/
theorem mem_of_unresolved (i : Inference) :
    ∀ p ∈ i.finish.unresolved, p ∈ i.typeParameters :=
  i.finish_induction (motive := fun result => ∀ p ∈ result.unresolved, p ∈ i.typeParameters)
    (List.forall_mem_nil _) fun _ known _ member =>
      List.forall_mem_append.mpr ⟨known, List.forall_mem_singleton.mpr member⟩

end Matching

end Inference

section Signatures
variable {inv : TypeTable → Prop}

/-- The types of a signature are entries. -/
structure FunctionType.Within (f : FunctionType) (t : TypeTable) : Prop where
  typeParameters : ∀ p ∈ f.typeParameters, p < t.size
  parameters : ∀ p ∈ f.parameters, p.type < t.size
  returnType : f.returnType < t.size

theorem TypeTable.Closed.signature {t : TypeTable} {id : TypeId} {f : FunctionType}
    (closed : t.Closed) (entry : t.kind id = .function f) : f.Within t where
  typeParameters p member := by
    refine closed.mentions id (lt_size_of_kind entry nofun) p ?_
    rw [entry]
    exact List.mem_append_left _ member
  parameters := closed.parameter entry
  returnType := closed.returnType entry

theorem TypeTable.WellFormed.signature {t : TypeTable} {id : TypeId} {f : FunctionType}
    (wellFormed : t.WellFormed) (entry : t.kind id = .function f) : f.Within t :=
  wellFormed.toClosed.signature entry

theorem FunctionType.Within.advances {f : FunctionType} {t t' : TypeTable} (within : f.Within t)
    (advances : Advances inv t t') : f.Within t' :=
  ⟨advances.each within.typeParameters,
    fun p member => advances.inside (within.parameters p member), advances.inside within.returnType⟩

/-- What a signature is instantiated to are entries. -/
structure InstantiatedSignature.Within (signature : InstantiatedSignature) (t : TypeTable) :
    Prop where
  bindings : ∀ b ∈ signature.bindings.values, b < t.size
  parameters : ∀ p ∈ signature.parameters, p < t.size
  returnType : signature.returnType < t.size
  unresolved : ∀ p ∈ signature.unresolved, p < t.size

variable (query : QueryInvariant inv)

include query

theorem Instantiation.advances_apply {i : Instantiation} {signature : FunctionType}
    {t : TypeTable} (holds : inv t) (bound : ∀ b ∈ i.bindings.values, b < t.size)
    (unresolved : ∀ p ∈ i.unresolved, p < t.size) (within : signature.Within t) :
    Asks (i.apply signature) t fun result t' => Advances inv t t' ∧ result.Within t' := by
  have stable : ∀ (_ : Parameter) (m : TypeId) u u', Advances inv u u' → m < u.size → m < u'.size :=
    fun _ _ _ _ advances known => advances.inside known
  have replaced := Asks.sequential.mapM Advances.growth stable fun (p : Parameter) member u advances =>
    advances_substitute query (advances.keeps holds) (advances.inside (within.parameters p member))
      (advances.each bound)
  refine replaced.bind fun parameters u ⟨advances, pairs⟩ => ?_
  refine (advances_substitute query (advances.keeps holds) (advances.inside within.returnType)
    (advances.each bound)).bind fun returnType u' ⟨more, result⟩ => ?_
  have each := forall₂_right (Q := fun p => p < u.size) (fun _ _ known => known) pairs
  have reached := advances.trans more
  exact .pure ⟨reached, reached.each bound, more.each each, result, reached.each unresolved⟩

/-- A signature that is instantiated consists of entries, and an error is about entries. -/
theorem advances_instantiate {t : TypeTable} {id : TypeId} {argumentTypes : List TypeId}
    {explicit : Option (List TypeId)} (holds : inv t) (inside : id < t.size)
    (arguments : ∀ a ∈ argumentTypes, a < t.size)
    (written : ∀ ids, explicit = some ids → ∀ a ∈ ids, a < t.size) :
    Asks (instantiate id argumentTypes explicit) t fun outcome t' =>
      Advances inv t t' ∧ (∀ signature, outcome = .ok signature → signature.Within t') ∧
        ∀ e, outcome = .error e → e.Within t' := by
  have closed := query.closed holds
  refine .read (.of_same fun u extended _ => ?_) ?_
  · dsimp only
    rw [extended.asFunction? inside]
  split
  · refine .pure ⟨.refl t, nofun, ?_⟩
    rintro _ ⟨⟩
    exact List.forall_mem_singleton.mpr inside
  · next signature isFunction =>
      have within := closed.signature (kind_of_asFunction? isFunction)
      cases explicit with
      | some ids =>
          dsimp only
          split
          · refine .pure ⟨.refl t, nofun, ?_⟩
            rintro _ ⟨⟩
            exact List.forall_mem_nil _
          · have bound : ∀ b ∈ (Instantiation.explicit signature.typeParameters ids).bindings.values,
                b < t.size := by
              intro b member
              obtain ⟨pair, supplied, rfl⟩ := List.mem_map.mp (Dictionary.mem_values_ofList member)
              exact written ids rfl pair.2 (List.of_mem_zip supplied).2
            refine (Instantiation.advances_apply query holds bound (List.forall_mem_nil _)
              within).bind ?_
            exact fun result u ⟨advances, inside⟩ =>
              .pure ⟨advances, fun _ same => Except.ok.inj same ▸ inside, nofun⟩
      | none =>
          have nothing : (Inference.ofTypeParameters signature.typeParameters).Within t :=
            fun b member => nomatch member
          refine (Inference.advances_inferAll query _ holds nothing fun pair member => ?_).bind ?_
          · obtain ⟨inSignature, given⟩ := List.of_mem_zip member
            obtain ⟨p, declared, same⟩ := List.mem_map.mp inSignature
            exact ⟨same ▸ within.parameters p declared, arguments _ given⟩
          · rintro ⟨result, inference⟩ u ⟨advances, found, continues, conflict⟩
            have holds' := advances.keeps holds
            cases result with
            | error e =>
                refine .pure ⟨advances, nofun, ?_⟩
                rintro _ ⟨⟩
                exact conflict e rfl
            | ok =>
                refine (Instantiation.advances_apply query holds'
                  (Inference.within_finish found (query.unknown holds')) (fun p unresolved => ?_)
                  (within.advances advances)).bind ?_
                · have listed := inference.mem_of_unresolved p unresolved
                  rw [continues.typeParameters] at listed
                  exact advances.inside (within.typeParameters p listed)
                · exact fun signature u' ⟨more, inside⟩ =>
                    .pure ⟨advances.trans more, fun _ same => Except.ok.inj same ▸ inside, nofun⟩

end Signatures

/-- The types that a mismatch and its causes are about. -/
def Mismatch.mentions : Mismatch → List TypeId
  | incompatible source target => [source, target]
  | missingProperty _ source target => [source, target]
  | property _ source target cause => source :: target :: cause.mentions
  | excessProperty _ source target => [source, target]
  | tooFewArguments source target _ _ => [source, target]
  | parameter _ source target cause => source :: target :: cause.mentions
  | returnType source target cause => source :: target :: cause.mentions

/-- A mismatch is about entries. -/
def Mismatch.Within (m : Mismatch) (t : TypeTable) : Prop := ∀ id ∈ m.mentions, id < t.size

theorem within_pair {t : TypeTable} {source target : TypeId} (left : source < t.size)
    (right : target < t.size) : ∀ id ∈ [source, target], id < t.size :=
  List.forall_mem_cons.mpr ⟨left, List.forall_mem_singleton.mpr right⟩

/-- A reason for a larger pair is about this pair as well. -/
theorem Mismatch.Within.below {cause : Mismatch} {t : TypeTable} {source target : TypeId}
    (within : cause.Within t) (left : source < t.size) (right : target < t.size) :
    ∀ id ∈ source :: target :: cause.mentions, id < t.size :=
  List.forall_mem_cons.mpr ⟨left, List.forall_mem_cons.mpr ⟨right, within⟩⟩

theorem Mismatch.Within.advances {inv : TypeTable → Prop} {m : Mismatch} {t t' : TypeTable}
    (within : m.Within t) (advances : Advances inv t t') : m.Within t' :=
  advances.each within

namespace Assignability

open Inference (Anything)

/-- An answer of no gives a reason that is about entries. -/
def Founded (verdict : Verdict) (t : TypeTable) : Prop := ∀ m, verdict = .error m → m.Within t

theorem Founded.ok (t : TypeTable) : Founded (.ok ()) t := nofun

theorem Founded.error {m : Mismatch} {t : TypeTable} (within : m.Within t) :
    Founded (.error m) t := by
  rintro _ ⟨⟩
  exact within

/-- From this session, the comparison looks inside, and if it comes to a result, it has kept
the invariant. -/
structure Compares {α : Type} (inv : TypeTable → Prop) (m : RelationM α) (σ : Session)
    (post : α → TypeTable → Prop) : Prop where
  looks : m.LooksInside σ
  comes : ∀ a σ', m.run σ = some (a, σ') → Advances inv σ.table σ'.table ∧ post a σ'.table

namespace Compares

variable {α β : Type} {inv : TypeTable → Prop} {σ : Session}

theorem pure {a : α} {post : α → TypeTable → Prop} (holds : post a σ.table) :
    Compares inv (pure a) σ post where
  looks := .pure a σ
  comes b σ' done := by
    obtain ⟨rfl, rfl⟩ := Prod.mk.inj (Option.some.inj done)
    exact ⟨.refl _, holds⟩

theorem bind {m : RelationM α} {k : α → RelationM β} {middle : α → TypeTable → Prop}
    {post : β → TypeTable → Prop} (first : Compares inv m σ middle)
    (next : ∀ a σ', Advances inv σ.table σ'.table → middle a σ'.table →
      Compares inv (k a) σ' post) : Compares inv (m >>= k) σ post where
  looks := .bind first.looks fun a σ' done =>
    have ⟨advances, holds⟩ := first.comes a σ' done
    (next a σ' advances holds).looks
  comes b σ'' done := by
    rw [StateT.run_bind] at done
    obtain ⟨⟨a, between⟩, one, two⟩ := Option.bind_eq_some_iff.mp done
    obtain ⟨advances, holds⟩ := first.comes a between one
    obtain ⟨more, result⟩ := (next a between advances holds).comes b σ'' two
    exact ⟨advances.trans more, result⟩

theorem read {k : Session → RelationM β} {post : β → TypeTable → Prop}
    (inside : σ.table.ReadsInside fun t => k { σ with table := t })
    (next : Compares inv (k σ) σ post) : Compares inv (get >>= k) σ post :=
  ⟨.read inside next.looks, next.comes⟩

theorem enter (s t : TypeId) (expanded : Bool) :
    Compares inv (RelationM.enter s t expanded) σ Anything where
  looks := .enter s t expanded σ
  comes _ σ' done := by
    obtain ⟨-, rfl⟩ := Prod.mk.inj (Option.some.inj done)
    exact ⟨.refl _, trivial⟩

theorem leave (s t : TypeId) (expanded : Bool) :
    Compares inv (RelationM.leave s t expanded) σ Anything where
  looks := .leave s t expanded σ
  comes _ σ' done := by
    obtain ⟨-, rfl⟩ := Prod.mk.inj (Option.some.inj done)
    exact ⟨.refl _, trivial⟩

theorem onTable {m : TableM α} {post : α → TypeTable → Prop}
    (asks : Asks m σ.table fun a t' => Advances inv σ.table t' ∧ post a t') :
    Compares inv (RelationM.onTable m) σ post where
  looks := .onTable asks.looks
  comes b σ' done := by
    obtain ⟨rfl, rfl⟩ := Prod.mk.inj (Option.some.inj done)
    exact asks.yields

theorem ite {p : Prop} [Decidable p] {yes no : RelationM α} {post : α → TypeTable → Prop}
    (one : Compares inv yes σ post) (two : Compares inv no σ post) :
    Compares inv (if p then yes else no) σ post := by
  split
  · exact one
  · exact two

/-- The answer to a question decides how to go on. -/
theorem verdict {m : RelationM Verdict} {k : Verdict → RelationM β} {post : β → TypeTable → Prop}
    (first : Compares inv m σ Founded)
    (ok : ∀ σ', Advances inv σ.table σ'.table → Compares inv (k (.ok ())) σ' post)
    (error : ∀ σ' cause, Advances inv σ.table σ'.table → cause.Within σ'.table →
      Compares inv (k (.error cause)) σ' post) :
    Compares inv (m >>= k) σ post :=
  first.bind fun verdict σ' advances founded =>
    match verdict with
    | .ok () => ok σ' advances
    | .error cause => error σ' cause advances (founded cause rfl)

end Compares

/-- Comparing two entries. -/
def ComparesPairs (inv : TypeTable → Prop) (related : Related) : Prop :=
  ∀ (σ : Session) (s t : TypeId), inv σ.table → s < σ.table.size → t < σ.table.size →
    Compares inv (related s t) σ Founded

section Comparison
variable {inv : TypeTable → Prop} {strict : Bool} {related : Related}
  (each : ComparesPairs inv related) {σ : Session}

include each

theorem compares_holds (holds : inv σ.table) {s t : TypeId} (left : s < σ.table.size)
    (right : t < σ.table.size) : Compares inv (Assignability.holds related s t) σ Anything :=
  (each σ s t holds left right).verdict (fun _ _ => .pure trivial) fun _ _ _ _ => .pure trivial

theorem compares_argumentsRelated (pairs : List (TypeId × TypeId)) (holds : inv σ.table)
    (inside : ∀ pair ∈ pairs, pair.1 < σ.table.size ∧ pair.2 < σ.table.size) :
    Compares inv (argumentsRelated strict related pairs) σ Anything := by
  induction pairs generalizing σ with
  | nil => exact .pure trivial
  | cons pair rest ih =>
      obtain ⟨⟨left, right⟩, later⟩ := List.forall_mem_cons.mp inside
      have others {σ' : Session} (advances : Advances inv σ.table σ'.table) :
          Compares inv (argumentsRelated strict related rest) σ' Anything :=
        ih (advances.keeps holds) fun pair member =>
          ⟨advances.inside (later pair member).1, advances.inside (later pair member).2⟩
      refine (compares_holds each holds left right).bind fun forth σ' advances _ => ?_
      refine .ite (.ite ?_ (others advances)) (.pure trivial)
      refine (compares_holds each (advances.keeps holds) (advances.inside right)
        (advances.inside left)).bind fun back σ'' more _ => ?_
      exact .ite (others (advances.trans more)) (.pure trivial)

theorem compares_instancesRelated (closed : σ.table.Closed) (holds : inv σ.table)
    {source target : TypeId} (left : source < σ.table.size) (right : target < σ.table.size) :
    Compares inv (instancesRelated strict related source target) σ Anything := by
  refine .read (.of_same fun u extended _ => ?_) ?_
  · dsimp only
    rw [extended.kind source left, extended.kind target right]
  dsimp only
  split
  · next s t isSource isTarget =>
      refine .ite (compares_argumentsRelated each _ holds fun pair member => ?_) (.pure trivial)
      obtain ⟨inSource, inTarget⟩ := List.of_mem_zip member
      exact ⟨closed.argument isSource _ inSource, closed.argument isTarget _ inTarget⟩
  · exact .pure trivial

theorem compares_objectRelated {source target : TypeId} {s : ObjectType}
    (expected : List (String × Property)) (holds : inv σ.table)
    (left : source < σ.table.size) (right : target < σ.table.size)
    (given : ∀ p ∈ s.properties.values, p.type < σ.table.size)
    (wanted : ∀ p ∈ expected, p.2.type < σ.table.size) :
    Compares inv (objectRelated related source target s expected) σ Founded := by
  induction expected generalizing σ with
  | nil => exact .pure (.ok _)
  | cons property rest ih =>
      obtain ⟨here, later⟩ := List.forall_mem_cons.mp wanted
      have missing : (Mismatch.missingProperty property.1 source target).Within σ.table :=
        within_pair left right
      rw [objectRelated]
      split
      · exact .ite (ih holds left right given later) (.pure (.error missing))
      · next p found =>
          have known := given p (List.mem_map_of_mem (Dictionary.mem_of_find? found))
          refine .ite ?_ (.pure (.error missing))
          refine (each σ _ _ holds known here).verdict (fun σ' advances => ?_)
            fun _ cause advances within => .pure (.error ?_)
          · exact ih (advances.keeps holds) (advances.inside left) (advances.inside right)
              (fun q member => advances.inside (given q member))
              fun q member => advances.inside (later q member)
          · exact within.below (advances.inside left) (advances.inside right)

theorem compares_parameterRelated {source target : TypeId} (holds : inv σ.table)
    (left : source < σ.table.size) (right : target < σ.table.size) :
    Compares inv (parameterRelated strict related source target) σ Founded := by
  refine (each σ target source holds right left).verdict (fun _ _ => .pure (.ok _)) ?_
  intro σ' reversed advances within
  refine .ite (.pure (.error within)) ?_
  exact (each σ' source target (advances.keeps holds) (advances.inside left)
    (advances.inside right)).verdict (fun _ _ => .pure (.ok _))
      fun _ _ more _ => .pure (.error (within.advances more))

theorem compares_parametersRelated {source target : TypeId} (index : Nat)
    (parameters : List (Parameter × Parameter)) (holds : inv σ.table)
    (left : source < σ.table.size) (right : target < σ.table.size)
    (inside : ∀ p ∈ parameters, p.1.type < σ.table.size ∧ p.2.type < σ.table.size) :
    Compares inv (parametersRelated strict related source target index parameters) σ Founded := by
  induction parameters generalizing index σ with
  | nil => exact .pure (.ok _)
  | cons pair rest ih =>
      obtain ⟨⟨given, wanted⟩, later⟩ := List.forall_mem_cons.mp inside
      refine (compares_parameterRelated each holds given wanted).verdict (fun σ' advances => ?_)
        fun _ cause advances within => .pure (.error ?_)
      · exact ih (index + 1) (advances.keeps holds) (advances.inside left) (advances.inside right)
          fun p member => ⟨advances.inside (later p member).1, advances.inside (later p member).2⟩
      · exact within.below (advances.inside left) (advances.inside right)

theorem compares_signatureRelated {source target : TypeId} {s t : FunctionType}
    (holds : inv σ.table) (known : source < σ.table.size) (wanted : target < σ.table.size)
    (left : s.Within σ.table) (right : t.Within σ.table) :
    Compares inv (signatureRelated strict related source target s t) σ Founded := by
  refine .ite (.pure (.error (within_pair known wanted))) ?_
  refine (compares_parametersRelated each 0 _ holds known wanted fun p member => ?_).verdict
    (fun σ' advances => ?_) fun _ _ _ within => .pure (.error within)
  · obtain ⟨inSource, inTarget⟩ := List.of_mem_zip member
    exact ⟨left.parameters _ inSource, right.parameters _ inTarget⟩
  · refine .read (.of_same fun u extended _ => ?_) (.ite (.pure (.ok _)) ?_)
    · dsimp only
      rw [extended.isPrimitive (advances.inside right.returnType)]
    refine (each σ' _ _ (advances.keeps holds) (advances.inside left.returnType)
      (advances.inside right.returnType)).verdict (fun _ _ => .pure (.ok _))
      fun _ cause more within => .pure (.error ?_)
    have reached := advances.trans more
    exact within.below (reached.inside known) (reached.inside wanted)

end Comparison

section Bodies
variable {inv : TypeTable → Prop} (query : QueryInvariant inv) {strict : Bool}

include query

theorem advances_inferParameters (pairs : List (Parameter × Parameter)) {t : TypeTable}
    {i : Inference} (holds : inv t) (within : i.Within t)
    (inside : ∀ p ∈ pairs, p.1.type < t.size ∧ p.2.type < t.size) :
    Asks (inferParameters i pairs) t fun i' t' =>
      Advances inv t t' ∧ i'.Within t' ∧ i.Continues i' := by
  induction pairs generalizing t i with
  | nil => exact .pure ⟨.refl t, within, .refl i⟩
  | cons pair rest ih =>
      obtain ⟨here, later⟩ := List.forall_mem_cons.mp inside
      refine (Inference.advances_infer query holds within here.1 here.2).bind ?_
      rintro ⟨result, i'⟩ t' ⟨advances, within', continues, -⟩
      cases result with
      | error e => exact .pure ⟨advances, within', continues⟩
      | ok =>
          refine (ih (advances.keeps holds) within' fun p member => ?_).weaken ?_
          · exact ⟨advances.inside (later p member).1, advances.inside (later p member).2⟩
          · exact fun _ _ ⟨more, found, further⟩ =>
              ⟨advances.trans more, found, continues.trans further⟩

theorem advances_instantiateAgainst {s t : FunctionType} {table : TypeTable} (holds : inv table)
    (left : s.Within table) (right : t.Within table) :
    Asks (instantiateAgainst s t) table fun f table' =>
      Advances inv table table' ∧ f.Within table' := by
  have nothing : (Inference.ofTypeParameters s.typeParameters).Within table :=
    fun b member => nomatch member
  refine (advances_inferParameters query _ holds nothing fun p member => ?_).bind ?_
  · obtain ⟨inSource, inTarget⟩ := List.of_mem_zip member
    exact ⟨left.parameters _ inSource, right.parameters _ inTarget⟩
  intro inference u ⟨advances, found, continues⟩
  have holds' := advances.keeps holds
  have unresolved : ∀ p ∈ inference.finish.unresolved, p < u.size := fun p member => by
    have listed := inference.mem_of_unresolved p member
    rw [continues.typeParameters] at listed
    exact advances.inside (left.typeParameters p listed)
  refine (Instantiation.advances_apply query holds'
    (Inference.within_finish found (query.unknown holds')) unresolved
    (left.advances advances)).bind ?_
  intro signature u' ⟨more, within⟩
  refine .pure ⟨advances.trans more, List.forall_mem_nil _, fun p member => ?_, within.returnType⟩
  obtain ⟨⟨p, type⟩, zipped, rfl⟩ := List.mem_map.mp member
  exact within.parameters type (List.of_mem_zip zipped).2

variable {related : Related} (each : ComparesPairs inv related) {σ : Session}

include each

theorem compares_functionRelated {source target : TypeId} {s t : FunctionType}
    (holds : inv σ.table) (known : source < σ.table.size) (wanted : target < σ.table.size)
    (left : s.Within σ.table) (right : t.Within σ.table) :
    Compares inv (functionRelated strict related source target s t) σ Founded := by
  rw [functionRelated]
  split
  · refine (Compares.onTable (advances_instantiateAgainst query holds left right)).bind ?_
    exact fun f σ' advances within => compares_signatureRelated each (advances.keeps holds)
      (advances.inside known) (advances.inside wanted) within (right.advances advances)
  · exact compares_signatureRelated each holds known wanted left right

theorem compares_structureRelated {source target s t : TypeId} (holds : inv σ.table)
    (left : source < σ.table.size) (right : target < σ.table.size) (leftBody : s < σ.table.size)
    (rightBody : t < σ.table.size) :
    Compares inv (structureRelated strict related source target s t) σ Founded := by
  have closed := query.closed holds
  have incompatible : (Mismatch.incompatible source target).Within σ.table :=
    within_pair left right
  refine .read (.of_same fun u extended _ => ?_) ?_
  · dsimp only
    rw [extended.kind s leftBody, extended.kind t rightBody]
  dsimp only
  split
  · split
    · exact .pure (.ok _)
    · exact .pure (.error incompatible)
  · next name constraint _ entry =>
      split
      · exact .pure (.error incompatible)
      · exact (each σ _ target holds (closed.constraint entry) right).verdict
          (fun _ _ => .pure (.ok _))
          fun _ _ advances _ => .pure (.error (incompatible.advances advances))
  · next given expected isSource isTarget =>
      refine compares_objectRelated each _ holds left right (closed.property isSource) ?_
      exact fun p member => closed.property isTarget p.2 (List.mem_map_of_mem member)
  · next given expected isSource isTarget =>
      exact compares_functionRelated query each holds left right
        (closed.signature isSource) (closed.signature isTarget)
  · exact .pure (.error incompatible)

theorem compares_bodiesRelated {source target : TypeId} (holds : inv σ.table)
    (left : source < σ.table.size) (right : target < σ.table.size) :
    Compares inv (bodiesRelated strict related source target) σ Founded := by
  refine (Compares.onTable (advances_resolve query holds left)).bind fun s σ₁ one leftBody => ?_
  have holds₁ := one.keeps holds
  refine (Compares.onTable (advances_resolve query holds₁ (one.inside right))).bind ?_
  intro t σ₂ two rightBody
  have leftBody := two.inside leftBody
  have reached := one.trans two
  refine .read (.of_same fun u extended _ => ?_)
    (.ite (.pure (.ok _)) (.ite (.pure (.ok _)) (.ite (.pure (.ok _)) ?_)))
  · dsimp only
    rw [extended.isWildcard leftBody, extended.isWildcard rightBody]
  refine .read (.of_same fun _ _ _ => rfl) (.ite (.pure (.ok _)) ?_)
  refine (Compares.enter s t _).bind fun _ σ₃ entered _ => ?_
  have reached := reached.trans entered
  refine (compares_structureRelated query each (reached.keeps holds) (reached.inside left)
    (reached.inside right) (entered.inside leftBody) (entered.inside rightBody)).bind ?_
  intro verdict σ₄ _ founded
  exact (Compares.leave s t _).bind fun _ _ advances _ =>
    .pure fun m same => (founded m same).advances advances

end Bodies

section Questions
variable {inv : TypeTable → Prop} (query : QueryInvariant inv)

include query

theorem compares_relatedWithin (strict : Bool) (fuel : Nat) :
    ComparesPairs inv (relatedWithin strict fuel) := by
  induction fuel with
  | zero => exact fun σ _ _ _ _ _ => ⟨.nothing σ, nofun⟩
  | succ fuel ih =>
      intro σ source target holds left right
      rw [relatedWithin]
      refine .ite (.pure (.ok _)) ?_
      refine (compares_instancesRelated ih (query.closed holds) holds left right).bind ?_
      intro instances σ' advances _
      refine .ite (.pure (.ok _)) ?_
      exact compares_bodiesRelated query ih (advances.keeps holds) (advances.inside left)
        (advances.inside right)

theorem advances_excessProperties {t : TypeTable} {source target : TypeId} (holds : inv t)
    (left : source < t.size) (right : target < t.size) :
    Asks (excessProperties source target) t fun _ t' => Advances inv t t' := by
  refine (advances_resolve query holds left).bind fun s u ⟨one, leftBody⟩ => ?_
  refine (advances_resolve query (one.keeps holds) (one.inside right)).bind ?_
  intro t' u' ⟨two, rightBody⟩
  have leftBody := two.inside leftBody
  refine .read (.of_same fun v extended _ => ?_) ?_
  · rw [extended.asObject? leftBody, extended.asObject? rightBody]
  have reached := one.trans two
  split
  · split
    · exact .pure reached
    · exact .pure reached
  · exact .pure reached

/-- A question about entries, under any fuel. -/
theorem compares_assignableWithin (strict : Bool) (fuel : Nat) {table : TypeTable}
    {source target : TypeId} (fresh : Bool) (holds : inv table) (left : source < table.size)
    (right : target < table.size) :
    Compares inv (assignableWithin strict fuel source target fresh) (.ofTable table) Founded := by
  have compared (excess : List String) {σ : Session} (advances : Advances inv table σ.table) :
      Compares inv (if excess.isEmpty then relatedWithin strict fuel source target
        else pure (.error (.excessProperty excess source target))) σ Founded :=
    .ite (compares_relatedWithin query strict fuel σ source target (advances.keeps holds)
      (advances.inside left) (advances.inside right))
      (.pure (.error (within_pair (advances.inside left) (advances.inside right))))
  cases fresh with
  | false => exact compared [] (.refl table)
  | true =>
      have excess : Compares inv (RelationM.onTable (excessProperties source target))
          (.ofTable table) Anything :=
        .onTable ((advances_excessProperties query holds left right).weaken fun _ _ advances =>
          ⟨advances, trivial⟩)
      exact excess.bind fun names σ advances _ => compared names advances

theorem Answers.advances {strict fresh : Bool} {table after : TypeTable} {source target : TypeId}
    {verdict : Verdict} (holds : inv table) (left : source < table.size)
    (right : target < table.size)
    (answers : Answers strict table source target fresh verdict after) :
    Advances inv table after ∧ Founded verdict after := by
  obtain ⟨fuel, σ, found, rfl⟩ := answers
  exact (compares_assignableWithin query strict fuel fresh holds left right).comes verdict σ found

/-- Whether a comparison ends or not, the invariant is kept, and a reason is about entries. -/
theorem advances_assignable (strict fresh : Bool) {t : TypeTable} {source target : TypeId}
    (holds : inv t) (left : source < t.size) (right : target < t.size) :
    Asks (assignable strict source target fresh) t fun verdict t' =>
      Advances inv t t' ∧ Founded verdict t' := by
  refine ⟨.compare fun fuel =>
    (compares_assignableWithin query strict fuel fresh holds left right).looks, ?_⟩
  unfold TableM.Yields
  rcases run_assignable_cases strict t source target fresh with ⟨_, after, answers, run⟩ | ⟨-, run⟩
  · rw [run]
    exact answers.advances query holds left right
  · rw [run]
    exact ⟨.refl t, .ok t⟩

end Questions

end Assignability

end StructuralTyping
