import StructuralTyping.Assignability.Relation
import StructuralTyping.Proofs.TableGrowth

/-! What a query looks up in the table. A query looks inside if it is put together from
steps that do not tell what stands behind the end of the table. Matching and comparing
work on a table and something else, and look inside in the same sense. -/
namespace StructuralTyping

open Assignability (RelationM Session)
open Inference (MatchM)
open TableM (Yields)

theorem Equality.every_congr {α : Type} {f g : α → Option Bool} {items : List α}
    (same : ∀ x ∈ items, f x = g x) : every f items = every g items := by
  induction items with
  | nil => rfl
  | cons x rest ih =>
      obtain ⟨here, later⟩ := List.forall_mem_cons.mp same
      rw [every, every, here, ih later]

/-- An object is shown by how its properties are. -/
theorem Display.object_congr {render render' : TypeId → String} {o : ObjectType}
    (same : ∀ pair ∈ o.properties.pairs, render pair.2.type = render' pair.2.type) :
    Display.object render o = Display.object render' o := by
  unfold Display.object
  split
  · rfl
  · refine ite_congr rfl (fun _ => rfl) fun _ => ?_
    refine congrArg (fun members => "\x7b " ++ Display.join " " members ++ " \x7d")
      (List.map_congr_left fun pair member => ?_)
    have here := same pair member
    obtain ⟨name, p⟩ := pair
    dsimp only at here ⊢
    rw [here]

namespace TypeTable

variable {β : Type} {t : TypeTable}

/-- The table with more entries behind its end. -/
def followedBy (t : TypeTable) (more : Array TypeKind) : TypeTable :=
  { t with entries := t.entries ++ more }

theorem Extends.followedBy (t : TypeTable) (more : Array TypeKind) :
    t.Extends (t.followedBy more) where
  size := by simp [TypeTable.followedBy, TypeTable.size]
  kind id inside := by
    rw [TypeTable.kind, TypeTable.followedBy, Array.getElem?_append_left inside, TypeTable.kind]

theorem size_followedBy (t : TypeTable) (more : Array TypeKind) :
    (t.followedBy more).size = t.size + more.size := Array.size_append

section Entries
variable {u : TypeTable} (extended : t.Extends u) {id : TypeId} (inside : id < t.size)

theorem kind_of_asObject? {o : ObjectType} (isObject : t.asObject? id = some o) :
    t.kind id = .object o := by
  unfold asObject? at isObject
  split at isObject
  · next same => exact same.trans (congrArg _ (Option.some.inj isObject))
  · simp at isObject

theorem kind_of_asFunction? {f : FunctionType} (isFunction : t.asFunction? id = some f) :
    t.kind id = .function f := by
  unfold asFunction? at isFunction
  split at isFunction
  · next same => exact same.trans (congrArg _ (Option.some.inj isFunction))
  · simp at isFunction

include extended inside

theorem Extends.isWildcard : u.isWildcard id = t.isWildcard id :=
  congrArg (fun kind : TypeKind => kind.flag.isWildcard) (extended.kind id inside)

theorem Extends.isPrimitive (name : Primitive) : u.isPrimitive id name = t.isPrimitive id name := by
  rw [TypeTable.isPrimitive, TypeTable.isPrimitive, extended.kind id inside]

theorem Extends.asObject? : u.asObject? id = t.asObject? id := by
  rw [TypeTable.asObject?, TypeTable.asObject?, extended.kind id inside]

theorem Extends.asFunction? : u.asFunction? id = t.asFunction? id := by
  rw [TypeTable.asFunction?, TypeTable.asFunction?, extended.kind id inside]

end Entries

/-- What is read of the table does not tell what stands behind its end. -/
def ReadsInside (t : TypeTable) (read : TypeTable → β) : Prop :=
  ∀ more more' : Array TypeKind, more.size = more'.size →
    read (t.followedBy more) = read (t.followedBy more')

/-- What is read of entries, and of the bodies that are remembered, is read inside. -/
theorem ReadsInside.of_same {read : TypeTable → β}
    (same : ∀ u, t.Extends u → u.resolved = t.resolved → read u = read t) : t.ReadsInside read :=
  fun more more' _ =>
    (same _ (.followedBy t more) rfl).trans (same _ (.followedBy t more') rfl).symm

section Following
variable {u : TypeTable} (closed : t.Closed) (extended : t.Extends u)

include extended in
theorem Extends.body? (resolved : u.resolved = t.resolved) {id : TypeId} (inside : id < t.size) :
    Equality.body? u id = Equality.body? t id := by
  rw [Equality.body?, Equality.body?, extended.kind id inside, resolved]

include closed in
theorem Closed.body? {id body : TypeId} (inside : id < t.size)
    (found : Equality.body? t id = some body) : body < t.size := by
  unfold Equality.body? at found
  split at found
  · exact (closed.remembered _ _ found).2.2
  · exact Option.some.inj found ▸ inside

include closed extended

/-- The comparison of two entries meets entries only. -/
theorem equalWithin_extends (resolved : u.resolved = t.resolved) (fuel : Nat)
    (assumed : List (TypeId × TypeId)) {a b : TypeId} (left : a < t.size) (right : b < t.size) :
    Equality.equalWithin u fuel assumed a b = Equality.equalWithin t fuel assumed a b := by
  induction fuel generalizing assumed a b with
  | zero => rfl
  | succ fuel ih =>
      have byBody (x y : TypeId) (foundLeft : Equality.body? t a = some x)
          (foundRight : Equality.body? t b = some y) :
          Equality.equalWithin u fuel assumed x y = Equality.equalWithin t fuel assumed x y :=
        ih assumed (closed.body? left foundLeft) (closed.body? right foundRight)
      rw [Equality.equalWithin, Equality.equalWithin, extended.kind a left, extended.kind b right,
        extended.body? resolved left, extended.body? resolved right]
      refine ite_congr rfl (fun _ => rfl) fun _ => ?_
      dsimp only
      split
      · rfl
      · rfl
      · next x y isLeft isRight =>
          refine ite_congr rfl (fun _ => rfl) fun _ => Equality.every_congr fun pair member => ?_
          split
          · next q found =>
              rw [ih _ (closed.property isLeft pair.2 (List.mem_map_of_mem member))
                (closed.property isRight q
                  (List.mem_map_of_mem (Dictionary.mem_of_find? found)))]
          · rfl
      · next x y isLeft isRight =>
          refine ite_congr rfl (fun _ => rfl) fun _ => ?_
          rw [ih _ (closed.returnType isLeft) (closed.returnType isRight)]
          congr 1
          refine Equality.every_congr fun pair member => ?_
          obtain ⟨inLeft, inRight⟩ := List.of_mem_zip member
          rw [ih _ (closed.parameter isLeft _ inLeft) (closed.parameter isRight _ inRight)]
      · next x y isLeft isRight =>
          refine ite_congr rfl (fun _ => Equality.every_congr fun pair member => ?_) fun _ => ?_
          · obtain ⟨inLeft, inRight⟩ := List.of_mem_zip member
            exact ih _ (closed.argument isLeft _ inLeft) (closed.argument isRight _ inRight)
          · split
            · next x y foundLeft foundRight => rw [byBody x y foundLeft foundRight]
            · rfl
      · split
        · next x y foundLeft foundRight => rw [byBody x y foundLeft foundRight]
        · rfl
      · split
        · next x y foundLeft foundRight => rw [byBody x y foundLeft foundRight]
        · rfl
      · rfl

omit extended in
theorem Closed.readsInside_equals {a b : TypeId} (left : a < t.size) (right : b < t.size) :
    t.ReadsInside fun u => u.equals a b := by
  intro more more' same
  dsimp only
  rw [equals, equals, Equality.searchDepth, Equality.searchDepth, size_followedBy, size_followedBy,
    same, equalWithin_extends closed (.followedBy t more) rfl _ _ left right,
    equalWithin_extends closed (.followedBy t more') rfl _ _ left right]

/-- The text of an entry is made from entries only. -/
theorem typeText_extends (remaining : Nat) {id : TypeId} (inside : id < t.size) :
    Display.typeText u remaining id = Display.typeText t remaining id := by
  induction remaining generalizing id with
  | zero => rfl
  | succ remaining ih =>
      rw [Display.typeText, Display.typeText, extended.kind id inside]
      split
      · rfl
      · rfl
      · rfl
      · rfl
      · next o entry =>
          exact Display.object_congr fun pair member =>
            ih (closed.property entry pair.2 (List.mem_map_of_mem member))
      · next f entry =>
          have within := closed.mentions id inside
          rw [entry] at within
          have declared : f.typeParameters.map
              (Display.declaredParameter u (Display.typeText u remaining)) =
              f.typeParameters.map (Display.declaredParameter t (Display.typeText t remaining)) :=
            List.map_congr_left fun p member => by
              have known := within p (List.mem_append_left _ member)
              rw [Display.declaredParameter, Display.declaredParameter, extended.kind p known]
              split
              · next constrained => rw [ih (closed.constraint constrained)]
              · exact ih known
          have parameters : (f.parameters.map fun p =>
              Display.named p.name p.optional (Display.typeText u remaining p.type)) =
              f.parameters.map fun p =>
                Display.named p.name p.optional (Display.typeText t remaining p.type) :=
            List.map_congr_left fun p member => by rw [ih (closed.parameter entry p member)]
          rw [Display.function, Display.function, declared, parameters,
            ih (closed.returnType entry)]
      · rfl
      · next i entry =>
          have arguments : i.bindings.values.map (Display.typeText u remaining) =
              i.bindings.values.map (Display.typeText t remaining) :=
            List.map_congr_left fun a member => ih (closed.argument entry a member)
          rw [arguments, ih (closed.instanceOrigin entry)]

theorem text_extends {id : TypeId} (inside : id < t.size) : u.text id = t.text id :=
  typeText_extends closed extended _ inside

end Following

end TypeTable

mutual

/-- From this table, the computation looks up nothing but entries. -/
inductive TableM.LooksInside : {α : Type} → TableM α → TypeTable → Prop where
  | pure {α : Type} (a : α) (t : TypeTable) : TableM.LooksInside (pure a) t
  | bind {α β : Type} {m : TableM α} {k : α → TableM β} {t : TypeTable} :
      TableM.LooksInside m t → TableM.LooksInside (k (m.run t).1) (m.run t).2 →
        TableM.LooksInside (m >>= k) t
  | read {α : Type} {k : TypeTable → TableM α} {t : TypeTable} : t.ReadsInside k →
      TableM.LooksInside (k t) t → TableM.LooksInside (get >>= k) t
  | add (kind : TypeKind) (t : TypeTable) : TableM.LooksInside (TableM.add kind) t
  | remember (key : TypeId × List TypeId) (body : TypeId) (t : TypeTable) :
      TableM.LooksInside
        (modify fun t => { t with resolved := t.resolved.insert key body } : TableM PUnit) t
  | infer {i : Inference} {pattern actual : TypeId} {t : TypeTable} :
      Inference.MatchM.LooksInside
        (Inference.matchWithin (Inference.depthLimit + 1) pattern actual) (t, i) →
        TableM.LooksInside (i.infer pattern actual) t
  /-- The search for an answer tries fuel after fuel. -/
  | compare {strict fresh : Bool} {source target : TypeId} {t : TypeTable} :
      (∀ fuel, Assignability.RelationM.LooksInside
        (Assignability.assignableWithin strict fuel source target fresh) (.ofTable t)) →
        TableM.LooksInside (assignable strict source target fresh) t

/-- From this table and inference, the matching looks up nothing but entries. -/
inductive Inference.MatchM.LooksInside : {α : Type} → MatchM α → TypeTable × Inference → Prop where
  | pure {α : Type} (a : α) (s : TypeTable × Inference) : Inference.MatchM.LooksInside (pure a) s
  | throw {α : Type} (e : InferenceError) (s : TypeTable × Inference) :
      Inference.MatchM.LooksInside (throw e : MatchM α) s
  | bind {α β : Type} {m : MatchM α} {k : α → MatchM β} {s : TypeTable × Inference} :
      Inference.MatchM.LooksInside m s →
        (∀ a s', m.run.run s = (.ok a, s') → Inference.MatchM.LooksInside (k a) s') →
          Inference.MatchM.LooksInside (m >>= k) s
  | read {α : Type} {k : TypeTable × Inference → MatchM α} {t : TypeTable} {i : Inference} :
      (t.ReadsInside fun u => k (u, i)) → Inference.MatchM.LooksInside (k (t, i)) (t, i) →
        Inference.MatchM.LooksInside (get >>= k) (t, i)
  | record (parameter actual : TypeId) (s : TypeTable × Inference) :
      Inference.MatchM.LooksInside (MatchM.bind parameter actual) s
  | within {m : MatchM Unit} {pattern actual : TypeId} {t : TypeTable} {i : Inference} :
      Inference.MatchM.LooksInside m (t, { i with visiting := (pattern, actual) :: i.visiting }) →
        Inference.MatchM.LooksInside (MatchM.within pattern actual m) (t, i)
  | onTable {α : Type} {action : TableM α} {t : TypeTable} {i : Inference} :
      TableM.LooksInside action t → Inference.MatchM.LooksInside (MatchM.onTable action) (t, i)

/-- In this session, the comparison looks up nothing but entries. -/
inductive Assignability.RelationM.LooksInside : {α : Type} → RelationM α → Session → Prop where
  | pure {α : Type} (a : α) (σ : Session) : Assignability.RelationM.LooksInside (pure a) σ
  | nothing {α : Type} (σ : Session) :
      Assignability.RelationM.LooksInside (StateT.lift none : RelationM α) σ
  | bind {α β : Type} {m : RelationM α} {k : α → RelationM β} {σ : Session} :
      Assignability.RelationM.LooksInside m σ →
        (∀ a σ', m.run σ = some (a, σ') → Assignability.RelationM.LooksInside (k a) σ') →
          Assignability.RelationM.LooksInside (m >>= k) σ
  | read {α : Type} {k : Session → RelationM α} {σ : Session} :
      (σ.table.ReadsInside fun t => k { σ with table := t }) →
        Assignability.RelationM.LooksInside (k σ) σ →
          Assignability.RelationM.LooksInside (get >>= k) σ
  | enter (s t : TypeId) (expanded : Bool) (σ : Session) :
      Assignability.RelationM.LooksInside (RelationM.enter s t expanded) σ
  | leave (s t : TypeId) (expanded : Bool) (σ : Session) :
      Assignability.RelationM.LooksInside (RelationM.leave s t expanded) σ
  | onTable {α : Type} {action : TableM α} {σ : Session} : TableM.LooksInside action σ.table →
      Assignability.RelationM.LooksInside (RelationM.onTable action) σ

end

namespace TableM

variable {α β : Type}

/-- From this table, the computation looks inside, and this is what it gives. -/
structure Asks (m : TableM α) (t : TypeTable) (post : α → TypeTable → Prop) : Prop where
  looks : m.LooksInside t
  yields : Yields m t post

namespace Asks

variable {t : TypeTable} {post : β → TypeTable → Prop}

theorem pure {b : β} (holds : post b t) : Asks (pure b) t post := ⟨.pure b t, .pure holds⟩

theorem bind {m : TableM α} {k : α → TableM β} {middle : α → TypeTable → Prop}
    (first : Asks m t middle) (next : ∀ a t', middle a t' → Asks (k a) t' post) :
    Asks (m >>= k) t post where
  looks := .bind first.looks (next _ _ first.yields).looks
  yields := first.yields.bind fun a t' holds => (next a t' holds).yields

theorem sequential : Sequential Asks := ⟨.pure, .bind⟩

theorem weaken {m : TableM β} {strong : β → TypeTable → Prop} (asks : Asks m t strong)
    (implies : ∀ b t', strong b t' → post b t') : Asks m t post :=
  ⟨asks.looks, asks.yields.weaken implies⟩

theorem and {m : TableM β} {strong : β → TypeTable → Prop} (asks : Asks m t post)
    (yields : Yields m t strong) : Asks m t fun b t' => post b t' ∧ strong b t' :=
  ⟨asks.looks, asks.yields.and yields⟩

theorem read {k : TypeTable → TableM β} (inside : t.ReadsInside k) (next : Asks (k t) t post) :
    Asks (get >>= k) t post :=
  ⟨.read inside next.looks, next.yields⟩

/-- An entry is looked up. -/
theorem kind {id : TypeId} (inside : id < t.size) :
    Asks (TableM.kind id) t fun kind t' => t' = t ∧ kind = t.kind id :=
  read (.of_same fun _ extended _ => congrArg _ (extended.kind id inside)) (pure ⟨rfl, rfl⟩)

theorem add {kind : TypeKind} {post : TypeId → TypeTable → Prop}
    (holds : post t.size (t.add kind).2) : Asks (TableM.add kind) t post :=
  ⟨.add kind t, holds⟩

end Asks

end TableM

end StructuralTyping
