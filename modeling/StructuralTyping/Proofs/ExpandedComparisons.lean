import StructuralTyping.Proofs.EndlessComparison
import StructuralTyping.Proofs.ExpandedTypes
import StructuralTyping.Proofs.PlainTypes

/-! The comparison of types with finite expansions decides the structural relation of
their trees, with everything related below five nested expansions. Every
comparison comes to smaller trees, so no pair in progress is met again and the
assumption about such pairs is never used. -/
namespace StructuralTyping.Assignability

open TypeTable (Steady steady_growth)

section Bodies
variable {table : TypeTable} {id : TypeId} {tree : Tree}

/-- A tree that was expanded at its root is not the tree of its body. -/
theorem expanded_of_body (expands : Expands table .empty id tree)
    (body : Expands table .empty id tree.body) : tree.isInstance = false := by
  rw [expands.unique body]
  exact Tree.isInstance_body tree

/-- Only instantiated types are expanded at the root. -/
theorem kind_ne_instantiated (expands : Expands table .empty id tree)
    (whole : tree.isInstance = false) (i : InstantiatedType) : table.kind id ≠ .instantiated i := by
  intro kind
  obtain ⟨-, arguments, inner, rfl, -⟩ := expands.of_kind_instantiated kind
  cases whole

/-- Resolving a type gives its body, another type exactly if it was expanded. -/
theorem resolve_expanded (wellFormed : table.WellFormed) (faithful : table.Faithful)
    (expands : Expands table .empty id tree) :
    ∃ body after, (resolve id).run table = (body, after) ∧ Steady table after ∧
      Expands after .empty body tree.body ∧ (body != id) = tree.isInstance := by
  have yields := TypeTable.yields_body wellFormed faithful expands
  obtain ⟨body, after, ran⟩ : ∃ body after, (resolve id).run table = (body, after) := ⟨_, _, rfl⟩
  rw [TableM.Yields, ran] at yields
  obtain ⟨steady, made⟩ := yields
  refine ⟨body, after, ran, steady, made, ?_⟩
  cases marked : tree.isInstance with
  | false =>
      rw [run_resolve_of_ne (kind_ne_instantiated expands marked)] at ran
      obtain rfl : id = body := congrArg Prod.fst ran
      simp
  | true =>
      rw [bne_iff_ne]
      rintro rfl
      simp [expanded_of_body (expands.extends steady.extended) made] at marked

/-- A wildcard has the tree of one. -/
theorem wildcard_of_expands (expands : Expands table .empty id tree)
    (wild : table.isWildcard id = true) : tree = .wildcard :=
  expands.unique (.wildcard rfl (expands.lt_size rfl) wild)

end Bodies

section Comparisons
variable {strict : Bool} {σ : Session} {a b : TypeId} {s t : Tree}

/-- The pairs in progress have larger trees. -/
def Session.Larger (σ : Session) (size : Nat) : Prop :=
  ∀ pair ∈ σ.inProgress, ∃ s t, Expands σ.table .empty pair.1 s ∧
    Expands σ.table .empty pair.2 t ∧ size < sizeOf s + sizeOf t

/-- A comparison of types with these trees comes up. -/
structure Posed (σ : Session) (a b : TypeId) (s t : Tree) : Prop where
  wellFormed : σ.table.WellFormed
  faithful : σ.table.Faithful
  source : Expands σ.table .empty a s
  target : Expands σ.table .empty b t
  larger : σ.Larger (sizeOf s + sizeOf t)

/-- How many more expansions may be nested. -/
def Session.remaining (σ : Session) : Nat := expansionLimit - σ.expansionDepth

/-- The comparison ends, with the relation of the trees as its answer. -/
abbrev Settled (strict : Bool) (σ : Session) (a b : TypeId) (s t : Tree) : Prop :=
  Ends (fun fuel => relatedWithin strict fuel a b) σ
    (Judged Steady σ (Tree.RelatedUpTo strict σ.remaining s t)
      (Tree.RelatedUpTo strict σ.remaining s t))

theorem Session.Larger.of_le {size size' : Nat} (larger : σ.Larger size') (less : size ≤ size') :
    σ.Larger size := by
  intro pair member
  obtain ⟨s, t, source, target, above⟩ := larger pair member
  exact ⟨s, t, source, target, Nat.lt_of_le_of_lt less above⟩

theorem Session.Larger.follows {σ' : Session} {size : Nat} (larger : σ.Larger size)
    (follows : σ.Follows Steady σ') : σ'.Larger size := by
  intro pair member
  obtain ⟨s, t, source, target, above⟩ := larger pair (follows.inProgress ▸ member)
  exact ⟨s, t, source.extends follows.table.extended, target.extends follows.table.extended, above⟩

/-- Entering a pair whose trees are larger too. -/
theorem Session.Larger.entered {size : Nat} (larger : σ.Larger size)
    (hs : Expands σ.table .empty a s) (ht : Expands σ.table .empty b t)
    (above : size < sizeOf s + sizeOf t) (expanded : Bool) :
    (σ.entered a b expanded).Larger size := by
  intro pair member
  rcases Std.ExtTreeSet.mem_insert.mp member with here | before
  · obtain rfl := Std.LawfulEqCmp.eq_of_compare here
    exact ⟨s, t, hs, ht, above⟩
  · exact larger pair before

theorem Posed.follows {σ' : Session} (posed : Posed σ a b s t) (follows : σ.Follows Steady σ') :
    Posed σ' a b s t where
  wellFormed := follows.table.wellFormed posed.wellFormed
  faithful := follows.table.faithful posed.wellFormed posed.faithful
  source := posed.source.extends follows.table.extended
  target := posed.target.extends follows.table.extended
  larger := posed.larger.follows follows

/-- A comparison of parts with smaller trees. -/
theorem Posed.part {x y : TypeId} {u v : Tree} (posed : Posed σ a b s t)
    (source : Expands σ.table .empty x u) (target : Expands σ.table .empty y v)
    (smaller : sizeOf u + sizeOf v < sizeOf s + sizeOf t) : Posed σ x y u v where
  wellFormed := posed.wellFormed
  faithful := posed.faithful
  source := source
  target := target
  larger := posed.larger.of_le (Nat.le_of_lt smaller)

theorem Session.Follows.remaining {grown : TypeTable → TypeTable → Prop} {σ' : Session}
    (follows : σ.Follows grown σ') : σ'.remaining = σ.remaining := by
  rw [Session.remaining, Session.remaining, follows.expansionDepth]

/-- What is decided of a pair of types, in terms of their trees. -/
theorem decided_of_settled (posed : Posed σ a b s t)
    (settled : ∀ σ', Posed σ' a b s t → Settled strict σ' a b s t) :
    Decided Steady (relatedWithin strict) σ a b
      (TreesRelated strict σ.remaining σ.table a b)
      (TreesRelated strict σ.remaining σ.table a b) := by
  intro σ' follows
  refine (settled σ' (posed.follows follows)).weaken fun verdict σ'' judged => ?_
  have trees : TreesRelated strict σ.remaining σ.table a b ↔
      Tree.RelatedUpTo strict σ.remaining s t := treesRelated_iff posed.source posed.target
  rw [follows.remaining] at judged
  exact ⟨judged.1, judged.2.imp trees.mpr trees.mp⟩

/-- The shortcut accepts two instances only if their trees are related. -/
theorem instancesRelated_expanded (posed : Posed σ a b s t)
    (settles : ∀ σ' x y u v, sizeOf u + sizeOf v < sizeOf s + sizeOf t → Posed σ' x y u v →
      Settled strict σ' x y u v) :
    Ends (fun fuel => instancesRelated strict (relatedWithin strict fuel) a b) σ fun found σ' =>
      σ.Follows Steady σ' ∧ (found = true → Tree.RelatedUpTo strict σ.remaining s t) := by
  have refused : Ends (fun _ => (pure false : RelationM Bool)) σ fun found σ' =>
      σ.Follows Steady σ' ∧ (found = true → Tree.RelatedUpTo strict σ.remaining s t) :=
    .pure ⟨.refl steady_growth σ, nofun⟩
  refine .after (fun _ => rfl) ?_
  dsimp only
  split
  · next i j kind kind' =>
      refine .ite (fun sameOrigin => ?_) fun _ => refused
      obtain ⟨g, given, inner, rfl, origin, arity, parts, body, whole⟩ :=
        posed.source.of_kind_instantiated kind
      obtain ⟨g', expected, inner', rfl, origin', arity', parts', body', whole'⟩ :=
        posed.target.of_kind_instantiated kind'
      obtain rfl : g = g' := TypeKind.generic.inj (origin.symm.trans (sameOrigin ▸ origin'))
      have pairs := forall₂_zip parts parts'
      refine (argumentsRelated_ends steady_growth
        (S := TreesRelated strict σ.remaining σ.table)
        (T := TreesRelated strict σ.remaining σ.table) fun x y member => ?_).weaken ?_
      · obtain ⟨⟨u, v⟩, listed, source, target⟩ := forall₂_left pairs _ member
        obtain ⟨first, second⟩ := List.of_mem_zip listed
        have below : sizeOf u + sizeOf v <
            sizeOf (Tree.expanded given inner) + sizeOf (Tree.expanded expected inner') :=
          Nat.add_lt_add (Tree.sizeOf_argument first) (Tree.sizeOf_argument second)
        have below' := Nat.add_comm (sizeOf u) (sizeOf v) ▸ below
        exact ⟨decided_of_settled (posed.part source target below) fun σ' => settles σ' x y u v below,
          decided_of_settled (posed.part target source below') fun σ' => settles σ' y x v u below'⟩
      · rintro found σ' ⟨follows, accepted⟩
        refine ⟨follows, fun yes => ?_⟩
        have fits : List.Forall₂ (Tree.Fits strict σ.remaining) given expected := by
          refine List.forall₂_iff_zip.mpr ⟨?_, fun {u v} listed => ?_⟩
          · rw [← parts.length_eq, ← parts'.length_eq, arity, arity']
          · obtain ⟨⟨x, y⟩, member, source, target⟩ := forall₂_left pairs.flip _ listed
            obtain ⟨forth, back⟩ := accepted yes (x, y) member
            exact ⟨(treesRelated_iff source target).mp forth,
              fun isStrict => (treesRelated_iff target source).mp (back isStrict)⟩
        have bodies := body.fits body' (rel_find?_zip g.typeParameters fits)
        refine Tree.RelatedUpTo.of_body ?_
        rw [Tree.body, Tree.body, Tree.body_of_not_isInstance whole,
          Tree.body_of_not_isInstance whole']
        exact bodies.1
  · exact refused

/-- The comparison of two bodies is by the rule for their trees. -/
theorem structureRelated_expanded {limit : Nat} {source target : TypeId}
    (hs : Expands σ.table .empty a s) (ht : Expands σ.table .empty b t)
    (whole : s.isInstance = false) (whole' : t.isInstance = false)
    (solid : σ.table.isWildcard a = false) (solid' : σ.table.isWildcard b = false)
    (parts : ∀ x y u v, Expands σ.table .empty x u → Expands σ.table .empty y v →
      sizeOf u + sizeOf v < sizeOf s + sizeOf t →
      Decided Steady (relatedWithin strict) σ x y (TreesRelated strict limit σ.table x y)
        (TreesRelated strict limit σ.table x y)) :
    Ends (fun fuel => structureRelated strict (relatedWithin strict fuel) source target a b) σ
      (Judged Steady σ (Tree.Rule strict (Tree.RelatedUpTo strict limit) s t)
        (Tree.Rule strict (Tree.RelatedUpTo strict limit) s t)) := by
  refine (structureRelated_ends steady_growth (S := TreesRelated strict limit σ.table)
    (T := TreesRelated strict limit σ.table) ?_ ?_ ?_).weaken ?_
  · intro x y subpair
    obtain ⟨u, v, source, target, smaller⟩ := subpair_smaller hs ht subpair
    exact parts x y u v source target smaller
  · intro f kind
    obtain ⟨_, _, -, plain, -⟩ := hs.of_kind_function kind
    simp [FunctionType.isGeneric, plain]
  · intro f kind σ' follows
    obtain ⟨_, _, -, -, -, returns⟩ := ht.of_kind_function kind
    rw [TypeTable.isPrimitive, TypeTable.isPrimitive,
      follows.table.extended.kind _ (returns.lt_size rfl)]
  · rintro verdict σ' ⟨follows, judges⟩
    have rule : StructureRule strict σ.table (TreesRelated strict limit σ.table) target a b ↔
        Tree.Rule strict (Tree.RelatedUpTo strict limit) s t :=
      structureRule_iff hs ht whole whole' solid solid'
    exact ⟨follows, judges.imp rule.mp rule.mpr⟩

/-- An expansion that the limit cuts off. -/
theorem limited_iff (flag : Bool) (expanded : flag = (s.isInstance || t.isInstance)) :
    σ.Limited flag ↔ Tree.Spent σ.remaining s t := by
  subst expanded
  rw [Session.Limited, Tree.Spent, Session.remaining, Nat.sub_eq_zero_iff_le, Bool.or_eq_true]
  exact and_comm

/-- The expansions that remain inside. -/
theorem remaining_entered (x y : TypeId) (flag : Bool)
    (expanded : flag = (s.isInstance || t.isInstance)) :
    (σ.entered x y flag).remaining = Tree.left σ.remaining s t := by
  subst expanded
  simp only [Session.remaining, Session.entered, Tree.left, Bool.or_eq_true]
  split <;> omega

/-- The comparison of what two types stand for. -/
theorem bodiesRelated_expanded (posed : Posed σ a b s t)
    (settles : ∀ σ' x y u v, sizeOf u + sizeOf v < sizeOf s + sizeOf t → Posed σ' x y u v →
      Settled strict σ' x y u v) :
    Ends (fun fuel => bodiesRelated strict (relatedWithin strict fuel) a b) σ
      (Judged Steady σ (Tree.RelatedUpTo strict σ.remaining s t)
        (Tree.RelatedUpTo strict σ.remaining s t)) := by
  obtain ⟨body, one, first, steady, hs, marked⟩ :=
    resolve_expanded posed.wellFormed posed.faithful posed.source
  obtain ⟨body', two, second, steady', ht, marked'⟩ :=
    resolve_expanded (steady.wellFormed posed.wellFormed)
      (steady.faithful posed.wellFormed posed.faithful) (posed.target.extends steady.extended)
  replace hs := hs.extends steady'.extended
  have grown : Steady σ.table two := steady_growth.trans steady steady'
  have follows : σ.Follows Steady { σ with table := two } := .of_table grown
  have flag : (body != a || body' != b) = (s.isInstance || t.isInstance) := by rw [marked, marked']
  have within : sizeOf s.body + sizeOf t.body ≤ sizeOf s + sizeOf t :=
    Nat.add_le_add (Tree.sizeOf_body_le s) (Tree.sizeOf_body_le t)
  refine bodiesRelated_ends steady_growth first second follows (fun same => ?_) (fun wild => ?_)
    (fun member => ?_) (fun limited => ?_) fun _ solid solid' _ free => ?_
  · subst same
    exact (hs.fits ht fun _ => .none).1.of_body
  · refine Tree.relatedUpTo_iff.mpr (.inr (Tree.rule_of_wildcard ?_))
    exact wild.imp (wildcard_of_expands hs) (wildcard_of_expands ht)
  · -- the pair has the trees it has, which are not larger
    obtain ⟨u, v, hu, hv, above⟩ := (posed.larger.follows follows) _ member
    rw [hu.unique hs, hv.unique ht] at above
    omega
  · exact Tree.relatedUpTo_iff.mpr (.inl ((limited_iff _ flag).mp limited))
  · generalize (body != a || body' != b) = expanded at flag free ⊢
    have unspent : ¬ Tree.Spent σ.remaining s t := (limited_iff _ flag).not.mp free
    have rule : Tree.Rule strict (Tree.RelatedUpTo strict (Tree.left σ.remaining s t)) s.body t.body ↔
        Tree.RelatedUpTo strict σ.remaining s t := by
      rw [Tree.rule_body, Tree.relatedUpTo_iff, or_iff_right unspent]
    let inner : Session := Session.entered { σ with table := two } body body' expanded
    refine (@structureRelated_expanded strict inner body body' s.body t.body
      (Tree.left σ.remaining s t) a b hs ht (by simp) (by simp) solid solid' ?_).weaken ?_
    · intro x y u v hu hv smaller
      have below := Nat.lt_of_lt_of_le smaller within
      have posed' : Posed inner x y u v :=
        ⟨grown.wellFormed posed.wellFormed, grown.faithful posed.wellFormed posed.faithful, hu, hv,
          ((posed.larger.of_le (Nat.le_of_lt below)).follows follows).entered hs ht smaller _⟩
      have decided := decided_of_settled posed' fun σ' => settles σ' x y u v below
      rwa [remaining_entered _ _ _ flag] at decided
    · rintro verdict σ' ⟨later, judges⟩
      exact ⟨later, judges.imp rule.mp rule.mpr⟩

/-- The comparison of two types ends with the relation of their trees as its answer. -/
theorem relatedWithin_settled (bound : Nat) (small : sizeOf s + sizeOf t < bound)
    (posed : Posed σ a b s t) : Settled strict σ a b s t := by
  induction bound generalizing σ a b s t with
  | zero => exact absurd small (Nat.not_lt_zero _)
  | succ bound ih =>
      have settles : ∀ σ' x y u v, sizeOf u + sizeOf v < sizeOf s + sizeOf t → Posed σ' x y u v →
          Settled strict σ' x y u v := fun σ' x y u v smaller =>
        ih (Nat.lt_of_lt_of_le smaller (Nat.lt_succ_iff.mp small))
      refine relatedWithin_ends steady_growth (fun same => ?_)
        (fun _ => instancesRelated_expanded posed settles) fun _ σ' follows => ?_
      · subst same
        exact (posed.source.fits posed.target fun _ => .none).1
      · rw [← follows.remaining]
        exact bodiesRelated_expanded (posed.follows follows) settles

end Comparisons

section Boxes
variable {table : TypeTable} {holder : TypeId}

/-- The generic interface `Box<T> { value: T }`. -/
def IsBox (table : TypeTable) (holder : TypeId) : Prop :=
  ∃ name label parameter constraint body shown,
    table.kind holder = .generic ⟨name, [parameter], body⟩ ∧
      table.kind parameter = .typeParameter label constraint ∧
        table.kind body = .object ⟨shown, ⟨[("value", ⟨parameter, false⟩)]⟩⟩

/-- That many instances of the generic interface around a type. -/
inductive Nested (table : TypeTable) (holder inner : TypeId) : Nat → TypeId → Prop
  | zero : Nested table holder inner 0 inner
  | succ {n : Nat} {id held : TypeId} {i : InstantiatedType} (nested : Nested table holder inner n held)
      (kind : table.kind id = .instantiated i) (origin : i.origin = holder)
      (holds : i.bindings.values = [held]) : Nested table holder inner (n + 1) id

theorem Nested.expands {inner id : TypeId} {n : Nat} {s : Tree} (isBox : IsBox table holder)
    (nested : Nested table holder inner n id) (expands : Expands table .empty inner s) :
    Expands table .empty id (s.boxed n) := by
  induction nested with
  | zero => exact expands
  | @succ n id held i _ kind origin holds ih =>
      obtain ⟨name, label, parameter, constraint, body, shown, generic, isParameter, object⟩ := isBox
      have apart : body ≠ parameter := by
        rintro rfl
        simp [isParameter] at object
      let env : Environment := .supply ⟨name, [parameter], body⟩ [s.boxed n]
      have given : env parameter = some (s.boxed n) := by
        simp [env, Environment.supply, Dictionary.find?, Dictionary.ofList, Dictionary.insert,
          Dictionary.insertIn, Dictionary.findIn?, Dictionary.empty]
      have free : env body = none := by
        simp [env, Environment.supply, Dictionary.find?, Dictionary.ofList, Dictionary.insert,
          Dictionary.insertIn, Dictionary.findIn?, Dictionary.empty, apart.symm]
      have parts : List.Forall₂ (Expands table .empty) i.bindings.values [s.boxed n] := by
        rw [holds]
        exact .cons ih .nil
      have contents : Expands table env body (.object [("value", false, s.boxed n)]) := by
        refine .of_fields free object (by simp [Dictionary.Distinct, Dictionary.keys]) ?_
        exact .cons ⟨rfl, rfl, .bound given⟩ .nil
      exact .of_arguments rfl kind (origin ▸ generic) (TypeTable.lt_size_of_kind object (by simp))
        (by simp [object]) (by simp [holds]) parts contents rfl

end Boxes

/-- The question is answered, with a yes exactly if this holds. -/
def Decides (strict : Bool) (table : TypeTable) (source target : TypeId) (holds : Prop) : Prop :=
  ∃ verdict after, Answers strict table source target false verdict after ∧
    (assignable strict source target false).run table = (verdict, after) ∧
      (verdict = .ok () ↔ holds)

section Questions
variable {strict : Bool} {table : TypeTable} {source target : TypeId} {s t : Tree}

theorem Decides.congr {holds holds' : Prop} (decides : Decides strict table source target holds)
    (same : holds ↔ holds') : Decides strict table source target holds' := by
  obtain ⟨verdict, after, answers, run, accepted⟩ := decides
  exact ⟨verdict, after, answers, run, accepted.trans same⟩

theorem Decides.of_refused {fuel : Nat}
    (refused : ((assignableWithin strict fuel source target false).run (.ofTable table)).any
      (fun r => !r.1.isOk) = true) : Decides strict table source target False := by
  obtain ⟨mismatch, after, answers⟩ := exists_refused refused
  exact ⟨.error mismatch, after, answers, answers.run_assignable, by simp⟩

theorem decides_relatedUpTo (wellFormed : table.WellFormed) (faithful : table.Faithful)
    (hs : Expands table .empty source s) (ht : Expands table .empty target t) :
    Decides strict table source target (Tree.RelatedUpTo strict expansionLimit s t) := by
  have posed : Posed (.ofTable table) source target s t :=
    ⟨wellFormed, faithful, hs, ht, fun pair member => by simp [Session.ofTable] at member⟩
  have settled : Settled strict (.ofTable table) source target s t :=
    relatedWithin_settled _ (Nat.lt_succ_self _) posed
  obtain ⟨verdict, σ, fuel, done, -, judges⟩ := settled
  have answers : Answers strict table source target false verdict σ.table :=
    ⟨fuel, σ, done fuel (Nat.le_refl fuel), rfl⟩
  refine ⟨verdict, σ.table, answers, answers.run_assignable, ?_⟩
  cases verdict with
  | ok => exact ⟨fun _ => judges, fun _ => rfl⟩
  | error mismatch => exact ⟨by simp, fun related => absurd related judges⟩

end Questions

/-- Types with finite expansions are compared by their trees, with everything below
five nested expansions taken to be related. -/
theorem assignable_expanded (strict : Bool) {table : TypeTable} (wellFormed : table.WellFormed)
    (faithful : table.Faithful) :
    (∀ source target s t, Expands table .empty source s → Expands table .empty target t →
      Decides strict table source target (Tree.RelatedUpTo strict expansionLimit s t) ∧
        (Tree.Related strict s t → Decides strict table source target True) ∧
        (Tree.Within expansionLimit s t →
          Decides strict table source target (Tree.Related strict s t))) ∧
      ∀ holder, IsBox table holder → ∀ n x y source target s t,
        Nested table holder x n source → Nested table holder y n target →
        Expands table .empty x s → Expands table .empty y t →
        Tree.Within (expansionLimit - n) s t →
          Decides strict table x y (Tree.Related strict s t) ∧
            Decides strict table source target (expansionLimit < n ∨ Tree.Related strict s t) := by
  refine ⟨fun source target s t hs ht => ?_, ?_⟩
  · have decides : Decides strict table source target
        (Tree.RelatedUpTo strict expansionLimit s t) :=
      decides_relatedUpTo wellFormed faithful hs ht
    refine ⟨decides, fun related => ?_, fun within => decides.congr within.relatedUpTo_iff_related⟩
    exact decides.congr (iff_true_intro (related.upTo _))
  · intro holder isBox n x y source target s t nested nested' hs ht within
    refine ⟨?_, ?_⟩
    · exact (decides_relatedUpTo wellFormed faithful hs ht).congr
        (within.of_le (Nat.sub_le _ _)).relatedUpTo_iff_related
    · have decides : Decides strict table source target
          (Tree.RelatedUpTo strict expansionLimit (s.boxed n) (t.boxed n)) :=
        decides_relatedUpTo wellFormed faithful (nested.expands isBox hs) (nested'.expands isBox ht)
      rw [Tree.relatedUpTo_boxed, within.relatedUpTo_iff_related] at decides
      exact decides

/-- `interface Box<T> { value: T }`, nested up to six times around strings and up to six
times around numbers. -/
def boxes : TypeTable :=
  let around (held : TypeId) : TypeKind := .instantiated ⟨9, ⟨[("T", held)]⟩⟩
  { TypeTable.initial with
    entries := TypeTable.initial.entries ++ #[
      .typeParameter "T" none,
      .object ⟨some "Box", ⟨[("value", ⟨7, false⟩)]⟩⟩,
      .generic ⟨"Box", [7], 8⟩,
      around TypeId.string, around 10, around 11, around 12, around 13, around 14,
      around TypeId.number, around 16, around 17, around 18, around 19, around 20] }

theorem isBox_boxes : IsBox boxes 9 := ⟨_, _, _, _, _, _, rfl, rfl, rfl⟩

theorem nested_string : Nested boxes 9 TypeId.string 5 14 :=
  .succ (.succ (.succ (.succ (.succ .zero rfl rfl rfl) rfl rfl rfl) rfl rfl rfl) rfl rfl rfl) rfl rfl
    rfl

theorem nested_number : Nested boxes 9 TypeId.number 5 20 :=
  .succ (.succ (.succ (.succ (.succ .zero rfl rfl rfl) rfl rfl rfl) rfl rfl rfl) rfl rfl rfl) rfl rfl
    rfl

theorem boxes_wellFormed : boxes.WellFormed := .of_fits (by decide) rfl

theorem boxes_faithful : boxes.Faithful := fun _ _ found => nomatch found

/-- Five boxes still tell strings from numbers. -/
theorem fiveBoxes_refused : Decides true boxes 14 20 False := by
  have string : Expands boxes .empty TypeId.string (.primitive .string) := .primitive rfl rfl
  have number : Expands boxes .empty TypeId.number (.primitive .number) := .primitive rfl rfl
  have within : Tree.Within (expansionLimit - 5) (.primitive .string) (.primitive .number) := by
    refine .intro (by simp [Tree.Spent, Tree.isInstance]) fun a b compared => ?_
    cases compared <;> simp_all [Tree.body]
  refine ((assignable_expanded true boxes_wellFormed boxes_faithful).2 9 isBox_boxes 5 _ _ _ _ _ _
    nested_string nested_number string number within).2.congr ?_
  simp [Tree.related_iff, Tree.Rule, Tree.body, expansionLimit]

/-- A table in which the body of `interface G<T> { inner: Q }` was resolved for `G<number>`
before `Q` was defined as `{ x: T }`. -/
def staleBody : TypeTable where
  entries := TypeTable.initial.entries ++ #[
    .object ⟨some "Q", ⟨[("x", ⟨8, false⟩)]⟩⟩,
    .typeParameter "T" none,
    .object ⟨none, ⟨[("inner", ⟨7, false⟩)]⟩⟩,
    .generic ⟨"G", [8], 9⟩,
    .instantiated ⟨10, ⟨[("T", TypeId.number)]⟩⟩,
    .object ⟨none, ⟨[("x", ⟨TypeId.number, false⟩)]⟩⟩,
    .object ⟨none, ⟨[("inner", ⟨12, false⟩)]⟩⟩]
  resolved := ⟨[((10, [TypeId.number]), 9)]⟩

/-- The tree of `{ inner: { x: number } }`. -/
def innerTree : Tree := .object [("inner", false, .object [("x", false, .primitive .number)])]

theorem staleBody_expands : Expands staleBody .empty 11 (.expanded [.primitive .number] innerTree) := by
  have distinct (name : String) (p : Property) : (⟨[(name, p)]⟩ : Dictionary String Property).Distinct := by
    simp [Dictionary.Distinct, Dictionary.keys]
  have number : List.Forall₂ (Expands staleBody .empty) [TypeId.number] [.primitive .number] :=
    .cons (.primitive rfl rfl) .nil
  let env : Environment := .supply ⟨"G", [8], 9⟩ [.primitive .number]
  have inner : Expands staleBody env 7 (.object [("x", false, .primitive .number)]) :=
    .of_fields rfl rfl (distinct _ _) (.cons ⟨rfl, rfl, .bound rfl⟩ .nil)
  have body : Expands staleBody env 9 innerTree :=
    .of_fields rfl rfl (distinct _ _) (.cons ⟨rfl, rfl, inner⟩ .nil)
  exact .of_arguments rfl rfl rfl (by decide) (by decide) rfl number body rfl

theorem plainInner_expands : Expands staleBody .empty 13 innerTree := by
  have distinct (name : String) (p : Property) : (⟨[(name, p)]⟩ : Dictionary String Property).Distinct := by
    simp [Dictionary.Distinct, Dictionary.keys]
  have inner : Expands staleBody .empty 12 (.object [("x", false, .primitive .number)]) :=
    .of_fields rfl rfl (distinct _ _) (.cons ⟨rfl, rfl, .primitive rfl rfl⟩ .nil)
  exact .of_fields rfl rfl (distinct _ _) (.cons ⟨rfl, rfl, inner⟩ .nil)

/-- The body that a type is resolved to has this tree, whatever the arguments of the
type are. -/
def ResolvesTo (table : TypeTable) (id : TypeId) (tree : Tree) : Prop :=
  Expands ((resolve id).run table).2 .empty ((resolve id).run table).1 tree

/-- `interface Box<T> { value: T }` and a generic interface `Crate<T>` whose body is
`Box<T>`, with the types `Crate<number>` and `{ value: number }`. -/
def instanceBody : TypeTable :=
  { TypeTable.initial with
    entries := TypeTable.initial.entries ++ #[
      .typeParameter "T" none,
      .object ⟨some "Box", ⟨[("value", ⟨7, false⟩)]⟩⟩,
      .generic ⟨"Box", [7], 8⟩,
      .instantiated ⟨9, ⟨[("T", 7)]⟩⟩,
      .generic ⟨"Crate", [7], 10⟩,
      .instantiated ⟨11, ⟨[("T", TypeId.number)]⟩⟩,
      .object ⟨none, ⟨[("value", ⟨TypeId.number, false⟩)]⟩⟩] }

/-- The tree of `{ value: number }`. -/
def valueTree : Tree := .object [("value", false, .primitive .number)]

theorem crate_resolvesTo :
    ResolvesTo instanceBody 12 (.expanded [.primitive .number] valueTree) := by
  let after := ((resolve 12).run instanceBody).2
  have body : ((resolve 12).run instanceBody).1 = 14 := by decide +kernel
  have kind : after.kind 14 = .instantiated ⟨9, ⟨[("T", TypeId.number)]⟩⟩ := by decide +kernel
  have origin : after.kind 9 = .generic ⟨"Box", [7], 8⟩ := by decide +kernel
  have pattern : after.kind 8 = .object ⟨some "Box", ⟨[("value", ⟨7, false⟩)]⟩⟩ := by
    decide +kernel
  have number : after.kind TypeId.number = .primitive .number := by decide +kernel
  rw [ResolvesTo, body]
  refine .of_arguments rfl kind origin (by decide +kernel) (by rw [pattern]; nofun) rfl
    (.cons (.primitive rfl number) .nil) ?_ rfl
  exact .of_fields rfl pattern (by simp [Dictionary.Distinct, Dictionary.keys])
    (.cons ⟨rfl, rfl, .bound rfl⟩ .nil)

theorem plainValue_expands : Expands instanceBody .empty 13 valueTree :=
  .of_fields rfl rfl (by simp [Dictionary.Distinct, Dictionary.keys])
    (.cons ⟨rfl, rfl, .primitive rfl rfl⟩ .nil)

/-- `interface A { m: <T>(x: A) => void }`, `interface B { m: (x: A) => void }` and
`interface Tagged<U> { tag: number }`, with the types `Tagged<A>` and `Tagged<B>`. -/
def unusedArgument : TypeTable :=
  { TypeTable.initial with
    entries := TypeTable.initial.entries ++ #[
      .object ⟨some "A", ⟨[("m", ⟨10, false⟩)]⟩⟩,
      .object ⟨some "B", ⟨[("m", ⟨11, false⟩)]⟩⟩,
      .typeParameter "T" none,
      .function ⟨[9], [⟨"x", 7, false⟩], 3⟩,
      .function plainMethod,
      .typeParameter "U" none,
      .object ⟨some "Tagged", ⟨[("tag", ⟨TypeId.number, false⟩)]⟩⟩,
      .generic ⟨"Tagged", [12], 13⟩,
      .instantiated ⟨14, ⟨[("U", 7)]⟩⟩,
      .instantiated ⟨14, ⟨[("U", 8)]⟩⟩] }

/-- The tree of `{ tag: number }`. -/
def tagTree : Tree := .object [("tag", false, .primitive .number)]

theorem tagged_resolvesTo {id : TypeId} (tagged : id = 15 ∨ id = 16) :
    ResolvesTo unusedArgument id tagTree := by
  let after := ((resolve id).run unusedArgument).2
  have body : ((resolve id).run unusedArgument).1 = 13 := by
    rcases tagged with rfl | rfl <;> decide +kernel
  have kind : after.kind 13 = .object ⟨some "Tagged", ⟨[("tag", ⟨TypeId.number, false⟩)]⟩⟩ := by
    rcases tagged with rfl | rfl <;> decide +kernel
  have number : after.kind TypeId.number = .primitive .number := by
    rcases tagged with rfl | rfl <;> decide +kernel
  rw [ResolvesTo, body]
  exact .of_fields rfl kind (by simp [Dictionary.Distinct, Dictionary.keys])
    (.cons ⟨rfl, rfl, .primitive rfl number⟩ .nil)

/-- The shortcut compares the arguments, though the bodies are one type. -/
theorem tagged_unanswered (strict : Bool) (fuel : Nat) :
    (relatedWithin strict fuel 15 16).run (.ofTable unusedArgument) = none := by
  have pursued : Pursued (.ofTable unusedArgument) :=
    ⟨⟨rfl, rfl, rfl⟩, fun pair member => by simp [Session.ofTable] at member⟩
  cases fuel with
  | zero => rfl
  | succ fuel =>
      have arguments : (relatedWithin strict fuel 7 8).run (.ofTable unusedArgument) = none :=
        (pursuit fuel pursued rfl (by simp [Session.ofTable])).2 (some "B") rfl
          (by simp [Session.ofTable])
      have unanswered :
          (holds (relatedWithin strict fuel) 7 8).run (.ofTable unusedArgument) = none := by
        simp [holds, arguments]
      have source : (Session.ofTable unusedArgument).table.kind 15 =
        .instantiated ⟨14, ⟨[("U", 7)]⟩⟩ := rfl
      have target : (Session.ofTable unusedArgument).table.kind 16 =
        .instantiated ⟨14, ⟨[("U", 8)]⟩⟩ := rfl
      simp [relatedWithin, instancesRelated, source, target, argumentsRelated, unanswered,
        Dictionary.values]

theorem related_property {strict : Bool} {name : String} {s t : Tree} (related : Tree.Related strict s t) :
    Tree.Related strict (.object [(name, false, s)]) (.object [(name, false, t)]) :=
  Tree.related_iff.mpr (by simp [Tree.Rule, Tree.body, Dictionary.findIn?, related])

theorem related_expanded {strict : Bool} {arguments : List Tree} {s t : Tree}
    (related : Tree.Related strict s t) : Tree.Related strict (.expanded arguments s) t := by
  have rule := Tree.related_iff.mp related
  exact Tree.related_iff.mpr rule

/-- Six boxes are all alike; what was remembered of a body stays behind when the types
in it are defined later; a body that is an instance is not expanded in its turn; and
arguments that no body mentions are compared nevertheless. -/
theorem expansions_disagree :
    (∃ s t, Expands boxes .empty 15 s ∧ Expands boxes .empty 21 t ∧ ¬ Tree.Related true s t ∧
      Decides true boxes 15 21 True) ∧
    (∃ s t, Expands staleBody .empty 11 s ∧ Expands staleBody .empty 13 t ∧
      Tree.Related true s t ∧ Decides true staleBody 11 13 False) ∧
    (∃ s t, ResolvesTo instanceBody 12 s ∧ Expands instanceBody .empty 13 t ∧
      Tree.Related true s t ∧ Decides true instanceBody 12 13 False) ∧
    ∃ t, ResolvesTo unusedArgument 15 t ∧ ResolvesTo unusedArgument 16 t ∧
      Tree.Related true t t ∧ ∀ verdict after, ¬ Answers true unusedArgument 15 16 false verdict after := by
  have nested : Nested boxes 9 TypeId.string 6 15 := nested_string.succ rfl rfl rfl
  have nested' : Nested boxes 9 TypeId.number 6 21 := nested_number.succ rfl rfl rfl
  have strings : Expands boxes .empty 15 (.boxed 6 (.primitive .string)) :=
    nested.expands isBox_boxes (.primitive rfl rfl)
  have numbers : Expands boxes .empty 21 (.boxed 6 (.primitive .number)) :=
    nested'.expands isBox_boxes (.primitive rfl rfl)
  have number : Tree.Related true (.primitive .number) (.primitive .number) :=
    Tree.related_iff.mpr rfl
  refine ⟨⟨_, _, strings, numbers, ?_, ?_⟩, ⟨_, _, staleBody_expands, plainInner_expands, ?_, ?_⟩,
    ⟨_, _, crate_resolvesTo, plainValue_expands, ?_, ?_⟩,
    ⟨_, tagged_resolvesTo (.inl rfl), tagged_resolvesTo (.inr rfl), related_property number, ?_⟩⟩
  · rw [Tree.related_boxed, Tree.related_iff]
    simp [Tree.Rule, Tree.body]
  · refine (decides_relatedUpTo boxes_wellFormed boxes_faithful strings numbers).congr ?_
    simp [Tree.relatedUpTo_boxed, expansionLimit]
  · exact related_expanded (related_property (related_property number))
  · have refused : ((assignableWithin true 20 11 13 false).run (.ofTable staleBody)).any
        (fun r => !r.1.isOk) = true := by decide +kernel
    exact .of_refused refused
  · exact related_expanded (related_property number)
  · have refused : ((assignableWithin true 20 12 13 false).run (.ofTable instanceBody)).any
        (fun r => !r.1.isOk) = true := by decide +kernel
    exact .of_refused refused
  · rintro verdict after ⟨fuel, σ, answered, -⟩
    simp [assignableWithin, tagged_unanswered] at answered

end StructuralTyping.Assignability
