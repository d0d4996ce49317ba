import StructuralTyping.Proofs.CorrespondingEntries

/-! Two comparisons side by side, of types that have one label in two tables that come of one
table. The second comparison has at least the assumptions of the first one and is nested as deep
or deeper, and its mode is as strict or laxer. Then it accepts what the first one accepts, whatever
instances either of them has resolved on the way. -/
namespace StructuralTyping.Assignability

open TypeTable

section Tracing
variable {base u v u' v' : TypeTable} {P : TypeId → Prop} {a b a' b' : TypeId → Label}
  {x y x' y' : TypeId} {σ σ' τ τ' : Session}

/-- The table stays sound, and what is new in it gets labels. -/
def Traced (base : TypeTable) (P : TypeId → Prop) (u u' : TypeTable) : Prop :=
  Grown true P u u' ∧ Labelled.Grows base u u'

theorem tracks_traced (wellFormed : base.WellFormed) : Tracks P (Traced base P) where
  refl u := ⟨.refl u, (Labelled.grows_growth base).refl u⟩
  trans one two := ⟨one.1.trans two.1, (Labelled.grows_growth base).trans one.2 two.2⟩
  toGrown := And.left
  resolve sound held := ⟨(yields_resolve sound held).1, Labelled.grows_resolve wellFormed _ _⟩

/-- A type of the set is resolved to one of the set. -/
theorem held_of_resolve {grown : TypeTable → TypeTable → Prop} {s : TypeId} (tracks : Tracks P grown)
    (sound : u.Sound true P) (held : u.Held P x) (run : (resolve x).run u = (s, u')) :
    grown u u' ∧ u'.Held P s := by
  have later := tracks.resolve sound held
  have body := (yields_resolve sound held).2
  rw [run] at later body
  exact ⟨later, body⟩

/-- No function of the set is generic. -/
theorem isGeneric_of_sound (sound : u.Sound true P) (held : u.Held P x) {f : FunctionType}
    (entry : u.kind x = .function f) : f.isGeneric = false := by
  simp [FunctionType.isGeneric, sound.plain rfl x held.1 held.2 f entry]

/-- Whether a function gives nothing back stays the same. -/
theorem Traced.steady (traced : Traced base P u u') (sound : u.Sound true P) {f : FunctionType}
    (entry : u.kind x = .function f) :
    u'.isPrimitive f.returnType .void = u.isPrimitive f.returnType .void := by
  rw [isPrimitive, isPrimitive, traced.1.extended.kind _ (sound.returnType entry)]

/-- Types of the set in two tables that have one label. -/
structure Alike (P : TypeId → Prop) (a b : TypeId → Label) (u v : TypeTable) (x x' : TypeId) :
    Prop where
  left : u.Held P x
  right : v.Held P x'
  same : b x' = a x

theorem Alike.grown (alike : Alike P a b u v x x') (extends' : Labelled.Extends u u' a a')
    (extends'' : Labelled.Extends v v' b b') : Alike P a' b' u' v' x x' where
  left := alike.left.grown extends'.table
  right := alike.right.grown extends''.table
  same := by rw [extends'.label x alike.left.1, extends''.label x' alike.right.1, alike.same]

theorem Alike.entries (alike : Alike P a b u v x x') : Alike (fun _ => True) a b u v x x' :=
  ⟨⟨alike.left.1, trivial⟩, ⟨alike.right.1, trivial⟩, alike.same⟩

/-- In the second session at least the pairs of the first one are in progress, up to labels,
and it is as deep or deeper. -/
structure Tandem (base : TypeTable) (P : TypeId → Prop) (a b : TypeId → Label) (σ σ' : Session) :
    Prop where
  left : Labelled base σ.table a
  right : Labelled base σ'.table b
  sound : σ.table.Sound true P
  sound' : σ'.table.Sound true P
  assumed : ∀ x y, (x, y) ∈ σ.inProgress → ∃ x' y',
    Alike (fun _ => True) a b σ.table σ'.table x x' ∧
    Alike (fun _ => True) a b σ.table σ'.table y y' ∧ (x', y') ∈ σ'.inProgress
  depth : σ.expansionDepth ≤ σ'.expansionDepth

namespace Tandem

variable (tandem : Tandem base P a b σ σ')

include tandem

/-- Sessions stay in tandem while their tables grow. -/
theorem follows (one : σ.Follows (Traced base P) τ) (two : σ'.Follows (Traced base P) τ') :
    ∃ a' b', Tandem base P a' b' τ τ' ∧ Labelled.Extends σ.table τ.table a a' ∧
      Labelled.Extends σ'.table τ'.table b b' := by
  obtain ⟨a', left, extends'⟩ := one.table.2 a tandem.left
  obtain ⟨b', right, extends''⟩ := two.table.2 b tandem.right
  refine ⟨a', b', ⟨left, right, one.table.1.sound tandem.sound, two.table.1.sound tandem.sound',
    fun x y member => ?_, ?_⟩, extends', extends''⟩
  · rw [one.inProgress] at member
    obtain ⟨x', y', first, second, member'⟩ := tandem.assumed x y member
    refine ⟨x', y', first.grown extends' extends'', second.grown extends' extends'', ?_⟩
    rw [two.inProgress]
    exact member'
  · rw [one.expansionDepth, two.expansionDepth]
    exact tandem.depth

theorem entered (first : Alike P a b σ.table σ'.table x x')
    (second : Alike P a b σ.table σ'.table y y')
    {expanded expanded' : Bool} (same : expanded' = expanded) :
    Tandem base P a b (σ.entered x y expanded) (σ'.entered x' y' expanded') := by
  subst same
  refine ⟨tandem.left, tandem.right, tandem.sound, tandem.sound', fun z w member => ?_,
    Nat.add_le_add_right tandem.depth _⟩
  simp only [Session.entered, Std.ExtTreeSet.mem_insert] at member ⊢
  rcases member with same | before
  · obtain ⟨rfl, rfl⟩ := Prod.mk.inj (Std.LawfulEqCmp.eq_of_compare same)
    exact ⟨x', y', first.entries, second.entries, .inl Std.ReflCmp.compare_self⟩
  · obtain ⟨z', w', one, two, member'⟩ := tandem.assumed z w before
    exact ⟨z', w', one, two, .inr member'⟩

/-- The second session may be nested deeper, with one more pair in progress. -/
theorem deeper (x y : TypeId) (expanded : Bool) :
    Tandem base P a b σ (σ'.entered x y expanded) where
  left := tandem.left
  right := tandem.right
  sound := tandem.sound
  sound' := tandem.sound'
  assumed z w member := by
    obtain ⟨z', w', one, two, member'⟩ := tandem.assumed z w member
    refine ⟨z', w', one, two, ?_⟩
    simp only [Session.entered, Std.ExtTreeSet.mem_insert]
    exact .inr member'
  depth := Nat.le_add_right_of_le tandem.depth

/-- Types with one label are one on the left exactly if they are one on the right. -/
theorem eq_iff {Q : TypeId → Prop} (first : Alike P a b σ.table σ'.table x x')
    (second : Alike Q a b σ.table σ'.table y y') : x' = y' ↔ x = y := by
  rw [← tandem.right.injective.eq_iff, first.same, second.same, tandem.left.injective.eq_iff]

/-- What is a body of its own on the left is one on the right. -/
theorem expanded_eq {s s' t t' : TypeId} (first : Alike P a b σ.table σ'.table x x')
    (second : Alike P a b σ.table σ'.table y y') (body : Alike P a b σ.table σ'.table s s')
    (body' : Alike P a b σ.table σ'.table t t') :
    (s' != x' || t' != y') = (s != x || t != y) := by
  rw [Bool.eq_iff_iff]
  simp only [Bool.or_eq_true, bne_iff_ne, ne_eq, tandem.eq_iff body first,
    tandem.eq_iff body' second]

variable (wellFormed : base.WellFormed)

include wellFormed

theorem corresponds (alike : Alike P a b σ.table σ'.table x x') :
    (σ'.table.kind x').frame = (σ.table.kind x).frame ∧
      List.Forall₂ (Alike P a b σ.table σ'.table) (σ.table.kind x).parts
        (σ'.table.kind x').parts := by
  obtain ⟨frame, -, parts⟩ := Labelled.kinds_correspond wellFormed tandem.left tandem.right
    alike.left.1 alike.right.1 alike.same
  obtain ⟨counted, same⟩ := List.forall₂_iff_zip.mp (TypeKind.forall₂_of_map_eq parts)
  refine ⟨frame, List.forall₂_iff_zip.mpr ⟨counted, fun {m m'} listed => ?_⟩⟩
  obtain ⟨part, part'⟩ := List.of_mem_zip listed
  exact ⟨tandem.sound.held alike.left (TypeKind.mentions_part part),
    tandem.sound'.held alike.right (TypeKind.mentions_part part'),
    same listed⟩

/-- Both sides resolve a type, and come to types with one label. -/
theorem resolve {s s' : TypeId} {one two : TypeTable} (alike : Alike P a b σ.table σ'.table x x')
    (run : (resolve x).run σ.table = (s, one)) (run' : (resolve x').run σ'.table = (s', two)) :
    Traced base P σ.table one ∧ Traced base P σ'.table two ∧
      ∃ a' b', Tandem base P a' b' { σ with table := one } { σ' with table := two } ∧
        Labelled.Extends σ.table one a a' ∧ Labelled.Extends σ'.table two b b' ∧
        Alike P a' b' one two s s' := by
  have tracks := tracks_traced (P := P) wellFormed
  obtain ⟨grown, held⟩ := held_of_resolve tracks tandem.sound alike.left run
  obtain ⟨grown', held'⟩ := held_of_resolve tracks tandem.sound' alike.right run'
  obtain ⟨a', b', later, extends', extends''⟩ :=
    tandem.follows (.of_table grown) (.of_table grown')
  exact ⟨grown, grown', a', b', later, extends', extends'', held, held',
    Labelled.resolve_corresponds wellFormed tandem.left tandem.right alike.left.1 alike.right.1
      alike.same later.left later.right extends' extends'' run run'⟩

/-- A constraint is an entry of the base. -/
theorem constraint {name : String} {bound : TypeId} (held : σ.table.Held P x)
    (entry : σ.table.kind x = .typeParameter name (some bound)) :
    Alike P a b σ.table σ'.table bound bound := by
  have known := (tandem.left.develops wellFormed).toDerives.kind_of_not_derived entry (by simp) rfl
  have inside := wellFormed.constraint known
  have belongs := (tandem.sound.held held (by simp [entry, TypeKind.mentions] :
    bound ∈ (σ.table.kind x).mentions)).2
  exact ⟨⟨tandem.left.extended.inside inside, belongs⟩,
    ⟨tandem.right.extended.inside inside, belongs⟩,
    by rw [tandem.left.label_base inside, tandem.right.label_base inside]⟩

/-- What relates two bodies on the left relates those with their labels on the right, by a rule
that is as strict or laxer. -/
theorem bodiesRule {R R' : TypeId → TypeId → Prop} {strict strict' : Bool} {s t s' t' : TypeId}
    (laxer : strict' = true → strict = true)
    (first : Alike P a b σ.table σ'.table x x') (second : Alike P a b σ.table σ'.table y y')
    (body : Alike P a b σ.table σ'.table s s') (body' : Alike P a b σ.table σ'.table t t')
    (carry : ∀ p p' q q', Alike P a b σ.table σ'.table p p' → Alike P a b σ.table σ'.table q q' →
      R p q → R' p' q')
    (rule : BodiesRule strict R σ x y s t) : BodiesRule strict' R' σ' x' y' s' t' := by
  obtain ⟨frame, parts⟩ := tandem.corresponds wellFormed body
  obtain ⟨frame', parts'⟩ := tandem.corresponds wellFormed body'
  rcases rule with same | wild | assumed | ⟨expanded, deep⟩ | rule
  · exact .inl ((tandem.eq_iff body body').mpr same)
  · rw [isWildcard, isWildcard, flag, flag] at wild
    rw [BodiesRule, isWildcard, isWildcard, flag, flag, TypeKind.flag_eq_of_frame frame,
      TypeKind.flag_eq_of_frame frame']
    exact .inr (.inl wild)
  · obtain ⟨z', w', one, two, member⟩ := tandem.assumed s t assumed
    obtain rfl := (tandem.eq_iff body one).mpr rfl
    obtain rfl := (tandem.eq_iff body' two).mpr rfl
    exact .inr (.inr (.inl member))
  · refine .inr (.inr (.inr (.inl ⟨?_, Nat.le_trans deep tandem.depth⟩)))
    exact (tandem.expanded_eq first second body body').trans expanded
  · refine .inr (.inr (.inr (.inr ?_)))
    refine rule.transfer laxer frame parts frame' parts' ?_ second carry ?_
    · exact fun name bound entry => tandem.constraint wellFormed body.left entry
    · intro p p' alike void
      rwa [isPrimitive_of_frame (tandem.corresponds wellFormed alike).1]

end Tandem

end Tracing

section Simulation
variable {base : TypeTable} {P : TypeId → Prop} {a b : TypeId → Label} {strict strict' : Bool}
  {fuel fuel' : Nat} {x y x' y' : TypeId} {σ σ' τ τ' : Session}

/-- The parts of two types of the set belong to it. -/
theorem Subpair.held {table : TypeTable} {target s t p q : TypeId} (sound : table.Sound true P)
    (hs : table.Held P s) (ht : table.Held P t) (aim : table.Held P target)
    (subpair : Subpair table target s t p q) : table.Held P p ∧ table.Held P q := by
  obtain ⟨first, second⟩ := subpair.mentioned
  refine ⟨first.elim (sound.held hs) (sound.held ht), ?_⟩
  rcases second with inner | inner | rfl
  · exact sound.held hs inner
  · exact sound.held ht inner
  · exact aim

/-- At some time from now on the pair is accepted. -/
def Accepts (grown : TypeTable → TypeTable → Prop) (related : Related) (σ : Session)
    (x y : TypeId) : Prop :=
  ∃ τ τ', σ.Follows grown τ ∧ (related x y).run τ = some (.ok (), τ')

/-- What is accepted under this fuel is accepted beside it as well, unless there is no answer. -/
def Carries (base : TypeTable) (P : TypeId → Prop) (strict strict' : Bool) (fuel : Nat) : Prop :=
  ∀ {a b σ σ' x y x' y' τ fuel' verdict τ'}, Tandem base P a b σ σ' →
    Alike P a b σ.table σ'.table x x' → Alike P a b σ.table σ'.table y y' →
    (relatedWithin strict fuel x y).run σ = some (.ok (), τ) →
    (relatedWithin strict' fuel' x' y').run σ' = some (verdict, τ') → verdict = .ok ()

/-- A pair on the right is to be accepted when a pair with its labels is on the left. -/
def Granted (base : TypeTable) (P : TypeId → Prop) (a b : TypeId → Label) (strict : Bool)
    (fuel : Nat) (σ σ' : Session) (x' y' : TypeId) : Prop :=
  ∃ x y, Alike P a b σ.table σ'.table x x' ∧ Alike P a b σ.table σ'.table y y' ∧
    Accepts (Traced base P) (relatedWithin strict fuel) σ x y

/-- An answer leaves the session as it was, up to new entries. -/
theorem follows_of_answer {grown : TypeTable → TypeTable → Prop} (tracks : Tracks P grown)
    (sound : σ.table.Sound true P) (hx : σ.table.Held P x) (hy : σ.table.Held P y)
    {verdict : Verdict} (done : (relatedWithin strict fuel x y).run σ = some (verdict, τ)) :
    σ.Follows grown τ :=
  ((settles_of_sound tracks sound hx hy).of_answer
    (fun _ _ enough => below_relatedWithin enough _ _) done).1

/-- What is known of the answers about types of the set holds of the completed comparison. -/
theorem decided_of_answers {grown : TypeTable → TypeTable → Prop} (tracks : Tracks P grown)
    (sound : σ.table.Sound true P) (hx : σ.table.Held P x) (hy : σ.table.Held P y)
    {otherwise : Verdict} {S T : Prop}
    (answered : ∀ τ verdict τ', σ.Follows grown τ →
      (relatedWithin strict fuel x y).run τ = some (verdict, τ') → Judges S T verdict)
    (unanswered : Judges S T otherwise) :
    Decided grown (fun _ => completed otherwise (relatedWithin strict fuel)) σ x y S T := by
  refine decided_completed tracks.toGrowth (fun τ verdict τ' follows done => ?_) unanswered
  have grown := tracks.toGrown follows.table
  exact ⟨follows_of_answer tracks (grown.sound sound) (hx.grown grown.extended)
    (hy.grown grown.extended) done, answered τ verdict τ' follows done⟩

theorem decided_accepts (wellFormed : base.WellFormed) (sound : σ.table.Sound true P)
    (hx : σ.table.Held P x) (hy : σ.table.Held P y) (mismatch : Mismatch) :
    Decided (Traced base P) (fun _ => completed (.error mismatch) (relatedWithin strict fuel)) σ x y
      (Accepts (Traced base P) (relatedWithin strict fuel) σ x y) False := by
  refine decided_of_answers (tracks_traced wellFormed) sound hx hy
    (fun τ verdict τ' follows done => ?_) id
  cases verdict with
  | ok => exact ⟨τ, τ', follows, done⟩
  | error => exact id

theorem decided_granted (wellFormed : base.WellFormed)
    (carries : Carries base P strict strict' fuel) (tandem : Tandem base P a b σ σ')
    (hx : σ'.table.Held P x') (hy : σ'.table.Held P y') :
    Decided (Traced base P) (fun _ => completed (.ok ()) (relatedWithin strict' fuel')) σ' x' y'
      True (Granted base P a b strict fuel σ σ' x' y') := by
  refine decided_of_answers (tracks_traced wellFormed) tandem.sound' hx hy
    (fun τ verdict τ' follows done => ?_) trivial
  cases verdict with
  | ok => trivial
  | error =>
      rintro ⟨x, y, first, second, υ, υ', follows', accepted⟩
      obtain ⟨a', b', later, extends', extends''⟩ := tandem.follows follows' follows
      cases carries later (first.grown extends' extends'') (second.grown extends' extends'')
        accepted done

/-- The arguments of an instance belong to the set. -/
theorem held_argument {table : TypeTable} {id m : TypeId} {i : InstantiatedType}
    (sound : table.Sound true P) (held : table.Held P id) (entry : table.kind id = .instantiated i)
    (member : m ∈ i.bindings.values) : table.Held P m :=
  sound.held held (by simp [entry, TypeKind.mentions, member])

section Judged
variable {grown : TypeTable → TypeTable → Prop} {related : Related} {otherwise : Verdict}
  {S T : TypeId → TypeId → Prop}

/-- What the shortcut answers about instances of the set, by what is decided about the set. -/
theorem instancesRelated_judged (growth : Growth grown) (sound : σ.table.Sound true P)
    (hx : σ.table.Held P x) (hy : σ.table.Held P y)
    (each : ∀ p q, σ.table.Held P p → σ.table.Held P q →
      Decided grown (fun _ => completed otherwise related) σ p q (S p q) (T p q))
    {found : Bool} (done : (instancesRelated strict related x y).run σ = some (found, τ)) :
    (found = true → InstancesRule strict σ.table S x y) ∧
      (InstancesRule strict σ.table T x y → found = true) := by
  have judged := (instancesRelated_judges growth fun i j hs ht p q listed => by
    obtain ⟨hp, hq⟩ := List.of_mem_zip listed
    have one := held_argument sound hx hs hp
    have two := held_argument sound hy ht hq
    exact ⟨each p q one two, each q p two one⟩).of_below
      (below_instancesRelated (below_completed _ _) x y) done
  exact judged.2

/-- What the comparison of bodies answers, by what is decided about the set. -/
theorem bodiesRelated_judged {base : TypeTable} {s t : TypeId} {one two : TypeTable}
    (wellFormed : base.WellFormed)
    (run : (resolve x).run σ.table = (s, one)) (next : (resolve y).run one = (t, two))
    (reached : Traced base P σ.table two) (sound : two.Sound true P) (hs : two.Held P s)
    (ht : two.Held P t) (hy : two.Held P y)
    (each : ∀ p q, two.Held P p → two.Held P q →
      Decided (Traced base P) (fun _ => completed otherwise related)
        (Session.entered { σ with table := two } s t (s != x || t != y)) p q (S p q) (T p q))
    {verdict : Verdict} (done : (bodiesRelated strict related x y).run σ = some (verdict, τ)) :
    Judges (BodiesRule strict S { σ with table := two } x y s t)
      (BodiesRule strict T { σ with table := two } x y s t) verdict := by
  have growth := (tracks_traced (P := P) wellFormed).toGrowth
  have judged := (bodiesRelated_judges growth run next (.of_table reached)
    (fun p q subpair => by
      obtain ⟨hp, hq⟩ := subpair.held sound hs ht hy
      exact each p q hp hq)
    (fun _ => isGeneric_of_sound sound hs)
    (fun _ entry _ grown => grown.steady sound entry)).of_below
      (below_bodiesRelated (below_completed _ _) x y) done
  exact judged.2

end Judged

/-- Where the shortcut accepts, arguments have been accepted. -/
theorem instancesRelated_accepts (wellFormed : base.WellFormed) (sound : σ.table.Sound true P)
    (hx : σ.table.Held P x) (hy : σ.table.Held P y)
    (done : (instancesRelated strict (relatedWithin strict fuel) x y).run σ = some (true, τ)) :
    InstancesRule strict σ.table (Accepts (Traced base P) (relatedWithin strict fuel) σ) x y := by
  have judged := instancesRelated_judged (tracks_traced (P := P) wellFormed).toGrowth sound hx hy
    (fun p q hp hq => decided_accepts wellFormed sound hp hq (.incompatible x y)) done
  exact judged.1 rfl

variable (wellFormed : base.WellFormed) (laxer : strict' = true → strict = true)
  (carries : Carries base P strict strict' fuel) (tandem : Tandem base P a b σ σ')
  (first : Alike P a b σ.table σ'.table x x') (second : Alike P a b σ.table σ'.table y y')

include wellFormed laxer carries tandem first second

/-- The shortcut over arguments is carried. -/
theorem instancesRelated_carried {found : Bool}
    (done : (instancesRelated strict (relatedWithin strict fuel) x y).run σ = some (true, τ))
    (done' : (instancesRelated strict' (relatedWithin strict' fuel') x' y').run σ' =
      some (found, τ')) :
    found = true := by
  obtain ⟨i, j, hs, ht, origin, all⟩ :=
    instancesRelated_accepts wellFormed tandem.sound first.left second.left done
  have granted := instancesRelated_judged (tracks_traced (P := P) wellFormed).toGrowth
    tandem.sound' first.right second.right (S := fun _ _ => True)
    (fun p q hp hq => decided_granted wellFormed carries tandem hp hq) done'
  refine granted.2 ?_
  obtain ⟨frame, parts⟩ := tandem.corresponds wellFormed first
  obtain ⟨frame', parts'⟩ := tandem.corresponds wellFormed second
  rw [hs] at frame parts
  rw [ht] at frame' parts'
  obtain ⟨i', hs', origin', -⟩ := TypeKind.copied_of_frame frame
  obtain ⟨j', ht', origin'', -⟩ := TypeKind.copied_of_frame frame'
  rw [hs'] at parts
  rw [ht'] at parts'
  refine ⟨i', j', hs', ht', origin'.trans (origin.trans origin''.symm), fun pair listed => ?_⟩
  obtain ⟨pair', listed', one, two⟩ := exists_mem_zip parts parts' pair listed
  obtain ⟨forth, back⟩ := all pair' listed'
  exact ⟨⟨_, _, one, two, forth⟩, fun isStrict => ⟨_, _, two, one, back (laxer isStrict)⟩⟩

/-- The comparison of bodies is carried. -/
theorem bodiesRelated_carried {verdict : Verdict}
    (done : (bodiesRelated strict (relatedWithin strict fuel) x y).run σ = some (.ok (), τ))
    (done' : (bodiesRelated strict' (relatedWithin strict' fuel') x' y').run σ' =
      some (verdict, τ')) :
    verdict = .ok () := by
  have growth := (tracks_traced (P := P) wellFormed).toGrowth
  rcases run : (resolve x).run σ.table with ⟨s, one⟩
  rcases run' : (resolve x').run σ'.table with ⟨s', one'⟩
  obtain ⟨grown, grown', a₁, b₁, tandem₁, extends₁, extends₁', body⟩ :=
    tandem.resolve wellFormed first run run'
  rcases next : (resolve y).run one with ⟨t, two⟩
  rcases next' : (resolve y').run one' with ⟨t', two'⟩
  obtain ⟨later, later', a₂, b₂, tandem₂, extends₂, extends₂', body'⟩ :=
    tandem₁.resolve wellFormed (second.grown extends₁ extends₁') next next'
  replace body := body.grown extends₂ extends₂'
  replace first := (first.grown extends₁ extends₁').grown extends₂ extends₂'
  replace second := (second.grown extends₁ extends₁').grown extends₂ extends₂'
  have inner := tandem₂.entered body body' (tandem₂.expanded_eq first second body body')
  have accepted := bodiesRelated_judged wellFormed run next (growth.trans grown later)
    tandem₂.sound body.left body'.left second.left
    (fun p q hp hq => decided_accepts wellFormed inner.sound hp hq (.incompatible x y)) done
  have granted := bodiesRelated_judged wellFormed run' next' (growth.trans grown' later')
    tandem₂.sound' body.right body'.right second.right
    (fun p q hp hq => decided_granted wellFormed carries inner hp hq) done'
  cases verdict with
  | ok => rfl
  | error =>
      exact absurd (tandem₂.bodiesRule wellFormed laxer first second body body'
        (fun p p' q q' one two related => ⟨p, q, one, two, related⟩) accepted) granted

end Simulation

section Carrying
variable {base : TypeTable} {P : TypeId → Prop} {strict strict' : Bool} {fuel : Nat} {x y : TypeId}
  {σ τ : Session}

/-- The shortcut leaves the session as it was, up to new entries. -/
theorem instancesRelated_follows {grown : TypeTable → TypeTable → Prop} (tracks : Tracks P grown)
    (sound : σ.table.Sound true P) (hx : σ.table.Held P x) (hy : σ.table.Held P y) {found : Bool}
    (done : (instancesRelated strict (relatedWithin strict fuel) x y).run σ = some (found, τ)) :
    σ.Follows grown τ := by
  refine Ends.of_answer (m := fun fuel => instancesRelated strict (relatedWithin strict fuel) x y)
    (fun _ _ enough => below_instancesRelated (below_relatedWithin enough) x y)
    (instancesRelated_settles tracks (.of_sound sound) hx hy fun p q υ follows hp hq _ => ?_) done
  have grown := tracks.toGrown follows.table
  have held {id : TypeId} (known : id < σ.table.size ∧ P id) : υ.table.Held P id :=
    ⟨grown.extended.inside known.1, known.2⟩
  exact settles_of_sound tracks (grown.sound sound) (held hp) (held hq)

/-- Whatever is accepted is accepted as well where more pairs are assumed, the comparison is
nested deeper, or the mode is laxer. -/
theorem carries (wellFormed : base.WellFormed) (laxer : strict' = true → strict = true)
    (fuel : Nat) :
    Carries base P strict strict' fuel := by
  have tracks := tracks_traced (P := P) wellFormed
  induction fuel with
  | zero => exact fun _ _ _ done => nomatch done
  | succ fuel ih =>
      intro a b σ σ' x y x' y' τ fuel' verdict τ' tandem first second done done'
      cases fuel' with
      | zero => cases done'
      | succ fuel' =>
      rcases relatedWithin_cases done' with ⟨-, yes, -⟩ | ⟨apart, found', between', one', two'⟩
      · exact yes
      rcases two' with ⟨-, yes, -⟩ | ⟨rfl, bodies'⟩
      · exact yes
      rcases relatedWithin_cases done with ⟨same, -, -⟩ | ⟨-, found, between, one, two⟩
      · exact absurd ((tandem.eq_iff first second).mpr same) apart
      rcases two with ⟨rfl, -, -⟩ | ⟨rfl, bodies⟩
      · cases instancesRelated_carried wellFormed laxer ih tandem first second one one'
      obtain ⟨a', b', later, extends', extends''⟩ := tandem.follows
        (instancesRelated_follows tracks tandem.sound first.left second.left one)
        (instancesRelated_follows tracks tandem.sound' first.right second.right one')
      exact bodiesRelated_carried wellFormed laxer ih later (first.grown extends' extends'')
        (second.grown extends' extends'') bodies bodies'

/-- A session is in tandem with itself, where the pairs in progress are about entries. -/
theorem Tandem.self (sound : σ.table.Sound true P)
    (known : ∀ pair ∈ σ.inProgress, pair.1 < σ.table.size ∧ pair.2 < σ.table.size) :
    Tandem σ.table P .entry .entry σ σ :=
  ⟨.start, .start, sound, sound, fun x y member => ⟨x, y, ⟨⟨(known _ member).1, trivial⟩,
    ⟨(known _ member).1, trivial⟩, rfl⟩, ⟨⟨(known _ member).2, trivial⟩,
    ⟨(known _ member).2, trivial⟩, rfl⟩, member⟩, Nat.le_refl _⟩

/-- The question whether a fresh source is assignable begins with the search for excess
properties. -/
theorem run_assignableWithin_fresh (strict : Bool) (fuel : Nat) (table : TypeTable)
    (source target : TypeId) :
    (assignableWithin strict fuel source target true).run (.ofTable table) =
      let excess := (excessProperties source target).run table
      if excess.1.isEmpty then (relatedWithin strict fuel source target).run (.ofTable excess.2)
      else some (.error (.excessProperty excess.1 source target), .ofTable excess.2) := by
  rw [assignableWithin, if_pos rfl, StateT.run_bind, run_onTable]
  dsimp only [Option.bind_eq_bind, Option.bind_some, Session.ofTable]
  split
  · rfl
  · rfl

/-- A question begins with the search for excess properties, which is the same in both modes. -/
theorem run_assignableWithin (table : TypeTable) (source target : TypeId) (fresh : Bool) :
    ∃ excess between,
      (∀ {P : TypeId → Prop} {grown : TypeTable → TypeTable → Prop}, Tracks P grown →
        table.Sound true P → table.Held P source → table.Held P target → grown table between) ∧
      ∀ strict fuel, (assignableWithin strict fuel source target fresh).run (.ofTable table) =
        if List.isEmpty excess then (relatedWithin strict fuel source target).run (.ofTable between)
        else some (.error (.excessProperty excess source target), .ofTable between) := by
  cases fresh with
  | false => exact ⟨[], table, fun tracks _ _ _ => tracks.refl table, fun _ _ => rfl⟩
  | true =>
      exact ⟨_, _, fun tracks sound hs ht => tracks.excessProperties sound hs ht,
        fun strict fuel => run_assignableWithin_fresh strict fuel table source target⟩

end Carrying

/-- Strict mode only refuses more: a yes about types from which no generic function type can
be reached, fresh or not, is a yes in the other mode as well. -/
theorem assignable_of_strict {fresh : Bool} {table after : TypeTable}
    (wellFormed : table.WellFormed)
    {source target : TypeId} (known : source < table.size) (known' : target < table.size)
    (plain : ∀ id, Reached table [source, target] id → ∀ f, table.kind id = .function f →
      f.isGeneric = false)
    (yes : Answers true table source target fresh (.ok ()) after) :
    ∃ after', Answers false table source target fresh (.ok ()) after' := by
  let P : TypeId → Prop := fun id => table.size ≤ id ∨ Reached table [source, target] id
  have sound : table.Sound true P := sound_reached wellFormed plain
  have held : table.Held P source := ⟨known, .inr (.root List.mem_cons_self)⟩
  have held' : table.Held P target := ⟨known', .inr (.root (by simp))⟩
  obtain ⟨verdict, after', answers, -⟩ := exists_answer (tracks_grown P) false fresh sound held held'
  obtain ⟨fuel, σ, done, -⟩ := yes
  obtain ⟨fuel', σ', done', same⟩ := answers
  obtain ⟨excess, base, grown, run⟩ := run_assignableWithin table source target fresh
  rw [run] at done
  split at done
  case isFalse => cases done
  case isTrue nothing =>
    have between := grown (tracks_grown P) sound held held'
    have accepted : verdict = .ok () := by
      rw [run, if_pos nothing] at done'
      have sound' := between.sound sound
      have start := Tandem.self (σ := .ofTable base) sound' (by simp [Session.ofTable])
      have self {id : TypeId} (held : table.Held P id) :
          Alike P .entry .entry base base id id :=
        ⟨held.grown between.extended, held.grown between.extended, rfl⟩
      exact carries sound'.toWellFormed (by simp) fuel start (self held) (self held') done done'
    exact ⟨after', fuel', σ', accepted ▸ done', same⟩

/-- Whether a table has no generic functions, as a test. -/
theorem isGeneric_of_entries {table : TypeTable}
    (entries : table.entries.all (fun kind =>
      match kind with
      | .function f => !f.isGeneric
      | _ => true) = true) {id : TypeId} {f : FunctionType} (entry : table.kind id = .function f) :
    f.isGeneric = false := by
  have tested := (Array.all_eq_true_iff_forall_mem.mp entries) _ (mem_entries_of_kind entry nofun)
  simpa using tested

/-- `interface List<T> { head: T; tail: List<T>; keep: (x: T) => void }` and
`interface Sink<U> { tail: Sink<U>; keep: (x: U) => void }`, both of numbers. -/
def numberSinks : TypeTable :=
  { TypeTable.initial with
    entries := TypeTable.initial.entries ++ #[
      .typeParameter "T" none,
      .object ⟨some "List", ⟨[("head", ⟨7, false⟩), ("tail", ⟨10, false⟩), ("keep", ⟨11, false⟩)]⟩⟩,
      .generic ⟨"List", [7], 8⟩,
      .instantiated ⟨9, ⟨[("T", 7)]⟩⟩,
      .function ⟨[], [⟨"x", 7, false⟩], TypeId.void⟩,
      .typeParameter "U" none,
      .object ⟨some "Sink", ⟨[("tail", ⟨15, false⟩), ("keep", ⟨16, false⟩)]⟩⟩,
      .generic ⟨"Sink", [12], 13⟩,
      .instantiated ⟨14, ⟨[("U", 12)]⟩⟩,
      .function ⟨[], [⟨"x", 12, false⟩], TypeId.void⟩,
      .instantiated ⟨9, ⟨[("T", TypeId.number)]⟩⟩,
      .instantiated ⟨14, ⟨[("U", TypeId.number)]⟩⟩] }

/-- In strict mode a list of numbers is a sink of numbers, so in the other mode it is. -/
theorem numberSinks_accepted : ∃ after, Answers false numberSinks 17 18 false (.ok ()) after := by
  obtain ⟨after, yes⟩ : ∃ after, Answers true numberSinks 17 18 false (.ok ()) after :=
    exists_accepted (by decide +kernel : ((assignableWithin true 8 17 18 false).run
      (.ofTable numberSinks)).any (fun r => r.1.isOk) = true)
  refine assignable_of_strict (.of_fits (by decide) rfl) (by decide) (by decide) ?_ yes
  exact fun id _ f => isGeneric_of_entries (by decide +kernel)

end StructuralTyping.Assignability
