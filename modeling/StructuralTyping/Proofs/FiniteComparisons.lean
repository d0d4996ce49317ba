import StructuralTyping.Proofs.StructuralRules

/-! Comparisons without generic signatures end. The table may grow while types are
compared, but only where a type is resolved, and nested comparisons of resolved
bodies are cut off. Between two of them the compared types stay below the size
that the table had, so there a pair in progress comes up again before long. -/
namespace StructuralTyping.Assignability

open TypeTable

/-- The types that a comparison can come to. A remembered body counts with its origin
and its arguments. -/
inductive Reached (table : TypeTable) (roots : List TypeId) : TypeId → Prop
  | root {id : TypeId} (member : id ∈ roots) : Reached table roots id
  | mention {id m : TypeId} (reached : Reached table roots id)
      (mentioned : m ∈ (table.kind id).mentions) : Reached table roots m
  | remembered {key : TypeId × List TypeId} {body : TypeId}
      (found : table.resolved.find? key = some body) (reached : Reached table roots key.1)
      (all : ∀ a ∈ key.2, Reached table roots a) : Reached table roots body

section Ends
variable {P : TypeId → Prop} {strict : Bool} {σ : Session}

/-- What holds of a table and of what it becomes when its types of a set are resolved. -/
structure Tracks (P : TypeId → Prop) (grown : TypeTable → TypeTable → Prop) : Prop extends
    Growth grown where
  toGrown : ∀ {table table' : TypeTable}, grown table table' → Grown true P table table'
  resolve : ∀ {table : TypeTable} {id : TypeId}, table.Sound true P → table.Held P id →
    grown table ((resolve id).run table).2

theorem tracks_grown (P : TypeId → Prop) : Tracks P (Grown true P) where
  refl := .refl
  trans := .trans
  toGrown := id
  resolve sound held := (yields_resolve sound held).1

/-- A bound which the parts of the types below it do not exceed. -/
structure Era (P : TypeId → Prop) (bound : Nat) (table : TypeTable) : Prop where
  sound : table.Sound true P
  size : bound ≤ table.size
  closed : ∀ id < bound, ∀ m ∈ (table.kind id).mentions, m < bound

theorem Era.grown {table table' : TypeTable} {bound : Nat} (era : Era P bound table)
    (grown : Grown true P table table') : Era P bound table' where
  sound := grown.sound era.sound
  size := Nat.le_trans era.size grown.extended.size
  closed id inside m mentioned := by
    rw [grown.extended.kind id (Nat.lt_of_lt_of_le inside era.size)] at mentioned
    exact era.closed id inside m mentioned

/-- The whole table is below such a bound. -/
theorem Era.of_sound {table : TypeTable} (sound : table.Sound true P) :
    Era P table.size table :=
  ⟨sound, Nat.le_refl _, sound.mentions⟩

section Tracking
variable {grown : TypeTable → TypeTable → Prop} (tracks : Tracks P grown)

include tracks

theorem resolve_both {table : TypeTable} {s t : TypeId} (sound : table.Sound true P)
    (hs : table.Held P s) (ht : table.Held P t) :
    ∃ body body' one two, (resolve s).run table = (body, one) ∧
      (resolve t).run one = (body', two) ∧ grown table two ∧
      two.Held P body ∧ two.Held P body' := by
  obtain ⟨grown, held⟩ := yields_resolve sound hs
  have known := ht.grown grown.extended
  obtain ⟨grown', held'⟩ := yields_resolve (grown.sound sound) known
  exact ⟨_, _, _, _, rfl, rfl,
    tracks.trans (tracks.resolve sound hs) (tracks.resolve (grown.sound sound) known),
    held.grown grown'.extended, held'⟩

end Tracking

/-- The search for excess properties does no more to the table than to resolve both types. -/
theorem excessProperties_table (table : TypeTable) (s t : TypeId) :
    ((excessProperties s t).run table).2 = ((resolve t).run ((resolve s).run table).2).2 := by
  have resolved (u : TypeTable) (id : TypeId) :
      TableM.Yields (resolve id) u fun _ v => v = ((resolve id).run u).2 := rfl
  have yields : TableM.Yields (excessProperties s t) table fun _ u =>
      u = ((resolve t).run ((resolve s).run table).2).2 := by
    refine (resolved table s).bind ?_
    rintro body _ rfl
    refine (resolved _ t).bind ?_
    rintro body' _ rfl
    have read (u : TypeTable) :
        TableM.Yields (get : TableM TypeTable) u fun v w => v = u ∧ w = u := ⟨rfl, rfl⟩
    refine (read _).bind ?_
    rintro _ _ ⟨rfl, rfl⟩
    split
    · split
      · exact .pure rfl
      · exact .pure rfl
    · exact .pure rfl
  exact yields

theorem Tracks.excessProperties {grown : TypeTable → TypeTable → Prop} (tracks : Tracks P grown)
    {table : TypeTable} {s t : TypeId} (sound : table.Sound true P) (hs : table.Held P s)
    (ht : table.Held P t) : grown table ((excessProperties s t).run table).2 := by
  rw [excessProperties_table]
  have first := tracks.resolve sound hs
  have later := tracks.toGrown first
  exact tracks.trans first (tracks.resolve (later.sound sound) (ht.grown later.extended))

/-- The parts that are compared are mentioned by the bodies, but for the target of
a constraint. -/
theorem Subpair.mentioned {table : TypeTable} {target s t a b : TypeId}
    (subpair : Subpair table target s t a b) :
    (a ∈ (table.kind s).mentions ∨ a ∈ (table.kind t).mentions) ∧
      (b ∈ (table.kind s).mentions ∨ b ∈ (table.kind t).mentions ∨ b = target) := by
  have property {o : ObjectType} {name : String} {p : Property}
      (member : (name, p) ∈ o.properties.pairs) : p.type ∈ (TypeKind.object o).mentions :=
    List.mem_map_of_mem (List.mem_map_of_mem member)
  have parameter {f : FunctionType} {p : Parameter} (member : p ∈ f.parameters) :
      p.type ∈ (TypeKind.function f).mentions :=
    List.mem_append_right _ (List.mem_append_left _ (List.mem_map_of_mem member))
  have result (f : FunctionType) : f.returnType ∈ (TypeKind.function f).mentions :=
    List.mem_append_right _ (List.mem_append_right _ (List.mem_singleton.mpr rfl))
  cases subpair with
  | bound hs => exact ⟨.inl (by simp [hs, TypeKind.mentions]), .inr (.inr rfl)⟩
  | property hs ht wanted found =>
      exact ⟨.inl (hs ▸ property (Dictionary.mem_of_find? found)), .inr (.inl (ht ▸ property wanted))⟩
  | parameter hs ht paired =>
      obtain ⟨p, q⟩ := List.of_mem_zip paired
      exact ⟨.inl (hs ▸ parameter p), .inr (.inl (ht ▸ parameter q))⟩
  | parameterBack hs ht paired =>
      obtain ⟨p, q⟩ := List.of_mem_zip paired
      exact ⟨.inr (ht ▸ parameter q), .inl (hs ▸ parameter p)⟩
  | result hs ht => exact ⟨.inl (hs ▸ result _), .inr (.inl (ht ▸ result _))⟩

/-- The comparison of this pair ends, whatever its answer is. -/
abbrev Settles (strict : Bool) (grown : TypeTable → TypeTable → Prop) (σ : Session) (s t : TypeId) :
    Prop :=
  Ends (fun fuel => relatedWithin strict fuel s t) σ (Judged grown σ True False)

theorem judges_trivial (verdict : Verdict) : Judges True False verdict := by
  cases verdict with
  | ok => trivial
  | error => exact id

section Tracking
variable {grown : TypeTable → TypeTable → Prop} (tracks : Tracks P grown)

include tracks

/-- The bodies are compared once their parts are. -/
theorem structureRelated_settles {bound : Nat} {source target s t : TypeId} (era : Era P bound σ.table)
    (hs : s < bound ∧ P s) (ht : t < bound ∧ P t) (aim : target < bound ∧ P target)
    (parts : ∀ a b τ, σ.Follows grown τ → a < bound ∧ P a → b < bound ∧ P b →
      Settles strict grown τ a b) :
    Ends (fun fuel => structureRelated strict (relatedWithin strict fuel) source target s t) σ
      (Judged grown σ True False) := by
  have part {id m : TypeId} (here : id < bound ∧ P id) (mentioned : m ∈ (σ.table.kind id).mentions) :
      m < bound ∧ P m :=
    ⟨era.closed id here.1 m mentioned,
      era.sound.closed id (Nat.lt_of_lt_of_le here.1 era.size) here.2 m mentioned⟩
  refine (structureRelated_ends tracks.toGrowth (S := fun _ _ => True) (T := fun _ _ => False)
    ?_ ?_ ?_).weaken ?_
  · intro a b subpair τ follows
    obtain ⟨first, second⟩ := subpair.mentioned
    refine parts a b τ follows (first.elim (part hs) (part ht)) ?_
    rcases second with inner | inner | rfl
    · exact part hs inner
    · exact part ht inner
    · exact aim
  · intro f isFunction
    have plain := era.sound.plain rfl s (Nat.lt_of_lt_of_le hs.1 era.size) hs.2 f isFunction
    simp [FunctionType.isGeneric, plain]
  · intro f isFunction τ follows
    have inside : f.returnType < bound :=
      (part ht (by simp [isFunction, TypeKind.mentions])).1
    rw [isPrimitive, isPrimitive,
      (tracks.toGrown follows.table).extended.kind _ (Nat.lt_of_lt_of_le inside era.size)]
  · rintro verdict τ ⟨follows, judges⟩
    exact ⟨follows, judges_trivial verdict⟩

/-- The shortcut over the arguments of two instances ends. -/
theorem instancesRelated_settles {bound : Nat} {source target : TypeId} (era : Era P bound σ.table)
    (hs : source < bound ∧ P source) (ht : target < bound ∧ P target)
    (parts : ∀ a b τ, σ.Follows grown τ → a < bound ∧ P a → b < bound ∧ P b →
      a + b < source + target → Settles strict grown τ a b) :
    Ends (fun fuel => instancesRelated strict (relatedWithin strict fuel) source target) σ
      fun _ σ' => σ.Follows grown σ' := by
  have none_related : Ends (fun _ => (pure false : RelationM Bool)) σ fun _ σ' =>
      σ.Follows grown σ' := .pure (.refl tracks.toGrowth σ)
  have argument {id a : TypeId} {i : InstantiatedType} (here : id < bound ∧ P id)
      (isInstance : σ.table.kind id = .instantiated i) (member : a ∈ i.bindings.values) :
      (a < bound ∧ P a) ∧ a < id := by
    have inside : id < σ.table.size := Nat.lt_of_lt_of_le here.1 era.size
    have mentioned : a ∈ (σ.table.kind id).mentions := by
      simp [isInstance, TypeKind.mentions, member]
    exact ⟨⟨era.closed id here.1 a mentioned, era.sound.closed id inside here.2 a mentioned⟩,
      era.sound.precede id inside i isInstance a member⟩
  refine .after (fun _ => rfl) ?_
  dsimp only
  split
  · next i j isInstance isInstance' =>
      refine .ite (fun _ => ?_) fun _ => none_related
      refine (argumentsRelated_ends tracks.toGrowth (S := fun _ _ => True)
        (T := fun _ _ => False) fun a b paired => ?_).weaken fun _ _ both => both.1
      obtain ⟨p, q⟩ := List.of_mem_zip paired
      obtain ⟨first, below⟩ := argument hs isInstance p
      obtain ⟨second, below'⟩ := argument ht isInstance' q
      exact ⟨fun τ follows => parts a b τ follows first second (Nat.add_lt_add below below'),
        fun τ follows => parts b a τ follows second first
          (Nat.add_comm source target ▸ Nat.add_lt_add below' below)⟩
  · exact none_related

/-- A comparison ends where no generic signature can come up: every expansion uses
up one of the nested expansions that are left, every other comparison of bodies
uses up a pair below the bound, and the shortcut comes to smaller types. -/
theorem comparison_settles (budget bound left rank : Nat) {s t : TypeId} (era : Era P bound σ.table)
    (hs : s < bound ∧ P s) (ht : t < bound ∧ P t)
    (expansions : expansionLimit - σ.expansionDepth < budget)
    (pairs : (σ.openPairs bound).card < left) (sum : s + t < rank) : Settles strict grown σ s t := by
  induction budget generalizing bound left rank σ s t with
  | zero => exact absurd expansions (Nat.not_lt_zero _)
  | succ budget expanding =>
  induction left generalizing rank σ s t with
  | zero => exact absurd pairs (Nat.not_lt_zero _)
  | succ left entering =>
  induction rank generalizing σ s t with
  | zero => exact absurd sum (Nat.not_lt_zero _)
  | succ rank shrinking =>
  refine relatedWithin_ends tracks.toGrowth (fun _ => trivial) (fun _ => ?_)
    fun _ σ' follows => ?_
  · refine (instancesRelated_settles tracks era hs ht fun a b τ follows first second below => ?_).weaken
      fun _ _ follows => ⟨follows, fun _ => trivial⟩
    refine shrinking (era.grown (tracks.toGrown follows.table)) first second ?_ ?_
      (Nat.lt_of_lt_of_le below (Nat.lt_succ_iff.mp sum))
    · rw [follows.expansionDepth]
      exact expansions
    · rw [follows.openPairs]
      exact pairs
  have later := era.grown (tracks.toGrown follows.table)
  have inside {id : TypeId} (here : id < bound ∧ P id) : σ'.table.Held P id :=
    ⟨Nat.lt_of_lt_of_le here.1 later.size, here.2⟩
  obtain ⟨body, body', one, two, first, second, resolved, held, held'⟩ :=
    resolve_both tracks later.sound (inside hs) (inside ht)
  have reached : σ'.Follows grown { σ' with table := two } :=
    ⟨resolved, rfl, rfl⟩
  refine bodiesRelated_ends tracks.toGrowth first second reached (fun _ => trivial)
    (fun _ => trivial) (fun _ => trivial) (fun _ => trivial) fun _ _ _ outside free => ?_
  have depth := follows.expansionDepth
  generalize expanded : (body != s || body' != t) = flag at free ⊢
  cases flag with
  | true =>
      -- one nested expansion less is left, for whatever new entries there are now
      have shallow : σ'.expansionDepth < expansionLimit := by
        simpa [Session.Limited] using free
      have era' : Era P two.size two := .of_sound ((tracks.toGrown resolved).sound later.sound)
      have aim : two.Held P t := (inside ht).grown (tracks.toGrown resolved).extended
      refine structureRelated_settles tracks era' held held' aim fun a b τ follows' first second => ?_
      refine expanding two.size _ _ (era'.grown (tracks.toGrown follows'.table)) first second ?_
        (Nat.lt_succ_self _) (Nat.lt_succ_self _)
      rw [follows'.expansionDepth]
      simp only [Session.entered, ↓reduceIte]
      omega
  | false =>
      -- the same entries are compared, with one pair more in progress
      obtain ⟨rfl, rfl⟩ : body = s ∧ body' = t := by simpa using expanded
      have era' : Era P bound two := later.grown (tracks.toGrown resolved)
      refine structureRelated_settles tracks era' hs ht ht fun a b τ follows' first second => ?_
      refine entering _ (era'.grown (tracks.toGrown follows'.table)) first second ?_ ?_ (Nat.lt_succ_self _)
      · rw [follows'.expansionDepth]
        simp only [Session.entered, Bool.false_eq_true, ↓reduceIte, Nat.add_zero]
        omega
      · have fewer := Session.openPairs_entered hs.1 ht.1 outside false
        rw [follows'.openPairs]
        rw [follows.openPairs] at fewer
        exact Nat.lt_of_lt_of_le fewer (Nat.lt_succ_iff.mp pairs)

/-- The whole table is a bound to begin with. -/
theorem settles_of_sound {s t : TypeId} (sound : σ.table.Sound true P) (hs : σ.table.Held P s)
    (ht : σ.table.Held P t) : Settles strict grown σ s t :=
  comparison_settles tracks _ _ _ _ (.of_sound sound) hs ht (Nat.lt_succ_self _)
    (Nat.lt_succ_self _) (Nat.lt_succ_self _)

/-- A question about types of the set is answered, and its table has grown as is said. -/
theorem exists_answer (strict fresh : Bool) {table : TypeTable} {s t : TypeId}
    (sound : table.Sound true P) (hs : table.Held P s) (ht : table.Held P t) :
    ∃ verdict after, Answers strict table s t fresh verdict after ∧ grown table after := by
  have compared (table' : TypeTable) (reached : grown table table') :
      Ends (fun fuel => relatedWithin strict fuel s t) (.ofTable table') fun _ σ =>
        grown table σ.table := by
    have later := tracks.toGrown reached
    refine (settles_of_sound tracks (later.sound sound) (hs.grown later.extended)
      (ht.grown later.extended)).weaken fun verdict σ ⟨follows, _⟩ => ?_
    exact tracks.trans reached follows.table
  have ends : Ends (fun fuel => assignableWithin strict fuel s t fresh) (.ofTable table)
      fun _ σ => grown table σ.table := by
    cases fresh with
    | false => exact .after (fun _ => rfl) (compared table (tracks.refl table))
    | true =>
        -- the search for excess properties resolves both types beforehand
        have reached := tracks.excessProperties sound hs ht
        refine .after (fun _ => run_onTable _ _) (.ite (fun _ => ?_) fun _ => .pure reached)
        exact compared _ reached
  obtain ⟨verdict, σ, fuel, done, later⟩ := ends
  exact ⟨verdict, σ.table, ⟨fuel, σ, done fuel (Nat.le_refl fuel), rfl⟩, later⟩

end Tracking

end Ends

/-- The types reached, with all entries still to come, are closed under mentions. -/
theorem sound_reached {table : TypeTable} {roots : List TypeId} (wellFormed : table.WellFormed)
    (plain : ∀ id, Reached table roots id → ∀ f, table.kind id = .function f →
      f.isGeneric = false) :
    table.Sound true fun id => table.size ≤ id ∨ Reached table roots id := by
  have reached {id : TypeId} (inside : id < table.size)
      (either : table.size ≤ id ∨ Reached table roots id) : Reached table roots id :=
    either.resolve_left (Nat.not_le.mpr inside)
  refine ⟨wellFormed, fun _ => .inl, ?_, ?_, ?_⟩
  · exact fun id inside either m mentioned => .inr (.mention (reached inside either) mentioned)
  · intro _ id inside either f isFunction
    simpa [FunctionType.isGeneric] using plain id (reached inside either) f isFunction
  · intro key body found origin arguments
    obtain ⟨known, all, -⟩ := wellFormed.remembered key body found
    exact .inr (.remembered found (reached known origin)
      fun a member => reached (all a member) (arguments a member))

/-- Every question about types from which no generic function type can be reached is
answered, fresh or not and in either mode. -/
theorem assignable_ends (strict fresh : Bool) {table : TypeTable} (wellFormed : table.WellFormed)
    {source target : TypeId} (known : source < table.size) (known' : target < table.size)
    (plain : ∀ id, Reached table [source, target] id → ∀ f, table.kind id = .function f →
      f.isGeneric = false) :
    ∃ verdict after, Answers strict table source target fresh verdict after := by
  let P : TypeId → Prop := fun id => table.size ≤ id ∨ Reached table [source, target] id
  have sound : table.Sound true P := sound_reached wellFormed plain
  have held : table.Held P source := ⟨known, .inr (.root List.mem_cons_self)⟩
  have held' : table.Held P target := ⟨known', .inr (.root (by simp))⟩
  obtain ⟨verdict, after, answers, -⟩ :=
    exists_answer (tracks_grown P) strict fresh sound held held'
  exact ⟨verdict, after, answers⟩

/-- `interface List<T> { head: T; tail: List<T> }`, of numbers and of strings. -/
def genericLists : TypeTable :=
  { TypeTable.initial with
    entries := TypeTable.initial.entries ++ #[
      .typeParameter "T" none,
      .object ⟨some "List", ⟨[("head", ⟨7, false⟩), ("tail", ⟨10, false⟩)]⟩⟩,
      .generic ⟨"List", [7], 8⟩,
      .instantiated ⟨9, ⟨[("T", 7)]⟩⟩,
      .instantiated ⟨9, ⟨[("T", TypeId.number)]⟩⟩,
      .instantiated ⟨9, ⟨[("T", TypeId.string)]⟩⟩] }

theorem genericLists_answered :
    ∃ verdict after, Answers true genericLists 11 12 false verdict after := by
  refine assignable_ends true false (.of_fits (by decide) rfl) (by decide) (by decide) ?_
  intro id _ f isFunction
  have member := TypeTable.mem_entries_of_kind isFunction nofun
  simp [genericLists, TypeTable.initial] at member

end StructuralTyping.Assignability
