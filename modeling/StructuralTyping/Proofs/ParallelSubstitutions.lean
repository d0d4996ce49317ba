import StructuralTyping.Proofs.DerivedEntries
import StructuralTyping.Proofs.RemainingParameters

/-! The same replacement in two tables that have a pattern in common. The types in each table
carry labels, and types with one label correspond. Where the bound types correspond, what is
appended to the two tables corresponds, entry by entry and in one order. -/
namespace StructuralTyping

open TypeTable

theorem TableM.map_mapM {α β γ δ : Type} {f : α → TableM β} {g : γ → TableM δ} {h : β → δ}
    {k : α → γ} (each : ∀ a, h <$> f a = g (k a)) (items : List α) :
    List.map h <$> items.mapM f = (items.map k).mapM g := by
  induction items with
  | nil => simp
  | cons a rest ih =>
      rw [List.mapM_cons, List.map_cons, List.mapM_cons, ← ih, ← each]
      simp

/-- The parts of an entry are replaced one after another, whatever is around them. -/
theorem TypeKind.parts_rebuildM (bindings : Bindings) (descend : TypeId → TableM TypeId)
    (kind : TypeKind) :
    TypeKind.parts <$> kind.rebuildM bindings descend = kind.parts.mapM descend := by
  cases kind with
  | object o =>
      have each (pair : String × Property) :
          (fun p : String × Property => p.2.type) <$>
            (do return (pair.1, ← (do return { pair.2 with type := ← descend pair.2.type })) :
              TableM (String × Property)) = descend pair.2.type := by simp
      have replaced := TableM.map_mapM each o.properties.pairs
      simp only [TypeKind.parts, Dictionary.values, List.map_map]
      refine Eq.trans ?_ replaced
      simp [rebuildM, Dictionary.mapValuesM, parts, Dictionary.values, Function.comp_def]
  | function f =>
      have each (p : Parameter) :
          Parameter.type <$> (do return { p with type := ← descend p.type } : TableM Parameter) =
            descend p.type := by simp
      rw [parts, List.mapM_append, ← TableM.map_mapM each]
      simp [rebuildM, parts]
  | instantiated i =>
      have each (pair : String × TypeId) :
          Prod.snd <$> (do return (pair.1, ← descend pair.2) : TableM (String × TypeId)) =
            descend pair.2 := by simp
      have replaced := TableM.map_mapM each i.bindings.pairs
      refine Eq.trans ?_ replaced
      simp [rebuildM, Dictionary.mapValuesM, parts, Dictionary.values]
  | _ => simp [TypeKind.rebuildM, TypeKind.parts]

/-- Whatever is put in the places of its parts, the rest of an entry is kept. -/
theorem TypeKind.kept_rebuildM (bindings : Bindings) (descend : TypeId → TableM TypeId)
    (kind : TypeKind) (t : TypeTable) :
    ((kind.rebuildM bindings descend).run t).1.frame = kind.frame ∧
      ((kind.rebuildM bindings descend).run t).1.binders =
        kind.binders.filter fun p => !bindings.contains p := by
  have any : Growth fun _ _ : TypeTable => True := ⟨fun _ => trivial, fun _ _ => trivial⟩
  obtain ⟨-, -, binders, frame⟩ : TableM.Yields (kind.rebuildM bindings descend) t _ :=
    yields_rebuildM any (Q := fun _ _ _ => True) (fun _ _ _ _ _ _ => trivial) kind
      fun _ _ _ _ => ⟨trivial, trivial⟩
  exact ⟨frame, binders⟩

namespace TableM

variable {α β γ : Type} {inv : TypeTable → TypeTable → Prop}

/-- Side by side, the two computations keep the invariant of their tables, and this is what
they come to. -/
def Abreast (inv : TypeTable → TypeTable → Prop) (m : TableM α) (m' : TableM β)
    (post : α → β → Prop) : Prop :=
  ∀ t t', inv t t' → inv (m.run t).2 (m'.run t').2 ∧ post (m.run t).1 (m'.run t').1

theorem Abreast.pure {a : α} {b : β} {post : α → β → Prop} (holds : post a b) :
    Abreast inv (pure a) (pure b) post := fun _ _ before => ⟨before, holds⟩

theorem Abreast.bind {δ ε : Type} {m : TableM α} {m' : TableM β} {k : α → TableM δ}
    {k' : β → TableM ε}
    {middle : α → β → Prop} {post : δ → ε → Prop} (first : Abreast inv m m' middle)
    (next : ∀ a b, middle a b → Abreast inv (k a) (k' b) post) :
    Abreast inv (m >>= k) (m' >>= k') post := fun t t' before =>
  next _ _ (first t t' before).2 _ _ (first t t' before).1

theorem Abreast.mapM {f : γ → TableM α} {f' : γ → TableM β} {post : α → β → Prop} {items : List γ}
    (each : ∀ c ∈ items, Abreast inv (f c) (f' c) post) :
    Abreast inv (items.mapM f) (items.mapM f') (List.Forall₂ post) := by
  induction items with
  | nil => exact .pure .nil
  | cons c rest ih =>
      obtain ⟨here, later⟩ := List.forall_mem_cons.mp each
      rw [List.mapM_cons, List.mapM_cons]
      exact here.bind fun a b holds => (ih later).bind fun as bs all => .pure (.cons holds all)

end TableM

section Replacing
variable {Label : Type} {a b : TypeId → Label} {base : TypeTable} {start start' : Nat}

/-- The entries are the same up to the labels of their parts. -/
structure TypeKind.Corresponds (a b : TypeId → Label) (kind kind' : TypeKind) : Prop where
  frame : kind'.frame = kind.frame
  binders : kind'.binders = kind.binders
  parts : kind'.parts.map b = kind.parts.map a

/-- Both tables extend the base, and what is appended from the starts on corresponds. -/
structure InStep (base : TypeTable) (a b : TypeId → Label) (start start' : Nat)
    (t t' : TypeTable) : Prop where
  left : base.Extends t
  right : base.Extends t'
  begun : start ≤ t.size
  sizes : t'.size + start = t.size + start'
  entries : ∀ place, start + place < t.size →
    (t.kind (start + place)).Corresponds a b (t'.kind (start' + place))

/-- Corresponding entries are appended to tables in step. -/
theorem InStep.add {t t' : TypeTable} {kind kind' : TypeKind}
    (inStep : InStep base a b start start' t t') (corresponds : kind.Corresponds a b kind') :
    InStep base a b start start' (t.add kind).2 (t'.add kind').2 where
  left := inStep.left.trans (.add t kind)
  right := inStep.right.trans (.add t' kind')
  begun := Nat.le_trans inStep.begun (Extends.add t kind).size
  sizes := by
    have sizes := inStep.sizes
    simp only [size_add]
    omega
  entries place inside := by
    have sizes := inStep.sizes
    have begun := inStep.begun
    rw [size_add] at inside
    by_cases before : start + place < t.size
    · have before' : start' + place < t'.size := by omega
      rw [kind_add_of_lt before, kind_add_of_lt before']
      exact inStep.entries place before
    · obtain rfl : place = t.size - start := by omega
      have last : start + (t.size - start) = t.size := by omega
      have last' : start' + (t.size - start) = t'.size := by omega
      rw [last, last', kind_add_size, kind_add_size]
      exact corresponds

theorem TypeKind.Corresponds.unnamed {kind kind' : TypeKind}
    (corresponds : kind.Corresponds a b kind') : kind.unnamed.Corresponds a b kind'.unnamed where
  frame := by
    have frame (kind : TypeKind) : kind.unnamed.frame = kind.shape := by cases kind <;> rfl
    rw [frame, frame, shape, shape, corresponds.frame]
  binders := by rw [binders_unnamed, binders_unnamed, corresponds.binders]
  parts := by rw [parts_unnamed, parts_unnamed, corresponds.parts]

/-- The labels tell the types of each table apart, and they are the same for the base. From
the starts on they are the same for types in the same place. -/
structure Labelling (base : TypeTable) (a b : TypeId → Label) (start start' : Nat) : Prop where
  left : Function.Injective a
  right : Function.Injective b
  base : ∀ id < base.size, b id = a id
  fresh : ∀ place, b (start' + place) = a (start + place)

variable {bindings bindings' : Bindings}

/-- What is bound on the one side is bound to a corresponding type on the other. -/
def BindsAlike (a b : TypeId → Label) (bindings bindings' : Bindings) : Prop :=
  ∀ p, Option.Rel (fun x y => b y = a x) (bindings.find? p) (bindings'.find? p)

theorem BindsAlike.contains (alike : BindsAlike a b bindings bindings') (p : TypeId) :
    bindings'.contains p = bindings.contains p := by
  have here := alike p
  rw [Dictionary.contains, Dictionary.contains]
  generalize bindings.find? p = x at here
  generalize bindings'.find? p = y at here
  cases here <;> rfl

theorem BindsAlike.cases (alike : BindsAlike a b bindings bindings') (p : TypeId) :
    (∃ x y, bindings.find? p = some x ∧ bindings'.find? p = some y ∧ b y = a x) ∨
      bindings.find? p = none ∧ bindings'.find? p = none := by
  have here := alike p
  generalize bindings.find? p = x at here
  generalize bindings'.find? p = y at here
  cases here with
  | some same => exact .inl ⟨_, _, rfl, rfl, same⟩
  | none => exact .inr ⟨rfl, rfl⟩

/-- Where the parts become corresponding types, so does the entry. -/
theorem abreast_rebuildM {inv : TypeTable → TypeTable → Prop}
    {descend descend' : TypeId → TableM TypeId}
    {kind : TypeKind} (contains : ∀ p, bindings'.contains p = bindings.contains p)
    (below : ∀ m ∈ kind.parts, TableM.Abreast inv (descend m) (descend' m) fun x y => b y = a x) :
    TableM.Abreast inv (kind.rebuildM bindings descend) (kind.rebuildM bindings' descend')
      fun rebuilt rebuilt' => rebuilt.frame = kind.frame ∧ rebuilt.Corresponds a b rebuilt' := by
  intro t t' before
  have parts := TableM.Abreast.mapM below t t' before
  rw [← kind.parts_rebuildM bindings, ← kind.parts_rebuildM bindings'] at parts
  obtain ⟨frame, binders⟩ := kind.kept_rebuildM bindings descend t
  obtain ⟨frame', binders'⟩ := kind.kept_rebuildM bindings' descend' t'
  refine ⟨parts.1, frame, frame'.trans frame.symm, ?_,
    TypeKind.map_eq_of_forall₂ (fun _ _ => id) parts.2⟩
  rw [binders, binders']
  exact List.filter_congr fun p _ => by rw [contains]

/-- An entry that is rebuilt alike is kept in both tables, or appended to both. -/
theorem abreast_rebuilt (labelling : Labelling base a b start start') {id : TypeId}
    {kind kind' original : TypeKind} (same : b id = a id)
    (parts : ∀ m ∈ original.parts, b m = a m) (frame : kind.frame = original.frame)
    (corresponds : kind.Corresponds a b kind') :
    TableM.Abreast (InStep base a b start start')
      (if kind = original then return id else TableM.add kind.unnamed)
      (if kind' = original then return id else TableM.add kind'.unnamed) fun x y => b y = a x := by
  have unchanged : kind' = original ↔ kind = original := by
    have alike : original.parts.map b = original.parts.map a := List.map_congr_left parts
    constructor
    · rintro rfl
      refine TypeKind.eq_of_frame frame (labelling.left.list_map ?_) corresponds.binders.symm
      rw [← corresponds.parts, alike]
    · rintro rfl
      exact TypeKind.eq_of_frame corresponds.frame
        (labelling.right.list_map (corresponds.parts.trans alike.symm)) corresponds.binders
  by_cases kept : kind = original
  · rw [if_pos kept, if_pos (unchanged.mpr kept)]
    exact .pure same
  · rw [if_neg kept, if_neg (unchanged.not.mpr kept)]
    intro t t' inStep
    refine ⟨inStep.add corresponds.unnamed, ?_⟩
    have fresh := labelling.fresh (t.size - start)
    have begun := inStep.begun
    have sizes := inStep.sizes
    have last : start + (t.size - start) = t.size := by omega
    have last' : start' + (t.size - start) = t'.size := by omega
    rw [last, last'] at fresh
    exact fresh

/-- The descents into one pattern run in step. -/
theorem applyWithin_abreast (labelling : Labelling base a b start start')
    (alike : BindsAlike a b bindings bindings') (wellFormed : base.WellFormed)
    (fuel fuel' : Nat) {visiting : List TypeId} {id : TypeId}
    (inside : id < base.size) (through : base.CameThrough visiting id)
    (enough : base.size < fuel + visiting.length) (enough' : base.size < fuel' + visiting.length) :
    TableM.Abreast (InStep base a b start start')
      (Substitution.applyWithin bindings fuel visiting id)
      (Substitution.applyWithin bindings' fuel' visiting id) fun x y => b y = a x := by
  have short := through.length_le
  induction fuel generalizing fuel' visiting id with
  | zero => omega
  | succ fuel ih =>
      obtain ⟨fuel', rfl⟩ : ∃ n, fuel' = n + 1 := ⟨fuel' - 1, by omega⟩
      rcases alike.cases id with ⟨x, y, found, found', same⟩ | ⟨found, found'⟩
      · rw [Substitution.applyWithin, Substitution.applyWithin, found, found']
        exact .pure same
      by_cases visited : id ∈ visiting
      · rw [Substitution.applyWithin, Substitution.applyWithin, found, found']
        dsimp only
        rw [if_pos visited, if_pos visited]
        exact .pure (labelling.base id inside)
      rw [Substitution.applyWithin_rebuilds found visited,
        Substitution.applyWithin_rebuilds found' visited]
      have below : ∀ m ∈ (base.kind id).parts, TableM.Abreast (InStep base a b start start')
          (Substitution.applyWithin bindings fuel (id :: visiting) m)
          (Substitution.applyWithin bindings' fuel' (id :: visiting) m) fun x y => b y = a x := by
        intro m part
        have down := through.down visited inside part
        have longer : (id :: visiting).length = visiting.length + 1 := List.length_cons
        exact ih fuel' (wellFormed.part inside part) down (by omega) (by omega) down.length_le
      have read : TableM.Abreast (InStep base a b start start') (TableM.kind id) (TableM.kind id)
          fun kind kind' => kind = base.kind id ∧ kind' = base.kind id := fun t t' inStep =>
        ⟨inStep, inStep.left.kind id inside, inStep.right.kind id inside⟩
      refine read.bind ?_
      rintro _ _ ⟨rfl, rfl⟩
      refine (abreast_rebuildM alike.contains below).bind ?_
      rintro kind kind' ⟨frame, corresponds⟩
      exact abreast_rebuilt labelling (labelling.base id inside)
        (fun m part => labelling.base m (wellFormed.part inside part)) frame corresponds

theorem isEmpty_iff_find? {bindings : Bindings} :
    bindings.isEmpty = true ↔ ∀ p, bindings.find? p = none := by
  obtain ⟨pairs⟩ := bindings
  cases pairs with
  | nil => exact ⟨fun _ _ => rfl, fun _ => rfl⟩
  | cons pair rest =>
      refine ⟨nofun, fun nothing => ?_⟩
      have here := nothing pair.1
      simp [Dictionary.find?, Dictionary.findIn?] at here

/-- The same holds from two tables that extend the base. -/
theorem run_substitute_abreast {t t' : TypeTable} {id : TypeId}
    (labelling : Labelling base a b t.size t'.size) (alike : BindsAlike a b bindings bindings')
    (wellFormed : base.WellFormed) (left : base.Extends t) (right : base.Extends t')
    (inside : id < base.size) :
    InStep base a b t.size t'.size ((substitute id bindings).run t).2
        ((substitute id bindings').run t').2 ∧
      b ((substitute id bindings').run t').1 = a ((substitute id bindings).run t).1 := by
  have inStep : InStep base a b t.size t'.size t t' :=
    ⟨left, right, Nat.le_refl _, Nat.add_comm _ _, fun place beyond => by omega⟩
  have empty : bindings'.isEmpty = bindings.isEmpty := by
    rw [Bool.eq_iff_iff, isEmpty_iff_find?, isEmpty_iff_find?]
    refine forall_congr' fun p => ?_
    rcases alike.cases p with ⟨x, y, found, found', -⟩ | ⟨found, found'⟩
    · simp [found, found']
    · simp [found, found']
  have through := CameThrough.start base id
  have enough := left.size
  have enough' := right.size
  rw [substitute, substitute, empty]
  split
  · exact ⟨inStep, labelling.base id inside⟩
  · exact applyWithin_abreast labelling alike wellFormed (t.size + 1) (t'.size + 1) inside through
      (by rw [List.length_nil]; omega) (by rw [List.length_nil]; omega) t t' inStep

end Replacing

end StructuralTyping
