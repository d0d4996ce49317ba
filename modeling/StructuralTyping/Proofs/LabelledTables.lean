import StructuralTyping.Proofs.ParallelSubstitutions
import StructuralTyping.Proofs.ResolvedBodies
import StructuralTyping.Proofs.Expansion

/-! Tables that come of one table by resolving types, in whatever order. An entry that is new
in such a table has a label, which tells in the body of which instance it stands and in what
place. Types of two such tables that have one label are the same up to labels, and so are their
bodies. -/
namespace StructuralTyping

open TableM (Yields)
open TypeTable

/-- What an entry is known by: an entry of the base by its index, a new one by the instance in
whose body it stands, and by its place there. -/
inductive Label where
  | entry (id : TypeId)
  | made (origin : TypeId) (arguments : List Label) (place : Nat)

/-- What comes after the entries that have labels stands in the body of one instance. -/
def Label.beyond (label : TypeId → Label) (size : Nat) (key : TypeId × List TypeId)
    (id : TypeId) : Label :=
  if id < size then label id else .made key.1 (key.2.map label) (id - size)

/-- The table has come of the base by making bodies of instances one after another, and its
entries have these labels. -/
inductive Labelled (base : TypeTable) : TypeTable → (TypeId → Label) → Prop where
  | start : Labelled base base .entry
  | remember {u v : TypeTable} {label : TypeId → Label} {key : TypeId × List TypeId}
      {g : GenericType} {body : TypeId} (before : Labelled base u label)
      (origin : base.kind key.1 = .generic g) (arguments : ∀ a ∈ key.2, a < u.size)
      (built : base.kind g.body ≠ .pending) (unmade : u.resolved.find? key = none)
      (run : (substitute g.body (g.bind key.2)).run u = (body, v)) :
      Labelled base (v.remember key body) (Label.beyond label u.size key)

section Labels
variable {label : TypeId → Label} {size : Nat} {key : TypeId × List TypeId} {id : TypeId}

theorem Label.beyond_before (before : id < size) : beyond label size key id = label id :=
  if_pos before

theorem Label.beyond_add (place : Nat) :
    beyond label size key (size + place) = .made key.1 (key.2.map label) place := by
  rw [beyond, if_neg (Nat.not_lt.mpr (Nat.le_add_right size place)), Nat.add_sub_cancel_left]

theorem Label.map_beyond {ids : List TypeId} (before : ∀ id ∈ ids, id < size) :
    ids.map (beyond label size key) = ids.map label :=
  List.map_congr_left fun id member => beyond_before (before id member)

end Labels

namespace Labelled

variable {base u v : TypeTable} {label : TypeId → Label} {key : TypeId × List TypeId}
  {id : TypeId}

/-- A substitution appends entries, and what is remembered stays. -/
theorem run_substitute_appends {bindings : Bindings} {body : TypeId}
    (run : (substitute id bindings).run u = (body, v)) : u.Appends v := by
  have appends := appends_substitute id bindings u
  rwa [Yields, run] at appends

theorem extended (labelled : Labelled base u label) : base.Extends u := by
  induction labelled with
  | start => exact .refl base
  | remember _ _ _ _ _ run ih =>
      have appended := (run_substitute_appends run).1.extended
      exact ⟨(ih.trans appended).size, (ih.trans appended).kind⟩

/-- What the base remembers, the table remembers. -/
theorem remembers (labelled : Labelled base u label) {body : TypeId}
    (found : base.resolved.find? key = some body) : u.resolved.find? key = some body := by
  induction labelled with
  | start => exact found
  | @remember u v _ key' _ _ _ _ _ _ unmade run ih =>
      have other : key' ≠ key := by
        rintro rfl
        exact nomatch unmade.symm.trans ih
      rw [TypeTable.remember, (run_substitute_appends run).2, Dictionary.find?_insert, if_neg other]
      exact ih

theorem label_base (labelled : Labelled base u label) (inside : id < base.size) :
    label id = .entry id := by
  induction labelled with
  | start => rfl
  | remember before _ _ _ _ _ ih =>
      rw [Label.beyond_before (Nat.lt_of_lt_of_le inside before.extended.size)]
      exact ih

theorem eq_of_entry (labelled : Labelled base u label) {m : TypeId} (same : label id = .entry m) :
    id = m := by
  induction labelled with
  | start => exact Label.entry.inj same
  | @remember u _ _ _ _ _ _ _ _ _ _ _ ih =>
      rw [Label.beyond] at same
      split at same
      · exact ih same
      · cases same

/-- Whose body an entry stands in has been remembered. -/
theorem of_made (labelled : Labelled base u label) {origin : TypeId} {names : List Label}
    {place : Nat} (same : label id = .made origin names place) :
    ∃ arguments body, (∀ a ∈ arguments, a < u.size) ∧ arguments.map label = names ∧
      u.resolved.find? (origin, arguments) = some body := by
  induction labelled with
  | start => cases same
  | @remember u v label' key' g body before _ inside _ unmade run ih =>
      obtain ⟨developed, resolved⟩ := run_substitute_appends run
      have appended := developed.extended
      rw [Label.beyond] at same
      split at same
      · obtain ⟨arguments, body', known, names, found⟩ := ih same
        have other : key' ≠ (origin, arguments) := by
          rintro rfl
          exact nomatch unmade.symm.trans found
        refine ⟨arguments, body', fun a member => appended.inside (known a member), ?_, ?_⟩
        · rw [Label.map_beyond known, names]
        · rw [TypeTable.remember, resolved, Dictionary.find?_insert, if_neg other]
          exact found
      · obtain ⟨rfl, rfl, -⟩ := Label.made.inj same
        refine ⟨key'.2, body, fun a member => appended.inside (inside a member),
          Label.map_beyond inside, ?_⟩
        rw [TypeTable.remember, Dictionary.find?_insert, if_pos rfl]

/-- No two types have one label. -/
theorem injective (labelled : Labelled base u label) : Function.Injective label := by
  induction labelled with
  | start => exact fun _ _ => Label.entry.inj
  | @remember u v label' key' g body before _ inside _ unmade _ ih =>
      -- a body that has not been made has no entries yet
      have apart {x y : TypeId} (old : x < u.size) (new : ¬y < u.size) :
          Label.beyond label' u.size key' x ≠ Label.beyond label' u.size key' y := by
        rw [Label.beyond_before old, Label.beyond, if_neg new]
        intro same
        obtain ⟨arguments, body, known, names, found⟩ := before.of_made same
        obtain rfl := ih.list_map names
        exact nomatch unmade.symm.trans found
      intro x y same
      by_cases old : x < u.size
      · by_cases old' : y < u.size
        · rw [Label.beyond_before old, Label.beyond_before old'] at same
          exact ih same
        · exact absurd same (apart old old')
      · by_cases old' : y < u.size
        · exact absurd same.symm (apart old' old)
        · rw [Label.beyond, Label.beyond, if_neg old, if_neg old'] at same
          have place : (x : Nat) - u.size = y - u.size := (Label.made.inj same).2.2
          have first : u.size ≤ (x : Nat) := Nat.le_of_not_lt old
          have first' : u.size ≤ (y : Nat) := Nat.le_of_not_lt old'
          exact (Nat.sub_eq_iff_eq_add first).mp (place.trans rfl) |>.trans
            (Nat.sub_add_cancel first')

/-- A body that is made of a declaration of the base keeps the table well-formed. -/
theorem run_substitute_appended (wellFormed : base.WellFormed) (extended : base.Extends u)
    (known : u.WellFormed) {g : GenericType} (origin : base.kind key.1 = .generic g)
    (arguments : ∀ a ∈ key.2, a < u.size) {body : TypeId}
    (run : (substitute g.body (g.bind key.2)).run u = (body, v)) :
    v.WellFormed ∧ body < v.size := by
  have inside : g.body < base.size :=
    wellFormed.mentions _ (lt_size_of_kind origin (by simp)) g.body
      (by simp [origin, TypeKind.mentions])
  have made : Yields (substitute g.body (g.bind key.2)) u _ :=
    yields_substitute known.sound ⟨extended.inside inside, trivial⟩ fun b member => by
      obtain ⟨pair, supplied, rfl⟩ := List.mem_map.mp (Dictionary.mem_values_ofList member)
      exact ⟨arguments pair.2 (List.of_mem_zip supplied).2, trivial⟩
  rw [Yields, run] at made
  exact ⟨(made.1.sound known.sound).toWellFormed, made.2.1⟩

theorem wellFormed (labelled : Labelled base u label) (wellFormed : base.WellFormed) :
    u.WellFormed := by
  induction labelled with
  | start => exact wellFormed
  | @remember u v _ key' g body before origin inside _ _ run ih =>
      have appended := (run_substitute_appends run).1.extended
      obtain ⟨known, held⟩ :=
        run_substitute_appended wellFormed before.extended ih origin inside run
      refine (sound_remember known.sound (?_ : key'.1 < _) ?_ ⟨held, trivial⟩).toWellFormed
      · exact appended.inside (before.extended.inside (lt_size_of_kind origin (by simp)))
      · exact fun a member => appended.inside (inside a member)

theorem develops (labelled : Labelled base u label) (wellFormed : base.WellFormed) :
    base.Develops u := by
  induction labelled with
  | start => exact .start
  | remember before origin _ built unmade run ih =>
      obtain ⟨developed, resolved⟩ := run_substitute_appends run
      have extended := before.extended
      have inside := wellFormed.mentions _ (lt_size_of_kind origin (by simp)) _
        (by rw [origin]; exact List.mem_append_right _ (List.mem_singleton_self _))
      refine .remember ih (ih.trans developed) ?_ ?_ run (resolved ▸ unmade)
      · rw [extended.kind _ (lt_size_of_kind origin (by simp)), origin]
      · rwa [extended.kind _ inside]

/-- How the body of an instance has been made on the way to a table. -/
structure Made (base u : TypeTable) (label : TypeId → Label) (key : TypeId × List TypeId)
    (g : GenericType) (body : TypeId) (before : TypeId → Label) (s v : TypeTable) : Prop where
  labelled : Labelled base s before
  origin : base.kind key.1 = .generic g
  arguments : ∀ a ∈ key.2, a < s.size
  built : base.kind g.body ≠ .pending
  unmade : s.resolved.find? key = none
  run : (substitute g.body (g.bind key.2)).run s = (body, v)
  extended : v.Extends u
  inside : body < v.size
  label : ∀ id < v.size, label id = Label.beyond before s.size key id

/-- A table with more entries, which have labels as well. -/
structure Extends (u u' : TypeTable) (label label' : TypeId → Label) : Prop where
  table : u.Extends u'
  label : ∀ id < u.size, label' id = label id

section History
variable {u' s : TypeTable} {label' before : TypeId → Label} {g : GenericType} {body : TypeId}

theorem Made.later (made : Made base u label key g body before s v)
    (extended : Labelled.Extends u u' label label') :
    Made base u' label' key g body before s v :=
  { made with
    extended := made.extended.trans extended.table
    label := fun id inside =>
      (extended.label id (made.extended.inside inside)).trans (made.label id inside) }

/-- A body that is remembered was remembered in the base, or it has been made. -/
theorem memory (labelled : Labelled base u label) (wellFormed : base.WellFormed)
    (found : u.resolved.find? key = some body) :
    base.resolved.find? key = some body ∨
      ∃ g before s v, Made base u label key g body before s v := by
  induction labelled with
  | start => exact .inl found
  | @remember u v label' key' g body' before origin inside built unmade run ih =>
      obtain ⟨developed, resolved⟩ := run_substitute_appends run
      have appended := developed.extended
      have here : TypeTable.Extends v (v.remember key' body') := ⟨Nat.le_refl _, fun _ _ => rfl⟩
      rw [TypeTable.remember, Dictionary.find?_insert] at found
      split at found
      · next same =>
          subst same
          obtain rfl := Option.some.inj found
          have known := (before.remember origin inside built unmade run).wellFormed wellFormed
          have body : body' < (v.remember key' body').size :=
            (known.remembered key' body' (by
              rw [TypeTable.remember, Dictionary.find?_insert, if_pos rfl])).2.2
          exact .inr ⟨g, label', u, v, before, origin, inside, built, unmade, run, here, body,
            fun _ _ => rfl⟩
      · rw [resolved] at found
        refine (ih found).imp_right ?_
        rintro ⟨g, before', s, w, made⟩
        exact ⟨g, before', s, w, made.later ⟨appended.trans here, fun id inside =>
          Label.beyond_before inside⟩⟩

/-- A new entry has been made with a body. -/
theorem fresh (labelled : Labelled base u label) (wellFormed : base.WellFormed)
    (inside : id < u.size) (new : base.size ≤ id) :
    ∃ key g body before s v,
      Made base u label key g body before s v ∧ s.size ≤ id ∧ id < v.size := by
  induction labelled with
  | start => exact absurd inside (Nat.not_lt.mpr new)
  | @remember u v label' key' g body' before origin known built unmade run ih =>
      have here : TypeTable.Extends v (v.remember key' body') := ⟨Nat.le_refl _, fun _ _ => rfl⟩
      have appended := (run_substitute_appends run).1.extended
      by_cases old : id < u.size
      · obtain ⟨key, g, body, before', s, w, made, first, last⟩ := ih old
        exact ⟨key, g, body, before', s, w, made.later ⟨appended.trans here, fun id inside =>
          Label.beyond_before inside⟩, first, last⟩
      · have found : (v.remember key' body').resolved.find? key' = some body' := by
          rw [TypeTable.remember, Dictionary.find?_insert, if_pos rfl]
        have held := (before.remember origin known built unmade run).wellFormed wellFormed
        exact ⟨key', g, body', label', u, v, ⟨before, origin, known, built, unmade, run, here,
          (held.remembered key' body' found).2.2, fun _ _ => rfl⟩, Nat.le_of_not_lt old, inside⟩

theorem Made.wellFormed (made : Made base u label key g body before s v)
    (wellFormed : base.WellFormed) : v.WellFormed :=
  (run_substitute_appended wellFormed made.labelled.extended (made.labelled.wellFormed wellFormed)
    made.origin made.arguments made.run).1

theorem Made.inside_of_argument (made : Made base u label key g body before s v) {a : TypeId}
    (member : a ∈ key.2) : a < v.size :=
  (run_substitute_appends made.run).1.extended.inside (made.arguments a member)

/-- A body that has been made was not remembered in the base. -/
theorem Made.unmade_base (made : Made base u label key g body before s v) :
    base.resolved.find? key = none := by
  cases found : base.resolved.find? key with
  | none => rfl
  | some body => exact nomatch made.unmade.symm.trans (made.labelled.remembers found)

end History

end Labelled

/-- Entries of one frame are of one kind. -/
theorem TypeKind.flag_eq_of_frame {kind kind' : TypeKind} (frame : kind'.frame = kind.frame) :
    kind'.flag = kind.flag := by
  have flag_frame (kind : TypeKind) : kind.frame.flag = kind.flag := by cases kind <;> rfl
  rw [← flag_frame kind', frame, flag_frame kind]

section Agreement
variable {base u v : TypeTable} {a b : TypeId → Label} {key key' : TypeId × List TypeId}
  {g g' : GenericType} {body body' : TypeId} {before before' : TypeId → Label}
  {s s' w w' : TypeTable}

theorem TypeKind.forall₂_of_map_eq {α β γ : Type} {f : β → γ} {g : α → γ} {xs : List α}
    {ys : List β} (same : ys.map f = xs.map g) : List.Forall₂ (fun x y => f y = g x) xs ys := by
  have all : List.Forall₂ Eq (xs.map g) (ys.map f) := by
    rw [same]
    exact List.forall₂_refl _
  rw [List.forall₂_map_left_iff, List.forall₂_map_right_iff] at all
  exact all.imp fun _ _ => Eq.symm

/-- Bodies of instances with one label have been made in step. -/
theorem Labelled.Made.abreast (wellFormed : base.WellFormed)
    (one : Made base u a key g body before s w) (two : Made base v b key' g' body' before' s' w')
    (origin : key'.1 = key.1) (arguments : key'.2.map before' = key.2.map before) :
    InStep base (Label.beyond before s.size key) (Label.beyond before' s'.size key')
        s.size s'.size w w' ∧
      Label.beyond before' s'.size key' body' = Label.beyond before s.size key body := by
  obtain rfl : g = g' := TypeKind.generic.inj (one.origin.symm.trans (origin ▸ two.origin))
  have left := one.labelled.remember one.origin one.arguments one.built one.unmade one.run
  have right := two.labelled.remember two.origin two.arguments two.built two.unmade two.run
  have labelling : Labelling base (Label.beyond before s.size key)
      (Label.beyond before' s'.size key') s.size s'.size := by
    refine ⟨left.injective, right.injective, fun id inside => ?_, fun place => ?_⟩
    · rw [left.label_base inside, right.label_base inside]
    · rw [Label.beyond_add, Label.beyond_add, origin, arguments]
  have alike : BindsAlike (Label.beyond before s.size key) (Label.beyond before' s'.size key')
      (g.bind key.2) (g.bind key'.2) := by
    have supplied : key'.2.map (Label.beyond before' s'.size key') =
        key.2.map (Label.beyond before s.size key) := by
      rw [Label.map_beyond two.arguments, Label.map_beyond one.arguments, arguments]
    exact rel_find?_zip _ (TypeKind.forall₂_of_map_eq supplied)
  have known : g.body < base.size :=
    wellFormed.mentions _ (lt_size_of_kind one.origin (by simp)) g.body
      (by simp [one.origin, TypeKind.mentions])
  have runs := run_substitute_abreast labelling alike wellFormed one.labelled.extended
    two.labelled.extended known
  rw [one.run, two.run] at runs
  exact runs

variable {x y : TypeId} (wellFormed : base.WellFormed) (left : Labelled base u a)
  (right : Labelled base v b)

include wellFormed left right

/-- Types with one label are the same up to labels. -/
theorem Labelled.kinds_correspond (inside : x < u.size) (inside' : y < v.size) (same : b y = a x) :
    (u.kind x).Corresponds a b (v.kind y) := by
  by_cases old : x < base.size
  · rw [left.label_base old] at same
    obtain rfl := right.eq_of_entry same
    rw [left.extended.kind y old, right.extended.kind y old]
    refine ⟨rfl, rfl, List.map_congr_left fun m part => ?_⟩
    have known := wellFormed.part old part
    rw [left.label_base known, right.label_base known]
  by_cases old' : y < base.size
  · rw [right.label_base old'] at same
    obtain rfl := left.eq_of_entry same.symm
    exact absurd old' old
  obtain ⟨key, g, body, before, s, w, one, first, last⟩ :=
    left.fresh wellFormed inside (Nat.le_of_not_lt old)
  obtain ⟨key', g', body', before', s', w', two, first', last'⟩ :=
    right.fresh wellFormed inside' (Nat.le_of_not_lt old')
  rw [one.label x last, two.label y last', Label.beyond, Label.beyond,
    if_neg (Nat.not_lt.mpr first), if_neg (Nat.not_lt.mpr first')] at same
  obtain ⟨origin, arguments, place⟩ := Label.made.inj same
  obtain ⟨inStep, -⟩ := one.abreast wellFormed two origin arguments
  have here : s.size + (x - s.size) = x := Nat.add_sub_of_le first
  have here' : s'.size + (x - s.size) = y := by
    rw [← show (y : Nat) - s'.size = x - s.size from place]
    exact Nat.add_sub_of_le first'
  have entry := inStep.entries (x - s.size) (by rwa [here])
  rw [here, here'] at entry
  rw [one.extended.kind x last, two.extended.kind y last']
  have known {m : TypeId} (part : m ∈ (w.kind x).parts) :=
    (one.wellFormed wellFormed).part last part
  have known' {m : TypeId} (part : m ∈ (w'.kind y).parts) :=
    (two.wellFormed wellFormed).part last' part
  refine ⟨entry.frame, entry.binders, ?_⟩
  rw [List.map_congr_left fun m part => one.label m (known part),
    List.map_congr_left fun m part => two.label m (known' part)]
  exact entry.parts

omit left in
/-- Where an instance of the base is concerned, only that instance has its label. -/
theorem Labelled.eq_of_remembered (found : base.resolved.find? key = some body)
    (origin : key'.1 = key.1) (arguments : key'.2.map b = key.2.map a)
    (left : Labelled base u a) : key' = key := by
  obtain ⟨-, known, -⟩ := wellFormed.remembered key body found
  refine Prod.ext origin ?_
  rw [List.map_congr_left fun m member => left.label_base (known m member)] at arguments
  rw [← List.forall₂_eq_eq_eq]
  exact (TypeKind.forall₂_of_map_eq arguments).flip.imp fun m m' here => right.eq_of_entry here

/-- What is remembered for instances with one label has one label. -/
theorem Labelled.bodies_correspond (found : u.resolved.find? key = some body)
    (found' : v.resolved.find? key' = some body') (origin : key'.1 = key.1)
    (arguments : key'.2.map b = key.2.map a) : b body' = a body := by
  rcases left.memory wellFormed found with inBase | ⟨g, before, s, w, one⟩
  · obtain rfl := right.eq_of_remembered wellFormed inBase origin arguments left
    obtain rfl := Option.some.inj (found'.symm.trans (right.remembers inBase))
    have inside := (wellFormed.remembered _ _ inBase).2.2
    rw [left.label_base inside, right.label_base inside]
  rcases right.memory wellFormed found' with inBase | ⟨g', before', s', w', two⟩
  · obtain rfl := left.eq_of_remembered wellFormed inBase origin.symm arguments.symm right
    exact nomatch one.unmade_base.symm.trans inBase
  have named : key'.2.map before' = key.2.map before := by
    have old := List.map_congr_left fun m member =>
      (one.label m (one.inside_of_argument member)).trans
        (Label.beyond_before (one.arguments m member))
    have old' := List.map_congr_left fun m member =>
      (two.label m (two.inside_of_argument member)).trans
        (Label.beyond_before (two.arguments m member))
    rw [← old, ← old', arguments]
  rw [one.label body one.inside, two.label body' two.inside]
  exact (one.abreast wellFormed two origin named).2

/-- Nothing is remembered on one side while there is nothing to make a body from on the other. -/
theorem Labelled.not_remembered_of_pending {g : GenericType}
    (generic : base.kind key.1 = .generic g)
    (pending : base.kind g.body = .pending) (unmade : u.resolved.find? key = none)
    (origin : key'.1 = key.1) (arguments : key'.2.map b = key.2.map a) :
    v.resolved.find? key' = none := by
  refine Option.eq_none_iff_forall_ne_some.mpr fun body found => ?_
  rcases right.memory wellFormed found with inBase | ⟨g', before, s, w, made⟩
  · obtain rfl := left.eq_of_remembered wellFormed inBase origin.symm arguments.symm right
    exact nomatch unmade.symm.trans (left.remembers inBase)
  · obtain rfl := TypeKind.generic.inj (generic.symm.trans (origin ▸ made.origin))
    exact made.built pending

end Agreement

section Resolving
variable {base u u' v v' : TypeTable} {a a' b b' : TypeId → Label} {x y s t : TypeId}

namespace Labelled

/-- The labels that the one table has, the other one has as well. -/
def Grows (base u u' : TypeTable) : Prop :=
  ∀ label, Labelled base u label →
    ∃ label', Labelled base u' label' ∧ Labelled.Extends u u' label label'

theorem grows_growth (base : TypeTable) : Growth (Grows base) where
  refl u label labelled := ⟨label, labelled, .refl u, fun _ _ => rfl⟩
  trans one two label labelled := by
    obtain ⟨label', labelled', extends'⟩ := one label labelled
    obtain ⟨label'', labelled'', extends''⟩ := two label' labelled'
    exact ⟨label'', labelled'', extends'.table.trans extends''.table, fun id inside =>
      (extends''.label id (extends'.table.inside inside)).trans (extends'.label id inside)⟩

/-- Declarations are entries of the base. -/
theorem generic_base (labelled : Labelled base u a) (wellFormed : base.WellFormed) {g : GenericType}
    (generic : u.kind x = .generic g) : base.kind x = .generic g :=
  (labelled.develops wellFormed).toDerives.kind_of_not_derived generic (by simp) rfl

theorem body_base (labelled : Labelled base u a) (wellFormed : base.WellFormed) {g : GenericType}
    (generic : base.kind x = .generic g) : u.kind g.body = base.kind g.body :=
  labelled.extended.kind _ (wellFormed.mentions _ (lt_size_of_kind generic (by simp)) g.body
    (by simp [generic, TypeKind.mentions]))

theorem grows_resolve (wellFormed : base.WellFormed) (u : TypeTable) (x : TypeId) :
    Grows base u ((resolve x).run u).2 := by
  intro label labelled
  have resolves := u.resolves x
  unfold Yields at resolves
  generalize (resolve x).run u = outcome at resolves ⊢
  obtain ⟨body, u'⟩ := outcome
  have unchanged := (grows_growth base).refl u label labelled
  dsimp only at resolves ⊢
  cases resolves with
  | plain | remembered | pending | stray => exact unchanged
  | made entry unmade origin built run =>
      have generic := labelled.generic_base wellFormed origin
      rw [labelled.body_base wellFormed generic] at built
      have arguments := (labelled.wellFormed wellFormed).argument entry
      have appended := (run_substitute_appends run).1.extended
      exact ⟨_, labelled.remember generic arguments built unmade run,
        ⟨appended.size, appended.kind⟩, fun _ => Label.beyond_before⟩

/-- The body of an instance is remembered, or its declaration is not built yet. -/
theorem resolve_cases (labelled : Labelled base u a) (wellFormed : base.WellFormed)
    {i : InstantiatedType} (entry : u.kind x = .instantiated i)
    (run : (resolve x).run u = (s, u')) :
    u'.resolved.find? (instantiationKey i) = some s ∨
      ∃ g, base.kind i.origin = .generic g ∧ base.kind g.body = .pending ∧ s = g.body ∧
        u'.resolved.find? (instantiationKey i) = none := by
  have resolves := u.resolves x
  rw [Yields, run] at resolves
  dsimp only at resolves
  cases resolves with
  | plain plain => exact absurd (congrArg TypeKind.flag entry) plain
  | remembered entry' found =>
      obtain rfl := TypeKind.instantiated.inj (entry'.symm.trans entry)
      exact .inl found
  | pending entry' unmade origin pending =>
      obtain rfl := TypeKind.instantiated.inj (entry'.symm.trans entry)
      have generic := labelled.generic_base wellFormed origin
      rw [labelled.body_base wellFormed generic] at pending
      exact .inr ⟨_, generic, pending, rfl, unmade⟩
  | made entry' =>
      obtain rfl := TypeKind.instantiated.inj (entry'.symm.trans entry)
      refine .inl ?_
      rw [TypeTable.remember, Dictionary.find?_insert, if_pos rfl]
  | stray entry' unmade stray =>
      obtain ⟨g, generic⟩ :=
        (labelled.wellFormed wellFormed).origin x (lt_size_of_kind entry' (by simp)) _ entry'
      exact absurd generic (stray g)

/-- Types with one label resolve to types with one label. -/
theorem resolve_corresponds (wellFormed : base.WellFormed) (left : Labelled base u a)
    (right : Labelled base v b) (inside : x < u.size) (inside' : y < v.size) (same : b y = a x)
    (left' : Labelled base u' a') (right' : Labelled base v' b')
    (grown : Labelled.Extends u u' a a') (grown' : Labelled.Extends v v' b b')
    (run : (resolve x).run u = (s, u')) (run' : (resolve y).run v = (t, v')) : b' t = a' s := by
  obtain ⟨frame, -, parts⟩ := Labelled.kinds_correspond wellFormed left right inside inside' same
  by_cases plain : u.flag x = .instantiated
  case neg =>
    have flag : v.flag y = u.flag x := TypeKind.flag_eq_of_frame frame
    rw [run_resolve_plain plain] at run
    rw [run_resolve_plain (flag ▸ plain)] at run'
    obtain ⟨rfl, rfl⟩ := Prod.mk.inj run
    obtain ⟨rfl, rfl⟩ := Prod.mk.inj run'
    rw [grown.label _ inside, grown'.label _ inside', same]
  obtain ⟨i, entry⟩ : ∃ i, u.kind x = .instantiated i := by
    cases entry : u.kind x with
    | instantiated i => exact ⟨i, rfl⟩
    | _ => simp [flag, entry, TypeKind.flag] at plain
  rw [entry] at frame parts
  obtain ⟨j, entry', origin, -⟩ := TypeKind.copied_of_frame frame
  rw [entry'] at parts
  have known := (left.wellFormed wellFormed).argument entry
  have known' := (right.wellFormed wellFormed).argument entry'
  have arguments : (instantiationKey j).2.map b' = (instantiationKey i).2.map a' := by
    have here := List.map_congr_left fun m member => grown.label m (known m member)
    have here' := List.map_congr_left fun m member => grown'.label m (known' m member)
    exact here'.trans (Eq.trans parts here.symm)
  rcases left.resolve_cases wellFormed entry run with found | ⟨g, generic, pending, rfl, unmade⟩
  · rcases right.resolve_cases wellFormed entry' run' with found' | ⟨g, generic, pending, -, unmade⟩
    · exact Labelled.bodies_correspond wellFormed left' right' found found' origin arguments
    · have nothing : u'.resolved.find? (instantiationKey i) = none :=
        Labelled.not_remembered_of_pending wellFormed right' left' generic pending unmade
          origin.symm arguments.symm
      cases nothing.symm.trans found
  · have nothing : v'.resolved.find? (instantiationKey j) = none :=
      Labelled.not_remembered_of_pending wellFormed left' right' generic pending unmade origin
        arguments
    rcases right.resolve_cases wellFormed entry' run' with found' | ⟨g', generic', -, rfl, -⟩
    · cases nothing.symm.trans found'
    · rw [origin] at generic'
      obtain rfl := TypeKind.generic.inj (generic.symm.trans generic')
      have inside : g.body < base.size :=
        wellFormed.mentions _ (lt_size_of_kind generic (by simp)) g.body
          (by simp [generic, TypeKind.mentions])
      rw [left'.label_base inside, right'.label_base inside]

end Labelled

end Resolving

end StructuralTyping
