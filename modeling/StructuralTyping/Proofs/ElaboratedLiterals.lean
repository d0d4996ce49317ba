import StructuralTyping.Proofs.AssignmentReports
import StructuralTyping.Proofs.MismatchEvidence
import StructuralTyping.Proofs.ParallelComparisons
import StructuralTyping.Proofs.TableIntegrity

/-! Where a literal is at fault. When a literal is refused for what it is, and not for excess
properties, its properties are asked about once more, one by one and in other circumstances:
nothing is assumed, no instance is expanded, and the first question has resolved types. What
was refused in the midst of a comparison is refused by itself, and stays so, if no generic
function is met. Hence one of the properties is to blame, and it is found again. -/
namespace StructuralTyping

open CheckM
open TypeTable
open TableOperation (makeFunction makeGeneric makeInstantiated makeObject makeTypeParameter)

namespace Assignability

section Refusal
variable {grown : TypeTable → TypeTable → Prop} {P : TypeId → Prop} {strict : Bool}
  {t u : TypeTable} {source target : TypeId}

/-- From this table on, no question about the two types is answered with yes. -/
def Refused (grown : TypeTable → TypeTable → Prop) (strict : Bool) (t : TypeTable)
    (source target : TypeId) : Prop :=
  ∀ u fuel σ, grown t u →
    (relatedWithin strict fuel source target).run (.ofTable u) ≠ some (.ok (), σ)

theorem Refused.later (refused : Refused grown strict t source target) (growth : Growth grown)
    (later : grown t u) : Refused grown strict u source target :=
  fun v fuel σ further => refused v fuel σ (growth.trans later further)

theorem Refused.verdict (refused : Refused grown strict t source target)
    (tracks : Tracks P grown) (sound : t.Sound true P) (left : t.Held P source)
    (right : t.Held P target) {fresh : Bool} {verdict : Verdict} {after : TypeTable}
    (answers : Answers strict t source target fresh verdict after) : verdict ≠ .ok () := by
  rintro rfl
  obtain ⟨fuel, σ, done, -⟩ := answers
  obtain ⟨excess, between, grows, run⟩ := run_assignableWithin t source target fresh
  rw [run] at done
  split at done
  · exact refused between fuel σ (grows tracks sound left right) done
  · cases done

end Refusal

section Culprit
variable {base : TypeTable} {P : TypeId → Prop} {strict : Bool} {fuel fuel' : Nat}

theorem isWildcard_of_object {t : TypeTable} {id : TypeId} {o : ObjectType}
    (entry : t.kind id = .object o) : t.isWildcard id = false := by
  rw [isWildcard, flag, entry]
  rfl

theorem Traced.develops {base u : TypeTable} {P : TypeId → Prop} (traced : Traced base P base u)
    (wellFormed : base.WellFormed) : base.Develops u :=
  have ⟨_, labelled, _⟩ := traced.2 .entry .start
  labelled.develops wellFormed

/-- What is resolved to an object stays so. -/
theorem object_traced {base u : TypeTable} {P : TypeId → Prop} {id body : TypeId} {o : ObjectType}
    (sound : base.Sound true P) (held : base.Held P id)
    (resolved : Equality.body? base id = some body) (entry : base.kind body = .object o)
    (later : Traced base P base u) :
    Equality.body? u id = some body ∧ u.kind body = .object o ∧ base.Held P body := by
  have tracks := tracks_traced (P := P) sound.toWellFormed
  obtain ⟨resolved', same⟩ := body?_develops (later.develops sound.toWellFormed) resolved
    (isWildcard_of_object entry)
  obtain ⟨-, heldBody⟩ := held_of_resolve tracks sound held (run_resolve_of_body? resolved)
  exact ⟨resolved', same.trans entry, heldBody⟩

/-- A property that is not lacking fits if its types are related. -/
theorem propertyRule_of_related {R : TypeId → TypeId → Prop} {s : ObjectType}
    {expected : String × Property} (present : s.lacks expected = false)
    (related : ∀ given, s.property? expected.1 = some given → R given.type expected.2.type) :
    PropertyRule R s expected := by
  rw [ObjectType.lacks, Bool.and_eq_false_iff, Bool.not_eq_false'] at present
  rw [PropertyRule]
  cases found : s.property? expected.1 with
  | none => simpa [found] using present
  | some given =>
      exact ⟨fun optional => by simpa [found, optional] using present, related given found⟩

/-- These are entries of the base, and at some time a question about them is answered with
yes. -/
def Admitted (base : TypeTable) (P : TypeId → Prop) (strict : Bool) (p q : TypeId) : Prop :=
  p < base.size ∧ q < base.size ∧ ¬ Refused (Traced base P) strict base p q

/-- A pair that is admitted by itself is not refused in the midst of a comparison. -/
theorem decided_admitted {a b : TypeId → Label} {σ : Session} {p q : TypeId}
    (wellFormed : base.WellFormed) (tandem : Tandem base P a b (.ofTable base) σ)
    (hp : σ.table.Held P p) (hq : σ.table.Held P q) :
    Decided (Traced base P) (fun _ => completed (.ok ()) (relatedWithin strict fuel')) σ p q
      True (Admitted base P strict p q) := by
  refine decided_of_answers (tracks_traced wellFormed) tandem.sound' hp hq
    (fun τ verdict τ' follows done => ?_) trivial
  cases verdict with
  | ok => trivial
  | error =>
      rintro ⟨inside, inside', admitted⟩
      refine admitted fun u fuel υ later accepted => ?_
      have begun : (Session.ofTable base).Follows (Traced base P) (.ofTable u) := .of_table later
      obtain ⟨a', b', now, extends', extends''⟩ := tandem.follows begun follows
      have alike {id : TypeId} (inside : id < base.size) (held : σ.table.Held P id) :
          Alike P a' b' u τ.table id id :=
        have here : Alike P a b base σ.table id id := ⟨⟨inside, held.2⟩, held,
          (tandem.right.label_base inside).trans (tandem.left.label_base inside).symm⟩
        here.grown extends' extends''
      cases carries wellFormed id fuel now (alike inside hp) (alike inside' hq) accepted done

/-- When an object is not assignable to another one, a required property is lacking, or the
types of one property are refused from now on. -/
theorem exists_culprit {source target s t : TypeId} {given expected : ObjectType}
    {mismatch : Mismatch} {τ : Session} (sound : base.Sound true P) (left : base.Held P source)
    (right : base.Held P target) (sourceBody : Equality.body? base source = some s)
    (targetBody : Equality.body? base target = some t) (isGiven : base.kind s = .object given)
    (isExpected : base.kind t = .object expected)
    (done : (relatedWithin strict fuel source target).run (.ofTable base) =
      some (.error mismatch, τ)) :
    ∃ property ∈ expected.properties.pairs, given.lacks property = true ∨
      ∃ p, given.property? property.1 = some p ∧
        Refused (Traced base P) strict base p.type property.2.type := by
  have wellFormed := sound.toWellFormed
  have tracks := tracks_traced (P := P) wellFormed
  cases fuel with
  | zero => cases done
  | succ fuel =>
  rcases relatedWithin_cases done with ⟨-, yes, -⟩ | ⟨-, found, between, one, two⟩
  · cases yes
  rcases two with ⟨-, yes, -⟩ | ⟨-, bodies⟩
  · cases yes
  have follows := instancesRelated_follows tracks sound left right one
  obtain ⟨sourceBody', sourceKind, heldGiven⟩ :=
    object_traced sound left sourceBody isGiven follows.table
  obtain ⟨targetBody', targetKind, heldExpected⟩ :=
    object_traced sound right targetBody isExpected follows.table
  have start := Tandem.self (σ := .ofTable base) sound (by simp [Session.ofTable])
  obtain ⟨a, b, tandem, -, -⟩ := start.follows (.refl tracks.toGrowth _) follows
  have inner := tandem.deeper s t (s != source || t != target)
  have extended := follows.table.1.extended
  have judged := bodiesRelated_judged wellFormed (run_resolve_of_body? sourceBody')
    (run_resolve_of_body? targetBody') (tracks.refl _) tandem.sound' (heldGiven.grown extended)
    (heldExpected.grown extended) (right.grown extended)
    (fun p q hp hq => decided_admitted wellFormed inner hp hq) bodies
  have unruly : ¬ ObjectRule (Admitted base P strict) given expected.properties.pairs := by
    refine fun rule => judged (.inr (.inr (.inr (.inr ?_))))
    rw [StructureRule, sourceKind, targetKind]
    exact rule
  by_contra blameless
  refine unruly fun property listed => propertyRule_of_related ?_ fun p found => ?_
  · exact Bool.eq_false_iff.mpr fun lacks => blameless ⟨property, listed, .inl lacks⟩
  · refine ⟨wellFormed.property isGiven p ?_, wellFormed.property isExpected _ ?_,
      fun refused => blameless ⟨property, listed, .inr ⟨p, found, refused⟩⟩⟩
    · exact List.mem_map_of_mem (Dictionary.mem_of_find? found)
    · exact List.mem_map_of_mem listed

end Culprit

end Assignability

open Assignability

/-- The checker goes on with a grown table and the same options. -/
structure Checker.Proceeds (grown : TypeTable → TypeTable → Prop) (c c' : Checker) : Prop where
  table : grown c.table c'.table
  options : c'.options = c.options

/-- Something near was reported between the two checkers. -/
def Checker.Reports (near : Location → Prop) (c c' : Checker) : Prop :=
  ∃ reports, c'.diagnostics.toList = c.diagnostics.toList ++ reports ∧ ∃ d ∈ reports, d.Near near

namespace Checker

variable {near near' : Location → Prop} {c c' c'' : Checker} {clean : Bool}
  {new : List Diagnostic}

theorem Told.reports (told : c.Told near c' false new) : c.Reports near c' := by
  have some : new ≠ [] := fun none => Bool.false_ne_true (told.clean.mpr none)
  obtain ⟨d, member⟩ := List.exists_mem_of_ne_nil new some
  exact ⟨new, told.added, d, member, told.near d member⟩

theorem Reports.append (one : c.Reports near c') (two : c'.Told near' c'' clean new) :
    c.Reports near c'' := by
  obtain ⟨before, added, d, member, here⟩ := one
  refine ⟨before ++ new, ?_, d, List.mem_append_left _ member, here⟩
  rw [two.added, added, List.append_assoc]

theorem Told.followed (one : c.Told near' c' clean new) (two : c'.Reports near c'') :
    c.Reports near c'' := by
  obtain ⟨after, added, d, member, here⟩ := two
  refine ⟨new ++ after, ?_, d, List.mem_append_right _ member, here⟩
  rw [added, one.added, List.append_assoc]

end Checker

section Examination
variable {grown : TypeTable → TypeTable → Prop} {P : TypeId → Prop}

/-- The types of all properties belong to the set. -/
def TypeTable.HeldObject (P : TypeId → Prop) (t : TypeTable) (o : ObjectType) : Prop :=
  ∀ p ∈ o.properties.values, t.Held P p.type

namespace Checker.Proceeds

variable {c c' c'' : Checker}

theorem trans (growth : Growth grown) (one : c.Proceeds grown c') (two : c'.Proceeds grown c'') :
    c.Proceeds grown c'' :=
  ⟨growth.trans one.table two.table, two.options.trans one.options⟩

theorem refused (one : c.Proceeds grown c') (growth : Growth grown) {source target : TypeId}
    (refused : Refused grown c.options.strictFunctionTypes c.table source target) :
    Refused grown c'.options.strictFunctionTypes c'.table source target :=
  one.options ▸ refused.later growth one.table

end Checker.Proceeds

/-- The types that the two objects have for the property are refused from now on. -/
def PropertyAssignment.AtFault (grown : TypeTable → TypeTable → Prop) (c : Checker)
    (given expected : ObjectType) (p : PropertyAssignment) : Prop :=
  ∃ a b, given.property? p.name = some a ∧ expected.property? p.name = some b ∧
    Refused grown c.options.strictFunctionTypes c.table a.type b.type

theorem PropertyAssignment.AtFault.later {c c' : Checker} {given expected : ObjectType}
    {p : PropertyAssignment} (fault : p.AtFault grown c given expected) (growth : Growth grown)
    (proceeds : c.Proceeds grown c') : p.AtFault grown c' given expected :=
  have ⟨a, b, isGiven, isExpected, refused⟩ := fault
  ⟨a, b, isGiven, isExpected, proceeds.refused growth refused⟩

/-- What is refused from now on is a mismatch when it is asked about now. -/
theorem PropertyAssignment.AtFault.mismatched {c : Checker} {given expected : ObjectType}
    {p : PropertyAssignment} (fault : p.AtFault grown c given expected) (tracks : Tracks P grown)
    (sound : c.table.Sound true P) (left : c.table.HeldObject P given)
    (right : c.table.HeldObject P expected) :
    ∃ a b, given.property? p.name = some a ∧ expected.property? p.name = some b ∧
      ∃ m, ((assignable c.options.strictFunctionTypes a.type b.type false).run c.table).1 =
        .error m := by
  obtain ⟨a, b, isGiven, isExpected, refused⟩ := fault
  have heldGiven := left a (List.mem_map_of_mem (Dictionary.mem_of_find? isGiven))
  have heldExpected := right b (List.mem_map_of_mem (Dictionary.mem_of_find? isExpected))
  obtain ⟨verdict, after, answers, -⟩ := exists_answer tracks
    c.options.strictFunctionTypes false sound heldGiven heldExpected
  refine ⟨a, b, isGiven, isExpected, ?_⟩
  rw [answers.run_assignable]
  cases verdict with
  | ok => exact absurd rfl (refused.verdict tracks sound heldGiven heldExpected answers)
  | error m => exact ⟨m, rfl⟩

/-- The step completes, and its answer is no if the types are refused from now on. -/
def Examines (grown : TypeTable → TypeTable → Prop) (c : Checker) (source target : TypeId)
    (m : CheckM Bool) : Prop :=
  CompletesFrom c m fun clean c' => c.Proceeds grown c' ∧
    (Refused grown c.options.strictFunctionTypes c.table source target → clean = false)

variable (tracks : Tracks P grown)

include tracks

theorem proceeds_assignable {c : Checker} {source target : TypeId}
    (sound : c.table.Sound true P) (left : c.table.Held P source) (right : c.table.Held P target)
    (fresh : Bool) :
    CompletesFrom c (CheckM.assignable source target fresh) fun verdict c' =>
      c.Proceeds grown c' ∧
        (Refused grown c.options.strictFunctionTypes c.table source target → verdict ≠ .ok ()) := by
  obtain ⟨verdict, after, answers, later⟩ :=
    exists_answer tracks c.options.strictFunctionTypes fresh sound left right
  exact ⟨verdict, _, Checker.step_asked answers.run_assignable, ⟨later, rfl⟩,
    fun refused => refused.verdict tracks sound left right answers⟩

theorem proceeds_resolve {c : Checker} {id : TypeId} (sound : c.table.Sound true P)
    (held : c.table.Held P id) :
    CompletesFrom c (CheckM.resolve id) fun s c' =>
      c.Proceeds grown c' ∧ c'.table.Held P s :=
  have ⟨later, held⟩ := held_of_resolve tracks sound held rfl
  ⟨_, _, c.step_onTable _, ⟨later, rfl⟩, held⟩

theorem proceeds_reportMismatch (c : Checker) (mismatch : Mismatch) (location : Location)
    (head : Message) :
    CompletesFrom c (reportMismatch mismatch location head) fun _ c' => c.Proceeds grown c' :=
  (completes_reportMismatch c mismatch location head).weaken fun _ _ same =>
    same ▸ ⟨tracks.refl _, rfl⟩

theorem proceeds_reportMissing (c : Checker) (location : Location) (source target : TypeId)
    (s : ObjectType) (expected : List (String × Property)) :
    CompletesFrom c (reportMissing location source target s expected) fun _ c' =>
      c.Proceeds grown c' :=
  ⟨_, _, step_reportMissing c location source target s expected, tracks.refl _, rfl⟩

theorem proceeds_elaborateProperty {c : Checker} {given expected : ObjectType}
    (sound : c.table.Sound true P) (left : c.table.HeldObject P given)
    (right : c.table.HeldObject P expected) {p : PropertyAssignment}
    (nested : ∀ literal, p.initializer = .object literal → ∀ source target head,
      c.table.Held P source → c.table.Held P target →
        Examines grown c source target (checkLiteralAssignment source target head literal))
    (nestedOnly : Bool) :
    CompletesFrom c (elaborateProperty nestedOnly given expected p) fun clean c' =>
      c.Proceeds grown c' ∧ (nestedOnly = false → p.AtFault grown c given expected →
        clean = false) := by
  have unchanged : c.Proceeds grown c := ⟨tracks.refl _, rfl⟩
  rw [elaborateProperty]
  split
  · next a b isGiven isExpected =>
      have heldGiven := left a (List.mem_map_of_mem (Dictionary.mem_of_find? isGiven))
      have heldExpected := right b (List.mem_map_of_mem (Dictionary.mem_of_find? isExpected))
      have only (fault : p.AtFault grown c given expected) :
          Refused grown c.options.strictFunctionTypes c.table a.type b.type := by
        obtain ⟨a', b', isGiven', isExpected', refused⟩ := fault
        obtain rfl := Option.some.inj (isGiven.symm.trans isGiven')
        obtain rfl := Option.some.inj (isExpected.symm.trans isExpected')
        exact refused
      split
      · next literal isLiteral =>
          refine (nested literal isLiteral _ _ .notAssignable heldGiven heldExpected).weaken ?_
          rintro clean c' ⟨later, refusal⟩
          exact ⟨later, fun _ fault => refusal (only fault)⟩
      · cases nestedOnly with
        | true => exact .pure ⟨unchanged, fun all => absurd all.symm Bool.false_ne_true⟩
        | false =>
            refine (proceeds_assignable tracks sound heldGiven heldExpected false).bind ?_
            rintro verdict c' ⟨later, refusal⟩
            cases verdict with
            | ok => exact .pure ⟨later, fun _ fault => absurd rfl (refusal (only fault))⟩
            | error mismatch =>
                refine (proceeds_reportMismatch tracks c' _ _ _).bind fun _ _ reported => ?_
                exact .pure ⟨later.trans tracks.toGrowth reported, fun _ _ => rfl⟩
  · next apart =>
      refine .pure ⟨unchanged, fun _ fault => ?_⟩
      obtain ⟨a, b, isGiven, isExpected, -⟩ := fault
      exact (apart a b isGiven isExpected).elim

theorem proceeds_elaborateWith {c : Checker} {walk : ObjectType → ObjectType → CheckM Bool}
    {location : Location} {source target : TypeId} (sound : c.table.Sound true P)
    (left : c.table.Held P source) (right : c.table.Held P target) (nestedOnly : Bool)
    (each : ∀ c' given expected, c'.table.Sound true P → c'.table.HeldObject P given →
      c'.table.HeldObject P expected →
        CompletesFrom c' (walk given expected) fun _ c'' => c'.Proceeds grown c'') :
    CompletesFrom c (elaborateWith walk location source target nestedOnly) fun _ c' =>
      c.Proceeds grown c' := by
  have growth := tracks.toGrowth
  refine (proceeds_resolve tracks sound left).bind fun s c₁ ⟨first, heldGiven⟩ => ?_
  have grown₁ := tracks.toGrown first.table
  refine (proceeds_resolve tracks (grown₁.sound sound) (right.grown grown₁.extended)).bind
    fun t c₂ ⟨second, heldExpected⟩ => ?_
  have grown₂ := tracks.toGrown second.table
  have sound₂ := grown₂.sound (grown₁.sound sound)
  have reached := first.trans growth second
  refine .table_bind ?_
  split
  · next given expected isGiven isExpected =>
      have heldObject {id : TypeId} {o : ObjectType} (held : c₂.table.Held P id)
          (entry : c₂.table.asObject? id = some o) : c₂.table.HeldObject P o := fun p member =>
        sound₂.held held (by
          rw [kind_of_asObject? entry]
          exact List.mem_map_of_mem member)
      refine (each c₂ given expected sound₂ (heldObject (heldGiven.grown grown₂.extended) isGiven)
        (heldObject heldExpected isExpected)).bind fun clean c₃ third => ?_
      have reached := reached.trans growth third
      refine .ite (.pure reached) ?_
      refine (proceeds_reportMissing tracks c₃ _ _ _ _ _).bind fun complete c₄ last => ?_
      exact .pure (reached.trans growth last)
  · exact .pure reached

mutual

theorem examines_checkLiteralAssignment :
    ∀ (literal : ObjectLiteral) (c : Checker) (source target : TypeId) (head : Message),
      c.table.Sound true P → c.table.Held P source → c.table.Held P target →
        Examines grown c source target (checkLiteralAssignment source target head literal)
  | ⟨properties, location⟩, c, source, target, head, sound, left, right => by
      have growth := tracks.toGrowth
      rw [checkLiteralAssignment]
      refine (proceeds_assignable tracks sound left right true).bind ?_
      rintro verdict c₁ ⟨first, refusal⟩
      have grown₁ := tracks.toGrown first.table
      have walks (nestedOnly : Bool) : CompletesFrom c₁ (elaborateWith (fun s t =>
          elaborateProperties nestedOnly s t properties) location source target nestedOnly)
          fun _ c' => c₁.Proceeds grown c' := by
        refine proceeds_elaborateWith tracks (grown₁.sound sound) (left.grown grown₁.extended)
          (right.grown grown₁.extended) nestedOnly fun c' given expected sound' left' right' => ?_
        exact (examines_elaborateProperties properties c' given expected nestedOnly sound' left'
          right').weaken fun _ _ ⟨later, _⟩ => later
      split
      · refine (walks true).weaken fun clean c₂ second => ⟨first.trans growth second, ?_⟩
        exact fun refused => absurd rfl (refusal refused)
      · refine (proceeds_reportMismatch tracks c₁ _ _ _).bind fun _ c₂ second => ?_
        exact .pure ⟨first.trans growth second, fun _ => rfl⟩
      · refine (walks false).bind fun clean c₂ second => ?_
        have reached := first.trans growth second
        cases clean with
        | true =>
            refine (proceeds_reportMismatch tracks c₂ _ _ _).bind fun _ c₃ third => ?_
            exact .pure ⟨reached.trans growth third, fun _ => rfl⟩
        | false => exact .pure ⟨reached, fun _ => rfl⟩

theorem examines_elaborateProperties :
    ∀ (properties : List PropertyAssignment) (c : Checker) (given expected : ObjectType)
      (nestedOnly : Bool), c.table.Sound true P → c.table.HeldObject P given →
        c.table.HeldObject P expected →
          CompletesFrom c (elaborateProperties nestedOnly given expected properties) fun _ c' =>
            c.Proceeds grown c' ∧ (nestedOnly = false → ∀ p ∈ properties,
              p.AtFault grown c given expected → c.Reports (· ∈ p.locations) c')
  | [], c, given, expected, nestedOnly, sound, left, right =>
      .pure ⟨⟨tracks.refl _, rfl⟩, fun _ => List.forall_mem_nil _⟩
  | ⟨name, initializer, location⟩ :: rest, c, given, expected, nestedOnly, sound, left, right => by
      have growth := tracks.toGrowth
      rw [elaborateProperties_cons]
      refine ((proceeds_elaborateProperty tracks sound left right ?_ nestedOnly).and
        (tells_property nestedOnly given expected _ c)).bind ?_
      · rintro literal rfl source target head left right
        exact examines_checkLiteralAssignment literal c source target head sound left right
      rintro clean c₁ ⟨⟨first, faulty⟩, new, told⟩
      have grown₁ := tracks.toGrown first.table
      have others : Tells (fun _ => True) (elaborateProperties nestedOnly given expected rest) :=
        tells_elaborateProperties nestedOnly given expected rest fun _ _ => trivial
      refine ((examines_elaborateProperties rest c₁ given expected nestedOnly (grown₁.sound sound)
        (fun q member => (left q member).grown grown₁.extended)
        (fun q member => (right q member).grown grown₁.extended)).and (others c₁)).bind ?_
      rintro clean' c₂ ⟨⟨second, later⟩, new', told'⟩
      refine .pure ⟨first.trans growth second, fun all => List.forall_mem_cons.mpr ⟨?_, ?_⟩⟩
      · intro fault
        obtain rfl := faulty all fault
        exact told.reports.append told'
      · exact fun q member fault => told.followed (later all q member (fault.later growth first))

end

end Examination

section Elaboration
variable {c c' : Checker} {source target : TypeId} {given expected : ObjectType}

/-- Between resolved objects, properties are examined, and then missing ones are looked for. -/
theorem step_elaborateWith {walk : ObjectType → ObjectType → CheckM Bool} {location : Location}
    {s t : TypeId} (sourceBody : Equality.body? c.table source = some s)
    (targetBody : Equality.body? c.table target = some t) (isGiven : c.table.kind s = .object given)
    (isExpected : c.table.kind t = .object expected) :
    c.step (elaborateWith walk location source target false) = c.step (do
      let clean ← walk given expected
      let complete ← reportMissing location source target given expected.properties.pairs
      return clean && complete) := by
  have resolved {id body : TypeId} (made : Equality.body? c.table id = some body) :
      c.step (CheckM.resolve id) = (.ok body, c) := by
    rw [CheckM.resolve, Checker.step_onTable, run_resolve_of_body? made]
  have source' : c.table.asObject? s = some given := by rw [asObject?, isGiven]
  have target' : c.table.asObject? t = some expected := by rw [asObject?, isExpected]
  rw [elaborateWith, Checker.step_bind, resolved sourceBody]
  dsimp only
  rw [Checker.step_bind, resolved targetBody]
  dsimp only
  rw [Checker.step_bind, Checker.step_table]
  dsimp only
  rw [source', target']
  rfl

/-- A literal that is refused otherwise than for excess properties is reported as a whole only
if elaboration reports nothing. -/
theorem step_refusedLiteral {literal : ObjectLiteral} {head : Message} {mismatch : Mismatch}
    {after : TypeTable} {clean : Bool}
    (ran : (assignable c.options.strictFunctionTypes source target true).run c.table =
      (.error mismatch, after))
    (other : ∀ names s t, mismatch ≠ .excessProperty names s t)
    (elaborated : { c with table := after }.step
      (elaborateWith (fun s t => elaborateProperties false s t literal.properties)
        literal.location source target false) = (.ok clean, c')) :
    c.step (checkLiteralAssignment source target head literal) = c'.step (do
      if clean then reportMismatch mismatch literal.location head
      return false) := by
  obtain ⟨properties, location⟩ := literal
  rw [checkLiteralAssignment, Checker.step_bind, Checker.step_asked ran]
  dsimp only
  split
  · next h => cases h
  · next names s t h => exact absurd (Except.error.inj h) (other names s t)
  · next h =>
      obtain rfl := Except.error.inj h
      rw [Checker.step_bind, elaborated]

/-- The two types stand for these objects, once they are resolved. -/
def TypeTable.StandFor (t : TypeTable) (source target : TypeId) (given expected : ObjectType) :
    Prop :=
  let one := (StructuralTyping.resolve source).run t
  let two := (StructuralTyping.resolve target).run one.2
  two.2.kind one.1 = .object given ∧ two.2.kind two.1 = .object expected

/-- The search for excess properties leaves both types resolved. -/
theorem TypeTable.StandFor.bodies {t : TypeTable} (intact : t.Intact)
    (left : source < t.size) (right : target < t.size)
    (objects : t.StandFor source target given expected) :
    let base := ((excessProperties source target).run t).2
    ∃ s s', Equality.body? base source = some s ∧ Equality.body? base target = some s' ∧
      base.kind s = .object given ∧ base.kind s' = .object expected := by
  intro base
  have since : Since t t := ⟨.refl t, .start intact.toClosed (intact.basic.inside (by decide))⟩
  obtain ⟨onward, sourceInside, sourceBody⟩ := yields_resolve_body intact.basic since left
  obtain ⟨further, -, targetBody⟩ :=
    yields_resolve_body intact.basic (onward.since since) (onward.inside right)
  have same : base = _ := excessProperties_table t source target
  obtain ⟨sourceKind, targetKind⟩ := objects
  rw [same]
  exact ⟨_, _, further.body sourceInside sourceBody (isWildcard_of_object sourceKind),
    targetBody (isWildcard_of_object targetKind), sourceKind, targetKind⟩

theorem checkProperties_names {types : FunctionTypes} {context : Option ObjectType}
    {properties : List PropertyAssignment} {seen : List String} {typed : List (String × Property)}
    (done : c.step (checkProperties types context seen properties) = (.ok typed, c')) :
    typed.map Prod.fst = properties.map PropertyAssignment.name := by
  induction properties generalizing c c' seen typed with
  | nil =>
      rw [checkProperties, Checker.step_pure] at done
      obtain ⟨⟨⟩, -⟩ := Prod.mk.inj done
      rfl
  | cons p rest ih =>
      obtain ⟨name, initializer, location⟩ := p
      rw [checkProperties] at done
      split at done
      · obtain ⟨_, _, failed, -⟩ := Checker.step_bind_ok done
        cases (Prod.mk.inj (failed.symm.trans (Checker.step_throw _ _))).1
      · obtain ⟨id, c₁, -, done⟩ := Checker.step_bind_ok done
        obtain ⟨others, c₂, checked, done⟩ := Checker.step_bind_ok done
        rw [Checker.step_pure] at done
        obtain ⟨⟨⟩, -⟩ := Prod.mk.inj done
        exact congrArg (name :: ·) (ih checked)

/-- The type of a literal has the properties that are written in it. -/
theorem checkExpression_written {types : FunctionTypes} {context : Option TypeId}
    {literal : ObjectLiteral} {id : TypeId}
    (done : c.step (checkExpression types context (.object literal)) = (.ok id, c')) :
    ∃ o, c'.table.kind id = .object o ∧
      o.properties.keys = literal.properties.map PropertyAssignment.name := by
  obtain ⟨properties, location⟩ := literal
  rw [checkExpression] at done
  obtain ⟨expected, c₁, -, done⟩ := Checker.step_bind_ok done
  obtain ⟨given, c₂, checked, done⟩ := Checker.step_bind_ok done
  rw [Checker.step_addType] at done
  obtain ⟨⟨⟩, rfl⟩ := Prod.mk.inj done
  exact ⟨_, kind_add_size _ _, checkProperties_names checked⟩

/-- A literal of the type `source` is checked against another type, and both are objects. -/
structure ObjectLiteral.Against (literal : ObjectLiteral) (t : TypeTable)
    (source target : TypeId) (given expected : ObjectType) : Prop where
  intact : t.Intact
  left : source < t.size
  right : target < t.size
  objects : t.StandFor source target given expected
  /-- The source has no properties but those that are written (`checkExpression_written`). -/
  written : ∀ name ∈ given.properties.keys, ∃ p ∈ literal.properties, p.name = name

/-- A property is at fault after the question and is among the new reports: as a required
property that is missing, or at the property or inside its value. -/
inductive ObjectLiteral.Faulted (literal : ObjectLiteral) (source target : TypeId)
    (given expected : ObjectType) (asked c' : Checker) (new : List Diagnostic) : Prop where
  | missing {name : String} {wanted : Property}
      (listed : (name, wanted) ∈ expected.properties.pairs) (required : wanted.optional = false)
      (lacking : ∀ p, given.property? name = some p → p.optional = true)
      (reported : c'.missingReport literal.location source target name ∈ new)
  | property {p : PropertyAssignment} {a b : Property} (written : p ∈ literal.properties)
      (isGiven : given.property? p.name = some a) (isExpected : expected.property? p.name = some b)
      (refused : ∃ m, ((assignable asked.options.strictFunctionTypes a.type b.type false).run
        asked.table).1 = .error m)
      (reported : ∃ d ∈ new, d.Near (· ∈ p.locations))

theorem ObjectLiteral.Faulted.some {literal : ObjectLiteral} {new : List Diagnostic}
    (faulted : literal.Faulted source target given expected c c' new) : new ≠ [] := by
  cases faulted with
  | missing _ _ _ reported => exact List.ne_nil_of_mem reported
  | property _ _ _ _ reported =>
      obtain ⟨d, member, -⟩ := reported
      exact List.ne_nil_of_mem member

/-- Among resolved objects a fault is found by going through the properties and then looking
for those that are missing. -/
theorem elaboration_faulted {grown : TypeTable → TypeTable → Prop} {P : TypeId → Prop}
    (tracks : Tracks P grown) {literal : ObjectLiteral} (source target : TypeId)
    (sound : c.table.Sound true P) (left : c.table.HeldObject P given)
    (right : c.table.HeldObject P expected)
    (culprit : (∃ property ∈ expected.properties.pairs, given.lacks property = true) ∨
      ∃ p ∈ literal.properties, p.AtFault grown c given expected) :
    ∃ c' new, c.step (do
        let clean ← elaborateProperties false given expected literal.properties
        let complete ← reportMissing literal.location source target given expected.properties.pairs
        return clean && complete) = (.ok false, c') ∧
      c'.diagnostics.toList = c.diagnostics.toList ++ new ∧
      literal.Faulted source target given expected c c' new := by
  have tells : Tells (fun _ => True)
      (elaborateProperties false given expected literal.properties) :=
    tells_elaborateProperties false given expected literal.properties fun _ _ => trivial
  obtain ⟨clean, c₁, walked, ⟨-, faults⟩, new, told⟩ :=
    (examines_elaborateProperties tracks literal.properties c given expected false sound left
      right).and (tells c)
  obtain ⟨c₂, searched, told'⟩ := told_reportMissing (fun _ => True) literal.location trivial c₁
    source target given expected.properties.pairs
  have all := told.append told'
  have faulted : literal.Faulted source target given expected c c₂ (new ++
      (expected.properties.pairs.filter given.lacks).map fun property =>
        c₂.missingReport literal.location source target property.1) := by
    rcases culprit with ⟨⟨name, wanted⟩, listed, lacks⟩ | ⟨p, written, fault⟩
    · obtain ⟨required, lacking⟩ := ObjectType.lacks_iff.mp lacks
      refine .missing listed required lacking (List.mem_append_right new ?_)
      exact List.mem_map.mpr ⟨(name, wanted), List.mem_filter.mpr ⟨listed, lacks⟩, rfl⟩
    · obtain ⟨before, added, d, member, here⟩ := faults rfl p written fault
      obtain rfl := List.append_cancel_left (told.added.symm.trans added)
      obtain ⟨a, b, isGiven, isExpected, refused⟩ := fault.mismatched tracks sound left right
      exact .property written isGiven isExpected refused ⟨d, List.mem_append_left _ member, here⟩
  have no := Bool.eq_false_iff.mpr fun yes => faulted.some (all.clean.mp yes)
  refine ⟨c₂, _, ?_, all.added, faulted⟩
  rw [Checker.step_bind, walked]
  dsimp only
  rw [Checker.step_bind, searched]
  dsimp only
  rw [no, Checker.step_pure]

/-- After a comparison of objects that ended with no, elaboration finds a fault. -/
theorem elaborated_refusal {asked : Checker} {literal : ObjectLiteral} {base : TypeTable}
    {P : TypeId → Prop} {fuel : Nat} {mismatch : Mismatch} {s t : TypeId} {σ : Session}
    (sound : base.Sound true P) (left : base.Held P source) (right : base.Held P target)
    (sourceBody : Equality.body? base source = some s)
    (targetBody : Equality.body? base target = some t) (isGiven : base.kind s = .object given)
    (isExpected : base.kind t = .object expected) (distinct : expected.properties.Distinct)
    (written : ∀ name ∈ given.properties.keys, ∃ p ∈ literal.properties, p.name = name)
    (done : (relatedWithin asked.options.strictFunctionTypes fuel source target).run
      (.ofTable base) = some (.error mismatch, σ)) (reached : asked.table = σ.table) :
    ∃ c' new, asked.step
        (elaborateWith (fun s t => elaborateProperties false s t literal.properties)
          literal.location source target false) = (.ok false, c') ∧
      c'.diagnostics.toList = asked.diagnostics.toList ++ new ∧
      literal.Faulted source target given expected asked c' new := by
  have tracks := tracks_traced (P := P) sound.toWellFormed
  have later : Traced base P base asked.table :=
    reached ▸ (follows_of_answer tracks sound left right done).table
  obtain ⟨sourceBody', sourceKind, heldGiven⟩ := object_traced sound left sourceBody isGiven later
  obtain ⟨targetBody', targetKind, heldExpected⟩ :=
    object_traced sound right targetBody isExpected later
  have sound' := later.1.sound sound
  have object {id : TypeId} {o : ObjectType} (held : base.Held P id)
      (entry : base.kind id = .object o) : asked.table.HeldObject P o := fun p member =>
    (sound.held held (by rw [entry]; exact List.mem_map_of_mem member)).grown later.1.extended
  have culprit : (∃ property ∈ expected.properties.pairs, given.lacks property = true) ∨
      ∃ p ∈ literal.properties, p.AtFault (Traced base P) asked given expected := by
    obtain ⟨⟨name, wanted⟩, listed, lacks | ⟨a, found, refused⟩⟩ := exists_culprit sound left right
      sourceBody targetBody isGiven isExpected done
    · exact .inl ⟨_, listed, lacks⟩
    · have key : name ∈ given.properties.keys :=
        List.mem_map_of_mem (Dictionary.mem_of_find? found)
      obtain ⟨p, member, rfl⟩ := written name key
      exact .inr ⟨p, member, a, wanted, found, Dictionary.findIn?_of_mem distinct listed,
        refused.later tracks.toGrowth later⟩
  rw [step_elaborateWith sourceBody' targetBody' sourceKind targetKind]
  exact elaboration_faulted tracks source target sound' (object heldGiven isGiven)
    (object heldExpected isExpected) culprit

/-- When a literal of an object type is refused for what it is, and no generic function can be
met, elaboration finds a property that is at fault. -/
theorem elaborated_literal {literal : ObjectLiteral} {mismatch : Mismatch} {after : TypeTable}
    (against : literal.Against c.table source target given expected)
    (plain : ∀ id, Reached c.table [source, target] id → ∀ f, c.table.kind id = .function f →
      f.isGeneric = false)
    (ran : (assignable c.options.strictFunctionTypes source target true).run c.table =
      (.error mismatch, after))
    (other : ∀ names s t, mismatch ≠ .excessProperty names s t) :
    ∃ c' new, { c with table := after }.step
        (elaborateWith (fun s t => elaborateProperties false s t literal.properties)
          literal.location source target false) = (.ok false, c') ∧
      c'.diagnostics.toList = c.diagnostics.toList ++ new ∧
      literal.Faulted source target given expected { c with table := after } c' new := by
  let P : TypeId → Prop := fun id => c.table.size ≤ id ∨ Reached c.table [source, target] id
  have sound : c.table.Sound true P := sound_reached against.intact.toWellFormed plain
  have left : c.table.Held P source := ⟨against.left, .inr (.root List.mem_cons_self)⟩
  have right : c.table.Held P target := ⟨against.right, .inr (.root (by simp))⟩
  obtain ⟨fuel, σ, done, rfl⟩ : Answers c.options.strictFunctionTypes c.table source target true
      (.error mismatch) after := by
    rcases run_assignable_cases c.options.strictFunctionTypes c.table source target true with
      ⟨verdict, u, answers, run⟩ | ⟨-, run⟩
    · obtain ⟨rfl, rfl⟩ := Prod.mk.inj (run.symm.trans ran)
      exact answers
    · cases run.symm.trans ran
  rw [run_assignableWithin_fresh] at done
  dsimp only at done
  split at done
  case isFalse =>
    cases done
    exact absurd rfl (other _ _ _)
  have begun := (tracks_grown P).excessProperties sound left right
  have intact := (advances_excessProperties queryInvariant_intact against.intact against.left
    against.right).yields.keeps against.intact
  obtain ⟨s, t, sourceBody, targetBody, isGiven, isExpected⟩ :=
    against.objects.bodies against.intact against.left against.right
  exact elaborated_refusal (begun.sound sound) (left.grown begun.extended)
    (right.grown begun.extended) sourceBody targetBody isGiven isExpected
    (intact.distinct t expected isExpected) against.written done rfl

/-- The check of an assignment is neither silent nor vague. It answers whether it reported
nothing, and lets nothing pass that is not assignable. When a literal of an object type is refused
for what it is, and no generic function can be met, elaboration finds a property at fault and
nothing is reported of the literal as a whole. -/
theorem assignment_reported (c : Checker) (expression : Expression) (source target : TypeId)
    (location : Location) (head : Message) :
    ∃ clean c' new,
      c.step (checkAssignment expression source target location head) = (.ok clean, c') ∧
      c'.diagnostics.toList = c.diagnostics.toList ++ new ∧ (clean = true ↔ new = []) ∧
      ∀ mismatch after, (assignable c.options.strictFunctionTypes source target
          expression.asObjectLiteral?.isSome).run c.table = (.error mismatch, after) →
        clean = false ∧
        ∀ literal given expected, expression = .object literal →
          literal.Against c.table source target given expected →
          (∀ id, Reached c.table [source, target] id → ∀ f, c.table.kind id = .function f →
            f.isGeneric = false) →
          (∀ names s t, mismatch ≠ .excessProperty names s t) →
            let asked := { c with table := after }
            asked.step (elaborateWith (fun s t => elaborateProperties false s t literal.properties)
              literal.location source target false) = (.ok false, c') ∧
            literal.Faulted source target given expected asked c' new := by
  have tells : Tells (fun _ => True) (checkAssignment expression source target location head) :=
    tells_checkAssignment (fun _ _ => trivial) trivial source target head
  obtain ⟨clean, c', done, new, told⟩ := tells c
  refine ⟨clean, c', new, done, told.added, told.clean, fun mismatch after ran => ⟨?_, ?_⟩⟩
  · obtain ⟨_, _, done', refused⟩ := refused_checkAssignment ran location head
    obtain ⟨⟨⟩, -⟩ := Prod.mk.inj (done.symm.trans done')
    exact refused
  · rintro literal given expected rfl against plain other asked
    obtain ⟨c'', new', elaborated, added, faulted⟩ := elaborated_literal against plain ran other
    have done' : c.step (checkLiteralAssignment source target head literal) = (.ok false, c'') :=
      step_refusedLiteral ran other elaborated
    obtain ⟨-, rfl⟩ := Prod.mk.inj (done.symm.trans done')
    obtain rfl := List.append_cancel_left (told.added.symm.trans added)
    exact ⟨elaborated, faulted⟩

end Elaboration

section Examples

/-- `{ x: number }`, `{ p: { x: number } }`, `{ x: string }` and `{ p: { x: string } }`. -/
def nestedTable : TypeTable :=
  [makeObject [("x", ⟨TypeId.number, false⟩)], makeObject [("p", ⟨7, false⟩)],
    makeObject [("x", ⟨TypeId.string, false⟩)], makeObject [("p", ⟨9, false⟩)]].foldl
      (fun t op => (op.run t).2) .initial

theorem nestedTable_reached : nestedTable.Reached := by
  refine .step _ (.step _ (.step _ (.step _ .initial ?_) ?_) ?_) ?_
  all_goals exact ⟨by decide, nofun, nofun⟩

/-- `{ p: { x: "one" } }`. -/
def nestedLiteral : ObjectLiteral :=
  ⟨[⟨"p", .object ⟨[⟨"x", .string "one" ⟨1, 12⟩, ⟨1, 9⟩⟩], ⟨1, 7⟩⟩, ⟨1, 4⟩⟩], ⟨1, 2⟩⟩

theorem nestedLiteral_against : nestedLiteral.Against nestedTable 10 8
    ⟨none, ⟨[("p", ⟨9, false⟩)]⟩⟩ ⟨none, ⟨[("p", ⟨7, false⟩)]⟩⟩ where
  intact := nestedTable_reached.intact
  left := by decide
  right := by decide
  objects := ⟨by decide, by decide⟩
  written := by decide

/-- The literal is refused, and the property `p` is reported. -/
theorem nestedLiteral_reported :
    let c := { Checker.new .default with table := nestedTable }
    ∃ c' asked, c.step (checkAssignment (.object nestedLiteral) 10 8 ⟨1, 1⟩ .notAssignable) =
        (.ok false, c') ∧
      nestedLiteral.Faulted 10 8 ⟨none, ⟨[("p", ⟨9, false⟩)]⟩⟩ ⟨none, ⟨[("p", ⟨7, false⟩)]⟩⟩
        asked c' c'.diagnostics.toList := by
  intro c
  let reason := Mismatch.property "p" 10 8 (.property "x" 9 7
    (.incompatible TypeId.string TypeId.number))
  obtain ⟨⟨verdict, σ⟩, found, same⟩ := (Option.any_eq_true _ _).mp
    (by decide +kernel : ((assignableWithin false 9 10 8 true).run (.ofTable nestedTable)).any
      (fun r => decide (r.1 = .error reason)) = true)
  obtain rfl := of_decide_eq_true same
  have ran := Answers.run_assignable ⟨9, σ, found, rfl⟩
  obtain ⟨clean, c', new, done, added, -, refused⟩ :=
    assignment_reported c (.object nestedLiteral) 10 8 ⟨1, 1⟩ .notAssignable
  obtain ⟨rfl, faults⟩ := refused _ _ ran
  obtain ⟨-, faulted⟩ := faults nestedLiteral _ _ rfl nestedLiteral_against
    (fun id _ f => isGeneric_of_entries (by decide +kernel)) nofun
  obtain rfl : c'.diagnostics.toList = new := added
  exact ⟨c', _, done, faulted⟩

/-- What comes of `interface Box<V> { value: V }`, `function f<T, U>(x: T, y: T, z: U,
w: (p: U, q: { p: number }) => { p?: string }): void {}` and the type
`{ m: (x: Box<number>, y: { value: number }, z: {}, w: <V>(p: V, q: V) => V) => void }`. -/
def boxedMethodTable : TypeTable :=
  [makeTypeParameter "V", makeObject [("value", ⟨7, false⟩)], makeGeneric ⟨"Box", [7], 8⟩,
    makeTypeParameter "T", makeTypeParameter "U", makeObject [("p", ⟨TypeId.number, false⟩)],
    makeObject [("p", ⟨TypeId.string, true⟩)],
    makeFunction ⟨[], [⟨"p", 11, false⟩, ⟨"q", 12, false⟩], 13⟩,
    makeFunction ⟨[10, 11], [⟨"x", 10, false⟩, ⟨"y", 10, false⟩, ⟨"z", 11, false⟩,
      ⟨"w", 14, false⟩], TypeId.void⟩,
    makeInstantiated 9 [("V", TypeId.number)], makeObject [("value", ⟨TypeId.number, false⟩)],
    makeObject [], makeTypeParameter "V",
    makeFunction ⟨[19], [⟨"p", 19, false⟩, ⟨"q", 19, false⟩], 19⟩,
    makeFunction ⟨[], [⟨"x", 16, false⟩, ⟨"y", 17, false⟩, ⟨"z", 18, false⟩, ⟨"w", 20, false⟩],
      TypeId.void⟩,
    makeObject [("m", ⟨21, false⟩)], makeObject [("m", ⟨15, false⟩)]].foldl
      (fun t op => (op.run t).2) .initial

theorem boxedMethodTable_reached : boxedMethodTable.Reached := by
  iterate 17 refine .step _ ?_ ?_
  · exact .initial
  · exact ⟨by decide, nofun, nofun⟩
  · exact ⟨by decide, nofun, nofun⟩
  · refine ⟨by decide, nofun, ?_⟩
    rintro _ ⟨⟩
    exact ⟨fun p member => ⟨"V", none, by simp_all; rfl⟩, by decide⟩
  all_goals exact ⟨by decide, nofun, nofun⟩

/-- An object type whose only property `m` has this type. -/
def methodOf (id : TypeId) : ObjectType := ⟨none, ⟨[("m", ⟨id, false⟩)]⟩⟩

/-- `m: f`. -/
def boxedMethod : PropertyAssignment := ⟨"m", .identifier "f" ⟨5, 23⟩, ⟨5, 20⟩⟩

/-- `{ m: f }`. -/
def boxedMethodLiteral : ObjectLiteral := ⟨[boxedMethod], ⟨5, 15⟩⟩

theorem boxedMethodLiteral_against :
    boxedMethodLiteral.Against boxedMethodTable 23 22 (methodOf 15) (methodOf 21) where
  intact := boxedMethodTable_reached.intact
  left := by decide
  right := by decide
  objects := ⟨by decide, by decide⟩
  written := by decide

/-- The parameter `w` is to return a `{ p?: string }` and returns a `{ p: number }`. -/
def boxedMethodMismatch : Mismatch :=
  .property "m" 23 22 (.parameter 3 15 21 (.returnType 20 24
    (.property "p" 12 13 (.incompatible TypeId.number TypeId.string))))

/-- What the type parameters of `f` are taken for depends on whether `Box<number>` has been
resolved: the method is refused before and accepted after it. -/
theorem boxedMethod_swayed : ∃ after later,
    (assignable false 23 22 true).run boxedMethodTable = (.error boxedMethodMismatch, after) ∧
      after.kind 23 = .object (methodOf 15) ∧ after.kind 22 = .object (methodOf 21) ∧
      (assignable false 15 21 false).run after = (.ok (), later) := by
  obtain ⟨⟨verdict, σ⟩, found, same⟩ := (Option.any_eq_true _ _).mp
    (by decide +kernel :
      ((assignableWithin false 9 23 22 true).run (.ofTable boxedMethodTable)).any (fun r =>
        decide (r.1 = .error boxedMethodMismatch ∧ r.2.table.kind 23 = .object (methodOf 15) ∧
          r.2.table.kind 22 = .object (methodOf 21)) &&
        ((assignableWithin false 9 15 21 false).run (.ofTable r.2.table)).any
          (fun r' => r'.1.isOk)) = true)
  obtain ⟨told, later⟩ := Bool.and_eq_true_iff.mp same
  obtain ⟨rfl, isGiven, isExpected⟩ := of_decide_eq_true told
  obtain ⟨⟨verdict, τ⟩, found', yes⟩ := (Option.any_eq_true _ _).mp later
  cases verdict with
  | ok =>
      exact ⟨σ.table, τ.table, Answers.run_assignable ⟨9, σ, found, rfl⟩, isGiven, isExpected,
        Answers.run_assignable ⟨9, τ, found', rfl⟩⟩
  | error => cases yes

/-- The literal is refused for its method, which is then accepted by itself. So nothing is
reported but the literal as a whole. -/
theorem boxedMethodLiteral_blamedAsWhole :
    let c := { Checker.new .default with table := boxedMethodTable }
    boxedMethodLiteral.Against boxedMethodTable 23 22 (methodOf 15) (methodOf 21) ∧
      ∃ mismatch after asked c', (assignable false 23 22 true).run boxedMethodTable =
          (.error mismatch, after) ∧ (∀ names s t, mismatch ≠ .excessProperty names s t) ∧
        { c with table := after }.step
          (elaborateWith (fun s t => elaborateProperties false s t boxedMethodLiteral.properties)
            boxedMethodLiteral.location 23 22 false) = (.ok true, asked) ∧
        c.step (checkAssignment (.object boxedMethodLiteral) 23 22 ⟨5, 5⟩ .notAssignable) =
          (.ok false, c') ∧
        c'.diagnostics.toList.map Diagnostic.location = [some boxedMethodLiteral.location] := by
  intro c
  obtain ⟨after, later, refused, isGiven, isExpected, accepted⟩ := boxedMethod_swayed
  have other : ∀ names s t, boxedMethodMismatch ≠ .excessProperty names s t :=
    fun _ _ _ same => by cases same
  let asked : Checker := { c with table := after }
  let again : Checker := { c with table := later }
  have question : asked.step (CheckM.assignable 15 21 false) = (.ok (.ok ()), again) :=
    Checker.step_asked accepted
  have examined : asked.step (elaborateProperty false (methodOf 15) (methodOf 21) boxedMethod) =
      (.ok true, again) := by
    refine Eq.trans (Checker.step_bind _ _ _) ?_
    rw [question]
    rfl
  have elaborated : asked.step
      (elaborateWith (fun s t => elaborateProperties false s t boxedMethodLiteral.properties)
        boxedMethodLiteral.location 23 22 false) = (.ok true, again) := by
    have sourceBody : Equality.body? asked.table 23 = some 23 := by
      rw [Equality.body?, isGiven]
    have targetBody : Equality.body? asked.table 22 = some 22 := by
      rw [Equality.body?, isExpected]
    rw [step_elaborateWith sourceBody targetBody isGiven isExpected, boxedMethodLiteral,
      elaborateProperties_cons, Checker.step_bind, Checker.step_bind, examined]
    rfl
  obtain ⟨_, c', reported, same⟩ :=
    completes_reportMismatch again boxedMethodMismatch ⟨5, 15⟩ .notAssignable
  refine ⟨boxedMethodLiteral_against, boxedMethodMismatch, after, again, c', refused, other,
    elaborated, ?_, ?_⟩
  · refine (step_refusedLiteral (c := c) refused other elaborated).trans ?_
    refine Eq.trans (Checker.step_bind _ _ _) ?_
    exact congrArg (fun r => (Except.ok false, r.2)) reported
  · have close : (boxedMethodMismatch.report later ⟨5, 15⟩ .notAssignable).Near (Eq ⟨5, 15⟩) :=
      boxedMethodMismatch.near_report rfl later .notAssignable
    obtain ⟨location, here, rfl⟩ := close.located
    rw [same]
    exact congrArg (· :: []) here

end Examples

end StructuralTyping
