import StructuralTyping.Proofs.CompletedRuns
import StructuralTyping.Proofs.WrittenFindings

/-! What the check of an assignment tells. It comes to its end, its answer is yes exactly if
it reports nothing, and it reports something whenever the question that it begins with is
answered with no. For a literal this holds on every way through its properties and through
the literals inside it. -/
namespace StructuralTyping

open CheckM

/-- The second checker has these reports more, all of them near; the answer is whether there
are none. -/
structure Checker.Told (near : Location → Prop) (c c' : Checker) (clean : Bool)
    (reports : List Diagnostic) : Prop where
  added : c'.diagnostics.toList = c.diagnostics.toList ++ reports
  clean : clean = true ↔ reports = []
  near : ∀ d ∈ reports, d.Near near

namespace Checker.Told

variable {near : Location → Prop} {c c' c'' : Checker} {clean clean' : Bool}
  {reports reports' : List Diagnostic}

theorem nothing (same : c'.diagnostics = c.diagnostics) : c.Told near c' true [] :=
  ⟨by rw [same, List.append_nil], iff_of_true rfl rfl, List.forall_mem_nil _⟩

theorem append (one : c.Told near c' clean reports) (two : c'.Told near c'' clean' reports') :
    c.Told near c'' (clean && clean') (reports ++ reports') where
  added := by rw [two.added, one.added, List.append_assoc]
  clean := by rw [Bool.and_eq_true, one.clean, two.clean, List.append_eq_nil_iff]
  near := List.forall_mem_append.mpr ⟨one.near, two.near⟩

end Checker.Told

/-- The step completes, and its answer is whether it reported nothing. -/
def Tells (near : Location → Prop) (m : CheckM Bool) : Prop :=
  ∀ c : Checker, CompletesFrom c m fun clean c' => ∃ reports, c.Told near c' clean reports

/-- The step completes and reports nothing. -/
def Silent {α : Type} (m : CheckM α) : Prop :=
  ∀ c : Checker, CompletesFrom c m fun _ c' => c'.diagnostics = c.diagnostics

theorem silent_onTable {α : Type} (action : TableM α) : Silent (onTable action) :=
  fun c => ⟨_, _, c.step_onTable action, rfl⟩

theorem silent_assignable (source target : TypeId) (fresh : Bool) :
    Silent (CheckM.assignable source target fresh) :=
  fun c => .get_bind (silent_onTable _ c)

theorem Checker.step_asked {c : Checker} {source target : TypeId} {fresh : Bool}
    {verdict : Verdict} {after : TypeTable}
    (ran : (assignable c.options.strictFunctionTypes source target fresh).run c.table =
      (verdict, after)) :
    c.step (CheckM.assignable source target fresh) = (.ok verdict, { c with table := after }) := by
  rw [step_assignable, ran]

/-- A mismatch is one report. -/
theorem completes_reportMismatch (c : Checker) (mismatch : Mismatch) (location : Location)
    (head : Message) :
    CompletesFrom c (reportMismatch mismatch location head) fun _ c' =>
      c' = { c with
        diagnostics :=
          c.diagnostics.add ((mismatch.report c.table location head).inFile c.currentFile) } :=
  .table_bind ⟨_, _, c.step_report _, rfl⟩

namespace Tells

variable {near : Location → Prop}

theorem nothing : Tells near (pure true) := fun _ => .pure ⟨[], .nothing rfl⟩

theorem after {α : Type} {m : CheckM α} {k : α → CheckM Bool} (silent : Silent m)
    (next : ∀ a, Tells near (k a)) : Tells near (m >>= k) := fun c =>
  (silent c).bind fun a c' same => (next a c').weaken fun _ _ ⟨reports, told⟩ =>
    ⟨reports, Checker.Told.append (.nothing same) told⟩

/-- Two steps one after the other report nothing if neither of them does. -/
theorem both {m m' : CheckM Bool} (one : Tells near m) (two : Tells near m') :
    Tells near (do
      let clean ← m
      let clean' ← m'
      return clean && clean') := fun c =>
  (one c).bind fun _ c' ⟨_, told⟩ => (two c').bind fun _ _ ⟨_, told'⟩ =>
    .pure ⟨_, told.append told'⟩

end Tells

section Missing

/-- The property is required, and the source may lack it. -/
def ObjectType.lacks (s : ObjectType) (expected : String × Property) : Bool :=
  !expected.2.optional && (s.property? expected.1).all Property.optional

theorem ObjectType.lacks_iff {s : ObjectType} {expected : String × Property} :
    s.lacks expected = true ↔ expected.2.optional = false ∧
      ∀ given, s.property? expected.1 = some given → given.optional = true := by
  simp [lacks, Option.all_eq_true]

/-- The report of a required property that a literal lacks. -/
def Checker.missingReport (c : Checker) (location : Location) (source target : TypeId)
    (name : String) : Diagnostic :=
  (Diagnostic.atLocation location .propertyMissing
    [name, c.table.text source, c.table.text target]).inFile c.currentFile

theorem reportMissing_cons (location : Location) (source target : TypeId) (s : ObjectType)
    (expected : String × Property) (rest : List (String × Property)) :
    reportMissing location source target s (expected :: rest) =
      if s.lacks expected then do
        error location .propertyMissing [expected.1, ← display source, ← display target]
        let _ ← reportMissing location source target s rest
        return false
      else reportMissing location source target s rest := by
  obtain ⟨name, expected⟩ := expected
  rw [reportMissing]
  refine if_congr (Eq.congr_left ?_) rfl rfl
  rw [ObjectType.lacks]
  cases s.property? name <;> cases expected.optional <;> simp

/-- Every required property that the source may lack is reported, and that is all that
happens. -/
theorem step_reportMissing (c : Checker) (location : Location) (source target : TypeId)
    (s : ObjectType) (expected : List (String × Property)) :
    c.step (reportMissing location source target s expected) =
      (.ok (expected.filter s.lacks).isEmpty,
        { c with
          diagnostics := c.diagnostics.append ((expected.filter s.lacks).map fun property =>
            c.missingReport location source target property.1) }) := by
  induction expected generalizing c with
  | nil => simp [reportMissing, DiagnosticCollection.append]
  | cons property rest ih =>
      rw [reportMissing_cons, List.filter_cons]
      cases s.lacks property with
      | false => exact ih c
      | true =>
          have shown (id : TypeId) : c.step (CheckM.display id) = (.ok (c.table.text id), c) := rfl
          simp only [if_true, Checker.step_bind, shown, CheckM.error, Checker.step_report, ih]
          simp [DiagnosticCollection.append, DiagnosticCollection.add, Checker.missingReport]

theorem told_reportMissing (near : Location → Prop) (location : Location) (here : near location)
    (c : Checker) (source target : TypeId) (s : ObjectType) (expected : List (String × Property)) :
    ∃ c', c.step (reportMissing location source target s expected) =
        (.ok (expected.filter s.lacks).isEmpty, c') ∧
      c.Told near c' (expected.filter s.lacks).isEmpty ((expected.filter s.lacks).map
        fun property => c'.missingReport location source target property.1) := by
  refine ⟨_, step_reportMissing c location source target s expected, rfl, ?_, fun d member => ?_⟩
  · rw [List.isEmpty_iff, List.map_eq_nil_iff]
  · obtain ⟨property, -, rfl⟩ := List.mem_map.mp member
    exact Diagnostic.near_inFile (Diagnostic.near_atLocation here _ _) c.currentFile

theorem tells_reportMissing {near : Location → Prop} {location : Location} (here : near location)
    (source target : TypeId) (s : ObjectType) (expected : List (String × Property)) :
    Tells near (reportMissing location source target s expected) := fun c =>
  have ⟨c', done, told⟩ := told_reportMissing near location here c source target s expected
  ⟨_, c', done, _, told⟩

end Missing

/-- The locations of an assigned property and of its value. -/
def PropertyAssignment.locations (p : PropertyAssignment) : List Location :=
  p.location :: p.initializer.locations

/-- Examine one property, if both sides have it. -/
def elaborateProperty (nestedOnly : Bool) (s t : ObjectType) (p : PropertyAssignment) :
    CheckM Bool :=
  match s.property? p.name, t.property? p.name with
  | some given, some expected =>
      match p.initializer with
      | .object nested => checkLiteralAssignment given.type expected.type .notAssignable nested
      | _ =>
          if nestedOnly then pure true
          else do
            match ← CheckM.assignable given.type expected.type false with
            | .ok () => pure true
            | .error mismatch => do
                reportMismatch mismatch p.location .notAssignable
                pure false
  | _, _ => pure true

theorem elaborateProperties_cons (nestedOnly : Bool) (s t : ObjectType) (p : PropertyAssignment)
    (rest : List PropertyAssignment) :
    elaborateProperties nestedOnly s t (p :: rest) = do
      let clean ← elaborateProperty nestedOnly s t p
      let restClean ← elaborateProperties nestedOnly s t rest
      return clean && restClean := by
  obtain ⟨name, initializer, location⟩ := p
  rw [elaborateProperties, elaborateProperty]
  cases s.property? name with
  | none => rfl
  | some given =>
      cases t.property? name with
      | none => rfl
      | some expected =>
          cases initializer with
          | object nested => rfl
          | _ =>
              cases nestedOnly with
              | true => rfl
              | false =>
                  refine Eq.trans (bind_congr fun verdict => ?_) (bind_assoc _ _ _).symm
                  cases verdict with
                  | ok => rfl
                  | error mismatch => exact (bind_assoc _ _ _).symm

section Literals
variable {near : Location → Prop}

theorem tells_reportMismatch {location : Location} (here : near location) (mismatch : Mismatch)
    (head : Message) : Tells near (do
      reportMismatch mismatch location head
      return false) := by
  refine fun c => (completes_reportMismatch c mismatch location head).bind ?_
  rintro _ _ rfl
  have close := mismatch.near_report here c.table head
  refine .pure ⟨[_], rfl, by simp, List.forall_mem_singleton.mpr ?_⟩
  exact Diagnostic.near_inFile close c.currentFile

theorem tells_elaborateWith {walk : ObjectType → ObjectType → CheckM Bool} {location : Location}
    (here : near location) (each : ∀ s t, Tells near (walk s t)) (source target : TypeId)
    (nestedOnly : Bool) : Tells near (elaborateWith walk location source target nestedOnly) := by
  refine .after (silent_onTable _) fun s => .after (silent_onTable _) fun t => ?_
  refine .after (fun c => ⟨_, _, c.step_table, rfl⟩) fun table => ?_
  split
  · next given expected _ _ =>
      cases nestedOnly with
      | true => exact fun c => (each given expected c).bind fun _ _ told => .pure told
      | false => exact (each given expected).both (tells_reportMissing here source target _ _)
  · exact .nothing

/-- An assigned property is examined, given that its value is if it is a literal. -/
theorem tells_elaborateProperty {p : PropertyAssignment} (here : near p.location)
    (nested : ∀ literal, p.initializer = .object literal → ∀ source target head,
      Tells near (checkLiteralAssignment source target head literal))
    (nestedOnly : Bool) (s t : ObjectType) : Tells near (elaborateProperty nestedOnly s t p) := by
  rw [elaborateProperty]
  split
  · split
    · next literal isLiteral => exact nested literal isLiteral _ _ _
    · cases nestedOnly with
      | true => exact .nothing
      | false =>
          refine .after (silent_assignable _ _ _) fun verdict => ?_
          cases verdict with
          | ok => exact .nothing
          | error mismatch => exact tells_reportMismatch here mismatch _
  · exact .nothing

mutual

theorem tells_checkLiteralAssignment (source target : TypeId) (head : Message) :
    ∀ literal : ObjectLiteral, (∀ l ∈ literal.locations, near l) →
      Tells near (checkLiteralAssignment source target head literal)
  | ⟨properties, location⟩, inside => by
      obtain ⟨here, below⟩ := List.forall_mem_cons.mp inside
      have walks (nestedOnly : Bool) (s t : ObjectType) :=
        tells_elaborateProperties nestedOnly s t properties below
      rw [checkLiteralAssignment]
      refine .after (silent_assignable _ _ _) fun verdict => ?_
      split
      · exact tells_elaborateWith here (walks true) _ _ _
      · exact tells_reportMismatch (near_propertyLocation below here _) _ _
      · refine fun c => (tells_elaborateWith here (walks false) _ _ _ c).bind ?_
        rintro clean c' ⟨reports, told⟩
        cases clean with
        | true =>
            refine (tells_reportMismatch here _ head c').weaken fun _ _ ⟨reports', told'⟩ => ?_
            exact ⟨_, told.append told'⟩
        | false => exact .pure ⟨reports, told⟩

theorem tells_elaborateProperties (nestedOnly : Bool) (s t : ObjectType) :
    ∀ properties : List PropertyAssignment, (∀ l ∈ propertyLocations properties, near l) →
      Tells near (elaborateProperties nestedOnly s t properties)
  | [], _ => .nothing
  | ⟨name, initializer, location⟩ :: rest, inside => by
      obtain ⟨here, below⟩ := List.forall_mem_cons.mp inside
      obtain ⟨within, later⟩ := List.forall_mem_append.mp below
      rw [elaborateProperties_cons]
      refine Tells.both (tells_elaborateProperty here ?_ nestedOnly s t)
        (tells_elaborateProperties nestedOnly s t rest later)
      rintro literal rfl source target head
      exact tells_checkLiteralAssignment source target head literal
        (Expression.locations_object literal ▸ within)

end

/-- What is reported of one property is about it or about its value. -/
theorem tells_property (nestedOnly : Bool) (s t : ObjectType) (p : PropertyAssignment) :
    Tells (· ∈ p.locations) (elaborateProperty nestedOnly s t p) := by
  refine tells_elaborateProperty List.mem_cons_self (fun literal isLiteral source target head => ?_)
    nestedOnly s t
  refine tells_checkLiteralAssignment source target head literal fun l member => ?_
  refine List.mem_cons_of_mem _ ?_
  rw [isLiteral, Expression.locations_object]
  exact member

/-- The check of an assignment reports something exactly if its answer is no. -/
theorem tells_checkAssignment {expression : Expression} {location : Location}
    (inside : ∀ l ∈ expression.locations, near l) (here : near location) (source target : TypeId)
    (head : Message) : Tells near (checkAssignment expression source target location head) := by
  rw [checkAssignment]
  cases expression with
  | object literal =>
      exact tells_checkLiteralAssignment _ _ _ _ (Expression.locations_object literal ▸ inside)
  | _ =>
      refine .after (silent_assignable _ _ _) fun verdict => ?_
      cases verdict with
      | ok => exact .nothing
      | error mismatch => exact tells_reportMismatch here mismatch head

/-- What is not assignable is not let pass. -/
theorem refused_checkAssignment {c : Checker} {expression : Expression} {source target : TypeId}
    {mismatch : Mismatch} {after : TypeTable}
    (ran : (assignable c.options.strictFunctionTypes source target
      expression.asObjectLiteral?.isSome).run c.table = (.error mismatch, after))
    (location : Location) (head : Message) :
    CompletesFrom c (checkAssignment expression source target location head) fun clean _ =>
      clean = false := by
  have asked : CompletesFrom c
      (CheckM.assignable source target expression.asObjectLiteral?.isSome)
      fun verdict _ => verdict = .error mismatch :=
    ⟨_, _, Checker.step_asked ran, rfl⟩
  have told (c' : Checker) (m : Mismatch) (place : Location) :
      CompletesFrom c' (do
        reportMismatch m place head
        return false) fun clean _ => clean = false :=
    (completes_reportMismatch c' m place head).bind fun _ _ _ => .pure rfl
  rw [checkAssignment]
  cases expression with
  | object literal =>
      obtain ⟨properties, place⟩ := literal
      refine asked.bind ?_
      rintro _ c₁ rfl
      split
      · next h => cases h
      · exact told c₁ _ _
      · have walks (s t : ObjectType) :
            Tells (fun _ => True) (elaborateProperties false s t properties) :=
          tells_elaborateProperties false s t properties fun _ _ => trivial
        refine (tells_elaborateWith trivial walks source target false c₁).bind fun clean c₂ _ => ?_
        exact .ite (told c₂ _ place) (.pure rfl)
  | _ =>
      refine asked.bind ?_
      rintro _ c₁ rfl
      exact told c₁ mismatch location

end Literals

end StructuralTyping
