import StructuralTyping.Proofs.Judgements
import StructuralTyping.Proofs.ReplacedTypes
import StructuralTyping.Proofs.ReportLevels

/-! Constraints of functions in which types have been replaced. The constraint of a type
parameter belongs to its entry, and substitution keeps the entries of type parameters. So a
generic function that is a member of an interface, or the result of another function, is
always called under the constraints as they are declared: the call replaces in them what it
binds itself, and nothing else. That is as it should be for constraints that do not mention
the parameters of the interface or of the other function. -/
namespace StructuralTyping

open CheckM TypeTable

/-- The checks of a call that binds these type parameters, each at its type argument if there
is one. -/
def demands (bindings : Bindings) (location : Location) (file : Option String) :
    List TypeId → List Location → List DeferredConstraint
  | [], _ => []
  | parameter :: rest, locations =>
      ((bindings.find? parameter).map fun argument =>
        ⟨parameter, argument, bindings, locations.head?.getD location, file⟩).toList ++
      demands bindings location file rest locations.tail

/-- The argument is assignable to what the bindings make of the constraint. -/
def Satisfies (strict : Bool) (t : TypeTable) (argument constraint : TypeId)
    (bindings : Bindings) : Prop :=
  let bound := (substitute constraint bindings).run t
  ((assignable strict argument bound.1 false).run bound.2).1 = .ok ()

theorem DeferredConstraint.isSome_violation? (strict : Bool) (check : DeferredConstraint)
    (t : TypeTable) : (check.violation? strict t).isSome ↔
      ∃ constraint, t.constraint? check.parameter = some constraint ∧
        ¬Satisfies strict t check.argument constraint check.bindings := by
  rw [violation?]
  cases t.constraint? check.parameter with
  | none => simp
  | some constraint =>
      simp only [Option.some.injEq, exists_eq_left', Satisfies]
      generalize (assignable strict check.argument _ false).run _ = answer
      obtain ⟨verdict, t'⟩ := answer
      cases verdict <;> simp

@[simp] theorem Diagnostic.message_inFile (d : Diagnostic) (file : Option String) :
    (d.inFile file).message = d.message := by
  cases file with
  | none => rfl
  | some file =>
      rw [inFile]
      split <;> rfl

namespace Checker

/-- What is reported of open type parameters says nothing about constraints. -/
theorem step_reportUnresolved (c : Checker) (location : Location) (parameters : List TypeId) :
    ∃ ds, ds.filter Diagnostic.isUnsatisfied = [] ∧ c.step (reportUnresolved location parameters) =
      (.ok (), { c with diagnostics := c.diagnostics.append ds }) := by
  induction parameters generalizing c with
  | nil => exact ⟨[], rfl, by simp [reportUnresolved, DiagnosticCollection.append]⟩
  | cons parameter rest ih =>
      let first := ((c.unresolvedReport? location parameter).map
        fun d => d.inFile c.currentFile).toList
      have silent : first.filter Diagnostic.isUnsatisfied = [] := by
        refine List.filter_eq_nil_iff.mpr fun d member => ?_
        obtain ⟨_, found, rfl⟩ := Option.map_eq_some_iff.mp (Option.mem_toList.mp member)
        obtain ⟨severity, -, rfl⟩ := Option.map_eq_some_iff.mp found
        rw [Diagnostic.isUnsatisfied, Diagnostic.code_inFile]
        exact Bool.false_ne_true
      obtain ⟨ds, silent', step⟩ := ih { c with diagnostics := c.diagnostics.append first }
      refine ⟨first ++ ds, by rw [List.filter_append, silent, silent']; rfl, ?_⟩
      rw [reportUnresolved_cons, step_bind, step_reportOpen]
      dsimp only
      rw [step]
      simp only [DiagnosticCollection.append, List.append_assoc]

variable (c : Checker) (checking : c.phase = .checking) (bindings : Bindings) (location : Location)

include checking

/-- A type parameter that is bound is judged at once, unless declarations are being entered. -/
theorem step_checkBindings_cons {parameter argument : TypeId}
    (bound : bindings.find? parameter = some argument) (rest : List TypeId)
    (locations : List Location) :
    let check : DeferredConstraint :=
      ⟨parameter, argument, bindings, locations.head?.getD location, c.currentFile⟩
    ∃ t, c.table.Derives t ∧
      c.step (checkBindings bindings location (parameter :: rest) locations) =
        Checker.step { c with
          table := t
          diagnostics := c.diagnostics.append
            (violations c.options.strictFunctionTypes [(check, c.table)]) }
          (checkBindings bindings location rest locations.tail) := by
  intro check
  obtain ⟨t, derived, judged⟩ := c.step_reportUnsatisfied check rfl
  have atOnce : c.step (checkConstraint parameter argument bindings
      (locations.head?.getD location)) = c.step (reportUnsatisfied check) := by
    rw [checkConstraint_eq, step_bind, step_get]
    dsimp only
    rw [if_neg (by rw [checking]; nofun)]
  refine ⟨t, derived, ?_⟩
  rw [checkBindings, bound]
  dsimp only
  rw [step_bind, atOnce, judged]

/-- A call that is checked at once judges what it binds, one type parameter after the other. -/
theorem step_checkBindings (parameters : List TypeId) (locations : List Location) :
    ∃ (judged : List Judgement) (t : TypeTable),
      judged.map Prod.fst = demands bindings location c.currentFile parameters locations ∧
      (∀ j ∈ judged, c.table.Derives j.2) ∧
      c.step (checkBindings bindings location parameters locations) = (.ok (), { c with
        table := t
        diagnostics := c.diagnostics.append
          (violations c.options.strictFunctionTypes judged) }) := by
  induction parameters generalizing c locations with
  | nil =>
      refine ⟨[], c.table, rfl, List.forall_mem_nil _, ?_⟩
      simp [checkBindings, violations, DiagnosticCollection.append]
  | cons parameter rest ih =>
      cases bound : bindings.find? parameter with
      | none =>
          rw [checkBindings, demands, bound]
          exact ih c checking locations.tail
      | some argument =>
          let check : DeferredConstraint :=
            ⟨parameter, argument, bindings, locations.head?.getD location, c.currentFile⟩
          obtain ⟨t, derived, one⟩ :=
            c.step_checkBindings_cons checking bindings location bound rest locations
          obtain ⟨judged, t', same, between, others⟩ := ih { c with
            table := t
            diagnostics := c.diagnostics.append
              (violations c.options.strictFunctionTypes [(check, c.table)]) } checking
            locations.tail
          refine ⟨(check, c.table) :: judged, t', ?_, ?_, ?_⟩
          · rw [demands, bound]
            exact congrArg (check :: ·) same
          · exact List.forall_mem_cons.mpr
              ⟨.refl _, fun j member => derived.trans (between j member)⟩
          · have whole := violations_append c.options.strictFunctionTypes [(check, c.table)] judged
            rw [one, others]
            simp only [DiagnosticCollection.append, List.append_assoc, ← whole]
            rfl

end Checker

/-- The judgement is made under the constraint that is declared, in which only what the call
binds is replaced. Where the bindings of before do not affect the constraint, it is made
under what they make of it. -/
structure JudgedAsDeclared (strict : Bool) (base : TypeTable) (outer : Bindings)
    (j : Judgement) : Prop where
  derived : base.Derives j.2
  declared : (j.1.violation? strict j.2).isSome ↔
    ∃ constraint, base.constraint? j.1.parameter = some constraint ∧
      ¬Satisfies strict j.2 j.1.argument constraint j.1.bindings
  replaced {constraint constraint' : TypeId} :
    base.constraint? j.1.parameter = some constraint → ¬base.Affected outer constraint →
    base.Replaced outer constraint constraint' →
    ((j.1.violation? strict j.2).isSome ↔
      ¬Satisfies strict j.2 j.1.argument constraint' j.1.bindings)

theorem JudgedAsDeclared.of_derives {strict : Bool} {base : TypeTable} {j : Judgement}
    (outer : Bindings) (derived : base.Derives j.2) (known : j.1.parameter < base.size) :
    JudgedAsDeclared strict base outer j := by
  have same : j.2.constraint? j.1.parameter = base.constraint? j.1.parameter := by
    rw [constraint?, constraint?, derived.extended.kind _ known]
  have declared := j.1.isSome_violation? strict j.2
  rw [same] at declared
  refine ⟨derived, declared, fun found unaffected replaced => ?_⟩
  rw [declared, replaced.eq_of_not_affected unaffected, found]
  simp

theorem parameter_mem_of_demands {bindings : Bindings} {location : Location}
    {file : Option String} {check : DeferredConstraint} :
    ∀ {parameters : List TypeId} {locations : List Location},
      check ∈ demands bindings location file parameters locations →
        check.parameter ∈ parameters
  | [], _, demanded => nomatch demanded
  | parameter :: rest, locations, demanded => by
      rcases List.mem_append.mp demanded with here | later
      · obtain ⟨argument, -, rfl⟩ := Option.map_eq_some_iff.mp (Option.mem_toList.mp here)
        exact List.mem_cons_self
      · exact List.mem_cons_of_mem _ (parameter_mem_of_demands later)

section Calls
variable {c : Checker} {outer : Bindings} {m m' : TypeId} {f f' : FunctionType}

/-- A function keeps its type parameters when others are replaced in it. -/
theorem TypeTable.Replaced.typeParameters {t : TypeTable} (replaced : t.Replaced outer m m')
    (entry : t.kind m = .function f) (entry' : t.kind m' = .function f')
    (unbound : outer.find? m = none) (own : ∀ p ∈ f.typeParameters, outer.contains p = false) :
    f'.typeParameters = f.typeParameters := by
  cases replaced with
  | bound found => exact nomatch unbound.symm.trans found
  | kept =>
      obtain rfl := TypeKind.function.inj (entry'.symm.trans entry)
      rfl
  | rebuilt _ _ _ binders =>
      rw [entry, entry'] at binders
      refine binders.trans (List.filter_eq_self.mpr fun p declared => ?_)
      rw [own p declared]
      rfl

/-- Before it comes to the arguments, a call of a function in which types have been replaced
judges what it binds under the constraints that are declared, and reports the violations. -/
theorem replacedCall_judged (wellFormed : c.table.WellFormed) (checking : c.phase = .checking)
    (entry : c.table.kind m = .function f)
    (unbound : outer.find? m = none) (own : ∀ p ∈ f.typeParameters, outer.contains p = false)
    (replaced : c.table.Replaced outer m m') (entry' : c.table.kind m' = .function f')
    (checks : ArgumentChecks) (instantiated : InstantiatedSignature)
    (known : List (Option TypeId)) (typeArguments : List TypeNode) (location : Location) :
    ∃ (between : Checker) (judged : List Judgement),
      c.step (checkInstantiatedCall checks f' instantiated known typeArguments location) =
        between.step (do
          checks.check instantiated.parameters known
          return instantiated.returnType) ∧
      between.diagnostics.toList.filter Diagnostic.isUnsatisfied =
        c.diagnostics.toList.filter Diagnostic.isUnsatisfied ++
          violations c.options.strictFunctionTypes judged ∧
      judged.map Prod.fst = demands instantiated.bindings location c.currentFile
        f.typeParameters (typeArguments.map TypeNode.location) ∧
      ∀ j ∈ judged, JudgedAsDeclared c.options.strictFunctionTypes c.table outer j := by
  rw [← replaced.typeParameters entry entry' unbound own]
  obtain ⟨ds, silent, told⟩ := c.step_reportUnresolved location instantiated.unresolved
  let opened : Checker := { c with diagnostics := c.diagnostics.append ds }
  obtain ⟨judged, t, same, derived, bound⟩ := opened.step_checkBindings checking
    instantiated.bindings location f'.typeParameters (typeArguments.map TypeNode.location)
  let between : Checker := { opened with
    table := t
    diagnostics := opened.diagnostics.append (violations c.options.strictFunctionTypes judged) }
  refine ⟨between, judged, ?_, ?_, same, fun j member => .of_derives outer (derived j member) ?_⟩
  · rw [checkInstantiatedCall, Checker.step_bind, told]
    dsimp only
    rw [Checker.step_bind, bound]
  · simp only [between, opened, DiagnosticCollection.append, List.filter_append, silent,
      filter_violations, List.append_nil]
  · have demanded := parameter_mem_of_demands (same ▸ List.mem_map_of_mem member)
    rw [replaced.typeParameters entry entry' unbound own] at demanded
    exact (wellFormed.signature entry).typeParameters _ demanded

/-- `interface Box<T> { m: <U extends string>(x: U, y: T) => void }` and the type of `m` in
`Box<number>`. -/
def memberTable : TypeTable where
  entries := TypeTable.initial.entries ++
    #[.typeParameter "T" none, .typeParameter "U" (some TypeId.string),
      .function ⟨[8], [⟨"x", 8, false⟩, ⟨"y", 7, false⟩], TypeId.void⟩,
      .function ⟨[8], [⟨"x", 8, false⟩, ⟨"y", TypeId.number, false⟩], TypeId.void⟩]
  resolved := .empty

/-- The checks of a call that has no arguments to check. -/
def noArguments : ArgumentChecks where
  infer _ _ inference known := return ⟨inference, known, false⟩
  check _ _ := return ()
  loose _ := return ()

/-- A call that binds `U` to `number` is judged under the constraint `string`. -/
theorem memberTable_judged :
    ∃ (between : Checker) (judged : List Judgement),
      Checker.step { Checker.new .default with table := memberTable, phase := .checking }
          (checkInstantiatedCall noArguments
            ⟨[8], [⟨"x", 8, false⟩, ⟨"y", TypeId.number, false⟩], TypeId.void⟩
            ⟨.ofList [(8, TypeId.number)], [TypeId.number, TypeId.number], TypeId.void, []⟩ [] []
            .unknown) =
        between.step (do
          noArguments.check [TypeId.number, TypeId.number] []
          return TypeId.void) ∧
      between.diagnostics.toList.filter Diagnostic.isUnsatisfied =
        [] ++ violations false judged ∧
      judged.map Prod.fst =
        [⟨8, TypeId.number, .ofList [(8, TypeId.number)], .unknown, none⟩] ∧
      ∀ j ∈ judged, JudgedAsDeclared false memberTable (.ofList [(7, TypeId.number)]) j := by
  have wellFormed : memberTable.WellFormed := .of_fits (by decide) rfl
  have leaf {id : TypeId} (unbound : Dictionary.find? (.ofList [(7, TypeId.number)]) id = none)
      (alone : (memberTable.kind id).parts = [] ∧ (memberTable.kind id).binders = []) :
      memberTable.Replaced (.ofList [(7, TypeId.number)]) id id :=
    .kept fun affected => (affected.composite unbound).elim (· alone.1) (· alone.2)
  have affected : memberTable.Affected (.ofList [(7, TypeId.number)]) 9 :=
    .of_part (m := 7) (by decide) ⟨7, .refl, .inl ⟨TypeId.number, rfl, by decide⟩⟩
  have replaced : memberTable.Replaced (.ofList [(7, TypeId.number)]) 9 10 := by
    refine .rebuilt rfl affected rfl rfl ?_
    have zipped : (memberTable.kind 9).parts.zip (memberTable.kind 10).parts =
        [(8, 8), (7, TypeId.number), (TypeId.void, TypeId.void)] := by decide
    rw [zipped]
    refine List.forall_mem_cons.mpr ⟨leaf rfl (by decide), ?_⟩
    refine List.forall_mem_cons.mpr ⟨.bound rfl, ?_⟩
    exact List.forall_mem_singleton.mpr (leaf rfl (by decide))
  exact replacedCall_judged (c := { Checker.new .default with
    table := memberTable, phase := .checking }) wellFormed rfl (m := 9) rfl rfl (by decide) replaced
    rfl noArguments _ [] [] .unknown

/-- `interface Box<T> { m: <U extends T>(x: U) => void }` and `var b: Box<number>`. -/
def comparedBox : List SourceFile :=
  [⟨"", [
    .ofInterface "Box" [.free "T"] [.required "m" (.ofSignature [.bounded "U" (.named "T" [])]
      [.required "x" (some (.named "U" []))] (.ofKeyword .void))],
    .ofVariable "b" (some (.named "Box" [.ofKeyword .number])) none]⟩]

/-- The table after the check of `comparedBox`. -/
def comparedBoxTable : TypeTable where
  entries := TypeTable.initial.entries ++
    #[.typeParameter "T" none, .object ⟨some "Box", ⟨[("m", ⟨11, false⟩)]⟩⟩,
      .generic ⟨"Box", [7], 8⟩, .typeParameter "U" (some 7),
      .function ⟨[10], [⟨"x", 10, false⟩], TypeId.void⟩,
      .instantiated ⟨9, ⟨[("T", TypeId.number)]⟩⟩]
  resolved := .empty

/-- The call `b.m(1)` is reported, although `number` satisfies what the constraint becomes when
`T` is replaced by `number`. -/
theorem interfaceConstraint_unreplaced :
    ∃ c, (Checker.new .default).step (declareAndCheck comparedBox) = (.ok (), c) ∧
      c.diagnostics.toList = [] ∧ ((resolve 12).run c.table).1 = 8 ∧
      ∃ signature, (instantiate 11 [TypeId.number] none).run c.table = (.ok signature, c.table) ∧
        (Checker.step { c with phase := .checking } (checkBindings signature.bindings .unknown
          [10] [])).2.diagnostics.toList.map Diagnostic.message =
            ["Type 'number' does not satisfy the constraint 'T'."] ∧
        c.table.constraint? 10 = some 7 ∧
        c.table.Replaced (.ofList [(7, TypeId.number)]) 7 TypeId.number ∧
        Satisfies false c.table TypeId.number TypeId.number signature.bindings := by
  have ends : ((Checker.new .default).step (declareAndCheck comparedBox)).1 = .ok () := by
    decide +kernel
  have table : ((Checker.new .default).step (declareAndCheck comparedBox)).2.table =
      comparedBoxTable := by decide +kernel
  have silent : ((Checker.new .default).step
      (declareAndCheck comparedBox)).2.diagnostics.isEmpty := by decide +kernel
  have options : ((Checker.new .default).step (declareAndCheck comparedBox)).2.options =
    .default := by decide +kernel
  generalize (Checker.new .default).step (declareAndCheck comparedBox) = outcome
    at ends table silent options
  obtain ⟨result, c⟩ := outcome
  dsimp only at ends table silent options
  let bindings : Bindings := .ofList [(10, TypeId.number)]
  let check : DeferredConstraint := ⟨10, TypeId.number, bindings, .unknown, c.currentFile⟩
  have answered (target : TypeId) (verdict : Bool)
      (run : ((Assignability.assignableWithin false 20 TypeId.number target false).run
        (.ofTable comparedBoxTable)).any
          (fun r => r.1.isOk == verdict && r.2.table == comparedBoxTable) = true) :
      ∃ answer : Verdict, answer.isOk = verdict ∧
        (assignable false TypeId.number target false).run comparedBoxTable =
          (answer, comparedBoxTable) := by
    obtain ⟨⟨answer, σ⟩, done, both⟩ := (Option.any_eq_true _ _).mp run
    obtain ⟨isVerdict, same⟩ := Bool.and_eq_true_iff.mp both
    have answers : Assignability.Answers false comparedBoxTable TypeId.number target false answer
        comparedBoxTable := ⟨20, σ, done, beq_iff_eq.mp same⟩
    exact ⟨answer, beq_iff_eq.mp isVerdict, answers.run_assignable⟩
  have violated : (check.violation? false comparedBoxTable).map Diagnostic.message =
      some "Type 'number' does not satisfy the constraint 'T'." := by
    obtain ⟨answer, refused, run⟩ := answered 7 false (by decide +kernel)
    have constraint : comparedBoxTable.constraint? 10 = some 7 := rfl
    have bound : (substitute 7 bindings).run comparedBoxTable = (7, comparedBoxTable) := rfl
    simp only [DeferredConstraint.violation?, check, constraint, bound, run]
    cases answer with
    | ok => cases refused
    | error mismatch =>
        rw [Option.map_some, Diagnostic.message_inFile]
        decide +kernel
  refine ⟨c, by rw [ends], List.isEmpty_iff.mp silent, by rw [table]; rfl,
    ⟨bindings, [TypeId.number], TypeId.void, []⟩, by rw [table]; rfl, ?_, by rw [table]; rfl,
    .bound rfl, ?_⟩
  · have number : bindings.find? 10 = some TypeId.number := rfl
    obtain ⟨t, -, judged⟩ := Checker.step_checkBindings_cons { c with phase := .checking } rfl
      bindings .unknown number [] []
    rw [judged, violations_singleton]
    simp only [checkBindings, Checker.step_pure, DiagnosticCollection.toList_append,
      List.isEmpty_iff.mp silent, List.nil_append]
    rw [table, options]
    have listed := congrArg Option.toList violated
    rwa [Option.toList_map] at listed
  · obtain ⟨answer, accepted, run⟩ := answered TypeId.number true (by decide +kernel)
    have bound : (substitute TypeId.number bindings).run comparedBoxTable =
        (TypeId.number, comparedBoxTable) := rfl
    simp only [table, Satisfies, bound, run]
    cases answer with
    | ok => rfl
    | error mismatch => cases accepted

end Calls

end StructuralTyping
