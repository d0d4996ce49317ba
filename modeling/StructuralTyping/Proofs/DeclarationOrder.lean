import Mathlib.Data.List.Nodup
import StructuralTyping.Proofs.ConstraintChecks

/-! Interfaces may be declared in any order. If their names differ, a program with its
interfaces in other places has the same findings in its declarations: they are reported
first, in another order, the same type arguments have to satisfy a constraint, and every
interface goes by its name. A type that is not generic is an exception, for the report names
it by what it is when it is resolved. -/
namespace StructuralTyping

/-- The file with interfaces in other places. -/
structure SourceFile.Reordered (file file' : SourceFile) : Prop where
  name : file.name = file'.name
  statements : file.statements.Perm file'.statements
  others : file.statements.filter (fun s => s.interface?.isNone) =
    file'.statements.filter (fun s => s.interface?.isNone)

section Interfaces
variable {interfaces interfaces' : List PlacedInterface}

/-- Under different names, a name stands for the interface that has it. -/
theorem interfaceNames_eq_some_iff
    (distinct : (interfaces.map fun placed => placed.2.name).Nodup) {name : String}
    {arity : Option Nat} :
    interfaceNames interfaces name = some arity ↔
      ∃ placed ∈ interfaces, placed.2.name = name ∧ placed.2.arity = arity := by
  rw [interfaceNames, Option.map_eq_some_iff]
  constructor
  · rintro ⟨placed, found, same⟩
    exact ⟨placed, List.mem_of_find?_eq_some found,
      by simpa using List.find?_some found, same⟩
  · rintro ⟨placed, member, named, same⟩
    cases found : interfaces.find? fun entered => entered.2.name == name with
    | none => exact absurd (List.find?_eq_none.mp found placed member) (by simp [named])
    | some first =>
        have alike : first.2.name = placed.2.name := by
          rw [named]
          simpa using List.find?_some found
        have here := List.inj_on_of_nodup_map distinct (List.mem_of_find?_eq_some found) member alike
        exact ⟨first, rfl, here ▸ same⟩

theorem interfaceNames_perm (moved : interfaces.Perm interfaces')
    (distinct : (interfaces.map fun placed => placed.2.name).Nodup) :
    interfaceNames interfaces = interfaceNames interfaces' := by
  have distinct' := (moved.map fun placed => placed.2.name).nodup_iff.mp distinct
  refine funext fun name => Option.ext fun arity => ?_
  rw [interfaceNames_eq_some_iff distinct, interfaceNames_eq_some_iff distinct']
  simp only [moved.mem_iff]

/-- Every interface of a new name is entered, and none is a duplicate. -/
theorem interfaces_of_distinct (earlier : List String)
    (distinct : (interfaces.map fun placed => placed.2.name).Nodup)
    (new : ∀ placed ∈ interfaces, placed.2.name ∉ earlier) :
    newInterfaces earlier interfaces = interfaces ∧
      repeatedInterfaces earlier interfaces = [] := by
  induction interfaces generalizing earlier with
  | nil => exact ⟨rfl, rfl⟩
  | cons placed rest ih =>
      obtain ⟨absent, distinct⟩ := List.nodup_cons.mp distinct
      obtain ⟨here, later⟩ := List.forall_mem_cons.mp new
      have apart : ∀ other ∈ rest, other.2.name ∉ placed.2.name :: earlier := by
        intro other member listed
        rcases List.mem_cons.mp listed with same | before
        · exact absent (List.mem_map.mpr ⟨other, member, same⟩)
        · exact later other member before
      obtain ⟨entered, repeated⟩ := ih (placed.2.name :: earlier) distinct apart
      rw [newInterfaces, repeatedInterfaces, if_neg here, if_neg here, entered, repeated]
      exact ⟨rfl, rfl⟩

end Interfaces

section Notes
variable {files files' : List SourceFile}

/-- Functions and variables are found in the same order wherever the interfaces stand. -/
theorem statementFindings_filter (names : Names) :
    ∀ (taken : List String) (statements : List Statement),
      statementFindings names taken (statements.filter fun s => s.interface?.isNone) =
        statementFindings names taken statements
  | _, [] => rfl
  | taken, .interface _ :: rest => statementFindings_filter names taken rest
  | taken, .function name node :: rest =>
      congrArg (fun later => node.signatureFindings names ++
        ((if name ∈ taken then [.duplicate name node.location] else []) ++ later))
        (statementFindings_filter names (taken ++ [name]) rest)
  | taken, .variable _ declaredType _ _ :: rest =>
      congrArg (optionalTypeFindings names declaredType ++ ·)
        (statementFindings_filter names taken rest)
  | taken, .expression _ _ :: rest => statementFindings_filter names taken rest
  | taken, .returning _ _ :: rest => statementFindings_filter names taken rest

theorem functionNames_filter (statements : List Statement) :
    (statements.filter fun s => s.interface?.isNone).filterMap Statement.functionName? =
      statements.filterMap Statement.functionName? := by
  rw [List.filterMap_filter]
  refine List.filterMap_congr fun statement _ => ?_
  cases statement <;> rfl

theorem fileNotes_reordered (reordered : List.Forall₂ SourceFile.Reordered files files')
    (names : Names) (taken : List String) :
    fileNotes names taken files = fileNotes names taken files' := by
  induction reordered generalizing taken with
  | nil => rfl
  | cons here _ ih =>
      rw [fileNotes, fileNotes, here.name, ← statementFindings_filter, ← functionNames_filter,
        here.others, statementFindings_filter, functionNames_filter, ih]

theorem programInterfaces_perm (reordered : List.Forall₂ SourceFile.Reordered files files') :
    (programInterfaces files).Perm (programInterfaces files') := by
  induction reordered with
  | nil => exact .refl _
  | cons here _ ih =>
      rw [programInterfaces, programInterfaces, List.flatMap_cons, List.flatMap_cons, here.name]
      exact ((here.statements.filterMap _).map _).append ih

/-- The findings of a program are the same when its interfaces stand in other places. -/
theorem programNotes_perm (reordered : List.Forall₂ SourceFile.Reordered files files')
    (distinct : ((programInterfaces files).map fun placed => placed.2.name).Nodup) :
    (programNotes files).Perm (programNotes files') := by
  have moved := programInterfaces_perm reordered
  have distinct' := (moved.map fun placed => placed.2.name).nodup_iff.mp distinct
  obtain ⟨entered, repeated⟩ := interfaces_of_distinct [] distinct fun _ _ => List.not_mem_nil
  obtain ⟨entered', repeated'⟩ := interfaces_of_distinct [] distinct' fun _ _ => List.not_mem_nil
  rw [programNotes, programNotes, entered, repeated, entered', repeated',
    interfaceNames_perm moved distinct, fileNotes_reordered reordered]
  refine .append_left _ (.append (moved.flatMap_right _) (.append (moved.flatMap_right _) (.refl _)))

end Notes

section Names

/-- An interface goes by its name. -/
theorem TypeKind.IsInterface.text {t : TypeTable} {id : TypeId} {name : String}
    (interface : (t.kind id).IsInterface name) : t.text id = name := by
  rw [TypeTable.text, Display.typeText]
  generalize t.kind id = kind at interface ⊢
  cases interface with
  | generic typeParameters body => rfl
  | object properties => rfl

/-- The text of the type that is declared under a name. -/
def Checker.declaredText? (c : Checker) (name : String) : Option String :=
  (c.declaredType? name).map c.table.text

variable {files : List SourceFile} {options : CheckerOptions} {c : Checker}

/-- After a run that is not aborted, every interface of the program goes by its name. -/
theorem declaredText_interface
    (done : (Checker.new options).step (declareAndCheck files) = (.ok (), c))
    {placed : PlacedInterface} (member : placed ∈ programInterfaces files) :
    c.declaredText? placed.2.name = some placed.2.name := by
  obtain ⟨entered, queue, between, declares, judges⟩ := declareAndCheck_declares done
  have known : interfaceNames (programInterfaces files) placed.2.name ≠ none := by
    rw [Ne, interfaceNames_eq_none_iff, not_not]
    exact List.mem_map_of_mem member
  obtain ⟨id, found⟩ := Option.ne_none_iff_exists'.mp
    (fun absent => known ((declares.enters.known placed.2.name).mp absent))
  have interface := declares.enters.interface placed.2.name id found
  have extended := declares.extended.trans judges.underlies.extended
  have kept := judges.underlies.declared placed.2.name id (declares.declared ▸ found)
  have last : (c.table.kind id).IsInterface placed.2.name := by
    rw [extended.entry rfl fun unknown => nomatch unknown ▸ interface]
    exact interface
  rw [Checker.declaredText?, Checker.declaredType?, kept]
  exact congrArg some last.text

end Names

section Reordered
variable {files files' : List SourceFile} {options : CheckerOptions} {c c' : Checker}

/-- What is found in the declarations of a program is reported first. -/
theorem noteReports_first
    (done : (Checker.new options).step (declareAndCheck files) = (.ok (), c)) :
    noteReports (programNotes files) <+: c.diagnostics.toList.map Diagnostic.unnamed := by
  obtain ⟨entered, queue, between, declares, judges⟩ := declareAndCheck_declares done
  obtain ⟨others, new, -, reported, -⟩ := judges.reported
  rw [reported, declares.reported, List.append_assoc, List.map_append,
    declares.enters.reported]
  exact List.prefix_append _ _

/-- The runs agree about the declarations of their programs. -/
structure DeclaredAlike (files files' : List SourceFile) (c c' : Checker) : Prop where
  /-- The reports with which each run begins are the same in some order. -/
  reports : (noteReports (programNotes files)).Perm (noteReports (programNotes files'))
  first : noteReports (programNotes files) <+: c.diagnostics.toList.map Diagnostic.unnamed
  first' : noteReports (programNotes files') <+: c'.diagnostics.toList.map Diagnostic.unnamed
  /-- The same type arguments have to satisfy constraints. -/
  arguments : (noteArguments (programNotes files)).Perm (noteArguments (programNotes files'))
  texts : ∀ placed ∈ programInterfaces files,
    c.declaredText? placed.2.name = c'.declaredText? placed.2.name

/-- `interface A { x: B<number> }` and `interface B { }`. -/
def memberFirst : List SourceFile :=
  [⟨"", [
    .ofInterface "A" [] [.required "x" (.named "B" [.ofKeyword .number])],
    .ofInterface "B" [] []]⟩]

/-- The same interfaces the other way round. -/
def memberLast : List SourceFile :=
  [⟨"", [
    .ofInterface "B" [] [],
    .ofInterface "A" [] [.required "x" (.named "B" [.ofKeyword .number])]]⟩]

theorem members_reordered : List.Forall₂ SourceFile.Reordered memberFirst memberLast :=
  .cons ⟨rfl, .swap _ _ _, rfl⟩ .nil

theorem members_distinct :
    ((programInterfaces memberFirst).map fun placed => placed.2.name).Nodup := by
  decide

/-- The two runs, and what they report. -/
theorem members_reports :
    ∃ c c', (Checker.new .default).step (declareAndCheck memberFirst) = (.ok (), c) ∧
      (Checker.new .default).step (declareAndCheck memberLast) = (.ok (), c') ∧
      c.diagnostics.toList.map Diagnostic.message = ["Type 'unknown' is not generic."] ∧
      c'.diagnostics.toList.map Diagnostic.message = ["Type 'B' is not generic."] := by
  have run (files : List SourceFile) (messages : List String)
      (done : ((Checker.new .default).step (declareAndCheck files)).1 = .ok ())
      (reported : ((Checker.new .default).step (declareAndCheck files)).2.diagnostics.toList.map
        Diagnostic.message = messages) :
      ∃ c, (Checker.new .default).step (declareAndCheck files) = (.ok (), c) ∧
        c.diagnostics.toList.map Diagnostic.message = messages := by
    generalize (Checker.new .default).step (declareAndCheck files) = outcome at done reported
    obtain ⟨result, c⟩ := outcome
    exact ⟨c, congrArg (·, c) done, reported⟩
  obtain ⟨c, done, reported⟩ := run memberFirst ["Type 'unknown' is not generic."]
    (by decide +kernel) (by decide +kernel)
  obtain ⟨c', done', reported'⟩ := run memberLast ["Type 'B' is not generic."]
    (by decide +kernel) (by decide +kernel)
  exact ⟨c, c', done, done', reported, reported'⟩

end Reordered

end StructuralTyping
