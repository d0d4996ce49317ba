import StructuralTyping.Proofs.KeptDeclarations

/-! What declaring enters, and in which places. The functions and the written types of
variables stand in the order of the statements that declare them, and a name stands for the
first function of that name, at its place. -/
namespace StructuralTyping

open CheckM

section Statements

/-- The types that are written of the variables that statements declare. -/
def writtenTypes : List Statement → List (Option TypeNode)
  | [] => []
  | .variable _ declaredType _ _ :: rest => declaredType :: writtenTypes rest
  | _ :: rest => writtenTypes rest

theorem writtenTypes_cons (statement : Statement) (rest : List Statement) :
    writtenTypes (statement :: rest) = writtenTypes [statement] ++ writtenTypes rest := by
  cases statement <;> rfl

theorem writtenTypes_append (first second : List Statement) :
    writtenTypes (first ++ second) = writtenTypes first ++ writtenTypes second := by
  induction first with
  | nil => rfl
  | cons statement rest ih =>
      rw [List.cons_append, writtenTypes_cons, writtenTypes_cons statement rest, ih,
        List.append_assoc]

/-- The function at this index is the first one of the name. -/
def FirstFunction (statements : List Statement) (name : String) (index : Nat) : Prop :=
  ∃ earlier node later, statements = earlier ++ .function name node :: later ∧
    (functionNodes earlier).length = index ∧ ∀ other, .function name other ∉ earlier

theorem FirstFunction.append {statements : List Statement} {name : String} {index : Nat}
    (first : FirstFunction statements name index) (more : List Statement) :
    FirstFunction (statements ++ more) name index := by
  obtain ⟨earlier, node, later, rfl, place, new⟩ := first
  exact ⟨earlier, node, later ++ more, by rw [List.append_assoc, List.cons_append], place, new⟩

end Statements

/-- What the statements declare is entered, and nothing else: functions and variables in
their order, and every name of a function, which stands for the first one if for any. -/
structure Checker.Lists (c : Checker) (statements : List Statement) : Prop where
  nodes : c.functions.toList.map DeclaredFunction.node = functionNodes statements
  written : c.variableTypes.size = (writtenTypes statements).length
  firsts : ∀ name index, c.globals.find? name = some (.function index) →
    FirstFunction statements name index
  names : ∀ name node, .function name node ∈ statements → c.globals.contains name = true

/-- A name that stands for a function stands for the first one that is declared under it, which
is at its place in the list. -/
def Checker.NamesFirst (c : Checker) (statements : List Statement) : Prop :=
  ∀ name index, c.globals.find? name = some (.function index) →
    ∃ earlier node later, statements = earlier ++ .function name node :: later ∧
      (∀ other, .function name other ∉ earlier) ∧ (functionNodes earlier).length = index ∧
        ∃ f, c.functions[index]? = some f ∧ f.node = node

/-- More may have been declared, behind what was declared before. -/
structure Checker.DeclaresMore (c c' : Checker) : Prop where
  files : c'.files = c.files
  variableTypes : c.variableTypes.toList <+: c'.variableTypes.toList

namespace Checker

variable {c c' c'' : Checker} {statements : List Statement}

theorem DeclaresMore.trans (one : c.DeclaresMore c') (two : c'.DeclaresMore c'') :
    c.DeclaresMore c'' :=
  ⟨two.files.trans one.files, one.variableTypes.trans two.variableTypes⟩

theorem Retains.declaresMore (kept : c.Retains c') : c.DeclaresMore c' :=
  ⟨kept.files, by rw [kept.variableTypes]⟩

namespace Lists

theorem retained (lists : c.Lists statements) (kept : c.Retains c') : c'.Lists statements where
  nodes := kept.nodes.trans lists.nodes
  written := by rw [kept.variableTypes, lists.written]
  firsts name index found := lists.firsts name index (kept.functions name index found)
  names name node member := kept.names name (lists.names name node member)

theorem size_functions (lists : c.Lists statements) :
    c.functions.size = (functionNodes statements).length := by
  simpa using congrArg List.length lists.nodes

/-- Behind earlier statements stands the function of the next one. -/
theorem function {earlier later : List Statement} {name : String} {node : FunctionNode}
    (lists : c.Lists (earlier ++ .function name node :: later)) :
    ∃ f, c.functions[(functionNodes earlier).length]? = some f ∧ f.node = node := by
  have found := congrArg (·[(functionNodes earlier).length]?) lists.nodes
  rw [functionNodes_append, List.getElem?_append_right (Nat.le_refl _), Nat.sub_self,
    functionNodes, List.getElem?_map, Array.getElem?_toList] at found
  exact Option.map_eq_some_iff.mp found

theorem namesFirst (lists : c.Lists statements) : c.NamesFirst statements := by
  intro name index found
  obtain ⟨earlier, node, later, rfl, rfl, new⟩ := lists.firsts name index found
  exact ⟨earlier, node, later, rfl, new, rfl, lists.function⟩

/-- A statement that declares neither a function nor a variable changes nothing. -/
theorem other (lists : c.Lists statements) {statement : Statement}
    (noFunction : functionNodes [statement] = []) (noVariable : writtenTypes [statement] = []) :
    c.Lists (statements ++ [statement]) where
  nodes := by rw [functionNodes_append, noFunction, List.append_nil, lists.nodes]
  written := by rw [writtenTypes_append, noVariable, List.append_nil, lists.written]
  firsts name index found := (lists.firsts name index found).append _
  names name node member := by
    rcases List.mem_append.mp member with before | here
    · exact lists.names name node before
    · obtain rfl := List.mem_singleton.mp here
      simp [functionNodes] at noFunction

/-- A variable is entered behind the others. -/
theorem pushVariable (lists : c.Lists statements) (name : String) (declaredType : Option TypeNode)
    (initializer : Option Expression) (location : Location) (declared : Option TypeId)
    (hoisted : Dictionary String TypeId) :
    ({ c with variableTypes := c.variableTypes.push declared, hoisted := hoisted } : Checker).Lists
      (statements ++ [.variable name declaredType initializer location]) where
  nodes := by rw [functionNodes_append]; simpa [functionNodes] using lists.nodes
  written := by simp [writtenTypes_append, writtenTypes, lists.written]
  firsts other index found := (lists.firsts other index found).append _
  names other node member := by
    refine lists.names other node ((List.mem_append.mp member).resolve_right ?_)
    simp

/-- A function is entered behind the others. If its name is new, it stands for the function;
else it stands for what it stood for. -/
theorem pushFunction (lists : c.Lists statements) (name : String) (f : DeclaredFunction)
    {globals : Dictionary String ValueSymbol}
    (named : globals = if c.globals.contains name then c.globals
      else c.globals.insert name (.function c.functions.size)) :
    ({ c with functions := c.functions.push f, globals := globals } : Checker).Lists
      (statements ++ [.function name f.node]) where
  nodes := by simp [functionNodes_append, functionNodes, lists.nodes]
  written := by simp [writtenTypes_append, writtenTypes, lists.written]
  firsts other index found := by
    dsimp only at found
    subst named
    split at found
    · exact (lists.firsts other index found).append _
    · next fresh =>
        rw [Dictionary.find?_insert] at found
        split at found
        · next same =>
            obtain rfl : name = other := by simpa using same
            obtain rfl : c.functions.size = index := by simpa using found
            exact ⟨statements, f.node, [], rfl, lists.size_functions.symm, fun node member =>
              fresh (lists.names _ node member)⟩
        · exact (lists.firsts other index found).append _
  names other node member := by
    dsimp only
    subst named
    have kept : other = name ∨ c.globals.contains other = true := by
      rcases List.mem_append.mp member with before | here
      · exact .inr (lists.names other node before)
      · exact .inl (Statement.function.inj (List.mem_singleton.mp here)).1
    split
    · next present => exact kept.elim (· ▸ present) id
    · rw [Dictionary.contains_insert]
      rcases kept with rfl | before
      · simp
      · rw [before, Bool.or_true]

end Lists

end Checker

section Declaring

/-- The step declares what the statements declare. -/
def Enters (statements : List Statement) (m : CheckM Unit) : Prop :=
  ∀ (earlier : List Statement) (c c' : Checker), c.Lists earlier → c.step m = (.ok (), c') →
    c.DeclaresMore c' ∧ c'.Lists (earlier ++ statements)

namespace Enters

variable {α : Type} {first second statements : List Statement} {m m' : CheckM Unit}

theorem of_retaining (retaining : Retaining m) : Enters [] m := by
  intro earlier c c' lists done
  have kept := retaining.keeps c
  rw [done] at kept
  exact ⟨kept.declaresMore, by rw [List.append_nil]; exact lists.retained kept⟩

theorem bind (one : Enters first m) (two : Enters second m') :
    Enters (first ++ second) (m >>= fun _ => m') := by
  intro earlier c c' lists done
  obtain ⟨_, between, done, later⟩ := Checker.step_bind_ok done
  obtain ⟨more, lists⟩ := one earlier c between lists done
  obtain ⟨evenMore, lists⟩ := two _ between c' lists later
  rw [List.append_assoc] at lists
  exact ⟨more.trans evenMore, lists⟩

/-- Steps before that declare nothing do not matter. -/
theorem after {n : CheckM α} {k : α → CheckM Unit} (retaining : Retaining n)
    (next : ∀ a, Enters statements (k a)) : Enters statements (n >>= k) := by
  intro earlier c c' lists done
  obtain ⟨a, between, done, later⟩ := Checker.step_bind_ok done
  have kept := retaining.keeps c
  rw [done] at kept
  obtain ⟨more, lists⟩ := next a earlier between c' (lists.retained kept) later
  exact ⟨kept.declaresMore.trans more, lists⟩

/-- Steps afterwards that declare nothing do not matter. -/
theorem before (enters : Enters statements m) (retaining : Retaining m') :
    Enters statements (m >>= fun _ => m') := by
  simpa using enters.bind (of_retaining retaining)

theorem other {statement : Statement} (noFunction : functionNodes [statement] = [])
    (noVariable : writtenTypes [statement] = []) (others : Enters statements m) :
    Enters (statement :: statements) m := by
  intro earlier c c' lists done
  have declared := others _ c c' (lists.other noFunction noVariable) done
  rwa [List.append_assoc] at declared

end Enters

theorem enters_enterFunction (name : String) (f : DeclaredFunction) :
    Enters [.function name f.node] (enterFunction name f) := by
  intro earlier c c' lists done
  rw [enterFunction_eq, Checker.step_bind, Checker.step_get] at done
  dsimp only at done
  rw [Checker.step_bind, Checker.step_modify] at done
  dsimp only at done
  split at done
  · next taken =>
      obtain ⟨-, rfl⟩ := Prod.mk.inj done
      have pushed := lists.pushFunction name { f with file := c.currentFile } (if_pos taken).symm
      exact ⟨⟨rfl, List.prefix_refl _⟩, pushed.retained (.of_eq rfl rfl rfl rfl)⟩
  · next fresh =>
      obtain ⟨-, rfl⟩ := Prod.mk.inj done
      exact ⟨⟨rfl, List.prefix_refl _⟩,
        lists.pushFunction name { f with file := c.currentFile } (if_neg fresh).symm⟩

theorem enters_declareFunction (name : String) (node : FunctionNode) :
    Enters [.function name node] (declareFunction name node) := by
  have property := Retaining.fileProperty
  have entered (ids : List TypeId) (resolved : List Parameter) (result type : Option TypeId) :=
    enters_enterFunction name ⟨node, none, ids, resolved, result, type, .unchecked⟩
  rw [declareFunction_eq]
  refine .after property.pushScope fun _ => ?_
  have written := property.scopedProperty
  refine .after (written.declareTypeParameters _ fun _ _ => trivial) fun ids => ?_
  refine .after (written.resolveParameters none 0 _ fun _ _ => trivial) fun resolved => ?_
  refine .after (.resolveOptionalType _) fun result => ?_
  refine .after property.popScope fun _ => ?_
  cases result with
  | none => exact .after (.pure none) fun _ => entered _ _ _ _
  | some result => exact .after (.onTable _) fun id => .after (.pure _) fun _ => entered _ _ _ _

/-- The type that is kept of a variable is the one that was resolved for it. -/
theorem declareHoisted_resolves {name : String} {declaredType : Option TypeNode} {c c' : Checker}
    (done : c.step (declareHoisted name declaredType) = (.ok (), c')) :
    ∃ declared between, c.step (resolveOptionalType declaredType) = (.ok declared, between) ∧
      c'.variableTypes = c.variableTypes.push declared := by
  obtain ⟨declared, between, resolved, ⟨⟩⟩ := Checker.step_bind_ok done
  have kept := (Retaining.resolveOptionalType declaredType).keeps c
  rw [resolved] at kept
  exact ⟨declared, between, resolved, congrArg (·.push declared) kept.variableTypes⟩

theorem enters_declareHoisted (name : String) (declaredType : Option TypeNode)
    (initializer : Option Expression) (location : Location) :
    Enters [.variable name declaredType initializer location]
      (declareHoisted name declaredType) := by
  refine .after (.resolveOptionalType _) fun declared => ?_
  rintro earlier c _ lists ⟨⟩
  have pushed := lists.pushVariable name declaredType initializer location declared
  exact ⟨⟨rfl, by simp⟩, pushed _⟩

theorem enters_declareStatements : ∀ statements : List Statement,
    Enters statements (declareStatements statements)
  | [] => .of_retaining (.pure ())
  | .function name node :: rest =>
      (enters_declareFunction name node).bind (enters_declareStatements rest)
  | .variable name declaredType initializer location :: rest =>
      (enters_declareHoisted name declaredType initializer location).bind
        (enters_declareStatements rest)
  | .interface _ :: rest
  | .expression _ _ :: rest
  | .returning _ _ :: rest => .other rfl rfl (enters_declareStatements rest)

theorem enters_declareFiles (files : List SourceFile) :
    Enters (allStatements files) (declareFiles files) := by
  induction files with
  | nil => exact .of_retaining (.pure ())
  | cons file rest ih =>
      exact .after (.setFile _) fun _ => (enters_declareStatements file.statements).bind ih

end Declaring

end StructuralTyping
