import StructuralTyping.Proofs.IdentifierExpressions

/-! A run over a list of files. Declaring a function adds the identifiers of its
body to those that wait; entering the body checks them, whoever asked for it, and
takes them off. Every body has been entered when the statements are through, so
nothing waits and each identifier was reported once. -/
namespace StructuralTyping

open CheckM

variable {name : String}

namespace Checker

theorem sum_modify {α : Type} (weight : α → Nat) (change : α → α) (items : List α) {index : Nat}
    {item : α} (found : items[index]? = some item) :
    ((items.modify index change).map weight).sum + weight item =
      (items.map weight).sum + weight (change item) := by
  induction items generalizing index with
  | nil => simp at found
  | cons first rest ih =>
      cases index with
      | zero =>
          obtain rfl : first = item := by simpa using found
          simp only [List.modify_zero_cons, List.map_cons, List.sum_cons]
          omega
      | succ index =>
          have later := @ih index (by simpa using found)
          simp only [List.modify_succ_cons, List.map_cons, List.sum_cons]
          omega

/-- The checker after a change to one of its functions. -/
def withFunction (c : Checker) (index : Nat) (change : DeclaredFunction → DeclaredFunction) :
    Checker :=
  { c with functions := c.functions.modify index change }

theorem step_updateFunction (c : Checker) (index : Nat)
    (change : DeclaredFunction → DeclaredFunction) :
    c.step (updateFunction index change) = (.ok (), c.withFunction index change) := rfl

variable {c : Checker} {index : Nat} {change : DeclaredFunction → DeclaredFunction}

theorem balance_withFunction {f : DeclaredFunction} (found : c.functions[index]? = some f)
    (change : DeclaredFunction → DeclaredFunction) :
    (c.withFunction index change).balance name + f.pending name =
      c.balance name + (change f).pending name := by
  have listed : c.functions.toList[index]? = some f := by simpa using found
  have sums := sum_modify (DeclaredFunction.pending name) change c.functions.toList listed
  have same : (c.withFunction index change).missCount name = c.missCount name := rfl
  rw [balance, same, balance, withFunction, Array.toList_modify]
  omega

theorem nodes_withFunction (keeps : ∀ f, (change f).node = f.node) :
    (c.withFunction index change).functions.toList.map DeclaredFunction.node =
      c.functions.toList.map DeclaredFunction.node := by
  apply List.ext_getElem?
  intro i
  simp only [withFunction, Array.toList_modify, List.getElem?_map, List.getElem?_modify]
  by_cases same : index = i <;> cases c.functions.toList[i]? <;> simp [same, keeps]

theorem entered_withFunction (enters : ∀ f, (change f).body ≠ .unchecked) {i : Nat}
    (entered : c.Entered i) : (c.withFunction index change).Entered i := by
  obtain ⟨f, found, started⟩ := entered
  by_cases same : index = i
  · exact ⟨change f, by simp [withFunction, Array.getElem?_modify, same, found], enters f⟩
  · exact ⟨f, by simp [withFunction, Array.getElem?_modify, same, found], started⟩

theorem entered_self (enters : ∀ f, (change f).body ≠ .unchecked) {f : DeclaredFunction}
    (found : c.functions[index]? = some f) : (c.withFunction index change).Entered index :=
  ⟨change f, by simp [withFunction, Array.getElem?_modify, found], enters f⟩

theorem Unbound.withFunction (unbound : c.Unbound name) (keeps : ∀ f, (change f).node = f.node) :
    (c.withFunction index change).Unbound name where
  scopes := unbound.scopes
  globals := unbound.globals
  hoisted := unbound.hoisted
  functions f member := by
    have node : f.node ∈ (c.withFunction index change).functions.toList.map
        DeclaredFunction.node :=
      List.mem_map_of_mem (by simpa using member)
    rw [nodes_withFunction keeps] at node
    obtain ⟨original, known, same⟩ := List.mem_map.mp node
    exact same ▸ unbound.functions original (by simpa using known)

end Checker

/-- The check of a body between its beginning and its end, which the checker
outside does not see. -/
def checkEntered (types : FunctionTypes) (outside : Checker) (function : DeclaredFunction) :
    CheckM TypeId := do
  modify fun checker =>
    { checker with
      scopes := [functionScope function]
      returns := []
      currentFile := function.file }
  declareParameters (function.node.parameters.zip function.parameters)
  let result ←
    checkBodyWith (checkStatements types function.node.body) function.returnType
      function.node.location
  modify fun checker =>
    { checker with
      scopes := outside.scopes
      returns := outside.returns
      currentFile := outside.currentFile }
  match function.type with
  | some id => pure id
  | none => addType (.function ⟨function.typeParameters, function.parameters, result⟩)

def beginBody (f : DeclaredFunction) : DeclaredFunction := { f with body := .checking }

def endBody (type : TypeId) (f : DeclaredFunction) : DeclaredFunction :=
  { f with type := some type, body := .checked }

theorem node_beginBody (f : DeclaredFunction) : (beginBody f).node = f.node := rfl

theorem node_endBody (type : TypeId) (f : DeclaredFunction) : (endBody type f).node = f.node := rfl

theorem body_beginBody (f : DeclaredFunction) : (beginBody f).body ≠ .unchecked := by
  simp [beginBody]

theorem body_endBody (type : TypeId) (f : DeclaredFunction) :
    (endBody type f).body ≠ .unchecked := by
  simp [endBody]

theorem checkFunctionBody_eq (types : FunctionTypes) (index : Nat) :
    checkFunctionBody types index = (do
      let outside ← get
      match outside.functions[index]? with
      | none => return ()
      | some function =>
          if function.body ≠ .unchecked then return ()
          else
            updateFunction index beginBody
            let type ← checkEntered types outside function
            updateFunction index (endBody type)) := by
  unfold checkFunctionBody checkEntered
  refine congrArg (get >>= ·) (funext fun outside => ?_)
  cases outside.functions[index]? with
  | none => rfl
  | some function =>
      dsimp only
      split
      · rfl
      · simp only [bind_assoc]
        cases function.type <;> rfl

section Bodies
variable {types : FunctionTypes} (quiet : ∀ index, Accounts name 0 (types index))
  (plain : name ≠ "undefined")

include quiet plain

theorem accounts_checkEntered {outside : Checker} (unbound : outside.Unbound name)
    (function : DeclaredFunction) (absent : Undeclared name function.node.occurrences) :
    Accounts name (identifierCount name function.node.occurrences)
      (checkEntered types outside function) := by
  obtain ⟨⟨typeParameters, parameters, returnType, body, location⟩, file, ids, declared, result,
    type, state⟩ := function
  obtain ⟨signature, inBody⟩ := (Undeclared.append_iff _ _).mp absent
  obtain ⟨-, -, -, apart⟩ := undeclared_signature signature
  rw [FunctionNode.occurrences, identifierCount_append, identifierCount_signature, Nat.zero_add]
  refine Accounts.quietly (.modify ?_ fun _ => ⟨rfl, rfl, rfl⟩) fun _ => ?_
  · exact fun c before => before.withScopes (by simp [functionScope, Scope.empty]) rfl rfl rfl
  refine (accounts_declareParameters _ ?_).quietly fun _ => ?_
  · exact fun parameter member => apart _ (List.of_mem_zip member).1
  have statements := accounts_checkStatements quiet plain body inBody
  refine (accounts_checkBodyWith statements _ _).followed fun id => ?_
  refine Accounts.quietly (.modify ?_ fun _ => ⟨rfl, rfl, rfl⟩) fun _ => ?_
  · exact fun c before => before.withScopes unbound.scopes rfl rfl rfl
  cases type with
  | some id => exact .pure id
  | none => exact accounts_addType _

/-- Whoever asks for the check of a body, the account does not change, and the
body is entered. -/
theorem advances_checkFunctionBody {c c' : Checker} (index : Nat) (unbound : c.Unbound name)
    (done : c.step (checkFunctionBody types index) = (.ok (), c')) :
    c.Advances name 0 [] c' ∧ (index < c.functions.size → c'.Entered index) := by
  rw [checkFunctionBody_eq, Checker.step_bind] at done
  dsimp only [Checker.step_get] at done
  cases found : c.functions[index]? with
  | none =>
      rw [found] at done
      obtain ⟨-, rfl⟩ := Prod.mk.inj done
      have outside : c.functions.size ≤ index := by simpa using found
      exact ⟨.of_keeps unbound ⟨rfl, rfl, rfl⟩, fun inside => absurd inside (Nat.not_lt.mpr outside)⟩
  | some function =>
      rw [found] at done
      dsimp only at done
      split at done
      · next started =>
          obtain ⟨-, rfl⟩ := Prod.mk.inj done
          exact ⟨.of_keeps unbound ⟨rfl, rfl, rfl⟩, fun _ => ⟨function, found, started⟩⟩
      · next unchecked =>
          have waiting : function.body = .unchecked := by simpa using unchecked
          have absent := unbound.functions function (Array.mem_of_getElem? found)
          rw [Checker.step_bind, Checker.step_updateFunction] at done
          obtain ⟨type, between, checked, ended⟩ := Checker.step_bind_ok done
          rw [Checker.step_updateFunction] at ended
          obtain ⟨-, rfl⟩ := Prod.mk.inj ended
          have begun : (c.withFunction index beginBody).Unbound name :=
            unbound.withFunction node_beginBody
          obtain ⟨_, rfl, reached⟩ :=
            accounts_checkEntered quiet plain unbound function absent _ begun between type checked
          have entered : between.Entered index :=
            reached.entered index (Checker.entered_self body_beginBody found)
          obtain ⟨f, known, started⟩ := entered
          refine ⟨⟨?_, ?_, ?_, ?_, ?_⟩, fun _ => ?_⟩
          · -- the identifiers leave the bodies at the beginning, and none wait at the end
            have taken := @Checker.balance_withFunction name _ _ _ found beginBody
            have kept := @Checker.balance_withFunction name _ _ _ known (endBody type)
            simp only [DeclaredFunction.pending, beginBody, endBody, waiting, started,
              reduceCtorEq, if_true, if_false, reached.balance] at taken kept
            omega
          · exact reached.unbound.withFunction (node_endBody type)
          · rw [Checker.nodes_withFunction (node_endBody type), reached.nodes,
              Checker.nodes_withFunction node_beginBody]
          · intro i before
            exact Checker.entered_withFunction (body_endBody type)
              (reached.entered i (Checker.entered_withFunction body_beginBody before))
          · exact reached.files
          · exact Checker.entered_withFunction (body_endBody type) ⟨f, known, started⟩

theorem accounts_checkFunctionBody (index : Nat) :
    Accounts name 0 (checkFunctionBody types index) :=
  fun _ unbound _ _ done =>
    ⟨0, rfl, (advances_checkFunctionBody quiet plain index unbound done).1⟩

end Bodies

theorem accounts_functionTypeWithin (plain : name ≠ "undefined") (fuel index : Nat) :
    Accounts name 0 (functionTypeWithin fuel index) := by
  induction fuel generalizing index with
  | zero => exact .pure _
  | succ fuel ih =>
      refine Accounts.get.quietly fun c => ?_
      split
      · exact .pure _
      · split
        · exact .pure _
        · refine .ite (.pure _) ?_
          refine (accounts_checkFunctionBody ih plain index).quietly fun _ => ?_
          exact Accounts.get.quietly fun c => .pure _

theorem accounts_functionType (plain : name ≠ "undefined") (index : Nat) :
    Accounts name 0 (functionType index) :=
  Accounts.get.quietly fun _ => accounts_functionTypeWithin plain _ index

section Programs

/-- The functions that statements declare. -/
def functionNodes : List Statement → List FunctionNode
  | [] => []
  | .function _ node :: rest => node :: functionNodes rest
  | _ :: rest => functionNodes rest

/-- The identifiers of the name in function bodies. -/
def waitingCount (name : String) (nodes : List FunctionNode) : Nat :=
  (nodes.map fun node => identifierCount name node.occurrences).sum

/-- The identifiers of the name outside the functions that statements declare. -/
def outsideCount (name : String) : List Statement → Nat
  | [] => 0
  | .function _ _ :: rest => outsideCount name rest
  | statement :: rest => identifierCount name statement.occurrences + outsideCount name rest

@[simp] theorem waitingCount_append (first second : List FunctionNode) :
    waitingCount name (first ++ second) = waitingCount name first + waitingCount name second := by
  simp [waitingCount]

theorem functionNodes_cons (statement : Statement) (rest : List Statement) :
    functionNodes (statement :: rest) = functionNodes [statement] ++ functionNodes rest := by
  cases statement <;> rfl

theorem outsideCount_cons (statement : Statement) (rest : List Statement) :
    outsideCount name (statement :: rest) =
      outsideCount name [statement] + outsideCount name rest := by
  cases statement <;> simp [outsideCount]

theorem identifierCount_statements (statements : List Statement) :
    identifierCount name (statementOccurrences statements) =
      outsideCount name statements + waitingCount name (functionNodes statements) := by
  induction statements with
  | nil => rfl
  | cons statement rest ih =>
      rw [statementOccurrences, identifierCount_append, ih]
      cases statement with
      | function other node =>
          simp only [Statement.occurrences, identifierCount_cons_declaration, outsideCount,
            functionNodes, waitingCount, List.map_cons, List.sum_cons]
          omega
      | _ =>
          simp only [outsideCount, functionNodes]
          omega

theorem statementOccurrences_append (first second : List Statement) :
    statementOccurrences (first ++ second) =
      statementOccurrences first ++ statementOccurrences second := by
  induction first with
  | nil => rfl
  | cons statement rest ih =>
      rw [List.cons_append, statementOccurrences, statementOccurrences, ih, List.append_assoc]

theorem functionNodes_append (first second : List Statement) :
    functionNodes (first ++ second) = functionNodes first ++ functionNodes second := by
  induction first with
  | nil => rfl
  | cons statement rest ih =>
      rw [List.cons_append, functionNodes_cons, functionNodes_cons statement rest, ih,
        List.append_assoc]

theorem outsideCount_append (first second : List Statement) :
    outsideCount name (first ++ second) = outsideCount name first + outsideCount name second := by
  induction first with
  | nil => simp [outsideCount]
  | cons statement rest ih =>
      rw [List.cons_append, outsideCount_cons, outsideCount_cons statement rest, ih, Nat.add_assoc]

def allStatements (files : List SourceFile) : List Statement :=
  files.flatMap SourceFile.statements

theorem programOccurrences_eq (files : List SourceFile) :
    programOccurrences files = statementOccurrences (allStatements files) := by
  induction files with
  | nil => rfl
  | cons file rest ih =>
      rw [allStatements, List.flatMap_cons, statementOccurrences_append, ← allStatements, ← ih]
      rfl

end Programs

namespace Checker

/-- The first function bodies have been entered. -/
def EnteredBelow (c : Checker) (count : Nat) : Prop :=
  ∀ index < count, index < c.functions.size → c.Entered index

theorem Advances.size {n : Nat} {c c' : Checker} (reached : c.Advances name n [] c') :
    c'.functions.size = c.functions.size := by
  simpa using congrArg List.length reached.nodes

theorem Advances.enteredBelow {n count : Nat} {c c' : Checker} (reached : c.Advances name n [] c')
    (below : c.EnteredBelow count) : c'.EnteredBelow count := by
  intro index inside known
  rw [reached.size] at known
  exact reached.entered index (below index inside known)

end Checker

section Checking
variable (plain : name ≠ "undefined")

include plain

theorem accounts_checkTopLevelStatement (cursor : TopLevelCursor) :
    ∀ statement : Statement, functionNodes [statement] = [] →
      Undeclared name statement.occurrences →
      AccountsFor name (checkTopLevelStatement cursor statement) fun next found =>
        next.functionCount = cursor.functionCount ∧ found = outsideCount name [statement]
  | .interface _, _, _ => .pure ⟨rfl, (identifierCount_asTypeNames _ _).symm⟩
  | .variable _ declaredType initializer location, _, absent => by
      refine .after .get fun c => AccountsFor.bind (accounts_checkVariable
        (accounts_functionType plain) plain declaredType _ location initializer absent) ?_
      rintro _ _ rfl
      exact .pure ⟨rfl, rfl⟩
  | .expression expression location, _, absent => by
      refine AccountsFor.bind (accounts_checkStatement (accounts_functionType plain) plain
        (.expression expression location) absent) ?_
      rintro _ _ rfl
      exact .pure ⟨rfl, rfl⟩
  | .returning expression location, _, absent => by
      refine AccountsFor.bind (accounts_checkStatement (accounts_functionType plain) plain
        (.returning expression location) absent) ?_
      rintro _ _ rfl
      exact .pure ⟨rfl, rfl⟩

/-- A top-level statement accounts for what stands outside functions and enters
the function that it declares. -/
theorem advances_checkTopLevelStatement (statement : Statement)
    (absent : Undeclared name statement.occurrences) {c c' : Checker}
    {cursor cursor' : TopLevelCursor} (unbound : c.Unbound name)
    (below : c.EnteredBelow cursor.functionCount)
    (done : c.step (checkTopLevelStatement cursor statement) = (.ok cursor', c')) :
    c.Advances name (outsideCount name [statement]) [] c' ∧
      cursor'.functionCount = cursor.functionCount + (functionNodes [statement]).length ∧
      c'.EnteredBelow cursor'.functionCount := by
  by_cases other : functionNodes [statement] = []
  · obtain ⟨_, ⟨kept, rfl⟩, reached⟩ :=
      accounts_checkTopLevelStatement plain cursor statement other absent c unbound c' cursor' done
    exact ⟨reached, by simp [kept, other], kept ▸ reached.enteredBelow below⟩
  · obtain ⟨name, node, rfl⟩ : ∃ name node, statement = .function name node := by
      cases statement <;> simp_all [functionNodes]
    obtain ⟨_, entered, body, ended⟩ := Checker.step_bind_ok done
    obtain ⟨rfl, rfl⟩ : _ = cursor' ∧ entered = c' := by simpa using ended
    obtain ⟨reached, self⟩ :=
      advances_checkFunctionBody (accounts_functionType plain) plain _ unbound body
    refine ⟨reached, rfl, fun index inside known => ?_⟩
    rcases Nat.lt_succ_iff_lt_or_eq.mp inside with before | rfl
    · exact reached.enteredBelow below index before known
    · exact self (reached.size ▸ known)

theorem advances_checkTopLevelStatements (statements : List Statement)
    (absent : Undeclared name (statementOccurrences statements)) {c c' : Checker}
    {cursor cursor' : TopLevelCursor} (unbound : c.Unbound name)
    (below : c.EnteredBelow cursor.functionCount)
    (done : c.step (checkTopLevelStatements cursor statements) = (.ok cursor', c')) :
    c.Advances name (outsideCount name statements) [] c' ∧
      cursor'.functionCount = cursor.functionCount + (functionNodes statements).length ∧
      c'.EnteredBelow cursor'.functionCount := by
  induction statements generalizing c cursor with
  | nil =>
      obtain ⟨rfl, rfl⟩ : cursor = cursor' ∧ c = c' := by
        simpa [checkTopLevelStatements] using done
      exact ⟨.of_keeps unbound ⟨rfl, rfl, rfl⟩, rfl, below⟩
  | cons statement rest ih =>
      obtain ⟨here, later⟩ := (Undeclared.append_iff _ _).mp absent
      obtain ⟨next, between, one, others⟩ := Checker.step_bind_ok done
      obtain ⟨reached, counted, covered⟩ :=
        advances_checkTopLevelStatement plain statement here unbound below one
      obtain ⟨reached', counted', covered'⟩ := ih later reached.unbound covered others
      refine ⟨?_, ?_, covered'⟩
      · rw [outsideCount_cons]
        exact reached.trans reached'
      · rw [functionNodes_cons, List.length_append, counted', counted, Nat.add_assoc]

/-- All files are gone through as if they were one. -/
theorem advances_checkFiles (files : List SourceFile)
    (absent : Undeclared name (statementOccurrences (allStatements files))) {c c' : Checker}
    {cursor : TopLevelCursor} (unbound : c.Unbound name)
    (below : c.EnteredBelow cursor.functionCount)
    (done : c.step (checkFiles cursor files) = (.ok (), c')) :
    c.Advances name (outsideCount name (allStatements files)) [] c' ∧
      c'.EnteredBelow (cursor.functionCount + (functionNodes (allStatements files)).length) := by
  induction files generalizing c cursor with
  | nil =>
      obtain ⟨-, rfl⟩ : () = () ∧ c = c' := by simpa [checkFiles] using done
      exact ⟨.of_keeps unbound ⟨rfl, rfl, rfl⟩, below⟩
  | cons file rest ih =>
      have split : allStatements (file :: rest) = file.statements ++ allStatements rest := rfl
      rw [split, statementOccurrences_append] at absent
      obtain ⟨here, later⟩ := (Undeclared.append_iff _ _).mp absent
      obtain ⟨_, named, setting, remainder⟩ := Checker.step_bind_ok done
      obtain ⟨cursor', between, one, others⟩ := Checker.step_bind_ok remainder
      obtain ⟨_, rfl, start⟩ := accounts_setFile (some file.name) c unbound _ _ setting
      obtain ⟨reached, counted, covered⟩ := advances_checkTopLevelStatements plain file.statements
        here start.unbound (start.enteredBelow below) one
      obtain ⟨reached', covered'⟩ := ih later reached.unbound covered others
      have whole := (start.trans reached).trans reached'
      rw [split, outsideCount_append, functionNodes_append, List.length_append, ← Nat.add_assoc]
      rw [Nat.zero_add] at whole
      exact ⟨whole, counted ▸ covered'⟩

end Checking

/-- The step declares the functions, and the identifiers in them wait. -/
def Declares {α : Type} (name : String) (nodes : List FunctionNode) (m : CheckM α) : Prop :=
  ∀ (c c' : Checker) (a : α), c.Unbound name → c.step m = (.ok a, c') →
    c.Advances name (waitingCount name nodes) nodes c'

section Declaring

theorem Declares.bind {α β : Type} {first : CheckM α} {next : α → CheckM β}
    {nodes nodes' : List FunctionNode} (one : Declares name nodes first)
    (two : ∀ a, Declares name nodes' (next a)) : Declares name (nodes ++ nodes') (first >>= next) := by
  intro c c' b unbound done
  obtain ⟨a, between, firstDone, nextDone⟩ := Checker.step_bind_ok done
  have reached := one c between a unbound firstDone
  rw [waitingCount_append]
  exact reached.trans (two a between c' b reached.unbound nextDone)

theorem Accounts.declares {α : Type} {m : CheckM α} (accounts : Accounts name 0 m) :
    Declares name [] m := by
  intro c c' a unbound done
  obtain ⟨_, rfl, reached⟩ := accounts c unbound c' a done
  exact reached

theorem Declares.after {α β : Type} {first : CheckM α} {next : α → CheckM β}
    {nodes : List FunctionNode} (one : Accounts name 0 first)
    (two : ∀ a, Declares name nodes (next a)) : Declares name nodes (first >>= next) :=
  one.declares.bind two

/-- A new function whose body waits to be checked. -/
theorem Checker.Advances.of_push {c : Checker} {f : DeclaredFunction} (unbound : c.Unbound name)
    (unchecked : f.body = .unchecked) (absent : Undeclared name f.node.occurrences) :
    c.Advances name (waitingCount name [f.node]) [f.node]
      { c with functions := c.functions.push f } where
  balance := by
    simp [Checker.balance, Checker.missCount, waitingCount, DeclaredFunction.pending, unchecked,
      Nat.add_assoc]
  unbound := by
    refine ⟨unbound.scopes, unbound.globals, unbound.hoisted, fun g member => ?_⟩
    rcases Array.mem_push.mp member with old | rfl
    · exact unbound.functions g old
    · exact absent
  nodes := by simp
  entered := by
    rintro index ⟨g, found, started⟩
    have inside : index < c.functions.size := (Array.getElem?_eq_some_iff.mp found).1
    exact ⟨g, by simp [Array.getElem?_push, Nat.ne_of_lt inside, found], started⟩
  files := rfl

theorem declares_declareFunction {other : String} {node : FunctionNode} (apart : name ≠ other)
    (absent : Undeclared name node.occurrences) :
    Declares name [node] (declareFunction other node) := by
  obtain ⟨typeParameters, parameters, returnType, body, location⟩ := node
  obtain ⟨signature, inBody⟩ := (Undeclared.append_iff _ _).mp absent
  obtain ⟨constraints, inside, result, -⟩ := undeclared_signature signature
  refine .after accounts_pushEmpty fun _ => ?_
  refine .after (accounts_declareTypeParameters typeParameters constraints) fun ids => ?_
  refine .after (accounts_resolveParameters none 0 parameters inside) fun resolved => ?_
  refine .after (accounts_resolveOptionalType returnType result) fun declared => ?_
  refine .after accounts_popScope fun _ => ?_
  have registered : ∀ type : Option TypeId,
      Declares name [⟨typeParameters, parameters, returnType, body, location⟩] (do
        let checker ← get
        set { checker with
          functions := checker.functions.push
            ⟨⟨typeParameters, parameters, returnType, body, location⟩, checker.currentFile, ids,
              resolved, declared, type, .unchecked⟩ }
        if checker.globals.contains other then error location .duplicateIdentifier [other]
        else
          modify fun c =>
            { c with globals := c.globals.insert other (.function checker.functions.size) }) := by
    intro type c c' a unbound done
    rw [Checker.step_bind, Checker.step_get] at done
    obtain ⟨_, pushed, set, rest⟩ := Checker.step_bind_ok done
    obtain ⟨-, rfl⟩ := Prod.mk.inj set
    have push := Checker.Advances.of_push (f := ⟨_, c.currentFile, ids, resolved, declared, type,
      .unchecked⟩) unbound rfl absent
    have named : Accounts name 0 (if c.globals.contains other
        then error location .duplicateIdentifier [other]
        else modify fun checker => { checker with
          globals := checker.globals.insert other (.function c.functions.size) }) := by
      refine .ite (accounts_error _ _ (by decide)) (.modify ?_ fun _ => ⟨rfl, rfl, rfl⟩)
      exact fun d before => ⟨before.scopes, by simp [apart.symm, before.globals], before.hoisted,
        before.functions⟩
    obtain ⟨_, rfl, reached⟩ := named _ push.unbound c' a rest
    exact push.trans reached
  cases declared with
  | none => exact registered none
  | some id => exact .after (accounts_addType _) fun type => registered (some type)

theorem accounts_declareHoisted {other : String} {declaredType : Option TypeNode}
    (apart : name ≠ other) (absent : name ∉ optionalTypeNames declaredType) :
    Accounts name 0 (declareHoisted other declaredType) := by
  refine (accounts_resolveOptionalType declaredType absent).quietly fun declared => ?_
  refine .modify (fun c unbound => ?_) fun _ => ⟨rfl, rfl, rfl⟩
  refine ⟨unbound.scopes, unbound.globals, ?_, unbound.functions⟩
  dsimp only
  split
  · exact unbound.hoisted
  · simp [apart.symm, unbound.hoisted]

theorem declares_declareStatements :
    ∀ statements : List Statement, Undeclared name (statementOccurrences statements) →
      Declares name (functionNodes statements) (declareStatements statements)
  | [], _ => (Accounts.pure ()).declares
  | .interface _ :: rest, absent =>
      declares_declareStatements rest ((Undeclared.append_iff _ _).mp absent).2
  | .function other node :: rest, absent => by
      obtain ⟨here, later⟩ := (Undeclared.append_iff _ _).mp absent
      obtain ⟨apart, inside⟩ := (Undeclared.cons_declaration_iff _ _).mp here
      exact (declares_declareFunction apart inside).bind fun _ =>
        declares_declareStatements rest later
  | .variable other declaredType initializer location :: rest, absent => by
      obtain ⟨here, later⟩ := (Undeclared.append_iff _ _).mp absent
      have inside : name ≠ other ∧ name ∉ optionalTypeNames declaredType := by
        cases initializer <;> simp_all [Statement.occurrences]
      exact .after (accounts_declareHoisted inside.1 inside.2) fun _ =>
        declares_declareStatements rest later
  | .expression _ _ :: rest, absent =>
      declares_declareStatements rest ((Undeclared.append_iff _ _).mp absent).2
  | .returning _ _ :: rest, absent =>
      declares_declareStatements rest ((Undeclared.append_iff _ _).mp absent).2

theorem declares_declareFiles (files : List SourceFile)
    (absent : Undeclared name (statementOccurrences (allStatements files))) :
    Declares name (functionNodes (allStatements files)) (declareFiles files) := by
  induction files with
  | nil => exact (Accounts.pure ()).declares
  | cons file rest ih =>
      have split : allStatements (file :: rest) = file.statements ++ allStatements rest := rfl
      rw [split, statementOccurrences_append] at absent
      obtain ⟨here, later⟩ := (Undeclared.append_iff _ _).mp absent
      rw [split, functionNodes_append]
      refine .after (accounts_setFile _) fun _ => ?_
      exact (declares_declareStatements file.statements here).bind fun _ => ih later

theorem accounts_beginInterfaces :
    ∀ statements : List Statement, Undeclared name (statementOccurrences statements) →
      AccountsFor name (beginInterfaces statements) fun begun found =>
        found = 0 ∧ ∀ pending ∈ begun, Undeclared name pending.declaration.occurrences
  | [], _ => .pure ⟨rfl, List.forall_mem_nil _⟩
  | .interface declaration :: rest, absent => by
      obtain ⟨here, later⟩ := (Undeclared.append_iff _ _).mp absent
      refine (accounts_beginInterface declaration).bind ?_
      rintro begun _ ⟨rfl, ours⟩
      refine (accounts_beginInterfaces rest later).bind ?_
      rintro others _ ⟨rfl, theirs⟩
      refine .pure ⟨rfl, List.forall_mem_append.mpr ⟨fun pending member => ?_, theirs⟩⟩
      exact ours pending (by simpa using member) ▸ here
  | .function _ _ :: rest, absent =>
      accounts_beginInterfaces rest ((Undeclared.append_iff _ _).mp absent).2
  | .variable _ _ _ _ :: rest, absent =>
      accounts_beginInterfaces rest ((Undeclared.append_iff _ _).mp absent).2
  | .expression _ _ :: rest, absent =>
      accounts_beginInterfaces rest ((Undeclared.append_iff _ _).mp absent).2
  | .returning _ _ :: rest, absent =>
      accounts_beginInterfaces rest ((Undeclared.append_iff _ _).mp absent).2

theorem accounts_beginFiles (files : List SourceFile)
    (absent : Undeclared name (statementOccurrences (allStatements files))) :
    AccountsFor name (beginFiles files) fun begun found =>
      found = 0 ∧ ∀ pending ∈ begun, Undeclared name pending.declaration.occurrences := by
  induction files with
  | nil => exact .pure ⟨rfl, List.forall_mem_nil _⟩
  | cons file rest ih =>
      have split : allStatements (file :: rest) = file.statements ++ allStatements rest := rfl
      rw [split, statementOccurrences_append] at absent
      obtain ⟨here, later⟩ := (Undeclared.append_iff _ _).mp absent
      refine .after (accounts_setFile _) fun _ => ?_
      refine (accounts_beginInterfaces file.statements here).bind ?_
      rintro pending _ ⟨rfl, ours⟩
      refine (ih later).bind ?_
      rintro others _ ⟨rfl, theirs⟩
      exact .pure ⟨rfl, List.forall_mem_append.mpr ⟨ours, theirs⟩⟩

theorem accounts_forInterfaces {step : PendingInterface → CheckM Unit}
    (pending : List PendingInterface) (quiet : ∀ p ∈ pending, Accounts name 0 (step p)) :
    Accounts name 0 (forInterfaces step pending) := by
  induction pending with
  | nil => exact .pure ()
  | cons p rest ih =>
      obtain ⟨here, later⟩ := List.forall_mem_cons.mp quiet
      refine (accounts_setFile _).quietly fun _ => here.quietly fun _ => ih later

theorem accounts_runDeferred (checks : List DeferredConstraint) :
    Accounts name 0 (runDeferred checks) := by
  induction checks with
  | nil => exact .pure ()
  | cons check rest ih =>
      refine (accounts_setFile _).quietly fun _ => ?_
      exact (accounts_reportUnsatisfied check).quietly fun _ => ih

/-- Declaring reports no identifier and leaves every function body waiting. -/
theorem advances_declareAll {c c' : Checker}
    (absent : Undeclared name (statementOccurrences (allStatements c.files)))
    (unbound : c.Unbound name) (done : c.step declareAll = (.ok (), c')) :
    c.Advances name (waitingCount name (functionNodes (allStatements c.files)))
      (functionNodes (allStatements c.files)) c' := by
  rw [declareAll, Checker.step_bind, Checker.step_get] at done
  obtain ⟨pending, begun, first, rest⟩ := Checker.step_bind_ok done
  obtain ⟨_, ⟨rfl, ours⟩, start⟩ := accounts_beginFiles c.files absent c unbound _ _ first
  have declared : Declares name (functionNodes (allStatements c.files)) (do
      forInterfaces constrainInterface pending
      forInterfaces completeInterface pending
      declareFiles c.files
      let deferred := (← get).deferred
      modify fun checker => { checker with deferred := [] }
      runDeferred deferred
      setFile none) := by
    refine .after (accounts_forInterfaces _ fun p member =>
      accounts_constrainInterface (ours p member)) fun _ => ?_
    refine .after (accounts_forInterfaces _ fun p member =>
      accounts_completeInterface (ours p member)) fun _ => ?_
    have after : ∀ _ : Unit, Declares name [] (do
        let deferred := (← get).deferred
        modify fun checker => { checker with deferred := [] }
        runDeferred deferred
        setFile none) := by
      intro _
      refine .after .get fun d => .after (.modify ?_ fun _ => ⟨rfl, rfl, rfl⟩) fun _ => ?_
      · exact fun _ before => before.congr rfl rfl rfl rfl
      exact .after (accounts_runDeferred _) fun _ => (accounts_setFile none).declares
    simpa using (declares_declareFiles c.files absent).bind after
  have reached := start.trans (declared begun c' () start.unbound rest)
  simpa using reached

end Declaring

theorem waiting_eq_zero {c : Checker} (entered : c.EnteredBelow c.functions.size) :
    (c.functions.toList.map (DeclaredFunction.pending name)).sum = 0 := by
  refine List.sum_eq_zero fun count member => ?_
  obtain ⟨f, listed, rfl⟩ := List.mem_map.mp member
  obtain ⟨index, inside, rfl⟩ := List.getElem_of_mem listed
  have known : index < c.functions.size := by simpa using inside
  obtain ⟨f, found, started⟩ := entered index known known
  obtain rfl : c.functions[index] = f := by simpa [known] using found
  simp [DeclaredFunction.pending, started]

/-- A check that succeeds reports each identifier of a name that nothing declares,
once. -/
theorem missCount_checkDeclarations (plain : name ≠ "undefined") {c c' : Checker}
    (fresh : c.functions = #[]) (absent : Undeclared name (programOccurrences c.files))
    (unbound : c.Unbound name) (done : c.step checkDeclarations = (.ok (), c')) :
    c'.missCount name = c.missCount name + identifierCount name (programOccurrences c.files) := by
  rw [programOccurrences_eq] at absent
  rw [checkDeclarations, Checker.step_bind, Checker.step_get] at done
  dsimp only at done
  split at done
  · simp at done
  obtain ⟨_, declared, first, rest⟩ := Checker.step_bind_ok done
  have start := advances_declareAll absent unbound first
  rw [Checker.step_bind, Checker.step_modify] at rest
  dsimp only at rest
  rw [Checker.step_bind, Checker.step_get] at rest
  obtain ⟨_, checked, second, last⟩ := Checker.step_bind_ok rest
  obtain ⟨-, rfl⟩ := Prod.mk.inj last
  have changed : declared.Advances name 0 [] { declared with phase := .checking } :=
    .of_keeps (start.unbound.congr rfl rfl rfl rfl) ⟨rfl, rfl, rfl⟩
  have files : declared.files = c.files := start.files
  obtain ⟨reached, entered⟩ := advances_checkFiles plain declared.files (files ▸ absent)
    changed.unbound (by exact fun index inside => absurd inside (Nat.not_lt_zero index)) second
  have whole := (start.trans changed).trans reached
  -- the functions are those that the files declare, so every body has been entered
  have size : checked.functions.size = (functionNodes (allStatements c.files)).length := by
    simpa [fresh] using congrArg List.length whole.nodes
  rw [files, Nat.zero_add, ← size] at entered
  have waiting := @waiting_eq_zero name _ entered
  have balance := whole.balance
  rw [files] at balance
  simp only [Checker.balance, waiting, fresh] at balance
  rw [programOccurrences_eq, identifierCount_statements]
  calc checked.missCount name
      = c.missCount name + (waitingCount name (functionNodes (allStatements c.files)) +
          outsideCount name (allStatements c.files)) := by simpa using balance
    _ = _ := by rw [Nat.add_comm (waitingCount _ _)]

/-- Registering files while declaring adds them in order. -/
theorem step_declareSourceFiles (files : List SourceFile) {c : Checker}
    (declaring : c.phase = .declaring) :
    c.step (forIn files PUnit.unit fun file _ => do
        declareSourceFile file
        pure (ForInStep.yield PUnit.unit)) =
      (.ok PUnit.unit, { c with files := c.files ++ files }) := by
  induction files generalizing c with
  | nil => simp
  | cons file rest ih =>
      have one : c.step (declareSourceFile file) =
          (.ok (), { c with files := c.files ++ [file] }) := by
        rw [declareSourceFile, Checker.step_bind, Checker.step_get]
        simp [declaring]
      rw [List.forIn_cons, bind_assoc, Checker.step_bind, one]
      simpa using @ih { c with files := c.files ++ [file] } declaring

/-- The check of a whole program reports an undeclared name exactly once for each
identifier of that name, wherever it stands. -/
theorem missing_names_once (files : List SourceFile) (options : CheckerOptions)
    (plain : name ≠ "undefined") (absent : Undeclared name (programOccurrences files))
    {c : Checker} (done : (Checker.new options).step (declareAndCheck files) = (.ok (), c)) :
    c.diagnostics.toList.countP (fun d =>
        d.code == 2304 && d.message == "Cannot find name '" ++ name ++ "'.") =
      identifierCount name (programOccurrences files) := by
  rw [declareAndCheck, Checker.step_bind, step_declareSourceFiles files rfl] at done
  have unbound : (Checker.new options).Unbound name :=
    ⟨List.forall_mem_nil _, rfl, rfl, by simp [Checker.new]⟩
  have checked : ({ Checker.new options with files := files } : Checker).step checkDeclarations =
      (.ok (), c) := done
  have counted := @missCount_checkDeclarations name plain { Checker.new options with files := files }
    c rfl absent (unbound.congr rfl rfl rfl rfl) checked
  exact counted.trans (Nat.zero_add _)

/-- A function that is called ahead of its statement, with the name in its body, in
an argument too many and on its own. -/
def forwardCall : List SourceFile :=
  [⟨"", [
    .expression (.call (.identifier "f" .unknown) [] [.identifier "x" .unknown] .unknown) .unknown,
    .function "f"
      ⟨[], [], none, [.returning (some (.identifier "x" .unknown)) .unknown], .unknown⟩,
    .expression (.identifier "x" .unknown) .unknown]⟩]

theorem forwardCall_missing_three :
    ∃ c, (Checker.new .default).step (declareAndCheck forwardCall) = (.ok (), c) ∧
      c.diagnostics.toList.countP (fun d =>
        d.code == 2304 && d.message == "Cannot find name '" ++ "x" ++ "'.") = 3 := by
  have ends : ((Checker.new .default).step (declareAndCheck forwardCall)).1 = .ok () := by
    decide +kernel
  have absent : Undeclared "x" (programOccurrences forwardCall) := ⟨by decide, by decide⟩
  have three : identifierCount "x" (programOccurrences forwardCall) = 3 := by decide
  cases run : (Checker.new .default).step (declareAndCheck forwardCall) with
  | mk outcome c =>
      rw [run] at ends
      obtain rfl : outcome = .ok () := ends
      exact ⟨c, rfl, (missing_names_once forwardCall .default (by decide) absent run).trans three⟩

end StructuralTyping
