import StructuralTyping.Checker.Declaring
import StructuralTyping.Proofs.WrittenFindings

/-! The declarations of a program are entered with the findings of the program, in four
rounds: the names of the interfaces, their constraints, their bodies, and then functions
and variables. When they are all entered no body is reserved any more, and only then the
checks of type arguments are made. -/
namespace StructuralTyping

open CheckM

/-- With an interface that has a new name. -/
def Names.declare (names : Names) (declaration : InterfaceDeclaration) : Names := fun name =>
  if declaration.name = name then some declaration.arity else names name

/-- The entry of an interface of this name. -/
inductive TypeKind.IsInterface (name : String) : TypeKind → Prop
  | generic (typeParameters : List TypeId) (body : TypeId) :
      IsInterface name (.generic ⟨name, typeParameters, body⟩)
  | object (properties : Dictionary String Property) :
      IsInterface name (.object ⟨some name, properties⟩)

/-- An interface stays one. -/
theorem TypeKind.IsInterface.grows {reserved : List TypeId} {t t' : TypeTable} {id : TypeId}
    {name : String} (interface : (t.kind id).IsInterface name) (grows : t.Grows reserved t') :
    (t'.kind id).IsInterface name := by
  generalize entry : t.kind id = kind at interface
  cases interface with
  | generic typeParameters body =>
      rw [(grows.generic id (TypeTable.lt_size_of_kind entry (by simp)) _).mpr entry]
      exact .generic typeParameters body
  | object properties =>
      rw [grows.object id _ entry]
      exact .object properties

namespace Checker

/-- Declarations are entered at the top level, where the names are understood and there are
functions with the names that are taken. -/
structure AtTop (options : CheckerOptions) (types : Dictionary String TypeId) (names : Names)
    (taken : List String) (c : Checker) : Prop where
  orderly : c.Orderly
  understands : c.Understands names
  outside : c.scopes = []
  options : c.options = options
  types : c.declaredTypes = types
  taken : ∀ name, name ∈ c.globals.keys ↔ name ∈ taken

namespace AtTop

variable {options : CheckerOptions} {types : Dictionary String TypeId} {names : Names} {taken : List String} {c c' : Checker}

theorem finds {findings : List Finding} (top : c.AtTop options types names taken)
    (finds : c.Finds findings c') : c'.AtTop options types names taken where
  orderly := finds.orderly
  understands := finds.understands top.understands
  outside := finds.scopes.trans top.outside
  options := (congrArg Checker.options finds.same).trans top.options
  types := finds.same.declaredTypes.trans top.types
  taken name := by
    have globals : c'.globals = c.globals := (congrArg Checker.globals finds.same).trans rfl
    rw [globals, top.taken]

theorem setFile (top : c.AtTop options types names taken) (file : Option String) :
    c.Noted [] [] { c with currentFile := file } ∧
      { c with currentFile := file }.AtTop options types names taken where
  left := .of_eq top.orderly rfl rfl rfl rfl
  right := ⟨⟨top.orderly.declaring, top.orderly.table, top.orderly.queued⟩,
    ⟨top.understands.inside, top.understands.arity⟩, top.outside, top.options, top.types, top.taken⟩

/-- At the top level a name means an interface. -/
theorem meaning (top : c.AtTop options types names taken) (name : String) :
    c.meaning? name = c.declaredTypes.find? name := by
  rw [meaning?, top.outside]
  rfl

theorem unknown_iff (top : c.AtTop options types names taken) (name : String) :
    c.declaredTypes.contains name = true ↔ names name ≠ none := by
  rw [Dictionary.contains, ← top.meaning, ← top.understands.arity]
  cases c.meaning? name <;> simp

end AtTop

end Checker

section Beginning
variable {options : CheckerOptions} {types : Dictionary String TypeId} {names : Names} {taken : List String} {c c' : Checker}

/-- The entries of an interface: its type parameters, its body and, if it is generic, the
interface itself. -/
theorem noted_addInterface (orderly : c.Orderly) {declaration : InterfaceDeclaration} {β : Type}
    {k : List TypeId → TypeId → TypeId → CheckM β} {b : β}
    (done : c.step (do
      let typeParameters ← freshTypeParameters declaration.typeParameters
      let body ← addType .pending
      let declared ←
        if typeParameters.isEmpty then pure body
        else addType (.generic ⟨declaration.name, typeParameters, body⟩)
      k typeParameters body declared) = (.ok b, c')) :
    ∃ ids body declared between, between.step (k ids body declared) = (.ok b, c') ∧
      c.Noted [body] [] between ∧ c.SameBut between ∧ between.scopes = c.scopes ∧
      between.table.Provides declaration.typeParameters ids ∧ declared < between.table.size ∧
      (between.table.asGeneric? declared).map (fun g => g.typeParameters.length) =
        declaration.arity ∧
      ((between.table.kind declared).IsInterface declaration.name ∨ declared = body) := by
  obtain ⟨ids, one, made, done⟩ := Checker.step_bind_ok done
  obtain ⟨first, extended, count, each⟩ := findsFrom_freshTypeParameters orderly _ ids one made
  obtain ⟨body, two, reserved, done⟩ := Checker.step_bind_ok done
  rw [Checker.step_addType] at reserved
  obtain ⟨same, rfl⟩ := Prod.mk.inj reserved
  obtain rfl : one.table.size = body := Except.ok.inj same
  have second : one.Noted [one.table.size] [] { one with table := (one.table.add .pending).2 } :=
    .add first.orderly (by simp) (by simp) (by simp)
  have reserved : c.Noted [one.table.size] [] { one with table := (one.table.add .pending).2 } :=
    first.toNoted.trans second
  have grown := TypeTable.Extends.add one.table .pending
  have typed : ∀ id ∈ ids, ∃ name constraint,
      (one.table.add .pending).2.kind id = .typeParameter name constraint := fun id member => by
    obtain ⟨-, name, entry⟩ := each id member
    exact ⟨name, none, grown.entry entry (by simp)⟩
  have provides : (one.table.add .pending).2.Provides declaration.typeParameters ids := by
    refine ⟨count, fun id member => ?_⟩
    obtain ⟨name, constraint, entry⟩ := typed id member
    exact ⟨TypeTable.lt_size_of_kind entry (by simp), by simp [entry]⟩
  have empty_iff : ids.isEmpty = declaration.typeParameters.isEmpty := by
    rw [Bool.eq_iff_iff, List.isEmpty_iff, List.isEmpty_iff, ← List.length_eq_zero_iff, count,
      List.length_eq_zero_iff]
  dsimp only at done
  split at done
  · next empty =>
      rw [pure_bind] at done
      refine ⟨ids, _, _, _, done, reserved, first.same.trans rfl, first.scopes, provides, ?_, ?_,
        .inr rfl⟩
      · exact Nat.lt_of_lt_of_eq (Nat.lt_succ_self _) (TypeTable.size_add _ _).symm
      · rw [TypeTable.asGeneric?, TypeTable.kind_add_size, InterfaceDeclaration.arity, ← empty_iff,
          if_pos empty]
        rfl
  · next generic =>
      obtain ⟨declared, three, added, done⟩ := Checker.step_bind_ok done
      rw [Checker.step_addType] at added
      obtain ⟨same, rfl⟩ := Prod.mk.inj added
      obtain rfl := Except.ok.inj same
      have third : Checker.Noted [] [] { one with table := (one.table.add .pending).2 }
          { one with table := ((one.table.add .pending).2.add
            (.generic ⟨declaration.name, ids, one.table.size⟩)).2 } :=
        .add reserved.orderly (by simp) (fun g same => TypeKind.generic.inj same ▸ typed) (by simp)
      have provided := provides.grows third.grows
      refine ⟨ids, _, _, _, done, reserved.trans third, first.same.trans rfl, first.scopes, provided,
        ?_, ?_, .inl ?_⟩
      · exact Nat.lt_of_lt_of_eq (Nat.lt_succ_self _) (TypeTable.size_add _ _).symm
      · rw [TypeTable.asGeneric?, TypeTable.kind_add_size, InterfaceDeclaration.arity, ← empty_iff,
          if_neg generic]
        exact congrArg some count
      · rw [TypeTable.kind_add_size]
        exact .generic ids one.table.size

/-- An interface whose name is new is entered, and one whose name is taken is noted. -/
theorem noted_beginInterface (top : c.AtTop options types names taken)
    {declaration : InterfaceDeclaration} {begun : Option PendingInterface}
    (done : c.step (beginInterface declaration) = (.ok begun, c')) :
    c'.currentFile = c.currentFile ∧
      if names declaration.name = none then
        ∃ p id, begun = some p ∧ p.declaration = declaration ∧ p.file = c.currentFile ∧
          ((c'.table.kind id).IsInterface declaration.name ∨ id = p.body) ∧
          c.Noted [p.body] [] c' ∧ c'.AtTop options (types.insert declaration.name id)
            (names.declare declaration) taken ∧
            c'.table.Provides declaration.typeParameters p.typeParameters
      else
        begun = none ∧ c'.AtTop options types names taken ∧
          c.Noted [] [(c.currentFile, .duplicate declaration.name declaration.location)] c' := by
  rw [beginInterface, Checker.step_bind, Checker.step_get] at done
  simp only [top.outside] at done
  by_cases new : names declaration.name = none
  · have free : ¬ c.declaredTypes.contains declaration.name = true := fun known =>
      (top.unknown_iff _).mp known new
    rw [if_neg free] at done
    rw [if_pos new]
    obtain ⟨ids, body, declared, between, done, noted, same, scopes, provides, inside, arity,
      interface⟩ := noted_addInterface top.orderly done
    simp only [List.isEmpty_nil, if_true] at done
    obtain ⟨_, _, entered, done⟩ := Checker.step_bind_ok done
    obtain ⟨-, rfl⟩ := Prod.mk.inj entered
    obtain ⟨result, rfl⟩ := Prod.mk.inj done
    have file : between.currentFile = c.currentFile := same.currentFile
    refine ⟨file, ⟨declaration, body, ids, c.currentFile⟩, declared, (Except.ok.inj result).symm,
      rfl, rfl, interface, ?_, ?_, provides⟩
    · exact ⟨⟨noted.orderly.declaring, noted.orderly.table, noted.orderly.queued⟩, noted.grows,
        noted.reported, noted.deferred⟩
    · have found (name : String) : Checker.meaning? { between with
          declaredTypes := between.declaredTypes.insert declaration.name declared } name =
          if declaration.name = name then some declared else c.meaning? name := by
        rw [Checker.meaning?, scopes, top.outside, top.meaning, ← same.declaredTypes]
        exact Dictionary.find?_insert _ _ _ _
      refine ⟨⟨noted.orderly.declaring, noted.orderly.table, noted.orderly.queued⟩, ⟨?_, ?_⟩,
        scopes.trans top.outside, (congrArg Checker.options same).trans top.options, ?_, ?_⟩
      · intro name id meaning
        rw [found] at meaning
        split at meaning
        · exact Option.some.inj meaning ▸ inside
        · exact Nat.lt_of_lt_of_le (top.understands.inside name id meaning) noted.grows.size
      · intro name
        rw [found, Names.declare]
        split
        · exact congrArg some arity
        · exact top.understands.arity_grows noted.grows name
      · dsimp only
        rw [same.declaredTypes, top.types]
      · intro name
        have globals : between.globals = c.globals := (congrArg Checker.globals same).trans rfl
        exact (globals ▸ top.taken name : _)
  · rw [if_pos ((top.unknown_iff _).mpr new)] at done
    rw [if_neg new]
    obtain ⟨_, _, reported, done⟩ := Checker.step_bind_ok done
    obtain ⟨found, -⟩ := findsFrom_error top.orderly (.duplicate declaration.name
      declaration.location) rfl _ _ reported
    obtain ⟨result, rfl⟩ := Prod.mk.inj done
    exact ⟨found.same.currentFile, (Except.ok.inj result).symm, top.finds found, found.toNoted⟩

end Beginning

section Interfaces
variable (earlier : List String) (first : List PlacedInterface) (file : Option String)
  (declaration : InterfaceDeclaration)

theorem newInterfaces_concat :
    newInterfaces earlier (first ++ [(file, declaration)]) = newInterfaces earlier first ++
      if declaration.name ∈ earlier ∨ declaration.name ∈ first.map (fun placed => placed.2.name)
      then [] else [(file, declaration)] := by
  induction first generalizing earlier with
  | nil => simp [newInterfaces]
  | cons placed rest ih =>
      simp only [List.cons_append, newInterfaces, ih, List.append_assoc, List.map_cons,
        List.mem_cons, or_assoc, or_left_comm]

theorem repeatedInterfaces_concat :
    repeatedInterfaces earlier (first ++ [(file, declaration)]) =
      repeatedInterfaces earlier first ++
        if declaration.name ∈ earlier ∨ declaration.name ∈ first.map (fun placed => placed.2.name)
        then [(file, .duplicate declaration.name declaration.location)] else [] := by
  induction first generalizing earlier with
  | nil => simp [repeatedInterfaces]
  | cons placed rest ih =>
      simp only [List.cons_append, repeatedInterfaces, ih, List.append_assoc, List.map_cons,
        List.mem_cons, or_assoc, or_left_comm]

theorem interfaceNames_eq_none_iff (name : String) :
    interfaceNames first name = none ↔ name ∉ first.map fun placed => placed.2.name := by
  simp [interfaceNames]

/-- An interface adds its name if that is new. -/
theorem interfaceNames_concat :
    interfaceNames (first ++ [(file, declaration)]) =
      if interfaceNames first declaration.name = none
      then (interfaceNames first).declare declaration else interfaceNames first := by
  funext name
  have appended : interfaceNames (first ++ [(file, declaration)]) name =
      (interfaceNames first name).or
        (if declaration.name = name then some declaration.arity else none) := by
    rw [interfaceNames, interfaceNames, List.find?_append, Option.map_or]
    by_cases same : declaration.name = name <;> simp [same]
  rw [appended]
  by_cases new : interfaceNames first declaration.name = none
  · rw [if_pos new, Names.declare]
    split
    · next same => rw [← same, new]; rfl
    · simp
  · rw [if_neg new]
    split
    · next same =>
        obtain ⟨arity, found⟩ := Option.ne_none_iff_exists'.mp new
        rw [← same, found]
        rfl
    · simp

end Interfaces

section Names

/-- The interfaces up to here are entered, and these are the bodies to be built. -/
structure Begun (options : CheckerOptions) (taken : List String) (start : Checker)
    (interfaces : List PlacedInterface) (pending : List PendingInterface) (c : Checker) : Prop where
  noted : start.Noted (pending.map PendingInterface.body) (repeatedInterfaces [] interfaces) c
  top : c.AtTop options c.declaredTypes (interfaceNames interfaces) taken
  entered : pending.map (fun p => (p.file, p.declaration)) = newInterfaces [] interfaces
  provides : ∀ p ∈ pending, c.table.Provides p.declaration.typeParameters p.typeParameters
  declared : ∀ name id, c.declaredTypes.find? name = some id →
    (c.table.kind id).IsInterface name ∨ ∃ p ∈ pending, p.declaration.name = name ∧ id = p.body

namespace Begun

variable {options : CheckerOptions} {taken : List String} {start c c' : Checker}
  {interfaces : List PlacedInterface} {pending : List PendingInterface}

theorem step (begun : Begun options taken start interfaces pending c)
    {declaration : InterfaceDeclaration} {new : Option PendingInterface}
    (done : c.step (beginInterface declaration) = (.ok new, c')) :
    c'.currentFile = c.currentFile ∧ Begun options taken start
      (interfaces ++ [(c.currentFile, declaration)]) (pending ++ new.toList) c' := by
  obtain ⟨file, outcome⟩ := noted_beginInterface begun.top done
  refine ⟨file, ?_⟩
  have known := interfaceNames_eq_none_iff interfaces declaration.name
  have names := interfaceNames_concat interfaces c.currentFile declaration
  split at outcome
  · next fresh =>
      obtain ⟨p, id, rfl, same, placed, interface, noted, top, provides⟩ := outcome
      rw [if_pos fresh] at names
      have absent : ¬ (declaration.name ∈ ([] : List String) ∨
          declaration.name ∈ interfaces.map fun placed => placed.2.name) := by
        simpa using known.mp fresh
      have entered := newInterfaces_concat [] interfaces c.currentFile declaration
      have repeated := repeatedInterfaces_concat [] interfaces c.currentFile declaration
      rw [if_neg absent] at entered repeated
      refine ⟨?_, ?_, ?_, ?_, fun name id' found => ?_⟩
      · rw [repeated, Option.toList_some, List.map_append]
        exact begun.noted.trans noted
      · rw [names, top.types]
        exact top
      · rw [entered, ← begun.entered]
        simp [placed, same]
      · rw [Option.toList_some, List.forall_mem_append, List.forall_mem_singleton]
        exact ⟨fun q member => (begun.provides q member).grows noted.grows, same ▸ provides⟩
      · rw [top.types, Dictionary.find?_insert] at found
        split at found
        · next here =>
            obtain rfl := Option.some.inj found
            rw [← here]
            exact interface.imp_right fun body => ⟨p, by simp, congrArg _ same, body⟩
        · rcases begun.declared name id' found with known | ⟨q, member, waits⟩
          · exact .inl (known.grows noted.grows)
          · exact .inr ⟨q, List.mem_append_left _ member, waits⟩
  · next twice =>
      obtain ⟨rfl, top, noted⟩ := outcome
      rw [if_neg twice] at names
      have present : declaration.name ∈ ([] : List String) ∨
          declaration.name ∈ interfaces.map fun placed => placed.2.name :=
        .inr (Decidable.not_not.mp (known.not.mp twice))
      have entered := newInterfaces_concat [] interfaces c.currentFile declaration
      have repeated := repeatedInterfaces_concat [] interfaces c.currentFile declaration
      rw [if_pos present] at entered repeated
      rw [Option.toList_none, List.append_nil]
      refine ⟨?_, ?_, ?_, fun q member => (begun.provides q member).grows noted.grows,
        fun name id found => ?_⟩
      · have whole := begun.noted.trans noted
        rwa [List.append_nil, ← repeated] at whole
      · rw [names, top.types]
        exact top
      · rw [entered, List.append_nil, begun.entered]
      · rw [top.types] at found
        exact (begun.declared name id found).imp_left fun known => known.grows noted.grows

theorem statements (begun : Begun options taken start interfaces pending c)
    (statements : List Statement) {new : List PendingInterface}
    (done : c.step (beginInterfaces statements) = (.ok new, c')) :
    Begun options taken start (interfaces ++
      (statements.filterMap Statement.interface?).map fun declaration => (c.currentFile, declaration))
      (pending ++ new) c' := by
  induction statements generalizing interfaces pending c new with
  | nil =>
      obtain ⟨result, rfl⟩ := Prod.mk.inj done
      obtain rfl := Except.ok.inj result
      simpa using begun
  | cons statement rest ih =>
      cases statement with
      | interface declaration =>
          obtain ⟨one, between, entered, done⟩ := Checker.step_bind_ok done
          obtain ⟨others, last, later, done⟩ := Checker.step_bind_ok done
          obtain ⟨result, rfl⟩ := Prod.mk.inj done
          obtain rfl := Except.ok.inj result
          obtain ⟨file, here⟩ := begun.step entered
          have whole := ih here later
          rw [file] at whole
          simpa [Statement.interface?] using whole
      | _ => exact ih begun done

theorem files (begun : Begun options taken start interfaces pending c) (files : List SourceFile)
    {new : List PendingInterface} (done : c.step (beginFiles files) = (.ok new, c')) :
    Begun options taken start (interfaces ++ programInterfaces files) (pending ++ new) c' := by
  induction files generalizing interfaces pending c new with
  | nil =>
      obtain ⟨result, rfl⟩ := Prod.mk.inj done
      obtain rfl := Except.ok.inj result
      simpa [programInterfaces] using begun
  | cons file rest ih =>
      obtain ⟨_, _, placed, done⟩ := Checker.step_bind_ok done
      obtain ⟨-, rfl⟩ := Prod.mk.inj placed
      obtain ⟨one, between, entered, done⟩ := Checker.step_bind_ok done
      obtain ⟨others, last, later, done⟩ := Checker.step_bind_ok done
      obtain ⟨result, rfl⟩ := Prod.mk.inj done
      obtain rfl := Except.ok.inj result
      obtain ⟨silent, top⟩ := begun.top.setFile (some file.name)
      have started : Begun options taken start interfaces pending
          { c with currentFile := some file.name } := by
        have noted := begun.noted.trans silent
        simp only [List.append_nil] at noted
        exact ⟨noted, top, begun.entered, begun.provides, begun.declared⟩
      have whole := ih (started.statements file.statements entered) later
      simpa [programInterfaces] using whole

end Begun

end Names

section Bodies
variable {options : CheckerOptions} {types : Dictionary String TypeId} {names : Names} {taken : List String} {c c' : Checker}

theorem findsFrom_constrainInterface (top : c.AtTop options types names taken) {p : PendingInterface}
    (provides : c.table.Provides p.declaration.typeParameters p.typeParameters) :
    FindsFrom c (p.declaration.headFindings names) (constrainInterface p) fun _ _ => True := by
  have inside (ids : List TypeId) (_ : ids.length = p.declaration.typeParameters.length) :=
    finds_resolveConstraints p.declaration.typeParameters p.typeParameters
      (names.bind p.declaration.typeParameters) provides.count
  have whole := findsFrom_scoped top.orderly top.understands true
    (fun c' orderly table => .pure (b := p.typeParameters) orderly (table ▸ provides)) inside
  rw [constrainInterface, InterfaceDeclaration.headFindings]
  simpa only [pure_bind, bind_pure_unit, if_true] using whole

/-- An object type has its name and different properties, or it is not built. -/
theorem finds_buildObjectType (name : Option String) (members : List PropertySignature)
    (names : Names) :
    FindsWith names (memberFindings names members) (buildObjectType name members) fun o =>
      o.properties.Distinct ∧ o.name = name := by
  intro c orderly understands
  refine (finds_resolveMembers members [] names c orderly understands).finish ?_
  intro properties between found _
  dsimp only
  split
  · next o built =>
      obtain ⟨distinct, rfl⟩ := (ObjectType.ofProperties_eq_ok_iff _ _ _).mp built
      exact .pure found.orderly ⟨distinct, rfl⟩
  · exact .fail _ _

/-- A body is filled with an object type. -/
theorem findsFrom_define (orderly : c.Orderly) (body : TypeId) {o : ObjectType}
    (distinct : o.properties.Distinct) (location : Location) :
    FindsFrom c [] (do
      match (← table).define body (.object o) with
      | .ok table => modify fun checker => { checker with table := table }
      | .error cause => CheckM.fail cause location) fun _ c' => c'.table.kind body = .object o := by
  refine .table_bind ?_
  by_cases reserved : c.table.kind body = .pending
  · have inside : body < c.table.size := TypeTable.lt_size_of_kind reserved (by simp)
    have size := TypeTable.size_setKind c.table body (.object o)
    have each (id : TypeId) : (c.table.setKind body (.object o)).kind id = c.table.kind id ∨
        (c.table.kind id).Settles ((c.table.setKind body (.object o)).kind id) := by
      rw [TypeTable.kind_setKind inside]
      split
      · next same => exact .inr (same ▸ reserved ▸ .body distinct)
      · exact .inl rfl
    have filled := findsFrom_table orderly (orderly.table.settle each) (.settle size each)
      (TypeTable.requests_settle orderly.table size each)
    rw [TypeTable.define, if_pos reserved]
    refine filled.weaken fun _ c' table => ?_
    rw [table, TypeTable.kind_setKind inside, if_pos rfl]
  · rw [TypeTable.define, if_neg reserved]
    exact .fail _ _

theorem findsFrom_completeInterface (top : c.AtTop options types names taken) {p : PendingInterface}
    (provides : c.table.Provides p.declaration.typeParameters p.typeParameters) :
    FindsFrom c (p.declaration.bodyFindings names) (completeInterface p) fun _ c' =>
      ∃ properties, c'.table.kind p.body = .object ⟨some p.declaration.name, properties⟩ := by
  have inside (ids : List TypeId) (_ : ids.length = p.declaration.typeParameters.length) :=
    finds_buildObjectType (some p.declaration.name) p.declaration.members
      (names.bind p.declaration.typeParameters)
  have whole := findsFrom_scoped top.orderly top.understands false
    (fun c' orderly table => .pure (b := p.typeParameters) orderly (table ▸ provides)) inside
  have filled := whole.finish fun o between found built =>
    (findsFrom_define found.orderly p.body built.1 p.declaration.location).weaken
      fun _ c' entry => show ∃ properties,
        c'.table.kind p.body = .object ⟨some p.declaration.name, properties⟩ from
          ⟨o.properties, entry.trans (by rw [← built.2])⟩
  simp only [pure_bind, bind_assoc, Bool.false_eq_true, if_false, List.nil_append] at filled
  exact filled

/-- A step for every interface, with what it settles for good. -/
theorem noted_forInterfaces {step : PendingInterface → CheckM Unit}
    (findings : InterfaceDeclaration → List Finding) (settled : PendingInterface → TypeTable → Prop)
    (each : ∀ {c : Checker} {p : PendingInterface}, c.AtTop options types names taken →
      c.table.Provides p.declaration.typeParameters p.typeParameters →
        FindsFrom c (findings p.declaration) (step p) fun _ c' => settled p c'.table)
    (stays : ∀ {p t t'}, settled p t → t.Grows [] t' → settled p t')
    {pending : List PendingInterface} (top : c.AtTop options types names taken)
    (provides : ∀ p ∈ pending, c.table.Provides p.declaration.typeParameters p.typeParameters)
    {a : Unit} (done : c.step (forInterfaces step pending) = (.ok a, c')) :
    c.Noted [] (pending.flatMap fun p => notesIn p.file (findings p.declaration)) c' ∧
      c'.AtTop options types names taken ∧ ∀ p ∈ pending, settled p c'.table := by
  induction pending generalizing c with
  | nil =>
      obtain ⟨-, rfl⟩ := Prod.mk.inj done
      exact ⟨.of_eq top.orderly rfl rfl rfl rfl, top, List.forall_mem_nil _⟩
  | cons p rest ih =>
      obtain ⟨here, others⟩ := List.forall_mem_cons.mp provides
      obtain ⟨_, one, placed, done⟩ := Checker.step_bind_ok done
      obtain ⟨-, rfl⟩ := Prod.mk.inj placed
      obtain ⟨silent, top⟩ := top.setFile p.file
      obtain ⟨_, two, stepped, done⟩ := Checker.step_bind_ok done
      obtain ⟨found, ours⟩ := each top here _ two stepped
      have later := fun q member => (others q member).grows found.grows
      obtain ⟨noted, top, theirs⟩ := ih (top.finds found) later done
      refine ⟨(silent.trans found.toNoted).trans noted, top, ?_⟩
      exact List.forall_mem_cons.mpr ⟨stays ours noted.grows, theirs⟩

end Bodies

section Values
variable {options : CheckerOptions} {types : Dictionary String TypeId} {names : Names} {taken : List String} {c c' : Checker}

theorem findsFrom_signature (orderly : c.Orderly) (understands : c.Understands names)
    (node : FunctionNode) :
    FindsFrom c (node.signatureFindings names) (do
      pushScope .empty
      let typeParameters ← declareTypeParameters node.typeParameters
      let parameters ← resolveParameters none 0 node.parameters
      let returnType ← resolveOptionalType node.returnType
      popScope
      return (typeParameters, parameters, returnType)) fun _ _ => True := by
  obtain ⟨typeParameters, parameters, returnType, body, location⟩ := node
  have inside (ids : List TypeId) (count : ids.length = typeParameters.length) :
      Finds (names.bind typeParameters) _ (do
        resolveConstraints typeParameters ids
        let parameters ← resolveParameters none 0 parameters
        let returnType ← resolveOptionalType returnType
        return (ids, parameters, returnType)) :=
    (finds_resolveConstraints typeParameters ids _ count).after fun _ =>
      (finds_resolveParameters none parameters 0 _).after fun parameters =>
        (finds_resolveOptionalType returnType _).map fun _ _ => trivial
  have whole := findsFrom_scoped orderly understands true
    (fun c' orderly _ => findsFrom_provided orderly typeParameters) inside
  rw [FunctionNode.signatureFindings]
  simpa only [declareTypeParameters, bind_assoc, pure_bind, if_true] using whole

/-- The first function of a name takes it, and any other is noted. -/
theorem noted_enterFunction (top : c.AtTop options types names taken) {name : String}
    {location : Location} {entered : Checker → DeclaredFunction} {a : Unit}
    (done : c.step (do
      let checker ← get
      set { checker with functions := checker.functions.push (entered checker) }
      if checker.globals.contains name then error location .duplicateIdentifier [name]
      else
        modify fun c =>
          { c with globals := c.globals.insert name (.function checker.functions.size) }) =
      (.ok a, c')) :
    c'.currentFile = c.currentFile ∧ c'.AtTop options types names (taken ++ [name]) ∧
      c.Noted [] (notesIn c.currentFile (if name ∈ taken then [.duplicate name location] else []))
        c' := by
  obtain ⟨checker, _, read, done⟩ := Checker.step_bind_ok done
  obtain ⟨same, rfl⟩ := Prod.mk.inj read
  obtain rfl := Except.ok.inj same
  obtain ⟨_, pushed, set, done⟩ := Checker.step_bind_ok done
  obtain ⟨-, rfl⟩ := Prod.mk.inj set
  have contains : c.globals.contains name = true ↔ name ∈ taken :=
    (Dictionary.contains_iff _ _).trans (top.taken name)
  have noted : c.Noted [] [] { c with functions := c.functions.push (entered c) } :=
    .of_eq top.orderly rfl rfl rfl rfl
  have registered : Checker.AtTop options types names taken
      { c with functions := c.functions.push (entered c) } :=
    ⟨noted.orderly, ⟨top.understands.inside, top.understands.arity⟩, top.outside, top.options,
      top.types, top.taken⟩
  split at done
  · next twice =>
      obtain ⟨found, -⟩ := findsFrom_error noted.orderly (.duplicate name location) rfl _ _ done
      have member := contains.mp twice
      have after : c'.AtTop options types names taken := registered.finds found
      rw [if_pos member]
      refine ⟨found.same.currentFile, ⟨after.orderly, after.understands, after.outside,
        after.options, after.types, fun other => ?_⟩, noted.trans found.toNoted⟩
      rw [after.taken, List.mem_append, List.mem_singleton]
      exact ⟨.inl, fun listed => listed.elim id fun same => same ▸ member⟩
  · next once =>
      obtain ⟨-, rfl⟩ := Prod.mk.inj done
      have absent := fun member => once (contains.mpr member)
      rw [if_neg absent]
      refine ⟨rfl, ⟨⟨top.orderly.declaring, top.orderly.table, top.orderly.queued⟩,
        ⟨top.understands.inside, top.understands.arity⟩, top.outside, top.options,
        top.types, fun other => ?_⟩, .of_eq top.orderly rfl rfl rfl rfl⟩
      have keys := Dictionary.keys_insert c.globals name (.function c.functions.size)
      rw [if_neg fun member => absent ((top.taken name).mp member)] at keys
      exact (iff_of_eq (congrArg (other ∈ ·) keys)).trans (by simp [top.taken])

/-- A function is entered with the findings in its signature. -/
theorem noted_declareFunction (top : c.AtTop options types names taken) {name : String}
    {node : FunctionNode} {a : Unit} (done : c.step (declareFunction name node) = (.ok a, c')) :
    c'.currentFile = c.currentFile ∧ c'.AtTop options types names (taken ++ [name]) ∧
      c.Noted [] (notesIn c.currentFile (node.signatureFindings names ++
        if name ∈ taken then [.duplicate name node.location] else [])) c' := by
  obtain ⟨_, c₁, pushed, done⟩ := Checker.step_bind_ok done
  obtain ⟨ids, c₂, declared, done⟩ := Checker.step_bind_ok done
  obtain ⟨parameters, c₃, resolved, done⟩ := Checker.step_bind_ok done
  obtain ⟨returnType, c₄, returned, done⟩ := Checker.step_bind_ok done
  obtain ⟨_, c₅, popped, done⟩ := Checker.step_bind_ok done
  obtain ⟨signature, -⟩ := findsFrom_signature top.orderly top.understands node
    (ids, parameters, returnType) c₅ (by
      simp only [Checker.step_bind, pushed, declared, resolved, returned, popped, Checker.step_pure])
  have top := top.finds signature
  have file : c₅.currentFile = c.currentFile := signature.same.currentFile
  obtain ⟨type, c₆, typed, done⟩ : ∃ type c₆, c₅.Finds [] c₆ ∧ c₆.step (do
      let checker ← get
      set { checker with
        functions := checker.functions.push
          ⟨node, checker.currentFile, ids, parameters, returnType, type, .unchecked⟩ }
      if checker.globals.contains name then error node.location .duplicateIdentifier [name]
      else
        modify fun c =>
          { c with globals := c.globals.insert name (.function checker.functions.size) }) =
      (.ok a, c') := by
    cases returnType with
    | none => exact ⟨none, c₅, .refl top.orderly, done⟩
    | some result =>
        obtain ⟨id, c₆, added, done⟩ := Checker.step_bind_ok done
        obtain ⟨found, -⟩ := findsFrom_addType top.orderly (by simp) (by simp) (by simp) _ _ added
        exact ⟨some id, c₆, found, done⟩
  have file' : c₆.currentFile = c.currentFile := typed.same.currentFile.trans file
  obtain ⟨file'', after, noted⟩ := noted_enterFunction (top.finds typed) done
  refine ⟨file''.trans file', after, ?_⟩
  rw [notesIn_append]
  rw [file'] at noted
  exact signature.toNoted.trans (typed.toNoted.trans noted)

/-- A variable is entered with the findings in its written type. -/
theorem noted_declareHoisted (top : c.AtTop options types names taken) {name : String}
    {declaredType : Option TypeNode} {a : Unit}
    (done : c.step (declareHoisted name declaredType) = (.ok a, c')) :
    c'.currentFile = c.currentFile ∧ c'.AtTop options types names taken ∧
      c.Noted [] (notesIn c.currentFile (optionalTypeFindings names declaredType)) c' := by
  obtain ⟨declared, between, resolved, done⟩ := Checker.step_bind_ok done
  obtain ⟨-, rfl⟩ := Prod.mk.inj done
  obtain ⟨found, -⟩ := finds_resolveOptionalType declaredType names c top.orderly top.understands
    declared between resolved
  have top := top.finds found
  refine ⟨found.same.currentFile, ⟨⟨top.orderly.declaring, top.orderly.table, top.orderly.queued⟩,
    ⟨top.understands.inside, top.understands.arity⟩, top.outside, top.options, top.types, top.taken⟩, ?_⟩
  exact found.toNoted.congr rfl rfl rfl rfl

theorem noted_declareStatements :
    ∀ (statements : List Statement) {taken : List String} {c : Checker},
      c.AtTop options types names taken → ∀ {a : Unit},
      c.step (declareStatements statements) = (.ok a, c') →
        c'.currentFile = c.currentFile ∧
          c'.AtTop options types names (taken ++ statements.filterMap Statement.functionName?) ∧
          c.Noted [] (notesIn c.currentFile (statementFindings names taken statements)) c'
  | [], taken, c, top, a, done => by
      obtain ⟨-, rfl⟩ := Prod.mk.inj done
      rw [List.filterMap_nil, List.append_nil]
      exact ⟨rfl, top, .of_eq top.orderly rfl rfl rfl rfl⟩
  | .function name node :: rest, taken, c, top, a, done => by
      obtain ⟨_, between, declared, done⟩ := Checker.step_bind_ok done
      obtain ⟨file, top, here⟩ := noted_declareFunction top declared
      obtain ⟨file', after, later⟩ := noted_declareStatements rest top done
      refine ⟨file'.trans file, ?_, ?_⟩
      · simpa [Statement.functionName?] using after
      · rw [file] at later
        have whole := here.trans later
        rw [← notesIn_append, List.append_assoc] at whole
        exact whole
  | .variable name declaredType _ _ :: rest, taken, c, top, a, done => by
      obtain ⟨_, between, declared, done⟩ := Checker.step_bind_ok done
      obtain ⟨file, top, here⟩ := noted_declareHoisted top declared
      obtain ⟨file', after, later⟩ := noted_declareStatements rest top done
      refine ⟨file'.trans file, after, ?_⟩
      rw [file] at later
      have whole := here.trans later
      rw [← notesIn_append] at whole
      exact whole
  | .interface _ :: rest, _, _, top, _, done => noted_declareStatements rest top done
  | .expression _ _ :: rest, _, _, top, _, done => noted_declareStatements rest top done
  | .returning _ _ :: rest, _, _, top, _, done => noted_declareStatements rest top done

theorem noted_declareFiles (files : List SourceFile) (top : c.AtTop options types names taken) {a : Unit}
    (done : c.step (declareFiles files) = (.ok a, c')) :
    c.Noted [] (fileNotes names taken files) c' ∧ ∃ taken', c'.AtTop options types names taken' := by
  induction files generalizing c taken with
  | nil =>
      obtain ⟨-, rfl⟩ := Prod.mk.inj done
      exact ⟨.of_eq top.orderly rfl rfl rfl rfl, taken, top⟩
  | cons file rest ih =>
      obtain ⟨_, _, placed, done⟩ := Checker.step_bind_ok done
      obtain ⟨-, rfl⟩ := Prod.mk.inj placed
      obtain ⟨_, between, declared, done⟩ := Checker.step_bind_ok done
      obtain ⟨silent, top⟩ := top.setFile (some file.name)
      obtain ⟨-, top, here⟩ := noted_declareStatements file.statements top declared
      obtain ⟨later, after⟩ := ih top done
      exact ⟨(silent.trans here).trans later, after⟩

end Values

section Program
variable {c c' : Checker}

/-- A checker that knows nothing yet. -/
structure Checker.Fresh (c : Checker) : Prop where
  table : c.table = .initial
  deferred : c.deferred = []
  declaring : c.phase = .declaring
  declaredTypes : c.declaredTypes = .empty
  globals : c.globals = .empty
  outside : c.scopes = []
  diagnostics : c.diagnostics = .empty

theorem Checker.Fresh.orderly (fresh : c.Fresh) : c.Orderly where
  declaring := fresh.declaring
  table := by
    have basic (id : TypeId) {kind : TypeKind} (entry : c.table.kind id = kind)
        (known : kind ≠ .unknown) : ∃ name, kind = .primitive name := by
      rw [fresh.table] at entry
      have listed := TypeTable.mem_entries_of_kind entry known
      simp only [TypeTable.initial, List.mem_toArray, List.mem_cons] at listed
      aesop
    refine ⟨fun id g entry => ?_, fun id i entry => ?_⟩
    · exact nomatch basic id entry (by simp)
    · exact nomatch basic id entry (by simp)
  queued := by
    rw [fresh.deferred, fresh.table]
    rfl

theorem Checker.Fresh.begun (fresh : c.Fresh) : Begun c.options [] c [] [] c where
  noted := .of_eq fresh.orderly rfl rfl rfl rfl
  top := by
    have unknown (name : String) : c.meaning? name = none := by
      rw [meaning?, fresh.outside, fresh.declaredTypes]
      rfl
    refine ⟨fresh.orderly, ⟨fun name id found => ?_, fun name => ?_⟩, fresh.outside, rfl, rfl, ?_⟩
    · simp [unknown] at found
    · rw [unknown]
      rfl
    · rw [fresh.globals]
      exact fun name => .rfl
  entered := rfl
  provides := List.forall_mem_nil _
  declared name id found := by
    simp [fresh.declaredTypes] at found

/-- Every declaration of the program is entered: its notes are taken, no body is reserved
any more, and the names of the interfaces stand for them. -/
structure Checker.Enters (c entered : Checker) : Prop where
  noted : ∃ reserved, c.Noted reserved (programNotes c.files) entered
  built : ∀ id, entered.table.kind id ≠ .pending
  options : entered.options = c.options
  interface : ∀ name id, entered.declaredTypes.find? name = some id →
    (entered.table.kind id).IsInterface name
  known : ∀ name, entered.declaredTypes.find? name = none ↔
    interfaceNames (programInterfaces c.files) name = none

/-- When all declarations are entered, the checks of type arguments follow. -/
theorem declareAll_enters (fresh : c.Fresh) {a : Unit} (done : c.step declareAll = (.ok a, c')) :
    ∃ entered, c.Enters entered ∧
      Checker.step { entered with deferred := [] } (do
        runDeferred entered.deferred
        setFile none) = (.ok a, c') := by
  obtain ⟨files, _, read, done⟩ := Checker.step_bind_ok done
  obtain ⟨same, rfl⟩ := Prod.mk.inj read
  obtain rfl := Except.ok.inj same
  obtain ⟨pending, c₁, begun, done⟩ := Checker.step_bind_ok done
  obtain ⟨noted₁, top₁, entered, provides, declared⟩ := fresh.begun.files c.files begun
  simp only [List.nil_append] at noted₁ top₁ entered provides declared
  obtain ⟨_, c₂, constrained, done⟩ := Checker.step_bind_ok done
  let names := interfaceNames (programInterfaces c.files)
  obtain ⟨noted₂, top₂, -⟩ := noted_forInterfaces (InterfaceDeclaration.headFindings names)
    (fun _ _ => True) (fun top provides => findsFrom_constrainInterface top provides)
    (fun _ _ => trivial) top₁ provides constrained
  obtain ⟨_, c₃, completed, done⟩ := Checker.step_bind_ok done
  have provides' := fun p member => (provides p member).grows noted₂.grows
  obtain ⟨noted₃, top₃, filled⟩ := noted_forInterfaces (InterfaceDeclaration.bodyFindings names)
    (fun p t => ∃ properties, t.kind p.body = .object ⟨some p.declaration.name, properties⟩)
    (fun top provides => findsFrom_completeInterface top provides)
    (fun filled grows => filled.imp fun _ => grows.object _ _) top₂ provides' completed
  obtain ⟨_, c₄, valued, done⟩ := Checker.step_bind_ok done
  obtain ⟨noted₄, taken, top₄⟩ := noted_declareFiles c.files top₃ valued
  have built (id : TypeId) : c₄.table.kind id ≠ .pending := by
    intro reserved
    have before := (noted₄.grows.pending id reserved).resolve_right (by simp)
    have listed := ((noted₂.grows.trans noted₃.grows).pending id before).resolve_right (by simp)
    rcases noted₁.grows.pending id listed with initial | body
    · rw [fresh.table] at initial
      have listed := TypeTable.mem_entries_of_kind initial (by simp)
      simp [TypeTable.initial] at listed
    · obtain ⟨p, member, rfl⟩ := List.mem_map.mp body
      obtain ⟨properties, body⟩ := filled p member
      simp [before] at body
  have notes : repeatedInterfaces [] (programInterfaces c.files) ++
      ((pending.flatMap fun p => notesIn p.file (p.declaration.headFindings names)) ++
        ((pending.flatMap fun p => notesIn p.file (p.declaration.bodyFindings names)) ++
          fileNotes names [] c.files)) = programNotes c.files := by
    rw [programNotes, ← entered, List.flatMap_map, List.flatMap_map]
  have whole := noted₁.trans (noted₂.trans (noted₃.trans noted₄))
  rw [notes] at whole
  obtain ⟨deferred, c₅, read, done⟩ := Checker.step_bind_ok done
  obtain ⟨same, rfl⟩ := Prod.mk.inj read
  obtain rfl := Except.ok.inj same
  obtain ⟨_, _, cleared, done⟩ := Checker.step_bind_ok done
  obtain ⟨-, rfl⟩ := Prod.mk.inj cleared
  refine ⟨c₄, ⟨⟨_, whole⟩, built, top₄.options, fun name id found => ?_, fun name => ?_⟩, done⟩
  · rw [top₄.types] at found
    rcases declared name id found with interface | ⟨p, member, rfl, rfl⟩
    · exact interface.grows (noted₂.grows.trans (noted₃.grows.trans noted₄.grows))
    · obtain ⟨properties, body⟩ := filled p member
      rw [noted₄.grows.object _ _ body]
      exact .object properties
  · rw [← top₄.meaning, ← Option.map_eq_none_iff, top₄.understands.arity]

end Program

end StructuralTyping
