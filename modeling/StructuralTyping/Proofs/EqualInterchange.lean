import StructuralTyping.Proofs.RenamedSignatures

/-! Types that are equal are assignable to one another, as long as the signatures in them are
the same up to names. A comparison of types that may stand for one another resolves nothing:
it adds the types that instantiated signatures are made of, and in every place where it
compares them it says yes. -/
namespace StructuralTyping

open Equality TypeTable

namespace Assignability

variable {α β : Type} {bodies : Dictionary (TypeId × List TypeId) TypeId} {σ : Session}

/-- If the computation comes to a result, then to this one, and it has resolved nothing. -/
def Grants (bodies : Dictionary (TypeId × List TypeId) TypeId) (m : RelationM α) (σ : Session)
    (a : α) : Prop :=
  ∀ b σ', m.run σ = some (b, σ') → Advances (Remembering bodies) σ.table σ'.table ∧ b = a

namespace Grants

theorem pure (a : α) : Grants bodies (pure a) σ a := by
  intro b σ' done
  obtain ⟨rfl, rfl⟩ := Prod.mk.inj (Option.some.inj done)
  exact ⟨.refl _, rfl⟩

theorem bind {m : RelationM α} {k : α → RelationM β} {a : α} {b : β} (first : Grants bodies m σ a)
    (next : ∀ σ', Advances (Remembering bodies) σ.table σ'.table → Grants bodies (k a) σ' b) :
    Grants bodies (m >>= k) σ b := by
  intro c σ'' done
  rw [StateT.run_bind] at done
  obtain ⟨⟨a', σ'⟩, one, two⟩ := Option.bind_eq_some_iff.mp done
  obtain ⟨advances, rfl⟩ := first a' σ' one
  obtain ⟨more, same⟩ := next σ' advances c σ'' two
  exact ⟨advances.trans more, same⟩

theorem after {m : RelationM α} {k : α → RelationM β} {a : α} {b : β} {σ' : Session}
    (ran : m.run σ = some (a, σ')) (advances : Advances (Remembering bodies) σ.table σ'.table)
    (next : Grants bodies (k a) σ' b) : Grants bodies (m >>= k) σ b := by
  intro c σ'' done
  rw [StateT.run_bind, ran] at done
  obtain ⟨more, same⟩ := next c σ'' done
  exact ⟨advances.trans more, same⟩

theorem ite {p : Prop} [Decidable p] {yes no : RelationM α} {a : α}
    (one : p → Grants bodies yes σ a) (two : ¬p → Grants bodies no σ a) :
    Grants bodies (if p then yes else no) σ a := by
  split
  · next holds => exact one holds
  · next fails => exact two fails

end Grants

/-- Types of the table that may stand for one another. -/
def Exchanged (t : TypeTable) (x y : TypeId) : Prop :=
  Interchangeable t x y ∧ x < t.size ∧ y < t.size

theorem Exchanged.symm {t : TypeTable} {x y : TypeId} (exchanged : Exchanged t x y) :
    Exchanged t y x :=
  ⟨exchanged.1.symm, exchanged.2.2, exchanged.2.1⟩

theorem Exchanged.later {t u : TypeTable} {x y : TypeId} (exchanged : Exchanged t x y)
    (remembering : Remembering bodies t) (advances : Advances (Remembering bodies) t u) :
    Exchanged u x y :=
  ⟨exchanged.1.later advances remembering exchanged.2.1 exchanged.2.2,
    advances.inside exchanged.2.1, advances.inside exchanged.2.2⟩

/-- What stands beside each other is in the table. -/
theorem Exchanged.of_beside {t : TypeTable} {own : Pairs} {a b x y : TypeId}
    (wellFormed : t.WellFormed) (beside : Beside t a b own x y)
    (renamed : Renaming t (Interchangeable t) [] x y) : Exchanged t x y :=
  ⟨.of_renaming renamed, wellFormed.part beside.inside.1 beside.part.1,
    wellFormed.part beside.inside.2 beside.part.2⟩

/-- The comparison says yes to types that may stand for one another. -/
def GrantsPairs (bodies : Dictionary (TypeId × List TypeId) TypeId) (related : Related) : Prop :=
  ∀ (σ : Session) (x y : TypeId), Remembering bodies σ.table → Exchanged σ.table x y →
    Grants bodies (related x y) σ (.ok ())

section Comparison
variable {strict : Bool} {related : Related} (each : GrantsPairs bodies related)
  {source target x y : TypeId}

include each

theorem grants_holds (remembering : Remembering bodies σ.table)
    (exchanged : Exchanged σ.table x y) :
    Grants bodies (holds related x y) σ true :=
  (each σ x y remembering exchanged).bind fun _ _ => .pure true

theorem grants_argumentsRelated (pairs : List (TypeId × TypeId))
    (remembering : Remembering bodies σ.table)
    (exchanged : ∀ pair ∈ pairs, Exchanged σ.table pair.1 pair.2) :
    Grants bodies (argumentsRelated strict related pairs) σ true := by
  induction pairs generalizing σ with
  | nil => exact .pure true
  | cons pair rest ih =>
      obtain ⟨here, later⟩ := List.forall_mem_cons.mp exchanged
      have others {σ' : Session} (advances : Advances (Remembering bodies) σ.table σ'.table) :
          Grants bodies (argumentsRelated strict related rest) σ' true :=
        ih (advances.keeps remembering) fun other member =>
          (later other member).later remembering advances
      refine (grants_holds each remembering here).bind fun σ' advances => ?_
      refine .ite (fun _ => .ite (fun _ => ?_) fun _ => others advances) fun no => absurd rfl no
      refine (grants_holds each (advances.keeps remembering)
        (here.later remembering advances).symm).bind fun σ'' more => ?_
      exact .ite (fun _ => others (advances.trans more)) fun no => absurd rfl no

/-- Instances of one interface are compared by their arguments. -/
theorem grants_instancesRelated {i j : InstantiatedType} (remembering : Remembering bodies σ.table)
    (left : σ.table.kind x = .instantiated i) (right : σ.table.kind y = .instantiated j)
    (origin : i.origin = j.origin)
    (parts : ∀ m n, Beside σ.table x y [] m n →
      Renaming σ.table (Interchangeable σ.table) [] m n) :
    Grants bodies (instancesRelated strict related x y) σ true := by
  refine .after rfl (.refl _) ?_
  dsimp only
  rw [left, right]
  dsimp only
  rw [if_pos origin]
  refine grants_argumentsRelated each _ remembering fun pair listed => ?_
  have beside : Beside σ.table x y [] pair.1 pair.2 := .argument left right origin listed
  exact .of_beside remembering.toWellFormed beside (parts _ _ beside)

theorem grants_objectRelated {s : ObjectType} (expected : List (String × Property))
    (remembering : Remembering bodies σ.table)
    (given : ∀ q ∈ expected, ∃ p, s.property? q.1 = some p ∧ p.optional = q.2.optional ∧
      Exchanged σ.table p.type q.2.type) :
    Grants bodies (objectRelated related source target s expected) σ (.ok ()) := by
  induction expected generalizing σ with
  | nil => exact .pure _
  | cons property rest ih =>
      obtain ⟨⟨p, found, optional, exchanged⟩, later⟩ := List.forall_mem_cons.mp given
      rw [objectRelated, found]
      dsimp only
      refine .ite (fun _ => ?_) fun no => absurd (by simp [optional]) no
      refine (each σ _ _ remembering exchanged).bind fun σ' advances => ?_
      refine ih (advances.keeps remembering) fun q member => ?_
      obtain ⟨p, found, optional, exchanged⟩ := later q member
      exact ⟨p, found, optional, exchanged.later remembering advances⟩

theorem grants_parametersRelated (index : Nat) (parameters : List (Parameter × Parameter))
    (remembering : Remembering bodies σ.table)
    (exchanged : ∀ pair ∈ parameters, Exchanged σ.table pair.1.type pair.2.type) :
    Grants bodies (parametersRelated strict related source target index parameters) σ (.ok ()) := by
  induction parameters generalizing index σ with
  | nil => exact .pure _
  | cons pair rest ih =>
      obtain ⟨here, later⟩ := List.forall_mem_cons.mp exchanged
      have reversed : Grants bodies (parameterRelated strict related pair.1.type pair.2.type) σ
          (.ok ()) :=
        (each σ _ _ remembering here.symm).bind fun _ _ => .pure _
      refine reversed.bind fun σ' advances => ?_
      exact ih (index + 1) (advances.keeps remembering) fun other member =>
        (later other member).later remembering advances

theorem grants_signatureRelated {s t : FunctionType} (remembering : Remembering bodies σ.table)
    (rule : SignatureRule (Exchanged σ.table) s t) :
    Grants bodies (signatureRelated strict related source target s t) σ (.ok ()) := by
  have enough : ¬t.parameters.length < s.minArgumentCount := by
    have fewer := (List.dropWhile_sublist (fun p : Parameter => p.optional)
      (l := s.parameters.reverse)).length_le
    rw [List.length_reverse, rule.arity] at fewer
    exact Nat.not_lt.mpr fewer
  refine .ite (fun missing => absurd missing enough) fun _ => ?_
  refine (grants_parametersRelated each 0 _ remembering fun pair listed =>
    (rule.parameters pair listed).2).bind fun σ' advances => ?_
  refine .after rfl (.refl _) (.ite (fun _ => .pure _) fun _ => ?_)
  exact (each σ' _ _ (advances.keeps remembering) (rule.result.later remembering advances)).bind
    fun _ _ => .pure _

theorem grants_functionRelated {f g : FunctionType} (remembering : Remembering bodies σ.table)
    (left : σ.table.kind x = .function f) (right : σ.table.kind y = .function g)
    (parallel : Parallel σ.table [] x y)
    (parts : ∀ own m n, Beside σ.table x y own m n →
      Renaming σ.table (Interchangeable σ.table) own m n) :
    Grants bodies (functionRelated strict related source target f g) σ (.ok ()) := by
  rw [functionRelated]
  split
  · obtain ⟨advances, rule⟩ := yields_instantiateAgainst remembering left right parallel parts
    exact .after rfl advances (grants_signatureRelated each (advances.keeps remembering) rule)
  · next plain =>
      have nothing : f.typeParameters = [] := by simpa [FunctionType.isGeneric] using plain
      have exchanged {m n : TypeId}
          (beside : Beside σ.table x y (f.typeParameters.zip g.typeParameters) m n) :
          Exchanged σ.table m n := by
        refine .of_beside remembering.toWellFormed beside ?_
        simpa [nothing] using parts _ m n beside
      obtain ⟨-, arity, optional⟩ := parallel.signatures left right
      refine .after rfl (.refl _) (grants_signatureRelated each remembering ⟨arity, ?_, ?_⟩)
      · exact fun pair listed => ⟨optional pair listed, exchanged (.parameter left right listed)⟩
      · exact exchanged (.result left right)

/-- Types that are no instances and may stand for one another are compared by their structure. -/
theorem grants_structureRelated (remembering : Remembering bodies σ.table)
    (exchanged : Exchanged σ.table x y) (differ : x ≠ y) (plain : ¬σ.table.IsInstance x)
    (plain' : ¬σ.table.IsInstance y)
    (solid : ¬(σ.table.isWildcard x = true ∨ σ.table.isWildcard y = true)) :
    Grants bodies (structureRelated strict related source target x y) σ (.ok ()) := by
  obtain ⟨interchangeable, -, -⟩ := exchanged
  have rule := interchangeable.unfold
  refine .after rfl (.refl _) ?_
  dsimp only
  cases rule with
  | same equal => exact absurd equal differ
  | wildcard either => exact absurd either solid
  | bodies instantiated => exact (instantiated.elim plain plain').elim
  | primitive left right =>
      rw [left, right]
      dsimp only
      rw [if_pos rfl]
      exact .pure _
  | composite parallel parts =>
      cases parallel with
      | arguments left => exact absurd ⟨_, left⟩ plain
      | @object s t left right names optional =>
          rw [left, right]
          refine grants_objectRelated each _ remembering fun q member => ?_
          obtain ⟨p, found⟩ := Dictionary.mem_keys_iff.mp
            ((names q.1).mpr (List.mem_map_of_mem member))
          have listed := Dictionary.mem_of_find? found
          have beside : Beside σ.table x y [] p.type q.2.type := .property left right listed member
          exact ⟨p, found, optional q.1 p q.2 listed member,
            .of_beside remembering.toWellFormed beside (parts [] _ _ beside)⟩
      | function left right declared own own' arity optional =>
          rw [left, right]
          exact grants_functionRelated each remembering left right
            (.function left right declared own own' arity optional) parts

theorem grants_bodiesRelated {m n : TypeId} (remembering : Remembering bodies σ.table)
    (left : body? σ.table source = some m) (right : body? σ.table target = some n)
    (plain : ¬σ.table.IsInstance m) (plain' : ¬σ.table.IsInstance n)
    (exchanged : Exchanged σ.table m n) :
    Grants bodies (bodiesRelated strict related source target) σ (.ok ()) := by
  have resolved {id body : TypeId} (made : body? σ.table id = some body) :
      (RelationM.onTable (resolve id)).run σ = some (body, σ) := by
    rw [run_onTable, run_resolve_body made]
  refine .after (resolved left) (.refl _) (.after (resolved right) (.refl _)
    (.after rfl (.refl _) ?_))
  refine .ite (fun _ => .pure _) fun differ => .ite (fun _ => .pure _) fun solid => ?_
  refine .ite (fun _ => .pure _) fun _ => ?_
  refine .after rfl (.refl _) (.ite (fun _ => .pure _) fun _ => ?_)
  -- what is in progress does not matter for the comparison of the structures
  have compared (progress : PairSet) (depth : Nat) :
      Grants bodies (structureRelated strict related source target m n)
        ⟨σ.table, progress, depth⟩ (.ok ()) :=
    grants_structureRelated each (σ := ⟨σ.table, progress, depth⟩) remembering exchanged differ
      plain plain' (by simpa using solid)
  have entered (expanded : Bool) : (RelationM.enter m n expanded).run σ =
      some ((), ⟨σ.table, σ.inProgress.insert (m, n),
        σ.expansionDepth + if expanded then 1 else 0⟩) := rfl
  refine .after (entered _) (.refl _) ?_
  refine (compared _ _).bind fun σ' _ => ?_
  exact .after rfl (.refl σ'.table) (.pure _)

end Comparison

theorem grants_relatedWithin (strict : Bool) (fuel : Nat) :
    GrantsPairs bodies (relatedWithin strict fuel) := by
  induction fuel with
  | zero => exact fun _ _ _ _ _ _ _ done => nomatch done
  | succ fuel ih =>
      intro σ x y remembering exchanged
      have wellFormed := remembering.toWellFormed
      rw [relatedWithin]
      refine .ite (fun _ => .pure _) fun differ => ?_
      -- what is not granted by the arguments of instances is granted by the bodies
      have byBodies {m n : TypeId}
          (apart : ∀ i j, σ.table.kind x = .instantiated i → σ.table.kind y = .instantiated j →
            i.origin ≠ j.origin)
          (left : body? σ.table x = some m) (right : body? σ.table y = some n)
          (plain : ¬σ.table.IsInstance m) (plain' : ¬σ.table.IsInstance n)
          (exchanged : Exchanged σ.table m n) : Grants bodies (do
            if ← instancesRelated strict (relatedWithin strict fuel) x y then return .ok ()
            else bodiesRelated strict (relatedWithin strict fuel) x y) σ (.ok ()) := by
        refine .after (run_instancesRelated_apart apart) (.refl _) ?_
        exact .ite (fun _ => .pure _) fun _ =>
          grants_bodiesRelated ih remembering left right plain plain' exchanged
      have direct (plain : ¬σ.table.IsInstance x) (plain' : ¬σ.table.IsInstance y) :=
        byBodies (fun i _ left => absurd ⟨i, left⟩ plain) (body?_plain plain) (body?_plain plain')
          plain plain' exchanged
      have rule := exchanged.1.unfold
      cases rule with
      | same equal => exact absurd equal differ
      | wildcard _ plain plain' => exact direct plain plain'
      | primitive left right =>
          exact direct (by simp [IsInstance, left]) (by simp [IsInstance, right])
      | bodies _ apart left right plain plain' related =>
          exact byBodies apart left right plain plain' ⟨related,
            wellFormed.toClosed.body? exchanged.2.1 left, wellFormed.toClosed.body? exchanged.2.2 right⟩
      | composite parallel parts =>
          cases parallel with
          | object left right | function left right =>
              exact direct (by simp [IsInstance, left]) (by simp [IsInstance, right])
          | @arguments i j left right origin =>
              have instances : Grants bodies
                  (instancesRelated strict (relatedWithin strict fuel) x y) σ true :=
                grants_instancesRelated ih remembering left right origin (parts [])
              exact instances.bind fun _ _ => .ite (fun _ => .pure _) fun no => absurd rfl no

end Assignability

namespace Equality

/-- Where the comparison comes to two generic functions that differ, and that have nothing to do
with the type parameters around them, these are the same up to the names of their own. -/
def SameUpToNames (t : TypeTable) (a b : TypeId) : Prop :=
  ∀ Γ x y f g, Comes t a b Γ x y → Uninvolved t Γ x y → x ≠ y → t.kind x = .function f →
    t.kind y = .function g → f.isGeneric = true →
      OwnParameters t [] f.typeParameters ∧ OwnParameters t [] g.typeParameters ∧
        ∀ own m n, Beside t x y own m n → Renaming t (fun _ _ => True) own m n

section Equal
variable {t : TypeTable} {Γ Δ own : Pairs} {a b x y : TypeId}

/-- It is enough to look at pairs among which the comparison stays. -/
theorem SameUpToNames.of_pairs (pairs : Pairs) (start : (a, b) ∈ pairs)
    (closed : ∀ pair ∈ pairs, ∀ own x y, ComesTo t pair.1 pair.2 own x y → (x, y) ∈ pairs)
    (renamed : ∀ pair ∈ pairs, ∀ f g, t.kind pair.1 = .function f → t.kind pair.2 = .function g →
      OwnParameters t [] f.typeParameters ∧ OwnParameters t [] g.typeParameters ∧
        ∀ own m n, Beside t pair.1 pair.2 own m n → Renaming t (fun _ _ => True) own m n) :
    SameUpToNames t a b := by
  intro Γ x y f g comes _ _ left right _
  have listed : (x, y) ∈ pairs := by
    clear * - start closed comes
    induction comes with
    | start => exact start
    | step _ next ih => exact closed _ ih _ _ _ next
  exact renamed _ listed f g left right

theorem Beside.comesTo (distinct : t.DistinctProperties) (beside : Beside t a b own x y) :
    ComesTo t a b own x y := by
  cases beside with
  | property ha hb listed listed' =>
      exact .property ha hb listed (Dictionary.find?_of_mem (distinct b _ hb) listed')
  | parameter ha hb listed => exact .parameter ha hb listed
  | result ha hb => exact .result ha hb
  | argument ha hb origin listed => exact .argument ha hb origin listed

/-- What stands in one place of one type is one type. -/
theorem Beside.eq_of_same (distinct : t.DistinctProperties) (beside : Beside t a a own x y) :
    x = y := by
  cases beside with
  | @property o _ _ _ _ ha hb listed listed' =>
      cases ha.symm.trans hb
      have one := Dictionary.find?_of_mem (distinct a o ha) listed
      have two := Dictionary.find?_of_mem (distinct a o ha) listed'
      exact congrArg Property.type (Option.some.inj (one.symm.trans two))
  | parameter ha hb listed =>
      cases ha.symm.trans hb
      exact congrArg Parameter.type (eq_of_mem_zip (f := fun p => p) rfl _ listed)
  | result ha hb =>
      cases ha.symm.trans hb
      rfl
  | argument ha hb _ listed =>
      cases ha.symm.trans hb
      exact eq_of_mem_zip (f := fun p => p) rfl _ listed

/-- What stands beside each other in equal types is equal. -/
theorem Similar.beside (distinct : t.DistinctProperties) (similar : Similar t Γ a b)
    (outside : (a, b) ∉ Γ) (beside : Beside t a b own x y) : Similar t (own ++ Γ) x y := by
  have rule := similar.unfold
  cases rule with
  | corresponding member => exact absurd member outside
  | same equal =>
      subst equal
      exact beside.eq_of_same distinct ▸ similar_iff.mpr (.same rfl)
  | primitive ha | unknown ha =>
      cases beside with
      | property ha' | parameter ha' | result ha' | argument ha' => cases ha.symm.trans ha'
  | object ha hb rule =>
      cases beside with
      | @property _ _ name p q ha' hb' listed listed' =>
          cases ha.symm.trans ha'
          cases hb.symm.trans hb'
          obtain ⟨q', found, -, related⟩ := rule.properties name p listed
          have found' := Dictionary.find?_of_mem (distinct b _ hb) listed'
          obtain rfl := Option.some.inj (found.symm.trans found')
          exact related
      | parameter ha' | result ha' | argument ha' => cases ha.symm.trans ha'
  | function ha hb rule =>
      cases beside with
      | parameter ha' hb' listed =>
          cases ha.symm.trans ha'
          cases hb.symm.trans hb'
          exact (rule.parameters _ listed).2
      | result ha' hb' =>
          cases ha.symm.trans ha'
          cases hb.symm.trans hb'
          exact rule.result
      | property ha' | argument ha' => cases ha.symm.trans ha'
  | arguments ha hb origin arguments =>
      cases beside with
      | argument ha' hb' _ listed =>
          cases ha.symm.trans ha'
          cases hb.symm.trans hb'
          exact arguments _ listed
      | property ha' | parameter ha' | result ha' => cases ha.symm.trans ha'
  | bodies instantiated apart =>
      cases beside with
      | argument ha' hb' origin => exact absurd origin (apart _ _ ha' hb')
      | property ha' hb' | parameter ha' hb' | result ha' hb' =>
          simp [IsInstance, ha', hb'] at instantiated

/-- The comparison comes to the types, they are equal there, and they have nothing to do with the
type parameters that correspond. -/
def Compared (t : TypeTable) (a b x y : TypeId) : Prop :=
  ∃ Γ, Comes t a b Γ x y ∧ Similar t Γ x y ∧ Uninvolved t Γ x y

/-- Types that are the same up to names are so with the types compared in the other places. -/
theorem Renaming.compared (distinct : t.DistinctProperties)
    (leaves : ∀ p ∈ Δ.map Prod.fst, t.flag p = .typeParameter) (comes : Comes t a b (Δ ++ Γ) x y)
    (similar : Similar t (Δ ++ Γ) x y) (uninvolved : Uninvolved t Γ x y)
    (renamed : Renaming t (fun _ _ => True) Δ x y) : Renaming t (Compared t a b) Δ x y := by
  induction renamed with
  | corresponding member left right => exact .corresponding member left right
  | @kept Δ x y inner =>
      refine .kept inner ⟨Δ ++ Γ, comes, similar, fun pair member => ?_⟩
      exact (List.mem_append.mp member).elim (inner pair) (uninvolved pair)
  | @composite Δ x y parallel _ ih =>
      have outside : (x, y) ∉ Δ ++ Γ := fun member =>
        (List.mem_append.mp member).elim
          (fun declared => parallel.flag_ne (leaves x (List.mem_map_of_mem declared)))
          uninvolved.not_mem
      refine .composite parallel fun own m n beside => ?_
      have next := comes.step (beside.comesTo distinct)
      have below := similar.beside distinct outside beside
      rw [← List.append_assoc] at next below
      refine ih own m n beside (fun p listed => ?_) next below
        (uninvolved.of_meets beside.meets.1 beside.meets.2)
      rw [List.map_append] at listed
      exact (List.mem_append.mp listed).elim ((parallel.ownParameters beside).1.leaves p) (leaves p)

/-- Objects that agree in their properties are made alike. -/
theorem Parallel.of_objects {S : TypeId → TypeId → Prop} {o o' : ObjectType}
    (distinct : t.DistinctProperties) (left : t.kind x = .object o) (right : t.kind y = .object o')
    (rule : ObjectRule S o o') : Parallel t Γ x y := by
  refine .object left right (Dictionary.mem_keys_iff_of_size (distinct x o left) rule.size
    fun name known => ?_) fun name p q listed listed' => ?_
  · obtain ⟨p, found⟩ := Dictionary.mem_keys_iff.mp known
    obtain ⟨q, found', -⟩ := rule.properties name p (Dictionary.mem_of_find? found)
    exact Dictionary.mem_keys_iff.mpr ⟨q, found'⟩
  · obtain ⟨q', found, optional, -⟩ := rule.properties name p listed
    have found' := Dictionary.find?_of_mem (distinct y o' right) listed'
    obtain rfl := Option.some.inj (found.symm.trans found')
    exact optional

section Parts
variable (distinct : t.DistinctProperties) (comes : Comes t a b Γ x y) (similar : Similar t Γ x y)
  (uninvolved : Uninvolved t Γ x y)

include distinct comes similar uninvolved

/-- The comparison goes on with what stands beside each other. -/
theorem compared_beside {m n : TypeId} (beside : Beside t x y own m n) :
    Comes t a b (own ++ Γ) m n ∧ Similar t (own ++ Γ) m n ∧ Uninvolved t Γ m n :=
  ⟨comes.step (beside.comesTo distinct), similar.beside distinct uninvolved.not_mem beside,
    uninvolved.of_meets beside.meets.1 beside.meets.2⟩

/-- Where no type parameters are declared, the parts are simply compared. -/
theorem compared_undeclared (parallel : Parallel t [] x y)
    (undeclared : ∀ own m n, Beside t x y own m n → own = []) :
    InterchangeRule t (Compared t a b) x y := by
  refine .composite parallel fun own m n beside => ?_
  obtain rfl := undeclared own m n beside
  exact .kept (uninvolved_nil t m n)
    ⟨Γ, compared_beside distinct comes similar uninvolved beside⟩

theorem compared_functions {f g : FunctionType} {S : TypeId → TypeId → Prop}
    (names : SameUpToNames t a b) (left : t.kind x = .function f) (right : t.kind y = .function g)
    (rule : FunctionRule S f g) : InterchangeRule t (Compared t a b) x y := by
  have optional (pair : Parameter × Parameter) (listed : pair ∈ f.parameters.zip g.parameters) :=
    (rule.parameters pair listed).1
  by_cases equal : x = y
  · exact .same equal
  by_cases generic : f.isGeneric = true
  · obtain ⟨own, own', parts⟩ := names Γ x y f g comes uninvolved equal left right generic
    have parallel : Parallel t [] x y :=
      .function left right rule.declared own own' rule.arity optional
    refine .composite parallel fun own m n beside => ?_
    obtain ⟨comes, similar, uninvolved⟩ :=
      compared_beside distinct comes similar uninvolved beside
    exact (parts own m n beside).compared distinct (parallel.ownParameters beside).1.leaves comes
      similar uninvolved
  · have nothing : f.typeParameters = [] := by simpa [FunctionType.isGeneric] using generic
    have nothing' : g.typeParameters = [] :=
      List.length_eq_zero_iff.mp (rule.declared.symm.trans (congrArg List.length nothing))
    have parallel : Parallel t [] x y := .function left right rule.declared
      (nothing ▸ ownParameters_nil t []) (nothing' ▸ ownParameters_nil t []) rule.arity optional
    have none : f.typeParameters.zip g.typeParameters = [] := by rw [nothing, List.zip_nil_left]
    exact compared_undeclared distinct comes similar uninvolved parallel fun own m n =>
      Beside.of_functions (P := fun own _ _ => own = []) left right (fun _ _ => none) none

end Parts

/-- Types that are compared and equal are compared by the rules for types that may stand for one
another. -/
theorem Compared.rule (coherent : t.Coherent) (distinct : t.DistinctProperties)
    (names : SameUpToNames t a b) (compared : Compared t a b x y) :
    InterchangeRule t (Compared t a b) x y := by
  obtain ⟨Γ, comes, similar, uninvolved⟩ := compared
  have rule := similar.unfold
  cases rule with
  | same equal => exact .same equal
  | corresponding member => exact absurd member uninvolved.not_mem
  | primitive hx hy => exact .primitive hx hy
  | unknown hx hy =>
      exact .wildcard (.inl (by simp [isWildcard, flag, hx, TypeKind.flag, TypeFlag.isWildcard]))
        (by simp [IsInstance, hx]) (by simp [IsInstance, hy])
  | object hx hy rule =>
      refine compared_undeclared distinct comes similar uninvolved (.of_objects distinct hx hy rule)
        fun own m n beside => ?_
      cases beside with
      | property => rfl
      | parameter hx' | result hx' | argument hx' => cases hx.symm.trans hx'
  | function hx hy rule =>
      exact compared_functions distinct comes similar uninvolved names hx hy rule
  | @arguments i j hx hy origin =>
      obtain ⟨h, left⟩ := coherent.tidy.instances x i hx
      obtain ⟨h', right⟩ := coherent.tidy.instances y j hy
      obtain rfl := TypeKind.generic.inj (left.origin.symm.trans (origin ▸ right.origin))
      have counted := left.counted.symm.trans right.counted
      refine compared_undeclared distinct comes similar uninvolved (.arguments hx hy origin counted)
        fun own m n beside => ?_
      cases beside with
      | argument => rfl
      | property hx' | parameter hx' | result hx' => cases hx.symm.trans hx'
  | bodies instantiated apart hx hy _ related =>
      exact .bodies instantiated apart hx hy ((coherent.layered x).plain_body hx)
        ((coherent.layered y).plain_body hy) ⟨Γ, comes.step (.bodies instantiated hx hy), related,
          uninvolved.of_meets (meets_body hx) (meets_body hy)⟩

end Equal

end Equality

section Interchange
variable {t : TypeTable} {a b : TypeId}

/-- In the table of a run, nothing becomes known of the type that nothing is known of. -/
theorem TypeTable.unknown_declareAndCheck {options : CheckerOptions} {files : List SourceFile}
    {c : Checker} (done : (Checker.new options).step (declareAndCheck files) = (.ok (), c)) :
    c.table.kind TypeId.unknown = .unknown := by
  have matures := ((Tidies.declareAndCheck files _ (tidy_new options)).ends _ c done).2.1
  have inside : TypeId.unknown < TypeTable.initial.size := by decide
  cases matures.settles TypeId.unknown inside with
  | same same => exact same
  | constrained entry => cases entry
  | built pending => cases pending

/-- Types that are equal, and in which the signatures are the same up to names, are assignable to
one another whenever the question is answered. -/
theorem equals_interchangeable (coherent : t.Coherent) (distinct : t.DistinctProperties)
    (basic : t.kind TypeId.unknown = .unknown) (left : a < t.size) (right : b < t.size)
    (names : SameUpToNames t a b) (equal : t.equals a b = true) (strict : Bool) :
    (∀ verdict after, Assignability.Answers strict t a b false verdict after →
      verdict = .ok ()) ∧
    ∀ verdict after, Assignability.Answers strict t b a false verdict after →
      verdict = .ok () := by
  have interchangeable : Interchangeable t a b :=
    ⟨Compared t a b, fun x y compared => compared.rule coherent distinct names,
      [], .start, coherent.equals_iff.mp equal, uninvolved_nil t a b⟩
  have remembering : Remembering t.resolved t := ⟨coherent.grounded, basic, rfl⟩
  have exchanged : Assignability.Exchanged t a b := ⟨interchangeable, left, right⟩
  have granted {x y : TypeId} (exchanged : Assignability.Exchanged t x y) (verdict : Verdict)
      (after : TypeTable) (answers : Assignability.Answers strict t x y false verdict after) :
      verdict = .ok () := by
    obtain ⟨fuel, σ, found, -⟩ := answers
    exact (Assignability.grants_relatedWithin strict fuel (.ofTable t) x y remembering exchanged
      verdict σ found).2
  exact ⟨granted exchanged, granted exchanged.symm⟩

end Interchange

section Programs

/-- Two variables of types that differ in the names of type parameters alone: of those of the
function itself, and of those of the function that it takes. -/
def renamed : List SourceFile :=
  let signature (outer inner : String) : TypeNode :=
    let callback : TypeNode := .ofSignature [.free inner] [
      .required "y" (some (.named inner [])), .required "z" (some (.named outer []))]
      (.named "Box" [.named outer []])
    .ofSignature [.free outer] [
      .required "x" (some (.named outer [])), .required "k" (some callback)] (.named outer [])
  [⟨"", [
    .ofInterface "Box" [.free "T"] [.required "value" (.named "T" [])],
    .ofVariable "f" (some (signature "A" "B")) none,
    .ofVariable "g" (some (signature "C" "D")) none]⟩]

/-- The table after the check of `renamed`. -/
def renamedTable : TypeTable where
  entries := TypeTable.initial.entries ++
    #[.typeParameter "T" none, .object ⟨some "Box", ⟨[("value", ⟨7, false⟩)]⟩⟩,
      .generic ⟨"Box", [7], 8⟩,
      .typeParameter "A" none, .typeParameter "B" none, .instantiated ⟨9, ⟨[("T", 10)]⟩⟩,
      .function ⟨[11], [⟨"y", 11, false⟩, ⟨"z", 10, false⟩], 12⟩,
      .function ⟨[10], [⟨"x", 10, false⟩, ⟨"k", 13, false⟩], 10⟩,
      .typeParameter "C" none, .typeParameter "D" none, .instantiated ⟨9, ⟨[("T", 15)]⟩⟩,
      .function ⟨[16], [⟨"y", 16, false⟩, ⟨"z", 15, false⟩], 17⟩,
      .function ⟨[15], [⟨"x", 15, false⟩, ⟨"k", 18, false⟩], 15⟩]
  resolved := .empty

theorem renamedTable_ownParameters {p : TypeId} (Γ : Pairs)
    (leaf : renamedTable.flag p = .typeParameter) (apart : ∀ pair ∈ Γ, p ≠ pair.1 ∧ p ≠ pair.2) :
    OwnParameters renamedTable Γ [p] :=
  ⟨List.nodup_singleton p, List.forall_mem_singleton.mpr leaf, List.forall_mem_singleton.mpr apart⟩

/-- The functions that the two functions take are the same up to names if what they have from
around them is. -/
theorem renamedTable_callbacks {Γ own : Pairs} {x y : TypeId}
    (value : Renaming renamedTable (fun _ _ => True) ((11, 16) :: Γ) 10 15)
    (result : Renaming renamedTable (fun _ _ => True) ((11, 16) :: Γ) 12 17)
    (beside : Beside renamedTable 13 18 own x y) :
    Renaming renamedTable (fun _ _ => True) (own ++ Γ) x y := by
  refine beside.of_functions (P := fun own x y =>
    Renaming renamedTable (fun _ _ => True) (own ++ Γ) x y) rfl rfl ?_ ?_
  · exact List.forall_mem_cons.mpr
      ⟨.corresponding List.mem_cons_self rfl rfl, List.forall_mem_singleton.mpr value⟩
  · exact result

/-- The comparison of the two functions stays among a few pairs. -/
theorem renamedTable_comesTo (pair : TypeId × TypeId)
    (listed : pair ∈ [(14, 19), (10, 15), (13, 18), (11, 16), (12, 17)]) (own : Pairs)
    (x y : TypeId) (comes : ComesTo renamedTable pair.1 pair.2 own x y) :
    (x, y) ∈ [(14, 19), (10, 15), (13, 18), (11, 16), (12, 17)] := by
  have unresolved {id m : TypeId} (instantiated : renamedTable.IsInstance id) :
      body? renamedTable id ≠ some m := by
    obtain ⟨i, entry⟩ := instantiated
    rw [body?_instantiated entry]
    exact nofun
  simp only [List.mem_cons, List.not_mem_nil, or_false] at listed
  cases comes with
  | bodies instantiated left right =>
      exact (instantiated.elim (unresolved · left) (unresolved · right)).elim
  | property left => rcases listed with rfl | rfl | rfl | rfl | rfl <;> cases left
  | parameter left right member =>
      rcases listed with rfl | rfl | rfl | rfl | rfl <;> cases left <;> cases right
      all_goals
        simp only [List.zip_cons_cons, List.zip_nil_left, List.mem_cons, List.not_mem_nil, or_false]
          at member
        rcases member with rfl | rfl <;> simp
  | result left right =>
      rcases listed with rfl | rfl | rfl | rfl | rfl <;> cases left <;> cases right
      all_goals simp
  | argument left right _ member =>
      rcases listed with rfl | rfl | rfl | rfl | rfl <;> cases left
      cases right
      obtain rfl := List.mem_singleton.mp member
      simp

theorem renamedTable_sameUpToNames : SameUpToNames renamedTable 14 19 := by
  refine .of_pairs [(14, 19), (10, 15), (13, 18), (11, 16), (12, 17)] List.mem_cons_self
    renamedTable_comesTo fun pair listed f g left right => ?_
  have boxes {Γ : Pairs} (member : (10, 15) ∈ Γ) :
      Renaming renamedTable (fun _ _ => True) Γ 12 17 := by
    refine .composite (.arguments rfl rfl rfl rfl) fun own x y beside => ?_
    cases beside with
    | argument left right _ listed =>
        cases left
        cases right
        obtain rfl := List.mem_singleton.mp listed
        exact .corresponding member rfl rfl
    | property left | parameter left | result left => cases left
  have callbacks : Renaming renamedTable (fun _ _ => True) [(10, 15)] 13 18 := by
    refine .composite (.function rfl rfl rfl (renamedTable_ownParameters _ rfl (by decide))
      (renamedTable_ownParameters _ rfl (by decide)) rfl (by decide)) fun own x y beside => ?_
    exact renamedTable_callbacks (.corresponding (by simp) rfl rfl) (boxes (by simp)) beside
  have uninvolved {x y : TypeId} (left : x ∈ [10, 12]) (right : y ∈ [15, 17]) :
      Uninvolved renamedTable [(11, 16)] x y :=
    List.forall_mem_singleton.mpr
      ⟨not_involves_of_closed [10, 12] left (by decide) (by decide),
        not_involves_of_closed [15, 17] right (by decide) (by decide)⟩
  simp only [List.mem_cons, List.not_mem_nil, or_false] at listed
  rcases listed with rfl | rfl | rfl | rfl | rfl <;> cases left
  · cases right
    refine ⟨renamedTable_ownParameters [] rfl nofun, renamedTable_ownParameters [] rfl nofun,
      fun own m n => Beside.of_functions (P := Renaming renamedTable fun _ _ => True) rfl rfl ?_ ?_⟩
    · exact List.forall_mem_cons.mpr
        ⟨.corresponding List.mem_cons_self rfl rfl, List.forall_mem_singleton.mpr callbacks⟩
    · exact .corresponding List.mem_cons_self rfl rfl
  · cases right
    refine ⟨renamedTable_ownParameters [] rfl nofun, renamedTable_ownParameters [] rfl nofun,
      fun own m n beside => ?_⟩
    have here := renamedTable_callbacks (Γ := []) (.kept (uninvolved (by simp) (by simp)) trivial)
      (.kept (uninvolved (by simp) (by simp)) trivial) beside
    rwa [List.append_nil] at here

/-- The two functions are equal, and each of them is accepted in the place of the other one. -/
theorem renamed_interchangeable : renamedTable.Coherent ∧ renamedTable.DistinctProperties ∧
    renamedTable.kind TypeId.unknown = .unknown ∧ SameUpToNames renamedTable 14 19 ∧
    renamedTable.equals 14 19 = true ∧ ∀ strict,
      (∃ after, Assignability.Answers strict renamedTable 14 19 false (.ok ()) after) ∧
        ∃ after, Assignability.Answers strict renamedTable 19 14 false (.ok ()) after := by
  have distinct : renamedTable.DistinctProperties := by
    intro id o entry
    have listed := mem_entries_of_kind entry (by simp)
    simp only [renamedTable, TypeTable.initial, Array.mem_append, List.mem_toArray, List.mem_cons,
      List.not_mem_nil, or_false] at listed
    have shapes : o.properties.keys = ["value"] := by aesop
    simp [Dictionary.Distinct, shapes]
  have equal : renamedTable.equals 14 19 = true := by decide +kernel
  have ends : ∀ strict, ∀ pair ∈ [(14, 19), (19, 14)],
      ((Assignability.assignableWithin strict 6 pair.1 pair.2 false).run
        (.ofTable renamedTable)).isSome = true := by
    decide +kernel
  have answered (strict : Bool) (pair : TypeId × TypeId) (listed : pair ∈ [(14, 19), (19, 14)]) :
      ∃ verdict after,
        Assignability.Answers strict renamedTable pair.1 pair.2 false verdict after := by
    obtain ⟨⟨verdict, σ⟩, done⟩ := Option.isSome_iff_exists.mp (ends strict pair listed)
    exact ⟨verdict, σ.table, 6, σ, done, rfl⟩
  obtain ⟨c, run, table⟩ : ∃ c, (Checker.new .default).step (declareAndCheck renamed) =
      (.ok (), c) ∧ c.table = renamedTable :=
    Checker.exists_step (by decide +kernel) (by decide +kernel)
  have coherent : renamedTable.Coherent := table ▸ coherent_declareAndCheck run
  have basic : renamedTable.kind TypeId.unknown = .unknown := table ▸ unknown_declareAndCheck run
  refine ⟨coherent, distinct, basic, renamedTable_sameUpToNames, equal, fun strict => ?_⟩
  have interchangeable := equals_interchangeable coherent distinct basic (by decide) (by decide)
    renamedTable_sameUpToNames equal strict
  obtain ⟨verdict, after, answers⟩ := answered strict (14, 19) (by simp)
  obtain ⟨verdict', after', answers'⟩ := answered strict (19, 14) (by simp)
  exact ⟨⟨after, interchangeable.1 verdict after answers ▸ answers⟩,
    ⟨after', interchangeable.2 verdict' after' answers' ▸ answers'⟩⟩

/-- A function that gives back a value of an interface of its own, which has a generic method
with a parameter of the type of the function around and a parameter of its own type. -/
def swapping : List SourceFile :=
  [⟨"", [
    .ofFunction "f" [.free "T"] [
      .required "x" (some (.named "T" [])), .required "y" (some (.named "T" []))] none [
      .ofInterface "L" [] [.required "m" (.ofSignature [.free "U"] [
        .required "x" (some (.named "T" [])), .required "y" (some (.named "U" []))]
        (.named "L" []))],
      .ofVariable "l" (some (.named "L" [])) none,
      .ofReturn (some (.ofName "l"))]]⟩]

/-- The table after the check of `swapping`. -/
def swappingTable : TypeTable where
  entries := TypeTable.initial.entries ++
    #[.typeParameter "T" none, .object ⟨some "L", ⟨[("m", ⟨10, false⟩)]⟩⟩,
      .typeParameter "U" none, .function ⟨[9], [⟨"x", 7, false⟩, ⟨"y", 9, false⟩], 8⟩,
      .function ⟨[7], [⟨"x", 7, false⟩, ⟨"y", 7, false⟩], 8⟩]
  resolved := .empty

/-- Two functions that each give back a value of a recursive interface of their own, which mentions
the type parameter of the function around. -/
def capturing : List SourceFile :=
  let declaring (name parameter : String) : Statement :=
    .ofFunction name [.free parameter] [.required "x" (some (.named parameter []))] none [
      .ofInterface "L" [] [
        .required "v" (.named parameter []), .required "next" (.named "L" [])],
      .ofVariable "l" (some (.named "L" [])) none,
      .ofReturn (some (.ofName "l"))]
  [⟨"", [declaring "f" "T", declaring "h" "V"]⟩]

/-- The table after the check of `capturing`. -/
def capturingTable : TypeTable where
  entries := TypeTable.initial.entries ++
    #[.typeParameter "T" none, .typeParameter "V" none,
      .object ⟨some "L", ⟨[("v", ⟨7, false⟩), ("next", ⟨9, false⟩)]⟩⟩,
      .function ⟨[7], [⟨"x", 7, false⟩], 9⟩,
      .object ⟨some "L", ⟨[("v", ⟨8, false⟩), ("next", ⟨11, false⟩)]⟩⟩,
      .function ⟨[8], [⟨"x", 8, false⟩], 11⟩]
  resolved := .empty

/-- Three interfaces with a generic method each. The method of the first one gives back the
interface itself, those of the other two give back one another. -/
def alternating : List SourceFile :=
  let declaring (name parameter result : String) : Statement :=
    .ofInterface name [] [.required "m" (.ofSignature [.free parameter] [
      .required "x" (some (.named parameter []))] (.named result []))]
  [⟨"", [declaring "I" "T" "I", declaring "A" "U" "B", declaring "B" "V" "A"]⟩]

/-- The table after the check of `alternating`. -/
def alternatingTable : TypeTable where
  entries := TypeTable.initial.entries ++
    #[.object ⟨some "I", ⟨[("m", ⟨11, false⟩)]⟩⟩, .object ⟨some "A", ⟨[("m", ⟨13, false⟩)]⟩⟩,
      .object ⟨some "B", ⟨[("m", ⟨15, false⟩)]⟩⟩,
      .typeParameter "T" none, .function ⟨[10], [⟨"x", 10, false⟩], 7⟩,
      .typeParameter "U" none, .function ⟨[12], [⟨"x", 12, false⟩], 9⟩,
      .typeParameter "V" none, .function ⟨[14], [⟨"x", 14, false⟩], 8⟩]
  resolved := .empty

/-- Types of the table of a run that are equal, and yet a comparison of them fails. -/
theorem exists_mismatch {files : List SourceFile} {t : TypeTable} {x y : TypeId} (fuel : Nat)
    (ends : ∃ c, (Checker.new .default).step (declareAndCheck files) = (.ok (), c) ∧ c.table = t)
    (equal : t.equals x y = true)
    (failed : ∀ strict, ((Assignability.assignableWithin strict fuel x y false).run
      (.ofTable t)).any (fun r => !r.1.isOk) = true) :
    ∃ c, (Checker.new .default).step (declareAndCheck files) = (.ok (), c) ∧
      c.table.equals x y = true ∧ ∀ strict, ∃ mismatch after,
        Assignability.Answers strict c.table x y false (.error mismatch) after := by
  obtain ⟨c, run, rfl⟩ := ends
  exact ⟨c, run, equal, fun strict => Assignability.exists_refused (failed strict)⟩

/-- The function and the method are equal, since `T` stands for itself also where `U` is declared
in its place, but what the method takes second is its own type parameter. The two functions that
give back a recursive interface are equal, but when one of them is instantiated, the interface
keeps its type parameter below the first turn. The first of the three interfaces is equal to the
second one, but when its method is instantiated, the interface that the method gives back loses
the type parameter of its method. -/
theorem equal_not_interchangeable :
    (∃ c, (Checker.new .default).step (declareAndCheck swapping) = (.ok (), c) ∧
      c.table.equals 11 10 = true ∧ ∀ strict, ∃ mismatch after,
        Assignability.Answers strict c.table 11 10 false (.error mismatch) after) ∧
    (∃ c, (Checker.new .default).step (declareAndCheck capturing) = (.ok (), c) ∧
      c.table.equals 10 12 = true ∧ ∀ strict, ∃ mismatch after,
        Assignability.Answers strict c.table 10 12 false (.error mismatch) after) ∧
    ∃ c, (Checker.new .default).step (declareAndCheck alternating) = (.ok (), c) ∧
      c.table.equals 7 8 = true ∧ ∀ strict, ∃ mismatch after,
        Assignability.Answers strict c.table 7 8 false (.error mismatch) after := by
  refine ⟨?_, ?_, ?_⟩
  · have ends : ∃ c, (Checker.new .default).step (declareAndCheck swapping) = (.ok (), c) ∧
        c.table = swappingTable := Checker.exists_step (by decide +kernel) (by decide +kernel)
    exact exists_mismatch 6 ends (by decide +kernel) (by decide +kernel)
  · have ends : ∃ c, (Checker.new .default).step (declareAndCheck capturing) = (.ok (), c) ∧
        c.table = capturingTable := Checker.exists_step (by decide +kernel) (by decide +kernel)
    exact exists_mismatch 12 ends (by decide +kernel) (by decide +kernel)
  · have ends : ∃ c, (Checker.new .default).step (declareAndCheck alternating) = (.ok (), c) ∧
        c.table = alternatingTable := Checker.exists_step (by decide +kernel) (by decide +kernel)
    exact exists_mismatch 12 ends (by decide +kernel) (by decide +kernel)

end Programs

end StructuralTyping
