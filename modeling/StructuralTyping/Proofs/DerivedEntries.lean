import StructuralTyping.Proofs.ComparisonRuns
import StructuralTyping.Proofs.RebuiltEntries

/-! Questions about types leave the entries of the table as they are. Whatever is
computed, be it a substitution, a body, an inference or a comparison, appends
nothing but objects, functions and copies of instances; declarations are never made
on the way. What is remembered besides are bodies that substitution has made. This
holds of every table, whatever its entries mention. -/
namespace StructuralTyping

namespace TypeKind

/-- The kinds of entries that computing with types appends. -/
def isDerived : TypeKind → Bool
  | object _ => true
  | function _ => true
  | instantiated _ => true
  | _ => false

@[simp] theorem isDerived_unnamed (kind : TypeKind) : kind.unnamed.isDerived = kind.isDerived := by
  cases kind <;> rfl

/-- What differs from an entry of the same frame is derived. -/
theorem isDerived_of_frame {kind kind' : TypeKind} (frame : kind'.frame = kind.frame)
    (changed : kind' ≠ kind) : kind'.isDerived = true := by
  cases kind' with
  | object | function | instantiated => rfl
  | _ => cases kind <;> simp_all [TypeKind.frame]

end TypeKind

/-- The type parameters of the interface are bound to the arguments by position. -/
def GenericType.bind (g : GenericType) (arguments : List TypeId) : Bindings :=
  .ofList (g.typeParameters.zip arguments)

namespace TypeTable

/-- The entries stay, and what is new is derived from types. -/
structure Derives (t t' : TypeTable) : Prop where
  extended : t.Extends t'
  derived : ∀ id, t.size ≤ id → id < t'.size → (t'.kind id).isDerived = true

namespace Derives

variable {t t' t'' : TypeTable}

theorem refl (t : TypeTable) : t.Derives t where
  extended := .refl t
  derived _ outside inside := absurd inside (Nat.not_lt.mpr outside)

theorem trans (one : t.Derives t') (two : t'.Derives t'') : t.Derives t'' where
  extended := one.extended.trans two.extended
  derived id outside inside := by
    by_cases between : id < t'.size
    · rw [two.extended.kind id between]
      exact one.derived id outside between
    · exact two.derived id (Nat.le_of_not_lt between) inside

theorem add (t : TypeTable) {kind : TypeKind} (derived : kind.isDerived = true) :
    t.Derives (t.add kind).2 where
  extended := .add t kind
  derived id outside inside := by
    have last : id = t.size := by
      rw [size_add] at inside
      omega
    rw [last, kind_add_size]
    exact derived

/-- What is remembered is no entry. -/
theorem remember (t : TypeTable) (resolved : Dictionary (TypeId × List TypeId) TypeId) :
    t.Derives { t with resolved := resolved } where
  extended := ⟨Nat.le_refl _, fun _ _ => rfl⟩
  derived _ outside inside := absurd inside (Nat.not_lt.mpr outside)

/-- An entry that is not derived is as old as the table. -/
theorem kind_of_not_derived {id : TypeId} {kind : TypeKind} (derives : t.Derives t')
    (entry : t'.kind id = kind) (known : kind ≠ .unknown) (other : kind.isDerived = false) :
    t.kind id = kind := by
  have inside : id < t'.size := lt_size_of_kind entry known
  by_cases old : id < t.size
  · rw [← derives.extended.kind id old]
    exact entry
  · have new := derives.derived id (Nat.le_of_not_lt old) inside
    rw [entry, other] at new
    contradiction

end Derives

/-- The instance is a copy of an earlier one with other arguments. -/
def CopiesInstance (t : TypeTable) (i : InstantiatedType) : Prop :=
  ∃ id original, t.kind id = .instantiated original ∧ original.origin = i.origin ∧
    original.bindings.keys = i.bindings.keys

/-- The body is remembered under the key. -/
def remember (t : TypeTable) (key : TypeId × List TypeId) (body : TypeId) : TypeTable :=
  { t with resolved := t.resolved.insert key body }

/-- What questions make of a table, one change after the other. A body that is remembered has
just been made. -/
inductive Develops (t : TypeTable) : TypeTable → Prop where
  | start : Develops t t
  | add {u : TypeTable} {kind : TypeKind} (before : Develops t u) (derived : kind.isDerived = true)
      (copied : ∀ i, kind = .instantiated i → u.CopiesInstance i) : Develops t (u.add kind).2
  | remember {s u : TypeTable} {key : TypeId × List TypeId} {g : GenericType} {body : TypeId}
      (begun : Develops t s) (before : Develops t u) (origin : s.kind key.1 = .generic g)
      (built : s.kind g.body ≠ .pending)
      (run : (substitute g.body (g.bind key.2)).run s = (body, u))
      (unmade : u.resolved.find? key = none) : Develops t (u.remember key body)

namespace Develops

variable {t t' t'' : TypeTable}

theorem refl (t : TypeTable) : t.Develops t := .start

theorem trans (one : t.Develops t') (two : t'.Develops t'') : t.Develops t'' := by
  induction two with
  | start => exact one
  | add _ derived copied ih => exact .add ih derived copied
  | remember _ _ origin built run unmade begun before =>
      exact .remember begun before origin built run unmade

theorem toDerives (develops : t.Develops t') : t.Derives t' := by
  induction develops with
  | start => exact .refl t
  | add _ derived _ ih => exact ih.trans (.add _ derived)
  | remember _ _ _ _ _ _ _ before => exact before.trans (.remember _ _)

theorem extended (develops : t.Develops t') : t.Extends t' := develops.toDerives.extended

/-- What is remembered is not forgotten. -/
theorem remembers (develops : t.Develops t') {key : TypeId × List TypeId} {body : TypeId}
    (found : t.resolved.find? key = some body) : t'.resolved.find? key = some body := by
  induction develops with
  | start => exact found
  | add _ _ _ ih => exact ih
  | @remember s u key' g body' _ _ _ _ _ unmade _ ih =>
      have other : key' ≠ key := by
        rintro rfl
        exact nomatch unmade.symm.trans ih
      rw [TypeTable.remember, Dictionary.find?_insert, if_neg other]
      exact ih

end Develops

/-- Entries are appended and nothing more is remembered. -/
def Appends (t t' : TypeTable) : Prop := t.Develops t' ∧ t'.resolved = t.resolved

theorem Appends.growth : Growth Appends where
  refl t := ⟨.refl t, rfl⟩
  trans one two := ⟨one.1.trans two.1, two.2.trans one.2⟩

end TypeTable

namespace TableM

variable {α β : Type}

/-- The computation asks questions alone. -/
def Derives (m : TableM α) : Prop := ∀ t : TypeTable, t.Develops (m.run t).2

namespace Derives

theorem pure (a : α) : Derives (pure a : TableM α) := fun t => .refl t

theorem get : Derives (get : TableM TypeTable) := fun t => .refl t

theorem bind {m : TableM α} {k : α → TableM β} (first : m.Derives) (next : ∀ a, (k a).Derives) :
    (m >>= k).Derives :=
  fun t => (first t).trans (next _ _)

theorem add {kind : TypeKind} (derived : kind.isDerived = true)
    (other : kind.flag ≠ .instantiated) : (TableM.add kind).Derives :=
  fun t => .add (.refl t) derived fun _ same => absurd (congrArg TypeKind.flag same) other

theorem ite {p : Prop} [Decidable p] {yes no : TableM α} (one : yes.Derives)
    (two : no.Derives) : (if p then yes else no).Derives := by
  split
  · exact one
  · exact two

theorem mapM {f : α → TableM β} (each : ∀ a, (f a).Derives) (items : List α) :
    (items.mapM f).Derives := by
  induction items with
  | nil => exact .pure []
  | cons a rest ih =>
      rw [List.mapM_cons]
      exact (each a).bind fun b => ih.bind fun bs => .pure (b :: bs)

end Derives

end TableM

open TableM (Derives Yields)

/-- A type is replaced by what is bound to it, by itself or by a new entry. -/
def ComesOf (bindings : Bindings) (t : TypeTable) (id m : TypeId) : Prop :=
  bindings.find? id = some m ∨ m = id ∨ t.size ≤ m

/-- A substitution appends entries and nothing else. -/
theorem made_applyWithin (bindings : Bindings) (fuel : Nat) (visiting : List TypeId)
    (id : TypeId) (t : TypeTable) :
    Yields (Substitution.applyWithin bindings fuel visiting id) t fun m t' =>
      t.Appends t' ∧ ComesOf bindings t id m := by
  have growth := TypeTable.Appends.growth
  induction fuel generalizing visiting id t with
  | zero => exact .pure ⟨growth.refl t, .inr (.inl rfl)⟩
  | succ fuel ih =>
      cases found : bindings.find? id with
      | some b =>
          rw [Substitution.applyWithin, found]
          exact .pure ⟨growth.refl t, .inl found⟩
      | none =>
          by_cases visited : id ∈ visiting
          · rw [Substitution.applyWithin, found]
            dsimp only
            rw [if_pos visited]
            exact .pure ⟨growth.refl t, .inr (.inl rfl)⟩
          rw [Substitution.applyWithin_rebuilds found visited]
          have read : Yields (TableM.kind id) t fun k t' => t' = t ∧ k = t.kind id := ⟨rfl, rfl⟩
          refine read.bind ?_
          rintro _ t ⟨rfl, rfl⟩
          have descends : ∀ m ∈ (t.kind id).parts, ∀ u, t.Appends u →
              Yields (Substitution.applyWithin bindings fuel (id :: visiting) m) u
                fun _ u' => u.Appends u' ∧ True :=
            fun m _ u _ => (ih (id :: visiting) m u).weaken fun _ _ made => ⟨made.1, trivial⟩
          refine Yields.bind (TypeKind.yields_rebuildM growth
            (fun _ _ _ _ _ _ => trivial) (t.kind id) descends) ?_
          rintro kind u ⟨appends, -, -, frame⟩
          split
          · exact .pure ⟨appends, .inr (.inl rfl)⟩
          · next changed =>
            have derived := TypeKind.isDerived_of_frame frame changed
            have added : u.Appends (u.add kind.unnamed).2 := by
              refine ⟨.add (.refl u) (by simpa using derived) fun i same => ?_, rfl⟩
              · have instance' : kind = .instantiated i := by
                  cases kind <;> first | exact same | cases same
                obtain ⟨original, entry, rest⟩ :=
                  TypeKind.copied_of_frame (instance' ▸ frame).symm
                exact ⟨id, original, appends.1.extended.entry entry (by simp), rest⟩
            exact ⟨growth.trans appends added, .inr (.inr appends.1.extended.size)⟩

theorem made_substitute (id : TypeId) (bindings : Bindings) (t : TypeTable) :
    Yields (substitute id bindings) t fun m t' => t.Appends t' ∧ ComesOf bindings t id m := by
  rw [substitute]
  split
  · exact .pure ⟨TypeTable.Appends.growth.refl t, .inr (.inl rfl)⟩
  · exact made_applyWithin bindings (t.size + 1) [] id t

theorem appends_applyWithin (bindings : Bindings) (fuel : Nat) (visiting : List TypeId)
    (id : TypeId) (t : TypeTable) :
    Yields (Substitution.applyWithin bindings fuel visiting id) t fun _ t' => t.Appends t' :=
  (made_applyWithin bindings fuel visiting id t).weaken fun _ _ made => made.1

theorem appends_substitute (id : TypeId) (bindings : Bindings) (t : TypeTable) :
    Yields (substitute id bindings) t fun _ t' => t.Appends t' :=
  (made_substitute id bindings t).weaken fun _ _ made => made.1

theorem derives_applyWithin (bindings : Bindings) (fuel : Nat) (visiting : List TypeId)
    (id : TypeId) : (Substitution.applyWithin bindings fuel visiting id).Derives :=
  fun t => (appends_applyWithin bindings fuel visiting id t).1

theorem derives_substitute (id : TypeId) (bindings : Bindings) :
    (substitute id bindings).Derives :=
  fun t => (appends_substitute id bindings t).1

theorem derives_resolve (id : TypeId) : (resolve id).Derives := by
  intro t
  have read : Yields (get : TableM TypeTable) t fun u t' => u = t ∧ t' = t := ⟨rfl, rfl⟩
  change Yields _ t fun _ t' => t.Develops t'
  refine read.bind ?_
  rintro _ t ⟨rfl, rfl⟩
  split
  · next i _ =>
      dsimp only
      split
      · exact .refl t
      · next unmade =>
          split
          · next g origin =>
              split
              · exact .refl t
              · next built =>
                  have made : Yields (substitute g.body (g.bind i.bindings.values)) t fun body u =>
                      t.Appends u ∧
                        (substitute g.body (g.bind i.bindings.values)).run t = (body, u) :=
                    ⟨appends_substitute _ _ t, rfl⟩
                  refine made.bind ?_
                  rintro body u ⟨⟨develops, same⟩, run⟩
                  exact .remember (.refl t) develops origin built run (by rw [same, unmade])
          · exact .refl t
  · exact .refl t

theorem develops_of_resolve {t u : TypeTable} {id body : TypeId}
    (run : (resolve id).run t = (body, u)) : t.Develops u := by
  have develops := derives_resolve id t
  rwa [run] at develops

namespace Inference

variable {α β : Type}

/-- The matching only derives entries, up to a conflict as well. -/
def MatchM.Derives (m : MatchM α) : Prop :=
  ∀ (t : TypeTable) (i : Inference), t.Develops ((m.run.run (t, i)).2.1)

namespace MatchM.Derives

theorem pure (a : α) : Derives (pure a : MatchM α) := fun t _ => .refl t

theorem throw (e : InferenceError) : Derives (throw e : MatchM α) := fun t _ => .refl t

theorem table : Derives MatchM.table := fun t _ => .refl t

theorem inference : Derives MatchM.inference := fun t _ => .refl t

theorem bind {m : MatchM α} {k : α → MatchM β} (first : m.Derives) (next : ∀ a, (k a).Derives) :
    (m >>= k).Derives := by
  intro t i
  have one := first t i
  rw [ExceptT.run_bind, StateT.run_bind]
  generalize m.run.run (t, i) = outcome at one
  obtain ⟨result, t', i'⟩ := outcome
  cases result with
  | ok a => exact one.trans (next a t' i')
  | error e => exact one

theorem onTable {m : TableM α} (derives : m.Derives) : Derives (MatchM.onTable m) :=
  fun t _ => derives t

theorem ite {p : Prop} [Decidable p] {yes no : MatchM α} (one : yes.Derives)
    (two : no.Derives) : (if p then yes else no).Derives := by
  split
  · exact one
  · exact two

theorem within {m : MatchM Unit} (derives : m.Derives) (pattern actual : TypeId) :
    (MatchM.within pattern actual m).Derives :=
  fun t i => derives t { i with visiting := (pattern, actual) :: i.visiting }

end MatchM.Derives

section Matching
variable {matchPair : TypeId → TypeId → MatchM Unit}
  (each : ∀ pattern actual, (matchPair pattern actual).Derives)

include each

theorem derives_matchAll (pairs : List (TypeId × TypeId)) : (matchAll matchPair pairs).Derives := by
  induction pairs with
  | nil => exact .pure ()
  | cons pair rest ih => exact (each pair.1 pair.2).bind fun _ => ih

theorem derives_matchStructure (pattern actual : TypeId) :
    (matchStructure matchPair pattern actual).Derives := by
  have byBody : MatchM.Derives (do
      let patternBody ← MatchM.onTable (resolve pattern)
      let actualBody ← MatchM.onTable (resolve actual)
      if patternBody = pattern ∧ actualBody = actual then return ()
      else matchPair patternBody actualBody) := by
    refine (MatchM.Derives.onTable (derives_resolve pattern)).bind fun patternBody => ?_
    refine (MatchM.Derives.onTable (derives_resolve actual)).bind fun actualBody => ?_
    exact .ite (.pure ()) (each patternBody actualBody)
  refine MatchM.Derives.table.bind fun table => ?_
  split
  · exact (derives_matchAll each _).bind fun _ => each _ _
  · exact .ite (derives_matchAll each _) byBody
  · exact byBody
  · exact byBody
  · exact derives_matchAll each _
  · exact .pure ()

end Matching

theorem derives_matchParameter (parameter actual : TypeId) :
    (matchParameter parameter actual).Derives := by
  refine MatchM.Derives.inference.bind fun inference => ?_
  split
  · exact fun t _ => .refl t
  · refine MatchM.Derives.table.bind fun table => ?_
    exact .ite (.pure ()) (.throw _)

theorem derives_matchWithin (fuel : Nat) (pattern actual : TypeId) :
    (matchWithin fuel pattern actual).Derives := by
  induction fuel generalizing pattern actual with
  | zero => exact .pure ()
  | succ fuel ih =>
      rw [matchWithin_succ]
      have matching : MatchM.Derives (do
          let inference ← MatchM.inference
          if pattern ∈ inference.typeParameters then matchParameter pattern actual
          else if pattern = actual ∨ (pattern, actual) ∈ inference.visiting then return ()
          else if depthLimit ≤ inference.visiting.length then return ()
          else
            MatchM.within pattern actual
              (matchStructure (matchWithin fuel) pattern actual)) := by
        refine MatchM.Derives.inference.bind fun inference => ?_
        refine .ite (derives_matchParameter pattern actual) (.ite (.pure ()) (.ite (.pure ()) ?_))
        exact .within (derives_matchStructure ih pattern actual) pattern actual
      exact MatchM.Derives.table.bind fun table => .ite (.pure ()) matching

theorem derives_infer (i : Inference) (pattern actual : TypeId) :
    (i.infer pattern actual).Derives :=
  fun t => derives_matchWithin (depthLimit + 1) pattern actual t i

theorem derives_contextualType (i : Inference) (pattern : TypeId) :
    (i.contextualType pattern).Derives :=
  derives_substitute _ _

theorem derives_inferAll (i : Inference) (pairs : List (TypeId × TypeId)) :
    (i.inferAll pairs).Derives := by
  induction pairs generalizing i with
  | nil => exact .pure _
  | cons pair rest ih =>
      refine (derives_infer i pair.1 pair.2).bind fun outcome => ?_
      obtain ⟨result, i'⟩ := outcome
      cases result with
      | ok => exact ih i'
      | error e => exact .pure _

end Inference

theorem Instantiation.derives_apply (i : Instantiation) (signature : FunctionType) :
    (i.apply signature).Derives := by
  have parameters := Derives.mapM (fun p : Parameter => derives_substitute p.type i.bindings)
    signature.parameters
  refine parameters.bind fun parameters => ?_
  exact (derives_substitute _ _).bind fun returnType => .pure _

theorem derives_instantiate (id : TypeId) (argumentTypes : List TypeId)
    (explicit : Option (List TypeId)) : (instantiate id argumentTypes explicit).Derives := by
  refine Derives.get.bind fun table => ?_
  split
  · exact .pure _
  · split
    · refine .ite (.pure _) ?_
      exact (Instantiation.derives_apply _ _).bind fun signature => .pure _
    · refine (Inference.derives_inferAll _ _).bind fun outcome => ?_
      obtain ⟨result, inference⟩ := outcome
      cases result with
      | error e => exact .pure _
      | ok => exact (Instantiation.derives_apply _ _).bind fun signature => .pure _

namespace Assignability

variable {α β : Type}

/-- A comparison that comes to a result has only derived entries. -/
def RelationM.Derives (m : RelationM α) : Prop :=
  ∀ σ r, m.run σ = some r → σ.table.Develops r.2.table

namespace RelationM.Derives

theorem pure (a : α) : Derives (pure a : RelationM α) := by
  intro σ r done
  obtain rfl := Option.some.inj done
  exact .refl _

theorem get : Derives (get : RelationM Session) := by
  intro σ r done
  obtain rfl := Option.some.inj done
  exact .refl _

theorem enter (s t : TypeId) (expanded : Bool) : Derives (RelationM.enter s t expanded) := by
  intro σ r done
  obtain rfl := Option.some.inj done
  exact .refl _

theorem leave (s t : TypeId) (expanded : Bool) : Derives (RelationM.leave s t expanded) := by
  intro σ r done
  obtain rfl := Option.some.inj done
  exact .refl _

theorem onTable {m : TableM α} (derives : m.Derives) : Derives (RelationM.onTable m) := by
  intro σ r done
  obtain rfl := Option.some.inj done
  exact derives σ.table

theorem bind {m : RelationM α} {k : α → RelationM β} (first : m.Derives)
    (next : ∀ a, (k a).Derives) : (m >>= k).Derives := by
  intro σ r done
  rw [StateT.run_bind] at done
  obtain ⟨⟨a, between⟩, one, two⟩ := Option.bind_eq_some_iff.mp done
  exact (first σ _ one).trans (next a between r two)

theorem ite {p : Prop} [Decidable p] {yes no : RelationM α} (one : yes.Derives)
    (two : no.Derives) : (if p then yes else no).Derives := by
  split
  · exact one
  · exact two

end RelationM.Derives

open RelationM.Derives

section Comparison
variable {strict : Bool} {related : Related} (each : ∀ s t, (related s t).Derives)

include each

theorem derives_holds (a b : TypeId) : (holds related a b).Derives :=
  (each a b).bind fun verdict => by cases verdict <;> exact .pure _

theorem derives_argumentsRelated (pairs : List (TypeId × TypeId)) :
    (argumentsRelated strict related pairs).Derives := by
  induction pairs with
  | nil => exact .pure true
  | cons pair rest ih =>
      refine (derives_holds each pair.1 pair.2).bind fun forth => .ite ?_ (.pure false)
      refine .ite ?_ ih
      exact (derives_holds each pair.2 pair.1).bind fun back => .ite ih (.pure false)

theorem derives_instancesRelated (source target : TypeId) :
    (instancesRelated strict related source target).Derives := by
  refine RelationM.Derives.get.bind fun σ => ?_
  dsimp only
  split
  · exact .ite (derives_argumentsRelated each _) (.pure false)
  · exact .pure false

theorem derives_objectRelated (source target : TypeId) (s : ObjectType)
    (expected : List (String × Property)) :
    (objectRelated related source target s expected).Derives := by
  induction expected with
  | nil => exact .pure _
  | cons property rest ih =>
      rw [objectRelated]
      split
      · exact .ite ih (.pure _)
      · refine .ite ((each _ _).bind fun verdict => ?_) (.pure _)
        cases verdict with
        | ok => exact ih
        | error => exact .pure _

theorem derives_parameterRelated (source target : TypeId) :
    (parameterRelated strict related source target).Derives := by
  refine (each target source).bind fun reversed => ?_
  cases reversed with
  | ok => exact .pure _
  | error =>
      refine .ite (.pure _) ((each source target).bind fun verdict => ?_)
      cases verdict <;> exact .pure _

theorem derives_parametersRelated (source target : TypeId) (index : Nat)
    (parameters : List (Parameter × Parameter)) :
    (parametersRelated strict related source target index parameters).Derives := by
  induction parameters generalizing index with
  | nil => exact .pure _
  | cons pair rest ih =>
      refine (derives_parameterRelated each _ _).bind fun verdict => ?_
      cases verdict with
      | ok => exact ih (index + 1)
      | error => exact .pure _

theorem derives_signatureRelated (source target : TypeId) (s t : FunctionType) :
    (signatureRelated strict related source target s t).Derives := by
  refine .ite (.pure _) ((derives_parametersRelated each _ _ _ _).bind fun verdict => ?_)
  cases verdict with
  | error => exact .pure _
  | ok =>
      refine RelationM.Derives.get.bind fun σ => .ite (.pure _) ?_
      exact (each _ _).bind fun verdict => by cases verdict <;> exact .pure _

end Comparison

theorem derives_inferParameters (inference : Inference) (pairs : List (Parameter × Parameter)) :
    (inferParameters inference pairs).Derives := by
  induction pairs generalizing inference with
  | nil => exact .pure inference
  | cons pair rest ih =>
      refine (Inference.derives_infer inference _ _).bind fun outcome => ?_
      obtain ⟨result, after⟩ := outcome
      cases result with
      | ok => exact ih after
      | error => exact .pure after

theorem derives_instantiateAgainst (s t : FunctionType) : (instantiateAgainst s t).Derives := by
  refine (derives_inferParameters _ _).bind fun inference => ?_
  exact (Instantiation.derives_apply _ _).bind fun signature => .pure _

section Bodies
variable {strict : Bool} {related : Related} (each : ∀ s t, (related s t).Derives)

include each

theorem derives_functionRelated (source target : TypeId) (s t : FunctionType) :
    (functionRelated strict related source target s t).Derives := by
  rw [functionRelated]
  split
  · exact (RelationM.Derives.onTable (derives_instantiateAgainst s t)).bind fun f =>
      derives_signatureRelated each source target f t
  · exact (RelationM.Derives.pure s).bind fun f => derives_signatureRelated each source target f t

theorem derives_structureRelated (source target s t : TypeId) :
    (structureRelated strict related source target s t).Derives := by
  refine RelationM.Derives.get.bind fun σ => ?_
  dsimp only
  split
  · exact .pure _
  · split
    · exact .pure _
    · exact (each _ _).bind fun verdict => by cases verdict <;> exact .pure _
  · exact derives_objectRelated each _ _ _ _
  · exact derives_functionRelated each _ _ _ _
  · exact .pure _

theorem derives_bodiesRelated (source target : TypeId) :
    (bodiesRelated strict related source target).Derives := by
  refine (RelationM.Derives.onTable (derives_resolve source)).bind fun s => ?_
  refine (RelationM.Derives.onTable (derives_resolve target)).bind fun t => ?_
  refine RelationM.Derives.get.bind fun σ => .ite (.pure _) (.ite (.pure _) (.ite (.pure _) ?_))
  refine RelationM.Derives.get.bind fun σ => .ite (.pure _) ?_
  refine (RelationM.Derives.enter s t _).bind fun _ => ?_
  refine (derives_structureRelated each source target s t).bind fun verdict => ?_
  exact (RelationM.Derives.leave s t _).bind fun _ => .pure verdict

end Bodies

theorem derives_relatedWithin (strict : Bool) (fuel : Nat) (source target : TypeId) :
    (relatedWithin strict fuel source target).Derives := by
  induction fuel generalizing source target with
  | zero => exact fun _ _ done => nomatch done
  | succ fuel ih =>
      rw [relatedWithin]
      refine .ite (.pure _) ((derives_instancesRelated ih source target).bind fun instances => ?_)
      exact .ite (.pure _) (derives_bodiesRelated ih source target)

theorem derives_excessProperties (source target : TypeId) :
    (excessProperties source target).Derives := by
  refine (derives_resolve source).bind fun s => (derives_resolve target).bind fun t => ?_
  refine TableM.Derives.get.bind fun table => ?_
  split
  · exact .ite (.pure _) (.pure _)
  · exact .pure _

theorem derives_assignableWithin (strict : Bool) (fuel : Nat) (source target : TypeId)
    (fresh : Bool) : (assignableWithin strict fuel source target fresh).Derives := by
  have compared : ∀ excess : List String, RelationM.Derives
      (if excess.isEmpty then relatedWithin strict fuel source target
        else pure (.error (.excessProperty excess source target))) := fun _ =>
    .ite (derives_relatedWithin strict fuel source target) (.pure _)
  cases fresh with
  | false => exact (RelationM.Derives.pure []).bind compared
  | true =>
      exact (RelationM.Derives.onTable (derives_excessProperties source target)).bind compared

theorem Answers.derives {strict fresh : Bool} {table after : TypeTable} {source target : TypeId}
    {verdict : Verdict} (answers : Answers strict table source target fresh verdict after) :
    table.Develops after := by
  obtain ⟨fuel, σ, found, rfl⟩ := answers
  exact derives_assignableWithin strict fuel source target fresh (.ofTable table) _ found

end Assignability

/-- A question derives entries, whether the comparison ends or not. -/
theorem derives_assignable (strict : Bool) (source target : TypeId) (fresh : Bool) :
    (assignable strict source target fresh).Derives := by
  intro t
  rcases Assignability.run_assignable_cases strict t source target fresh with
    ⟨verdict, after, answers, run⟩ | ⟨-, run⟩
  · rw [run]
    exact answers.derives
  · rw [run]
    exact .refl t

end StructuralTyping
