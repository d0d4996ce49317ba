import StructuralTyping.Proofs.AscendingEntries
import StructuralTyping.Proofs.CorrespondingEntries
import StructuralTyping.Proofs.ResolvedBodies

/-! Why a no is a no. Every reason that a question gives is about the two types that were
asked about, and each of its levels is true of the types that it names: what it says can be
read off the table afterwards, down to a level at which no further comparison is to blame.
Reasons are put together on the way out of a comparison, while the table still grows, so
evidence is kept in a form that every later question preserves. -/
namespace StructuralTyping

open TableM (Yields)
open TypeTable

/-- Some rule compares types of these kinds. -/
def TypeKind.isComparedWith : TypeKind → TypeKind → Bool
  | primitive _, primitive _ => true
  | typeParameter _ _, _ => true
  | object _, object _ => true
  | function _, function _ => true
  | _, _ => false

/-- The mismatch is about these two types. -/
structure Mismatch.About (m : Mismatch) (source target : TypeId) : Prop where
  source : m.source = source
  target : m.target = target

/-- The two types stand for different bodies of these kinds, and neither of them relates to
everything. -/
structure TypeTable.Contrast (t : TypeTable) (source target : TypeId) (a b : TypeKind) : Prop where
  bodies : ∃ s s', Equality.body? t source = some s ∧ Equality.body? t target = some s' ∧ s ≠ s' ∧
    t.kind s = a ∧ t.kind s' = b
  source : a.flag.isWildcard = false
  target : b.flag.isWildcard = false

namespace TypeTable

variable {t u : TypeTable} {source target : TypeId}

/-- A body that is no wildcard stays the body. -/
theorem body?_develops {id body : TypeId} (develops : t.Develops u)
    (made : Equality.body? t id = some body) (known : t.isWildcard body = false) :
    Equality.body? u id = some body ∧ u.kind body = t.kind body := by
  have inside {m : TypeId} {kind : TypeKind} (entry : t.kind m = kind) (other : kind ≠ .unknown) :
      u.kind m = kind := develops.extended.entry entry other
  have notUnknown : t.kind body ≠ .unknown := by
    intro same
    simp [isWildcard, flag, same, TypeKind.flag, TypeFlag.isWildcard] at known
  refine ⟨?_, inside rfl notUnknown⟩
  unfold Equality.body? at made ⊢
  split at made
  · next i entry =>
      rw [inside entry (by simp)]
      exact develops.remembers made
  · next plain =>
      obtain rfl := Option.some.inj made
      rw [inside rfl notUnknown]
      split
      · next i entry => exact absurd entry (plain i)
      · rfl

theorem Contrast.develops {a b : TypeKind} (contrast : t.Contrast source target a b)
    (develops : t.Develops u) : u.Contrast source target a b := by
  obtain ⟨⟨s, s', left, right, differ, rfl, rfl⟩, known, known'⟩ := contrast
  obtain ⟨left, leftKind⟩ := body?_develops develops left known
  obtain ⟨right, rightKind⟩ := body?_develops develops right known'
  exact ⟨⟨s, s', left, right, differ, leftKind, rightKind⟩, known, known'⟩

/-- No new type is `void`. -/
theorem isPrimitive_develops {id : TypeId} {name : Primitive} (develops : t.Develops u)
    (other : t.isPrimitive id name = false) : u.isPrimitive id name = false := by
  rw [Bool.eq_false_iff] at other ⊢
  refine fun same => other ?_
  unfold isPrimitive at same ⊢
  split at same
  · next p entry =>
      rwa [develops.toDerives.kind_of_not_derived entry (by simp) rfl]
  · contradiction

end TypeTable

namespace Assignability

/-- What a source function is compared as: itself, or what it was instantiated to against
the target at some time since the table `base`. -/
structure ComparedAs (base t : TypeTable) (f g f' : FunctionType) : Prop where
  plain : f.isGeneric = false → f' = f
  instantiated : f.isGeneric = true → ∃ before after, base.Develops before ∧
    (instantiateAgainst f g).run before = (f', after) ∧ after.Develops t

/-- The mismatch and its causes are true of the types they name. No cause is about excess
properties, and the last one needs no cause. -/
inductive Evident (strict : Bool) (base t : TypeTable) : Mismatch → Prop where
  | primitives {source target : TypeId} {a b : Primitive}
      (contrast : t.Contrast source target (.primitive a) (.primitive b)) (differ : a ≠ b) :
      Evident strict base t (.incompatible source target)
  | unconstrained {source target : TypeId} {name : String} {b : TypeKind}
      (contrast : t.Contrast source target (.typeParameter name none) b) :
      Evident strict base t (.incompatible source target)
  /-- The constraint fails as well. -/
  | constrained {source target bound : TypeId} {name : String} {b : TypeKind} {cause : Mismatch}
      (contrast : t.Contrast source target (.typeParameter name (some bound)) b)
      (about : cause.About bound target) (evident : Evident strict base t cause) :
      Evident strict base t (.incompatible source target)
  | unrelated {source target : TypeId} {a b : TypeKind} (contrast : t.Contrast source target a b)
      (noRule : a.isComparedWith b = false) : Evident strict base t (.incompatible source target)
  | missingProperty {source target : TypeId} {o p : ObjectType} {name : String} {wanted : Property}
      (contrast : t.Contrast source target (.object o) (.object p))
      (listed : (name, wanted) ∈ p.properties.pairs) (required : wanted.optional = false)
      (lacking : ∀ given, o.property? name = some given → given.optional = true) :
      Evident strict base t (.missingProperty name source target)
  | property {source target : TypeId} {o p : ObjectType} {name : String} {given wanted : Property}
      {cause : Mismatch} (contrast : t.Contrast source target (.object o) (.object p))
      (listed : (name, wanted) ∈ p.properties.pairs) (found : o.property? name = some given)
      (about : cause.About given.type wanted.type) (evident : Evident strict base t cause) :
      Evident strict base t (.property name source target cause)
  | tooFewArguments {source target : TypeId} {f g : FunctionType}
      (contrast : t.Contrast source target (.function f) (.function g))
      (few : g.parameters.length < f.minArgumentCount) :
      Evident strict base t
        (.tooFewArguments source target f.minArgumentCount g.parameters.length)
  /-- In strict mode parameters are compared in reverse. -/
  | parameter {source target : TypeId} {f g f' : FunctionType} {index : Nat}
      {given wanted : Parameter} {cause : Mismatch} (isStrict : strict = true)
      (contrast : t.Contrast source target (.function f) (.function g))
      (compared : ComparedAs base t f g f') (declared : index < f.parameters.length)
      (inSource : f'.parameters[index]? = some given) (inTarget : g.parameters[index]? = some wanted)
      (about : cause.About wanted.type given.type) (evident : Evident strict base t cause) :
      Evident strict base t (.parameter index source target cause)
  /-- In the other mode they relate in neither direction. -/
  | eitherParameter {source target : TypeId} {f g f' : FunctionType} {index : Nat}
      {given wanted : Parameter} {cause other : Mismatch} (isLenient : strict = false)
      (contrast : t.Contrast source target (.function f) (.function g))
      (compared : ComparedAs base t f g f') (declared : index < f.parameters.length)
      (inSource : f'.parameters[index]? = some given) (inTarget : g.parameters[index]? = some wanted)
      (about : cause.About wanted.type given.type) (evident : Evident strict base t cause)
      (aboutOther : other.About given.type wanted.type) (otherEvident : Evident strict base t other) :
      Evident strict base t (.parameter index source target cause)
  | returnType {source target : TypeId} {f g f' : FunctionType} {cause : Mismatch}
      (contrast : t.Contrast source target (.function f) (.function g))
      (compared : ComparedAs base t f g f') (result : t.isPrimitive g.returnType .void = false)
      (about : cause.About f'.returnType g.returnType) (evident : Evident strict base t cause) :
      Evident strict base t (.returnType source target cause)

/-- The source is an object with properties that the target does not declare. -/
structure Exceeds (t : TypeTable) (source target : TypeId) (names : List String) : Prop where
  any : names ≠ []
  bodies : ∃ s s' o p, Equality.body? t source = some s ∧ Equality.body? t target = some s' ∧
    t.kind s = .object o ∧ t.kind s' = .object p ∧ p.properties.isEmpty = false ∧
      names = o.properties.keys.filter fun name => !p.properties.contains name

section Development
variable {strict : Bool} {base t u : TypeTable}

theorem ComparedAs.develops {f g f' : FunctionType} (compared : ComparedAs base t f g f')
    (develops : t.Develops u) : ComparedAs base u f g f' where
  plain := compared.plain
  instantiated generic :=
    have ⟨before, after, begun, run, later⟩ := compared.instantiated generic
    ⟨before, after, begun, run, later.trans develops⟩

/-- Evidence is not lost when more questions are asked. -/
theorem Evident.develops {m : Mismatch} (evident : Evident strict base t m)
    (develops : t.Develops u) : Evident strict base u m := by
  induction evident with
  | primitives contrast differ => exact .primitives (contrast.develops develops) differ
  | unconstrained contrast => exact .unconstrained (contrast.develops develops)
  | constrained contrast about _ ih => exact .constrained (contrast.develops develops) about ih
  | unrelated contrast noRule => exact .unrelated (contrast.develops develops) noRule
  | missingProperty contrast listed required lacking =>
      exact .missingProperty (contrast.develops develops) listed required lacking
  | property contrast listed found about _ ih =>
      exact .property (contrast.develops develops) listed found about ih
  | tooFewArguments contrast few => exact .tooFewArguments (contrast.develops develops) few
  | parameter isStrict contrast compared declared inSource inTarget about _ ih =>
      exact .parameter isStrict (contrast.develops develops) (compared.develops develops) declared
        inSource inTarget about ih
  | eitherParameter isLenient contrast compared declared inSource inTarget about _ aboutOther _
      ih other =>
      exact .eitherParameter isLenient (contrast.develops develops) (compared.develops develops)
        declared inSource inTarget about ih aboutOther other
  | returnType contrast compared result about _ ih =>
      exact .returnType (contrast.develops develops) (compared.develops develops)
        (isPrimitive_develops develops result) about ih

end Development

section Instantiation

theorem forall₂_retyped {parameters : List Parameter} {types : List TypeId}
    (length : parameters.length = types.length) :
    List.Forall₂ (fun p q => q.optional = p.optional ∧ True) parameters
      ((parameters.zip types).map fun (p, type) => { p with type := type }) := by
  induction parameters generalizing types with
  | nil => exact .nil
  | cons p rest ih =>
      cases types with
      | nil => exact nomatch length
      | cons type types => exact .cons ⟨rfl, trivial⟩ (ih (Nat.succ.inj length))

/-- A signature that is instantiated keeps its parameters, with other types. -/
theorem instantiateAgainst_parameters (f g : FunctionType) (t : TypeTable) :
    Yields (instantiateAgainst f g) t fun f' _ =>
      List.Forall₂ (fun p q => q.optional = p.optional ∧ True) f.parameters f'.parameters := by
  have anyhow : Growth fun _ _ => True := ⟨fun _ => trivial, fun _ _ => trivial⟩
  have inferred : Yields (inferParameters (.ofTypeParameters f.typeParameters)
      (f.parameters.zip g.parameters)) t fun _ _ => True := trivial
  refine inferred.bind fun inference u _ => ?_
  have applied : Yields (inference.finish.apply f) u fun signature _ =>
      f.parameters.length = signature.parameters.length := by
    have replaced : Yields (f.parameters.mapM fun p : Parameter =>
          substitute p.type inference.finish.bindings) u fun types u' =>
        True ∧ List.Forall₂ (fun _ _ => True) f.parameters types :=
      Yields.sequential.mapM anyhow (fun _ _ _ _ _ holds => holds) fun _ _ _ _ => ⟨trivial, trivial⟩
    exact replaced.bind fun types u' ⟨_, pairs⟩ => pairs.length_eq
  exact applied.bind fun signature u' length => .pure (forall₂_retyped length)

/-- What a function is compared as requires as many arguments. -/
theorem ComparedAs.minArgumentCount {base t : TypeTable} {f g f' : FunctionType}
    (compared : ComparedAs base t f g f') :
    f'.minArgumentCount = f.minArgumentCount ∧ f'.parameters.length = f.parameters.length := by
  cases generic : f.isGeneric with
  | false => rw [compared.plain generic]; exact ⟨rfl, rfl⟩
  | true =>
      obtain ⟨before, after, -, run, -⟩ := compared.instantiated generic
      have parameters := instantiateAgainst_parameters f g before
      unfold Yields at parameters
      rw [run] at parameters
      exact ⟨minArgumentCount_congr (Q := fun _ _ => True) parameters, parameters.length_eq.symm⟩

end Instantiation

/-- The table has come from `base` by questions, and mentions only its own entries. -/
structure Since (base t : TypeTable) : Prop where
  develops : base.Develops t
  ascending : base.Ascending t

/-- The table has developed further. -/
structure Onward (base t u : TypeTable) : Prop where
  develops : t.Develops u
  ascending : base.Ascending t → base.Ascending u

namespace Onward

variable {base t u v : TypeTable}

theorem refl (t : TypeTable) : Onward base t t := ⟨.refl t, id⟩

theorem trans (one : Onward base t u) (two : Onward base u v) : Onward base t v :=
  ⟨one.develops.trans two.develops, two.ascending ∘ one.ascending⟩

theorem inside {id : TypeId} (onward : Onward base t u) (known : id < t.size) : id < u.size :=
  onward.develops.extended.inside known

/-- What has been resolved stays resolved. -/
theorem body {id body : TypeId} (onward : Onward base t u) (inside : body < t.size)
    (made : t.isWildcard body = false → Equality.body? t id = some body)
    (known : u.isWildcard body = false) : Equality.body? u id = some body := by
  have before : t.isWildcard body = false := by
    rwa [← onward.develops.extended.isWildcard inside]
  exact (body?_develops onward.develops (made before) before).1

theorem since (onward : Onward base t u) (since : Since base t) : Since base u :=
  ⟨since.develops.trans onward.develops, onward.ascending since.ascending⟩

theorem within {f : FunctionType} (onward : Onward base t u) (within : f.Within t) : f.Within u :=
  ⟨fun p member => onward.inside (within.typeParameters p member),
    fun p member => onward.inside (within.parameters p member), onward.inside within.returnType⟩

end Onward

section Conclusions
variable {α β : Type} {base t : TypeTable}

/-- A comparison that begins with this table and ends leads on to a table, and this is what
comes of it. -/
def Concludes (base : TypeTable) (m : RelationM α) (t : TypeTable)
    (post : α → TypeTable → Prop) : Prop :=
  ∀ σ a σ', σ.table = t → m.run σ = some (a, σ') → Onward base t σ'.table ∧ post a σ'.table

namespace Concludes

variable {post : β → TypeTable → Prop}

theorem pure {b : β} (holds : post b t) : Concludes base (pure b) t post := by
  rintro σ _ _ rfl done
  obtain ⟨rfl, rfl⟩ := Prod.mk.inj (Option.some.inj done)
  exact ⟨.refl _, holds⟩

theorem bind {m : RelationM α} {k : α → RelationM β} {middle : α → TypeTable → Prop}
    (first : Concludes base m t middle)
    (next : ∀ a u, Onward base t u → middle a u → Concludes base (k a) u post) :
    Concludes base (m >>= k) t post := by
  rintro σ b σ' rfl done
  rw [StateT.run_bind] at done
  obtain ⟨⟨a, between⟩, one, two⟩ := Option.bind_eq_some_iff.mp done
  obtain ⟨onward, reached⟩ := first σ a between rfl one
  obtain ⟨further, holds⟩ := next a _ onward reached between b σ' rfl two
  exact ⟨onward.trans further, holds⟩

theorem read {k : Session → RelationM β}
    (next : ∀ σ, σ.table = t → Concludes base (k σ) t post) :
    Concludes base (get >>= k) t post :=
  fun σ b σ' same done => next σ same σ b σ' same done

theorem ite {p : Prop} [Decidable p] {yes no : RelationM β} (one : p → Concludes base yes t post)
    (two : ¬p → Concludes base no t post) : Concludes base (if p then yes else no) t post := by
  by_cases holds : p
  · rw [if_pos holds]
    exact one holds
  · rw [if_neg holds]
    exact two holds

theorem onTable {action : TableM β} (onward : Onward base t (action.run t).2)
    (yields : Yields action t post) : Concludes base (RelationM.onTable action) t post := by
  rintro σ _ _ rfl done
  rw [run_onTable] at done
  obtain ⟨rfl, rfl⟩ := Prod.mk.inj (Option.some.inj done)
  exact ⟨onward, yields⟩

/-- What is not a reason is told by the two judgements on tables alone. -/
theorem of_compares {m : RelationM β} (derives : m.Derives)
    (compares : ∀ σ : Session, σ.table = t → Compares (Ascending base) m σ post) :
    Concludes base m t post := by
  rintro σ b σ' rfl done
  obtain ⟨advances, holds⟩ := (compares σ rfl).comes b σ' done
  exact ⟨⟨derives σ _ done, advances.keeps⟩, holds⟩

theorem enter (s s' : TypeId) (expanded : Bool) :
    Concludes base (RelationM.enter s s' expanded) t fun _ u => u = t := by
  rintro σ _ _ rfl done
  obtain ⟨-, rfl⟩ := Prod.mk.inj (Option.some.inj done)
  exact ⟨.refl _, rfl⟩

theorem leave (s s' : TypeId) (expanded : Bool) :
    Concludes base (RelationM.leave s s' expanded) t fun _ u => u = t := by
  rintro σ _ _ rfl done
  obtain ⟨-, rfl⟩ := Prod.mk.inj (Option.some.inj done)
  exact ⟨.refl _, rfl⟩

end Concludes

end Conclusions

section Comparison
variable {strict : Bool} {base t : TypeTable}

/-- A no about two types is about them and evident. -/
def Justified (strict : Bool) (base : TypeTable) (source target : TypeId) (verdict : Verdict)
    (t : TypeTable) : Prop :=
  ∀ m, verdict = .error m → m.About source target ∧ Evident strict base t m

namespace Justified

variable {source target : TypeId}

theorem ok : Justified strict base source target (.ok ()) t := nofun

theorem error {m : Mismatch} (about : m.About source target) (evident : Evident strict base t m) :
    Justified strict base source target (.error m) t := by
  rintro _ ⟨⟩
  exact ⟨about, evident⟩

end Justified

/-- Comparing two entries comes to a justified answer, from the table `base` on. -/
def Justifies (strict : Bool) (base : TypeTable) (related : Related) : Prop :=
  ∀ t source target, Since base t → source < t.size → target < t.size →
    Concludes base (related source target) t (Justified strict base source target)

variable {related : Related} (justifies : Justifies strict base related)

include justifies

theorem concludes_objectRelated {source target : TypeId} {o p : ObjectType}
    (since : Since base t) (contrast : t.Contrast source target (.object o) (.object p))
    (given : ∀ q ∈ o.properties.values, q.type < t.size) (expected : List (String × Property))
    (listed : ∀ q ∈ expected, q ∈ p.properties.pairs ∧ q.2.type < t.size) :
    Concludes base (objectRelated related source target o expected) t
      (Justified strict base source target) := by
  induction expected generalizing t with
  | nil => exact .pure .ok
  | cons property rest ih =>
      obtain ⟨⟨here, inside⟩, later⟩ := List.forall_mem_cons.mp listed
      obtain ⟨name, wanted⟩ := property
      rw [objectRelated]
      split
      · next absent =>
          refine .ite (fun _ => ih since contrast given later) fun required => ?_
          refine .pure (.error ⟨rfl, rfl⟩ (.missingProperty contrast here (by simpa using required) ?_))
          intro given found
          rw [absent] at found
          contradiction
      · next q found =>
          refine .ite (fun _ => ?_) fun refused => ?_
          · have known := given q (List.mem_map_of_mem (Dictionary.mem_of_find? found))
            refine (justifies t q.type wanted.type since known inside).bind ?_
            intro verdict u onward holds
            cases verdict with
            | ok =>
                refine ih (onward.since since) (contrast.develops onward.develops)
                  (fun q member => onward.inside (given q member)) fun q member => ?_
                exact ⟨(later q member).1, onward.inside (later q member).2⟩
            | error cause =>
                obtain ⟨about, evident⟩ := holds cause rfl
                exact .pure (.error ⟨rfl, rfl⟩
                  (.property (contrast.develops onward.develops) here found about evident))
          · obtain ⟨isOptional, required⟩ : q.optional = true ∧ wanted.optional = false := by
              simpa using refused
            refine .pure (.error ⟨rfl, rfl⟩ (.missingProperty contrast here required ?_))
            exact fun other found' => Option.some.inj (found.symm.trans found') ▸ isOptional

/-- Two parameters were compared in reverse, and in the mode that is not strict the other
way round as well. -/
theorem concludes_parameterRelated {given wanted : TypeId} (since : Since base t)
    (left : given < t.size) (right : wanted < t.size) :
    Concludes base (parameterRelated strict related given wanted) t fun verdict u =>
      ∀ m, verdict = .error m → m.About wanted given ∧ Evident strict base u m ∧
        (strict = true ∨ ∃ other : Mismatch, other.About given wanted ∧ Evident strict base u other) := by
  refine (justifies t wanted given since right left).bind fun verdict u onward holds => ?_
  cases verdict with
  | ok => exact .pure nofun
  | error reversed =>
      obtain ⟨about, evident⟩ := holds reversed rfl
      refine .ite (fun isStrict => .pure ?_) fun isLenient => ?_
      · rintro _ ⟨⟩
        exact ⟨about, evident, .inl isStrict⟩
      · refine (justifies u given wanted (onward.since since) (onward.inside left)
          (onward.inside right)).bind fun verdict' v further holds' => ?_
        cases verdict' with
        | ok => exact .pure nofun
        | error other =>
            refine .pure ?_
            rintro _ ⟨⟩
            exact ⟨about, evident.develops further.develops, .inr ⟨other, holds' other rfl⟩⟩

theorem concludes_parametersRelated {source target : TypeId} {f g f' : FunctionType}
    (since : Since base t) (contrast : t.Contrast source target (.function f) (.function g))
    (compared : ComparedAs base t f g f') (left : f'.Within t) (right : g.Within t)
    (pairs : List (Parameter × Parameter)) (index : Nat)
    (placed : ∀ k pair, pairs[k]? = some pair →
      f'.parameters[index + k]? = some pair.1 ∧ g.parameters[index + k]? = some pair.2) :
    Concludes base (parametersRelated strict related source target index pairs) t
      (Justified strict base source target) := by
  induction pairs generalizing t index with
  | nil => exact .pure .ok
  | cons pair rest ih =>
      obtain ⟨given, wanted⟩ := pair
      obtain ⟨inSource, inTarget⟩ := placed 0 _ rfl
      refine (concludes_parameterRelated justifies since
        (left.parameters given (List.mem_of_getElem? inSource))
        (right.parameters wanted (List.mem_of_getElem? inTarget))).bind ?_
      intro verdict u onward holds
      have contrast := contrast.develops onward.develops
      have compared := compared.develops onward.develops
      cases verdict with
      | ok =>
          refine ih (onward.since since) contrast compared (onward.within left)
            (onward.within right) (index + 1) fun k pair found => ?_
          have behind := placed (k + 1) pair found
          rwa [Nat.add_comm k 1, ← Nat.add_assoc] at behind
      | error cause =>
          obtain ⟨about, evident, either⟩ := holds cause rfl
          have declared : index < f.parameters.length := by
            rw [← compared.minArgumentCount.2]
            exact (List.getElem?_eq_some_iff.mp inSource).1
          refine .pure (.error ⟨rfl, rfl⟩ ?_)
          cases isStrict : strict with
          | true =>
              subst isStrict
              exact .parameter rfl contrast compared declared inSource inTarget about evident
          | false =>
              subst isStrict
              obtain ⟨other, aboutOther, otherEvident⟩ := either.resolve_left Bool.false_ne_true
              exact .eitherParameter rfl contrast compared declared inSource inTarget about evident
                aboutOther otherEvident

theorem concludes_signatureRelated {source target : TypeId} {f g f' : FunctionType}
    (since : Since base t) (contrast : t.Contrast source target (.function f) (.function g))
    (compared : ComparedAs base t f g f') (left : f'.Within t) (right : g.Within t) :
    Concludes base (signatureRelated strict related source target f' g) t
      (Justified strict base source target) := by
  refine .ite (fun few => .pure (.error ⟨rfl, rfl⟩ ?_)) fun _ => ?_
  · rw [compared.minArgumentCount.1] at few ⊢
    exact .tooFewArguments contrast few
  refine (concludes_parametersRelated justifies since contrast compared left right _ 0 ?_).bind ?_
  · intro k pair found
    rw [Nat.zero_add]
    exact List.getElem?_zip_eq_some.mp found
  intro verdict u onward holds
  cases verdict with
  | error m => exact .pure holds
  | ok =>
      refine .read fun σ same => .ite (fun _ => .pure .ok) fun result => ?_
      refine (justifies u _ _ (onward.since since) (onward.inside left.returnType)
        (onward.inside right.returnType)).bind fun verdict' v further holds' => ?_
      cases verdict' with
      | ok => exact .pure .ok
      | error cause =>
          obtain ⟨about, evident⟩ := holds' cause rfl
          have reached := onward.trans further
          rw [same, Bool.not_eq_true] at result
          exact .pure (.error ⟨rfl, rfl⟩ (.returnType (contrast.develops reached.develops)
            (compared.develops reached.develops) (isPrimitive_develops further.develops result)
            about evident))

theorem concludes_functionRelated {source target : TypeId} {f g : FunctionType}
    (since : Since base t) (contrast : t.Contrast source target (.function f) (.function g))
    (left : f.Within t) (right : g.Within t) :
    Concludes base (functionRelated strict related source target f g) t
      (Justified strict base source target) := by
  rw [functionRelated]
  split
  · next generic =>
      obtain ⟨advances, within⟩ := (advances_instantiateAgainst (queryInvariant_ascending base)
        since.ascending left right).yields
      have taken : Yields (instantiateAgainst f g) t fun f' u => f'.Within u ∧
          (instantiateAgainst f g).run t = (f', u) := ⟨within, rfl⟩
      have derives := derives_instantiateAgainst f g t
      refine (Concludes.onTable ⟨derives, advances.keeps⟩ taken).bind ?_
      rintro f' u onward ⟨within, run⟩
      refine concludes_signatureRelated justifies (onward.since since)
        (contrast.develops onward.develops) ⟨fun plain => ?_, fun _ => ?_⟩ within
        (onward.within right)
      · rw [generic] at plain
        contradiction
      · exact ⟨t, u, since.develops, run, .refl u⟩
  · next plain =>
      exact concludes_signatureRelated justifies since contrast
        ⟨fun _ => rfl, fun generic => absurd generic plain⟩ left right

theorem concludes_structureRelated {source target s s' : TypeId} (since : Since base t)
    (inside : target < t.size) (contrast : t.Contrast source target (t.kind s) (t.kind s')) :
    Concludes base (structureRelated strict related source target s s') t
      (Justified strict base source target) := by
  have closed := since.ascending.toClosed
  refine .read ?_
  rintro σ rfl
  dsimp only
  split
  · next a b isSource isTarget =>
      rw [isSource, isTarget] at contrast
      split
      · exact .pure .ok
      · next differ => exact .pure (.error ⟨rfl, rfl⟩ (.primitives contrast differ))
  · next name constraint _ isSource =>
      rw [isSource] at contrast
      split
      · exact .pure (.error ⟨rfl, rfl⟩ (.unconstrained contrast))
      · next bound =>
          refine (justifies _ bound target since (closed.constraint isSource) inside).bind ?_
          intro verdict u onward holds
          cases verdict with
          | ok => exact .pure .ok
          | error cause =>
              obtain ⟨about, evident⟩ := holds cause rfl
              exact .pure (.error ⟨rfl, rfl⟩
                (.constrained (contrast.develops onward.develops) about evident))
  · next o p isSource isTarget =>
      rw [isSource, isTarget] at contrast
      refine concludes_objectRelated justifies since contrast (closed.property isSource) _ ?_
      exact fun q listed => ⟨listed, closed.property isTarget q.2 (List.mem_map_of_mem listed)⟩
  · next f g isSource isTarget =>
      rw [isSource, isTarget] at contrast
      exact concludes_functionRelated justifies since contrast (closed.signature isSource)
        (closed.signature isTarget)
  · next notParameter notPrimitives notObjects notFunctions =>
      refine .pure (.error ⟨rfl, rfl⟩ (.unrelated contrast ?_))
      unfold TypeKind.isComparedWith
      split
      · next a b isSource isTarget => exact (notPrimitives a b isSource isTarget).elim
      · next name constraint isSource => exact (notParameter name constraint isSource).elim
      · next o p isSource isTarget => exact (notObjects o p isSource isTarget).elim
      · next f g isSource isTarget => exact (notFunctions f g isSource isTarget).elim
      · rfl

end Comparison

section Questions
variable {strict : Bool} {base : TypeTable} (basic : TypeTable.initial.Extends base)

include basic

/-- A type is resolved to its body, or to a type that relates to everything. -/
theorem yields_resolve_body {t : TypeTable} {id : TypeId} (since : Since base t)
    (inside : id < t.size) :
    Onward base t ((resolve id).run t).2 ∧ Yields (resolve id) t fun body u =>
      body < u.size ∧ (u.isWildcard body = false → Equality.body? u id = some body) := by
  obtain ⟨advances, bodyInside⟩ :=
    (advances_resolve (queryInvariant_ascending base) since.ascending inside).yields
  have develops := derives_resolve id t
  refine ⟨⟨develops, advances.keeps⟩, bodyInside, fun known => ?_⟩
  have resolves : t.Resolves id ((resolve id).run t).1 ((resolve id).run t).2 := t.resolves id
  generalize (resolve id).run t = outcome at resolves develops known ⊢
  obtain ⟨body, u⟩ := outcome
  dsimp only at resolves develops known ⊢
  cases resolves with
  | plain plain =>
      unfold Equality.body?
      split
      · next i entry => exact absurd (congrArg TypeKind.flag entry) plain
      · rfl
  | remembered entry found => rw [Equality.body?, entry]; exact found
  | pending _ _ _ pending =>
      rw [isWildcard, flag, pending] at known
      contradiction
  | made entry =>
      rw [Equality.body?, develops.extended.entry entry (by simp)]
      simp [remember]
  | stray =>
      have entry := (basic.trans since.develops.extended).kind TypeId.unknown (by decide)
      rw [isWildcard, flag, entry] at known
      contradiction

theorem concludes_bodiesRelated {t : TypeTable} {related : Related}
    (justifies : Justifies strict base related) {source target : TypeId} (since : Since base t)
    (left : source < t.size) (right : target < t.size) :
    Concludes base (bodiesRelated strict related source target) t
      (Justified strict base source target) := by
  obtain ⟨onward, first⟩ := yields_resolve_body basic since left
  refine (Concludes.onTable onward first).bind fun s u onward ⟨sourceInside, sourceBody⟩ => ?_
  have since' := onward.since since
  obtain ⟨further, second⟩ := yields_resolve_body basic since' (onward.inside right)
  refine (Concludes.onTable further second).bind fun s' v further ⟨_, targetBody⟩ => ?_
  refine .read ?_
  rintro σ rfl
  refine .ite (fun _ => .pure .ok) fun differ => ?_
  refine .ite (fun _ => .pure .ok) fun known => ?_
  refine .ite (fun _ => .pure .ok) fun _ => ?_
  obtain ⟨sourceKnown, targetKnown⟩ :
      σ.table.isWildcard s = false ∧ σ.table.isWildcard s' = false := by
    simpa using known
  have contrast : σ.table.Contrast source target (σ.table.kind s) (σ.table.kind s') :=
    ⟨⟨s, s', further.body sourceInside sourceBody sourceKnown, targetBody targetKnown, differ, rfl,
      rfl⟩, sourceKnown, targetKnown⟩
  refine .read fun _ _ => .ite (fun _ => .pure .ok) fun _ => ?_
  refine (Concludes.enter s s' _).bind ?_
  rintro _ _ - rfl
  have inside := further.inside (onward.inside right)
  refine (concludes_structureRelated justifies (further.since since') inside contrast).bind ?_
  intro verdict w _ holds
  refine (Concludes.leave s s' _).bind ?_
  rintro _ _ - rfl
  exact .pure holds

theorem justifies_relatedWithin (fuel : Nat) : Justifies strict base (relatedWithin strict fuel) := by
  have query := queryInvariant_ascending base
  induction fuel with
  | zero => exact fun t source target _ _ _ σ _ _ _ done => nomatch done
  | succ fuel ih =>
      intro t source target since left right
      refine .ite (fun _ => .pure .ok) fun _ => ?_
      have derives : (instancesRelated strict (relatedWithin strict fuel) source target).Derives :=
        derives_instancesRelated (derives_relatedWithin strict fuel) source target
      have shortcut : Concludes base (instancesRelated strict (relatedWithin strict fuel) source
          target) t fun _ _ => True := by
        refine .of_compares derives fun σ same => ?_
        subst same
        exact compares_instancesRelated (compares_relatedWithin query strict fuel)
          since.ascending.toClosed since.ascending left right
      refine shortcut.bind fun instances u onward _ => ?_
      exact .ite (fun _ => .pure .ok) fun _ => concludes_bodiesRelated basic ih
        (onward.since since) (onward.inside left) (onward.inside right)

theorem yields_excessProperties_exceeds {t : TypeTable} {source target : TypeId}
    (since : Since base t) (left : source < t.size) (right : target < t.size) :
    Onward base t ((excessProperties source target).run t).2 ∧
      Yields (excessProperties source target) t fun names u =>
        names ≠ [] → Exceeds u source target names := by
  have advances := (advances_excessProperties (queryInvariant_ascending base) since.ascending left
    right).yields
  refine ⟨⟨derives_excessProperties source target t, advances.keeps⟩, ?_⟩
  obtain ⟨onward, first⟩ := yields_resolve_body basic since left
  have first' : Yields (resolve source) t fun s u => Onward base t u ∧ s < u.size ∧
      (u.isWildcard s = false → Equality.body? u source = some s) := ⟨onward, first⟩
  refine first'.bind ?_
  rintro s u ⟨onward, sourceInside, sourceBody⟩
  obtain ⟨further, second⟩ := yields_resolve_body basic (onward.since since) (onward.inside right)
  have second' : Yields (resolve target) u fun s' v => Onward base u v ∧ s' < v.size ∧
      (v.isWildcard s' = false → Equality.body? v target = some s') := ⟨further, second⟩
  refine second'.bind ?_
  rintro s' v ⟨further, _, targetBody⟩
  have read : Yields (get : TableM TypeTable) v fun w v' => w = v ∧ v' = v := ⟨rfl, rfl⟩
  refine read.bind ?_
  rintro _ _ ⟨rfl, rfl⟩
  rename_i v
  split
  · next o p isSource isTarget =>
      have sourceKind := kind_of_asObject? isSource
      have targetKind := kind_of_asObject? isTarget
      split
      · exact .pure fun some => absurd rfl some
      · next declared =>
          refine .pure fun some => ⟨some, s, s', o, p, ?_, ?_, sourceKind, targetKind, ?_, rfl⟩
          · exact further.body sourceInside sourceBody (by rw [isWildcard, flag, sourceKind]; rfl)
          · exact targetBody (by rw [isWildcard, flag, targetKind]; rfl)
          · simpa using declared
  · exact .pure fun some => absurd rfl some

/-- The reason for a no: properties of a fresh source that are too many, or evidence. -/
def Reasoned (strict fresh : Bool) (base : TypeTable) (source target : TypeId) (verdict : Verdict)
    (t : TypeTable) : Prop :=
  ∀ m, verdict = .error m → m.About source target ∧
    ((∃ names, fresh = true ∧ m = .excessProperty names source target ∧
      Exceeds t source target names) ∨ Evident strict base t m)

theorem concludes_assignableWithin (fresh : Bool) (fuel : Nat) {t : TypeTable}
    {source target : TypeId} (since : Since base t) (left : source < t.size)
    (right : target < t.size) :
    Concludes base (assignableWithin strict fuel source target fresh) t
      (Reasoned strict fresh base source target) := by
  have structural {u : TypeTable} (onward : Onward base t u) :
      Concludes base (relatedWithin strict fuel source target) u
        (Reasoned strict fresh base source target) := fun σ verdict σ' same done => by
    obtain ⟨further, holds⟩ := justifies_relatedWithin basic fuel u source target
      (onward.since since) (onward.inside left) (onward.inside right) σ verdict σ' same done
    exact ⟨further, fun m failed => ⟨(holds m failed).1, .inr (holds m failed).2⟩⟩
  cases fresh with
  | false =>
      have none : Concludes base (pure [] : RelationM (List String)) t fun names _ => names = [] :=
        .pure rfl
      refine none.bind ?_
      rintro _ u onward rfl
      exact structural onward
  | true =>
      obtain ⟨onward, excess⟩ := yields_excessProperties_exceeds basic since left right
      refine (Concludes.onTable onward excess).bind fun names u onward exceeds => ?_
      refine .ite (fun _ => structural onward) fun some => .pure ?_
      rintro _ ⟨⟩
      exact ⟨⟨rfl, rfl⟩, .inl ⟨names, rfl, rfl, exceeds (by simpa using some)⟩⟩

omit basic

/-- Whatever the reason for a no is, it is about the types that were asked about, only the
outermost one can be about excess properties, and every level of it is true. -/
theorem mismatch_evident {fresh : Bool} {t after : TypeTable} {source target : TypeId}
    {m : Mismatch} (basic : TypeTable.initial.Extends t) (closed : t.Closed)
    (left : source < t.size) (right : target < t.size)
    (ran : (assignable strict source target fresh).run t = (.error m, after)) :
    m.About source target ∧
      ((∃ names, fresh = true ∧ m = .excessProperty names source target ∧
        Exceeds after source target names) ∨ Evident strict t after m) := by
  rcases run_assignable_cases strict t source target fresh with
    ⟨verdict, u, ⟨fuel, σ, found, rfl⟩, run⟩ | ⟨-, run⟩
  · obtain ⟨rfl, rfl⟩ := Prod.mk.inj (run.symm.trans ran)
    have since : Since t t := ⟨.refl t, .start closed (basic.inside (by decide))⟩
    exact (concludes_assignableWithin basic fresh fuel since left right (.ofTable t) _ σ rfl
      found).2 m rfl
  · exact nomatch run.symm.trans ran

end Questions

section Methods

/-- `{ m: (x: number) => void }` and `{ m: (x: string) => void }`. -/
def methodTypes : TypeTable where
  entries := TypeTable.initial.entries ++
    #[.function ⟨[], [⟨"x", TypeId.number, false⟩], TypeId.void⟩,
      .function ⟨[], [⟨"x", TypeId.string, false⟩], TypeId.void⟩,
      .object ⟨none, ⟨[("m", ⟨7, false⟩)]⟩⟩, .object ⟨none, ⟨[("m", ⟨8, false⟩)]⟩⟩]
  resolved := .empty

/-- The types of the method are to blame, since those of its parameter are. -/
theorem methodTypes_evident :
    let reason := Mismatch.property "m" 9 10 (.parameter 0 7 8
      (.incompatible TypeId.string TypeId.number))
    ∃ after, (assignable true 9 10 false).run methodTypes = (.error reason, after) ∧
      Evident true methodTypes after reason := by
  intro reason
  obtain ⟨⟨verdict, σ⟩, done, same⟩ := (Option.any_eq_true _ _).mp
    (by decide +kernel : ((assignableWithin true 9 9 10 false).run (.ofTable methodTypes)).any
      (fun r => decide (r.1 = .error reason)) = true)
  obtain rfl := of_decide_eq_true same
  have ran := Answers.run_assignable ⟨9, σ, done, rfl⟩
  have basic : TypeTable.initial.Extends methodTypes := ⟨by decide, by decide⟩
  have closed : methodTypes.Closed := (WellFormed.of_fits (by decide) rfl).toClosed
  have evidence := mismatch_evident basic closed (by decide) (by decide) ran
  exact ⟨σ.table, ran, evidence.2.resolve_left fun ⟨_, fresh, _⟩ => Bool.false_ne_true fresh⟩

end Methods

end Assignability

end StructuralTyping
