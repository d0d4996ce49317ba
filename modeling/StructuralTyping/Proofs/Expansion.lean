import Mathlib.Data.List.Perm.Subperm
import StructuralTyping.Proofs.TableGrowth
import StructuralTyping.Proofs.TypeTrees

/-! Complete expansion. An instantiated type stands for the body of its origin with
the arguments in the place of the parameters. Here this is said with environments,
without new entries: a type expands to a tree under an environment that gives the
trees of the type parameters. Substitution keeps to it, since the type that it makes
expands on its own to the tree of the pattern under the environment. -/
namespace StructuralTyping

/-- The trees that stand for type parameters. -/
abbrev Environment := TypeId → Option Tree

namespace Environment

def empty : Environment := fun _ => none

/-- The parameters of a generic interface with arguments, in order. -/
def supply (g : GenericType) (arguments : List Tree) : Environment :=
  (Dictionary.ofList (g.typeParameters.zip arguments)).find?

end Environment

/-- The finite tree of a type. There is none for generic functions, for type
parameters without an argument and for generic interfaces without a body. -/
inductive Expands (table : TypeTable) : Environment → TypeId → Tree → Prop
  | bound {env : Environment} {id : TypeId} {tree : Tree} (found : env id = some tree) :
      Expands table env id tree
  | primitive {env : Environment} {id : TypeId} {name : Primitive} (free : env id = none)
      (kind : table.kind id = .primitive name) : Expands table env id (.primitive name)
  | wildcard {env : Environment} {id : TypeId} (free : env id = none)
      (inside : id < table.size) (wild : table.isWildcard id = true) :
      Expands table env id .wildcard
  | object {env : Environment} {id : TypeId} {o : ObjectType}
      {properties : List (String × Bool × Tree)} (free : env id = none)
      (kind : table.kind id = .object o) (distinct : o.properties.Distinct)
      (length : o.properties.pairs.length = properties.length)
      (names : ∀ p q, (p, q) ∈ o.properties.pairs.zip properties →
        q.1 = p.1 ∧ q.2.1 = p.2.optional)
      (parts : ∀ p q, (p, q) ∈ o.properties.pairs.zip properties →
        Expands table env p.2.type q.2.2) :
      Expands table env id (.object properties)
  | function {env : Environment} {id : TypeId} {f : FunctionType}
      {parameters : List (Bool × Tree)} {result : Tree} (free : env id = none)
      (kind : table.kind id = .function f) (plain : f.typeParameters = [])
      (length : f.parameters.length = parameters.length)
      (optional : ∀ p q, (p, q) ∈ f.parameters.zip parameters → q.1 = p.optional)
      (parts : ∀ p q, (p, q) ∈ f.parameters.zip parameters → Expands table env p.type q.2)
      (returns : Expands table env f.returnType result) :
      Expands table env id (.function parameters result)
  | expansion {env : Environment} {id : TypeId} {i : InstantiatedType} {g : GenericType}
      {arguments : List Tree} {inner : Tree} (free : env id = none)
      (kind : table.kind id = .instantiated i) (origin : table.kind i.origin = .generic g)
      (inside : g.body < table.size) (ready : table.kind g.body ≠ .pending)
      (arity : i.bindings.values.length = g.typeParameters.length)
      (length : i.bindings.values.length = arguments.length)
      (parts : ∀ a t, (a, t) ∈ i.bindings.values.zip arguments → Expands table env a t)
      (body : Expands table (.supply g arguments) g.body inner) (whole : inner.isInstance = false) :
      Expands table env id (.expanded arguments inner)

/-- Two lists are related in order if each is in line with one and the same list. -/
theorem forall₂_of_zip {α β γ : Type} {R : β → γ → Prop} {items : List α} {xs : List β}
    {ys : List γ} (length : items.length = xs.length) (length' : items.length = ys.length)
    (each : ∀ a x y, (a, x) ∈ items.zip xs → (a, y) ∈ items.zip ys → R x y) :
    List.Forall₂ R xs ys := by
  induction items generalizing xs ys with
  | nil =>
      rw [List.eq_nil_of_length_eq_zero length.symm, List.eq_nil_of_length_eq_zero length'.symm]
      exact .nil
  | cons a rest ih =>
      cases xs with
      | nil => simp at length
      | cons x xs =>
          cases ys with
          | nil => simp at length'
          | cons y ys =>
              refine .cons (each a x y (by simp) (by simp)) ?_
              exact ih (by simpa using length) (by simpa using length')
                fun a x y member member' => each a x y (by simp [member]) (by simp [member'])

theorem eq_of_zip {α β : Type} {items : List α} {xs ys : List β}
    (length : items.length = xs.length) (length' : items.length = ys.length)
    (same : ∀ a x y, (a, x) ∈ items.zip xs → (a, y) ∈ items.zip ys → x = y) : xs = ys :=
  List.forall₂_eq_eq_eq ▸ forall₂_of_zip length length' same

section Entries
variable {table : TypeTable} {env : Environment} {id : TypeId} {s t : Tree}

/-- A type has one tree. -/
theorem Expands.unique (first : Expands table env id s) (second : Expands table env id t) :
    s = t := by
  induction first generalizing t with
  | bound found =>
      cases second <;> simp_all
  | primitive free kind =>
      cases second <;> simp_all [TypeTable.isWildcard, TypeTable.flag, TypeKind.flag, TypeFlag.isWildcard]
  | wildcard free inside wild =>
      cases second <;> simp_all [TypeTable.isWildcard, TypeTable.flag, TypeKind.flag, TypeFlag.isWildcard]
  | object free kind distinct length names parts ih =>
      cases second with
      | object free' kind' distinct' length' names' parts' =>
          obtain rfl := TypeKind.object.inj (kind.symm.trans kind')
          rw [eq_of_zip length length' fun a x y member member' => ?_]
          have tree := ih a x member (parts' a y member')
          have name := (names a x member).1.trans (names' a y member').1.symm
          have optional := (names a x member).2.trans (names' a y member').2.symm
          exact Prod.ext name (Prod.ext optional tree)
      | _ => simp_all [TypeTable.isWildcard, TypeTable.flag, TypeKind.flag, TypeFlag.isWildcard]
  | function free kind plain length optional parts returns ih ih' =>
      cases second with
      | function free' kind' plain' length' optional' parts' returns' =>
          obtain rfl := TypeKind.function.inj (kind.symm.trans kind')
          rw [ih' returns', eq_of_zip length length' fun a x y member member' => ?_]
          exact Prod.ext ((optional a x member).trans (optional' a y member').symm)
            (ih a x member (parts' a y member'))
      | _ => simp_all [TypeTable.isWildcard, TypeTable.flag, TypeKind.flag, TypeFlag.isWildcard]
  | expansion free kind origin inside ready arity length parts body whole ih ih' =>
      cases second with
      | expansion free' kind' origin' inside' ready' arity' length' parts' body' whole' =>
          obtain rfl := TypeKind.instantiated.inj (kind.symm.trans kind')
          obtain rfl := TypeKind.generic.inj (origin.symm.trans origin')
          obtain rfl := eq_of_zip length length' fun a x y member member' =>
            ih a x member (parts' a y member')
          rw [ih' body']
      | _ => simp_all [TypeTable.isWildcard, TypeTable.flag, TypeKind.flag, TypeFlag.isWildcard]

/-- A tree stays the tree when entries are added. -/
theorem Expands.extends {table' : TypeTable} (expands : Expands table env id t)
    (extended : table.Extends table') : Expands table' env id t := by
  induction expands with
  | bound found => exact .bound found
  | primitive free kind => exact .primitive free (extended.entry kind (by simp))
  | wildcard free inside wild =>
      refine .wildcard free (Nat.lt_of_lt_of_le inside extended.size) ?_
      rwa [TypeTable.isWildcard, TypeTable.flag, extended.kind _ inside]
  | object free kind distinct length names parts ih =>
      exact .object free (extended.entry kind (by simp)) distinct length names ih
  | function free kind plain length optional parts returns ih ih' =>
      exact .function free (extended.entry kind (by simp)) plain length optional ih ih'
  | expansion free kind origin inside ready arity length parts body whole ih ih' =>
      exact .expansion free (extended.entry kind (by simp)) (extended.entry origin (by simp))
        (Nat.lt_of_lt_of_le inside extended.size) (extended.kind _ inside ▸ ready) arity length ih
        ih' whole

/-- An entry of a well-formed table had its tree before others were added. -/
theorem Expands.restrict {table' : TypeTable} (expands : Expands table' env id t)
    (extended : table.Extends table') (wellFormed : table.WellFormed) (inside : id < table.size) :
    Expands table env id t := by
  have before {id : TypeId} {kind : TypeKind} (entry : table'.kind id = kind)
      (inside : id < table.size) : table.kind id = kind :=
    (extended.kind id inside).symm.trans entry
  have mentioned {id m : TypeId} {kind : TypeKind} (entry : table.kind id = kind)
      (inside : id < table.size) (member : m ∈ kind.mentions) : m < table.size :=
    wellFormed.mentions id inside m (entry ▸ member)
  induction expands with
  | bound found => exact .bound found
  | primitive free kind => exact .primitive free (before kind inside)
  | wildcard free _ wild =>
      refine .wildcard free inside ?_
      rwa [TypeTable.isWildcard, TypeTable.flag, ← extended.kind _ inside]
  | object free kind distinct length names parts ih =>
      have here := before kind inside
      refine .object free here distinct length names fun p q member => ih p q member ?_
      exact mentioned here inside (List.mem_map_of_mem (List.mem_map_of_mem (List.of_mem_zip member).1))
  | function free kind plain length optional parts returns ih ih' =>
      have here := before kind inside
      refine .function free here plain length optional (fun p q member => ih p q member ?_) (ih' ?_)
      · have listed := (List.of_mem_zip member).1
        exact mentioned here inside (by simp only [TypeKind.mentions]; grind)
      · exact mentioned here inside (by simp [TypeKind.mentions])
  | @expansion env id i g _ _ free kind origin _ ready arity length parts body whole ih ih' =>
      have here := before kind inside
      have generic := before origin (mentioned here inside (by simp [TypeKind.mentions]))
      have known := TypeTable.lt_size_of_kind generic (by simp)
      have inner : g.body < table.size := mentioned generic known (by simp [TypeKind.mentions])
      refine .expansion free here generic inner (extended.kind _ inner ▸ ready) arity length
        (fun a t member => ih a t member ?_) (ih' inner) whole
      have listed := (List.of_mem_zip member).1
      exact mentioned here inside (by simp [TypeKind.mentions, listed])

/-- Properties with their trees, in order. -/
abbrev Fields (R : TypeId → Tree → Prop) (pairs : List (String × Property))
    (trees : List (String × Bool × Tree)) : Prop :=
  List.Forall₂ (fun p q => q.1 = p.1 ∧ q.2.1 = p.2.optional ∧ R p.2.type q.2.2) pairs trees

/-- Parameters with their trees, in order. -/
abbrev Slots (R : TypeId → Tree → Prop) (parameters : List Parameter)
    (trees : List (Bool × Tree)) : Prop :=
  List.Forall₂ (fun p q => q.1 = p.optional ∧ R p.type q.2) parameters trees

theorem fields_of_zip {R : TypeId → Tree → Prop} {pairs : List (String × Property)}
    {trees : List (String × Bool × Tree)} (length : pairs.length = trees.length)
    (names : ∀ p q, (p, q) ∈ pairs.zip trees → q.1 = p.1 ∧ q.2.1 = p.2.optional)
    (parts : ∀ p q, (p, q) ∈ pairs.zip trees → R p.2.type q.2.2) : Fields R pairs trees :=
  List.forall₂_iff_zip.mpr ⟨length, fun {p q} member =>
    ⟨(names p q member).1, (names p q member).2, parts p q member⟩⟩

theorem slots_of_zip {R : TypeId → Tree → Prop} {parameters : List Parameter}
    {trees : List (Bool × Tree)} (length : parameters.length = trees.length)
    (optional : ∀ p q, (p, q) ∈ parameters.zip trees → q.1 = p.optional)
    (parts : ∀ p q, (p, q) ∈ parameters.zip trees → R p.type q.2) : Slots R parameters trees :=
  List.forall₂_iff_zip.mpr ⟨length, fun {p q} member => ⟨optional p q member, parts p q member⟩⟩

theorem Expands.of_fields {o : ObjectType} {properties : List (String × Bool × Tree)}
    (free : env id = none) (kind : table.kind id = .object o) (distinct : o.properties.Distinct)
    (fields : Fields (Expands table env) o.properties.pairs properties) :
    Expands table env id (.object properties) := by
  obtain ⟨length, each⟩ := List.forall₂_iff_zip.mp fields
  exact .object free kind distinct length (fun p q member => ⟨(each member).1, (each member).2.1⟩)
    fun p q member => (each member).2.2

theorem Expands.of_slots {f : FunctionType} {parameters : List (Bool × Tree)} {result : Tree}
    (free : env id = none) (kind : table.kind id = .function f) (plain : f.typeParameters = [])
    (slots : Slots (Expands table env) f.parameters parameters)
    (returns : Expands table env f.returnType result) :
    Expands table env id (.function parameters result) := by
  obtain ⟨length, each⟩ := List.forall₂_iff_zip.mp slots
  exact .function free kind plain length (fun p q member => (each member).1)
    (fun p q member => (each member).2) returns

theorem Expands.of_arguments {i : InstantiatedType} {g : GenericType} {arguments : List Tree}
    {inner : Tree} (free : env id = none) (kind : table.kind id = .instantiated i)
    (origin : table.kind i.origin = .generic g) (inside : g.body < table.size)
    (ready : table.kind g.body ≠ .pending)
    (arity : i.bindings.values.length = g.typeParameters.length)
    (parts : List.Forall₂ (Expands table env) i.bindings.values arguments)
    (body : Expands table (.supply g arguments) g.body inner) (whole : inner.isInstance = false) :
    Expands table env id (.expanded arguments inner) := by
  obtain ⟨length, each⟩ := List.forall₂_iff_zip.mp parts
  exact .expansion free kind origin inside ready arity length (fun a t member => each member) body
    whole

/-- A tree without a mark at its root, of a type that is no wildcard, is the tree of an
entry of the same kind. -/
theorem Expands.solid (expands : Expands table .empty id t) (whole : t.isInstance = false)
    (solid : table.isWildcard id = false) :
    (∃ name, t = .primitive name ∧ table.kind id = .primitive name) ∨
      (∃ o properties, t = .object properties ∧ table.kind id = .object o ∧
        Fields (Expands table .empty) o.properties.pairs properties) ∨
      ∃ f parameters result, t = .function parameters result ∧ table.kind id = .function f ∧
        f.typeParameters = [] ∧ Slots (Expands table .empty) f.parameters parameters ∧
        Expands table .empty f.returnType result := by
  cases expands with
  | bound found => cases found
  | primitive _ kind => exact .inl ⟨_, rfl, kind⟩
  | wildcard _ _ wild => simp [solid] at wild
  | object _ kind _ length names parts =>
      exact .inr (.inl ⟨_, _, rfl, kind, fields_of_zip length names parts⟩)
  | function _ kind plain length optional parts returns =>
      exact .inr (.inr ⟨_, _, _, rfl, kind, plain, slots_of_zip length optional parts, returns⟩)
  | expansion => cases whole

theorem Expands.of_kind_object {o : ObjectType} (expands : Expands table .empty id t)
    (kind : table.kind id = .object o) :
    ∃ properties, t = .object properties ∧
      Fields (Expands table .empty) o.properties.pairs properties := by
  cases expands with
  | bound found => cases found
  | object _ kind' _ length names parts =>
      obtain rfl := TypeKind.object.inj (kind.symm.trans kind')
      exact ⟨_, rfl, fields_of_zip length names parts⟩
  | _ => simp_all [TypeTable.isWildcard, TypeTable.flag, TypeKind.flag, TypeFlag.isWildcard]

theorem Expands.of_kind_function {f : FunctionType} (expands : Expands table .empty id t)
    (kind : table.kind id = .function f) :
    ∃ parameters result, t = .function parameters result ∧ f.typeParameters = [] ∧
      Slots (Expands table .empty) f.parameters parameters ∧
      Expands table .empty f.returnType result := by
  cases expands with
  | bound found => cases found
  | function _ kind' plain length optional parts returns =>
      obtain rfl := TypeKind.function.inj (kind.symm.trans kind')
      exact ⟨_, _, rfl, plain, slots_of_zip length optional parts, returns⟩
  | _ => simp_all [TypeTable.isWildcard, TypeTable.flag, TypeKind.flag, TypeFlag.isWildcard]

theorem Expands.of_kind_instantiated {i : InstantiatedType} (expands : Expands table .empty id t)
    (kind : table.kind id = .instantiated i) :
    ∃ g arguments inner, t = .expanded arguments inner ∧ table.kind i.origin = .generic g ∧
      i.bindings.values.length = g.typeParameters.length ∧
      List.Forall₂ (Expands table .empty) i.bindings.values arguments ∧
      Expands table (.supply g arguments) g.body inner ∧ inner.isInstance = false := by
  cases expands with
  | bound found => cases found
  | expansion _ kind' origin _ _ arity length parts body whole =>
      obtain rfl := TypeKind.instantiated.inj (kind.symm.trans kind')
      exact ⟨_, _, _, rfl, origin, arity,
        List.forall₂_iff_zip.mpr ⟨length, fun {a t} member => parts a t member⟩, body, whole⟩
  | _ => simp_all [TypeTable.isWildcard, TypeTable.flag, TypeKind.flag, TypeFlag.isWildcard]

theorem Expands.kind_ne_typeParameter (expands : Expands table .empty id t) (name : String)
    (constraint : Option TypeId) : table.kind id ≠ .typeParameter name constraint := by
  intro kind
  cases expands with
  | bound found => cases found
  | _ => simp_all [TypeTable.isWildcard, TypeTable.flag, TypeKind.flag, TypeFlag.isWildcard]

/-- Only an entry has a tree of its own. -/
theorem Expands.lt_size (expands : Expands table env id t) (free : env id = none) :
    id < table.size := by
  cases expands with
  | bound found => simp [free] at found
  | primitive _ kind => exact TypeTable.lt_size_of_kind kind (by simp)
  | wildcard _ inside => exact inside
  | object _ kind => exact TypeTable.lt_size_of_kind kind (by simp)
  | function _ kind => exact TypeTable.lt_size_of_kind kind (by simp)
  | expansion _ kind => exact TypeTable.lt_size_of_kind kind (by simp)

end Entries

/-- What two lists have in common with a third one they have with each other. -/
theorem forall₂_meet {α β γ : Type} {R : α → β → Prop} {S : α → γ → Prop} {T : β → γ → Prop}
    (each : ∀ a b c, R a b → S a c → T b c) {xs : List α} {ys : List β} {zs : List γ}
    (one : List.Forall₂ R xs ys) (two : List.Forall₂ S xs zs) : List.Forall₂ T ys zs := by
  induction one generalizing zs with
  | nil =>
      cases two
      exact .nil
  | cons here _ ih =>
      cases two with
      | cons here' rest => exact .cons (each _ _ _ here here') (ih rest)

theorem forall₂_left {α β : Type} {R : α → β → Prop} {xs : List α} {ys : List β}
    (pairs : List.Forall₂ R xs ys) : ∀ x ∈ xs, ∃ y ∈ ys, R x y := by
  induction pairs with
  | nil => exact List.forall_mem_nil _
  | cons here _ ih =>
      refine List.forall_mem_cons.mpr ⟨⟨_, List.mem_cons_self, here⟩, fun x member => ?_⟩
      obtain ⟨y, listed, related⟩ := ih x member
      exact ⟨y, List.mem_cons_of_mem _ listed, related⟩

theorem keys_eq_of_forall₂ {κ α β : Type} {xs : List (κ × α)} {ys : List (κ × β)}
    (pairs : List.Forall₂ (fun p q => q.1 = p.1) xs ys) :
    ys.map Prod.fst = xs.map Prod.fst := by
  induction pairs with
  | nil => rfl
  | cons same _ ih => rw [List.map_cons, List.map_cons, same, ih]

section Lookup
variable {κ α β : Type} [DecidableEq κ] {R : α → β → Prop} {xs : List (κ × α)} {ys : List (κ × β)}

open Dictionary

theorem forall₂_insertIn {v : α} {w : β} (key : κ) (related : R v w)
    (pairs : List.Forall₂ (fun p q => q.1 = p.1 ∧ R p.2 q.2) xs ys) :
    List.Forall₂ (fun p q => q.1 = p.1 ∧ R p.2 q.2) (insertIn key v xs) (insertIn key w ys) := by
  induction pairs with
  | nil => exact .cons ⟨rfl, related⟩ .nil
  | @cons p q _ _ here rest ih =>
      obtain ⟨k, a⟩ := p
      obtain ⟨k', b⟩ := q
      obtain ⟨rfl, values⟩ := here
      simp only [insertIn]
      split
      · exact .cons ⟨rfl, related⟩ rest
      · exact .cons ⟨rfl, values⟩ ih

theorem forall₂_ofList (pairs : List.Forall₂ (fun p q => q.1 = p.1 ∧ R p.2 q.2) xs ys) :
    List.Forall₂ (fun p q => q.1 = p.1 ∧ R p.2 q.2) (ofList xs).pairs (ofList ys).pairs := by
  suffices grown : ∀ (d : Dictionary κ α) (d' : Dictionary κ β),
      List.Forall₂ (fun p q => q.1 = p.1 ∧ R p.2 q.2) d.pairs d'.pairs →
        List.Forall₂ (fun p q => q.1 = p.1 ∧ R p.2 q.2)
          (xs.foldl (fun d pair => d.insert pair.1 pair.2) d).pairs
          (ys.foldl (fun d pair => d.insert pair.1 pair.2) d').pairs from
    grown Dictionary.empty Dictionary.empty .nil
  induction pairs with
  | nil => exact fun _ _ before => before
  | cons here _ ih =>
      intro d d' before
      rw [List.foldl_cons, List.foldl_cons, here.1]
      exact ih _ _ (forall₂_insertIn _ here.2 before)

theorem rel_findIn? (key : κ) (pairs : List.Forall₂ (fun p q => q.1 = p.1 ∧ R p.2 q.2) xs ys) :
    Option.Rel R (findIn? key xs) (findIn? key ys) := by
  induction pairs with
  | nil => exact .none
  | cons here _ ih =>
      simp only [findIn?, here.1]
      split
      · exact .some here.2
      · exact ih

/-- Related values under the same keys are found under the same keys. -/
theorem rel_find?_zip (keys : List κ) {vs : List α} {ws : List β} (values : List.Forall₂ R vs ws)
    (key : κ) :
    Option.Rel R ((ofList (keys.zip vs)).find? key) ((ofList (keys.zip ws)).find? key) := by
  refine rel_findIn? key (forall₂_ofList ?_)
  induction values generalizing keys with
  | nil => simp
  | cons here _ ih =>
      cases keys with
      | nil => simp
      | cons k rest => exact .cons ⟨rfl, here⟩ (ih rest)

end Lookup

section Copies
variable {bindings : Bindings} {env : Environment} {t₀ t : TypeTable}

open TableM Substitution

/-- The environment gives the trees of the bound types. -/
def Represents (t : TypeTable) (bindings : Bindings) (env : Environment) : Prop :=
  ∀ p, Option.Rel (Expands t .empty) (bindings.find? p) (env p)

theorem Represents.bound {p b : TypeId} (represents : Represents t bindings env)
    (found : bindings.find? p = some b) : ∃ tree, env p = some tree ∧ Expands t .empty b tree := by
  have related := represents p
  rw [found] at related
  generalize env p = given at related
  cases related with
  | some expands => exact ⟨_, rfl, expands⟩

theorem Represents.free {p : TypeId} (represents : Represents t bindings env)
    (absent : bindings.find? p = none) : env p = none := by
  have related := represents p
  rw [absent] at related
  generalize env p = given at related
  cases related
  rfl

/-- The one type expands on its own to what the other one is under the environment. -/
def Copies (t₀ : TypeTable) (env : Environment) (id copy : TypeId) (t : TypeTable) : Prop :=
  ∀ tree, Expands t₀ env id tree → Expands t .empty copy tree

theorem extends_growth : TypeTable.Growth TypeTable.Extends := ⟨.refl, .trans⟩

theorem copies_extends (id copy : TypeId) (t t' : TypeTable) (extended : t.Extends t')
    (copies : Copies t₀ env id copy t) : Copies t₀ env id copy t' :=
  fun tree expands => (copies tree expands).extends extended

theorem yields_entry (t : TypeTable) (kind : TypeKind) :
    Yields (TableM.add kind) t fun id t' => t.Extends t' ∧ t'.kind id = kind :=
  ⟨.add t kind, TypeTable.kind_add_size t kind⟩

section Parts
variable {id : TypeId} {descend : TypeId → TableM TypeId} (extended : t₀.Extends t)

include extended

theorem yields_copy_object {o : ObjectType} {trees : List (String × Bool × Tree)}
    (kind : t₀.kind id = .object o) (distinct : o.properties.Distinct)
    (fields : Fields (Expands t₀ env) o.properties.pairs trees)
    (step : ∀ p ∈ o.properties.values, ∀ t', t.Extends t' →
      Yields (descend p.type) t' fun m t'' => t'.Extends t'' ∧ Copies t₀ env p.type m t'') :
    Yields (do
        let properties ← o.properties.mapValuesM fun p => do
          return { p with type := ← descend p.type }
        if properties = o.properties then return id
        else TableM.add (.object ⟨none, properties⟩)) t
      fun id' t' => t.Extends t' ∧ Expands t' .empty id' (.object trees) := by
  have replaced := Yields.sequential.properties extends_growth copies_extends step
  refine replaced.bind fun properties u both => ?_
  have later : t.Extends u := both.1
  have made : Fields (Expands u .empty) properties.pairs trees :=
    forall₂_meet (fun p q tree copy given => ⟨given.1.trans copy.1.symm,
      given.2.1.trans copy.2.1.symm, copy.2.2 _ given.2.2⟩) both.2 fields
  split
  · next same =>
      have entry : u.kind id = .object o := (extended.trans later).entry kind (by simp)
      exact .pure ⟨later, .of_fields rfl entry distinct (same ▸ made)⟩
  · have keys : properties.keys = o.properties.keys :=
      keys_eq_of_forall₂ (both.2.imp fun _ _ copy => copy.1)
    have distinct' : properties.Distinct := by
      rwa [Dictionary.Distinct, keys]
    refine (yields_entry u (.object ⟨none, properties⟩)).weaken fun id' w entry => ?_
    refine ⟨later.trans entry.1, .of_fields rfl entry.2 distinct' ?_⟩
    exact made.imp fun p q given => ⟨given.1, given.2.1, given.2.2.extends entry.1⟩

theorem yields_copy_function {f : FunctionType} {trees : List (Bool × Tree)} {result : Tree}
    (kind : t₀.kind id = .function f) (plain : f.typeParameters = [])
    (slots : Slots (Expands t₀ env) f.parameters trees) (returns : Expands t₀ env f.returnType result)
    (step : ∀ p ∈ f.parameters, ∀ t', t.Extends t' →
      Yields (descend p.type) t' fun m t'' => t'.Extends t'' ∧ Copies t₀ env p.type m t'')
    (last : ∀ t', t.Extends t' → Yields (descend f.returnType) t' fun m t'' =>
      t'.Extends t'' ∧ Copies t₀ env f.returnType m t'') :
    Yields (do
        let parameters ← f.parameters.mapM fun p => do
          return { p with type := ← descend p.type }
        let returnType ← descend f.returnType
        let replaced : FunctionType :=
          { typeParameters := f.typeParameters.filter fun p => !bindings.contains p
            parameters := parameters
            returnType := returnType }
        if replaced = f then return id else TableM.add (.function replaced)) t
      fun id' t' => t.Extends t' ∧ Expands t' .empty id' (.function trees result) := by
  have replaced := Yields.sequential.parameters extends_growth copies_extends step
  refine replaced.bind fun parameters u both => ?_
  refine (last u both.1).bind fun returnType v both' => ?_
  have later : t.Extends v := both.1.trans both'.1
  have made : Slots (Expands v .empty) parameters trees :=
    forall₂_meet (fun p q tree copy given => ⟨given.1.trans (congrArg Parameter.optional copy.1).symm,
      (copy.2 _ given.2).extends both'.1⟩) both.2 slots
  have result' : Expands v .empty returnType result := both'.2 _ returns
  have none : (f.typeParameters.filter fun p => !bindings.contains p) = [] := by
    rw [plain, List.filter_nil]
  dsimp only
  split
  · next same =>
      have entry : v.kind id = .function f := (extended.trans later).entry kind (by simp)
      refine .pure ⟨later, .of_slots rfl entry plain ?_ ?_⟩
      · rw [← same]
        exact made
      · rw [← same]
        exact result'
  · refine (yields_entry v _).weaken fun id' w entry => ?_
    refine ⟨later.trans entry.1, .of_slots rfl entry.2 none ?_ (result'.extends entry.1)⟩
    exact made.imp fun p q given => ⟨given.1, given.2.extends entry.1⟩

theorem yields_copy_arguments {i : InstantiatedType} {g : GenericType} {trees : List Tree}
    {inner : Tree} (kind : t₀.kind id = .instantiated i) (origin : t₀.kind i.origin = .generic g)
    (inside : g.body < t₀.size) (ready : t₀.kind g.body ≠ .pending)
    (arity : i.bindings.values.length = g.typeParameters.length)
    (parts : List.Forall₂ (Expands t₀ env) i.bindings.values trees)
    (body : Expands t₀ (.supply g trees) g.body inner) (whole : inner.isInstance = false)
    (step : ∀ a ∈ i.bindings.values, ∀ t', t.Extends t' →
      Yields (descend a) t' fun m t'' => t'.Extends t'' ∧ Copies t₀ env a m t'') :
    Yields (do
        let arguments ← i.bindings.mapValuesM descend
        if arguments = i.bindings then return id
        else TableM.add (.instantiated ⟨i.origin, arguments⟩)) t
      fun id' t' => t.Extends t' ∧ Expands t' .empty id' (.expanded trees inner) := by
  have replaced := Yields.sequential.mapValuesM extends_growth copies_extends step
  refine replaced.bind fun arguments u both => ?_
  have later : t.Extends u := both.1
  have copies : List.Forall₂ (fun a m => Copies t₀ env a m u) i.bindings.values arguments.values := by
    rw [Dictionary.values, Dictionary.values, List.forall₂_map_left_iff, List.forall₂_map_right_iff]
    exact both.2.imp fun p q copy => copy.2
  have made : List.Forall₂ (Expands u .empty) arguments.values trees :=
    forall₂_meet (fun a m tree copy given => copy tree given) copies parts
  have arity' : arguments.values.length = g.typeParameters.length :=
    copies.length_eq.symm.trans arity
  -- the generic interface and its body are as they were
  have instanced {w : TypeTable} {id' : TypeId} {given : Dictionary String TypeId}
      (reached : t₀.Extends w) (entry : w.kind id' = .instantiated ⟨i.origin, given⟩)
      (arity : given.values.length = g.typeParameters.length)
      (made : List.Forall₂ (Expands w .empty) given.values trees) :
      Expands w .empty id' (.expanded trees inner) :=
    .of_arguments rfl entry (reached.entry origin (by simp))
      (Nat.lt_of_lt_of_le inside reached.size) (reached.kind _ inside ▸ ready) arity made
      (body.extends reached) whole
  split
  · next same =>
      have reached : t₀.Extends u := extended.trans later
      exact .pure ⟨later, instanced reached (reached.entry kind (by simp)) arity (same ▸ made)⟩
  · refine (yields_entry u (.instantiated ⟨i.origin, arguments⟩)).weaken fun id' w entry => ?_
    refine ⟨later.trans entry.1, instanced ((extended.trans later).trans entry.1) entry.2 arity' ?_⟩
    exact made.imp fun a tree given => given.extends entry.1

end Parts

/-- A part of the pattern is replaced by a type that expands to the same tree. The ways
down are short, since the tree becomes smaller and so no entry is met again. -/
theorem yields_copy (fuel : Nat) {visiting : List TypeId} {id : TypeId} {tree : Tree}
    (represents : Represents t₀ bindings env) (expands : Expands t₀ env id tree)
    (extended : t₀.Extends t) (nodup : visiting.Nodup)
    (above : ∀ v ∈ visiting, v < t₀.size ∧ ∃ s, Expands t₀ env v s ∧ sizeOf tree < sizeOf s)
    (enough : t₀.size < fuel + visiting.length) :
    Yields (applyWithin bindings fuel visiting id) t fun id' t' =>
      t.Extends t' ∧ Expands t' .empty id' tree := by
  induction fuel generalizing visiting id tree t with
  | zero =>
      have listed : visiting ⊆ List.range t₀.size := fun v member =>
        List.mem_range.mpr (above v member).1
      have short := (List.subperm_of_subset nodup listed).length_le
      rw [List.length_range] at short
      omega
  | succ fuel ih =>
      rw [applyWithin]
      cases found : bindings.find? id with
      | some b =>
          obtain ⟨given, bound, copy⟩ := represents.bound found
          rw [expands.unique (.bound bound)]
          exact .pure ⟨.refl t, copy.extends extended⟩
      | none =>
          have free : env id = none := represents.free found
          have inside : id < t₀.size := expands.lt_size free
          have new : id ∉ visiting := by
            intro member
            obtain ⟨-, s, met, smaller⟩ := above id member
            rw [expands.unique met] at smaller
            exact Nat.lt_irrefl _ smaller
          have descend : ∀ m part t', t.Extends t' → Expands t₀ env m part →
              sizeOf part < sizeOf tree →
              Yields (applyWithin bindings fuel (id :: visiting) m) t' fun m' t'' =>
                t'.Extends t'' ∧ Copies t₀ env m m' t'' := by
            intro m part t' later inner smaller
            refine (ih inner (extended.trans later) (List.nodup_cons.mpr ⟨new, nodup⟩) ?_ ?_).weaken ?_
            · intro v member
              rcases List.mem_cons.mp member with rfl | before
              · exact ⟨inside, tree, expands, smaller⟩
              · obtain ⟨known, s, met, larger⟩ := above v before
                exact ⟨known, s, met, Nat.lt_trans smaller larger⟩
            · rw [List.length_cons]
              omega
            · intro m' t'' both
              exact ⟨both.1, fun other met => inner.unique met ▸ both.2⟩
          have read : Yields (TableM.kind id) t fun k t' => t' = t ∧ k = t₀.kind id :=
            ⟨rfl, extended.kind id inside⟩
          simp only [new, ↓reduceIte]
          refine read.bind ?_
          rintro k t ⟨rfl, rfl⟩
          cases expands with
          | bound given => simp [free] at given
          | primitive _ kind =>
              rw [kind]
              exact .pure ⟨.refl t, .extends (.primitive rfl kind) extended⟩
          | wildcard _ _ wild =>
              have kept : Yields (pure id) t fun id' t' =>
                  t.Extends t' ∧ Expands t' .empty id' .wildcard :=
                .pure ⟨.refl t, .extends (.wildcard rfl inside wild) extended⟩
              split <;> simp_all [TypeTable.isWildcard, TypeTable.flag, TypeKind.flag, TypeFlag.isWildcard]
          | @object _ _ o properties _ kind distinct length names parts =>
              rw [kind]
              have fields := fields_of_zip length names parts
              refine yields_copy_object extended kind distinct fields fun p member t' later => ?_
              obtain ⟨pair, listed, rfl⟩ := List.mem_map.mp member
              obtain ⟨q, tree, -, -, inner⟩ := forall₂_left fields pair listed
              exact descend _ q.2.2 t' later inner (Tree.sizeOf_property tree)
          | @function _ _ f parameters result _ kind plain length optional parts returns =>
              rw [kind]
              have slots := slots_of_zip length optional parts
              refine yields_copy_function extended kind plain slots returns
                (fun p member t' later => ?_) fun t' later =>
                  descend _ result t' later returns (Tree.sizeOf_result parameters result)
              obtain ⟨q, tree, -, inner⟩ := forall₂_left slots p member
              exact descend _ q.2 t' later inner (Tree.sizeOf_parameter tree)
          | @expansion _ _ i g arguments inner _ kind origin within ready arity length parts body whole =>
              rw [kind]
              have pairs : List.Forall₂ (Expands t₀ env) i.bindings.values arguments :=
                List.forall₂_iff_zip.mpr ⟨length, fun {a t} member => parts a t member⟩
              refine yields_copy_arguments extended kind origin within ready arity pairs body whole
                fun a member t' later => ?_
              obtain ⟨tree, listed, inner⟩ := forall₂_left pairs a member
              exact descend a tree t' later inner (Tree.sizeOf_argument listed)

/-- Substitution makes a type with the tree that the pattern has under the environment. -/
theorem yields_substitute_copy {id : TypeId} {tree : Tree} (represents : Represents t bindings env)
    (expands : Expands t env id tree) :
    Yields (substitute id bindings) t fun id' t' => t.Extends t' ∧ Expands t' .empty id' tree := by
  rw [substitute]
  split
  · next nothing =>
      have same : env = .empty := by
        funext p
        refine represents.free ?_
        simp only [Dictionary.isEmpty, List.isEmpty_iff] at nothing
        simp [Dictionary.find?, nothing, Dictionary.findIn?]
      exact .pure ⟨.refl t, same ▸ expands⟩
  · have read : Yields (get : TableM TypeTable) t fun u t' => u = t ∧ t' = t := ⟨rfl, rfl⟩
    refine read.bind ?_
    rintro _ _ ⟨rfl, rfl⟩
    exact yields_copy _ represents expands (.refl _) List.nodup_nil (by simp) (by simp)

theorem represents_supply {g : GenericType} {values : List TypeId} {arguments : List Tree}
    (parts : List.Forall₂ (Expands t .empty) values arguments) :
    Represents t (.ofList (g.typeParameters.zip values)) (.supply g arguments) :=
  rel_find?_zip g.typeParameters parts

end Copies

namespace TypeTable

variable {t t' : TypeTable}

/-- The body of these instances has this tree. -/
def BodyTree (t : TypeTable) (key : TypeId × List TypeId) (tree : Tree) : Prop :=
  ∃ g arguments, t.kind key.1 = .generic g ∧ t.kind g.body ≠ .pending ∧
    List.Forall₂ (Expands t .empty) key.2 arguments ∧
    Expands t (.supply g arguments) g.body tree ∧ tree.isInstance = false

/-- What is remembered for an instantiated type has the tree of its body. -/
def Faithful (t : TypeTable) : Prop :=
  ∀ key body, t.resolved.find? key = some body → ∀ tree, t.BodyTree key tree →
    Expands t .empty body tree

theorem BodyTree.unique {key : TypeId × List TypeId} {tree tree' : Tree}
    (first : t.BodyTree key tree) (second : t.BodyTree key tree') : tree = tree' := by
  obtain ⟨g, arguments, origin, -, parts, body, -⟩ := first
  obtain ⟨g', arguments', origin', -, parts', body', -⟩ := second
  obtain rfl := TypeKind.generic.inj (origin.symm.trans origin')
  obtain ⟨length, each⟩ := List.forall₂_iff_zip.mp parts
  obtain ⟨length', each'⟩ := List.forall₂_iff_zip.mp parts'
  obtain rfl := eq_of_zip length length' fun a x y member member' =>
    (each member).unique (each' member')
  exact body.unique body'

/-- The tree of a body was the same before entries were added. -/
theorem BodyTree.restrict {key : TypeId × List TypeId} {tree : Tree} (given : t'.BodyTree key tree)
    (extended : t.Extends t') (wellFormed : t.WellFormed) (known : key.1 < t.size)
    (members : ∀ a ∈ key.2, a < t.size) : t.BodyTree key tree := by
  obtain ⟨g, arguments, origin, ready, parts, body, whole⟩ := given
  have generic : t.kind key.1 = .generic g := (extended.kind _ known).symm.trans origin
  have inside : g.body < t.size :=
    wellFormed.mentions key.1 known g.body (by simp [generic, TypeKind.mentions])
  refine ⟨g, arguments, generic, extended.kind _ inside ▸ ready, ?_,
    body.restrict extended wellFormed inside, whole⟩
  obtain ⟨length, each⟩ := List.forall₂_iff_zip.mp parts
  refine List.forall₂_iff_zip.mpr ⟨length, fun {a tree} member => ?_⟩
  exact (each member).restrict extended wellFormed (members a (List.of_mem_zip member).1)

theorem Faithful.extends (faithful : t.Faithful) (wellFormed : t.WellFormed)
    (extended : t.Extends t') (same : t'.resolved = t.resolved) : t'.Faithful := by
  intro key body found tree given
  rw [same] at found
  obtain ⟨known, members, -⟩ := wellFormed.remembered key body found
  have before := given.restrict extended wellFormed known members
  exact (faithful key body found tree before).extends extended

/-- How a table grows when types with trees are compared. -/
structure Steady (t t' : TypeTable) : Prop where
  extended : t.Extends t'
  wellFormed : t.WellFormed → t'.WellFormed
  faithful : t.WellFormed → t.Faithful → t'.Faithful

theorem steady_growth : Growth Steady where
  refl t := ⟨.refl t, id, fun _ => id⟩
  trans one two := ⟨one.extended.trans two.extended, two.wellFormed ∘ one.wellFormed,
    fun wellFormed faithful =>
      two.faithful (one.wellFormed wellFormed) (one.faithful wellFormed faithful)⟩

/-- The tree of a body does not depend on what is remembered. -/
theorem BodyTree.of_entries {key : TypeId × List TypeId} {tree : Tree} (given : t.BodyTree key tree)
    (same : t'.entries = t.entries) : t'.BodyTree key tree := by
  have extended : t.Extends t' :=
    ⟨by simp [size, same], fun id _ => by simp [kind, same]⟩
  have equal (id : TypeId) : t'.kind id = t.kind id := by simp [kind, same]
  obtain ⟨g, arguments, origin, ready, parts, body, whole⟩ := given
  exact ⟨g, arguments, (equal _).trans origin, equal _ ▸ ready,
    parts.imp fun _ _ part => part.extends extended, body.extends extended, whole⟩

/-- A remembered body keeps the table faithful if it has the tree of the body. -/
theorem Faithful.remember {key : TypeId × List TypeId} {body : TypeId} (faithful : t.Faithful)
    (true' : ∀ tree, t.BodyTree key tree → Expands t .empty body tree) :
    Faithful { t with resolved := t.resolved.insert key body } := by
  have forth : t.Extends { t with resolved := t.resolved.insert key body } :=
    ⟨Nat.le_refl _, fun _ _ => rfl⟩
  intro other body' found tree given
  have before : t.BodyTree other tree := given.of_entries rfl
  rw [Dictionary.find?_insert] at found
  refine Expands.extends ?_ forth
  split at found
  · next same =>
      obtain rfl := Option.some.inj found
      subst same
      exact true' tree before
  · exact faithful other body' found tree before

open TableM in
/-- Resolving a type gives a type with the tree of its body. -/
theorem yields_body {id : TypeId} {tree : Tree} (wellFormed : t.WellFormed) (faithful : t.Faithful)
    (expands : Expands t .empty id tree) :
    Yields (resolve id) t fun body t' => Steady t t' ∧ Expands t' .empty body tree.body := by
  have read : Yields (get : TableM TypeTable) t fun u t' => u = t ∧ t' = t := ⟨rfl, rfl⟩
  refine read.bind ?_
  rintro _ _ ⟨rfl, rfl⟩
  rename_i t
  have itself : tree.body = tree → Yields (pure id) t fun body t' =>
      Steady t t' ∧ Expands t' .empty body tree.body := by
    intro same
    rw [same]
    exact .pure ⟨steady_growth.refl t, expands⟩
  cases expands with
  | bound found => cases found
  | primitive _ kind =>
      rw [kind]
      exact itself rfl
  | wildcard _ _ wild =>
      split
      · next i kind =>
          simp [isWildcard, flag, kind, TypeKind.flag, TypeFlag.isWildcard] at wild
      · exact itself rfl
  | object _ kind =>
      rw [kind]
      exact itself rfl
  | function _ kind =>
      rw [kind]
      exact itself rfl
  | @expansion _ _ i g arguments inner _ kind origin within ready arity length parts body whole =>
      have pairs : List.Forall₂ (Expands t .empty) i.bindings.values arguments :=
        List.forall₂_iff_zip.mpr ⟨length, fun {a s} member => parts a s member⟩
      have bodyTree : t.BodyTree (instantiationKey i) inner :=
        ⟨g, arguments, origin, ready, pairs, body, whole⟩
      rw [kind, show (Tree.expanded arguments inner).body = inner from
        Tree.body_of_not_isInstance whole]
      dsimp only
      split
      · next found => exact .pure ⟨steady_growth.refl t, faithful _ _ found inner bodyTree⟩
      · rw [origin]
        dsimp only
        rw [if_neg ready]
        have known : id < t.size := lt_size_of_kind kind (by simp)
        have known' : i.origin < t.size := lt_size_of_kind origin (by simp)
        have members : ∀ a ∈ i.bindings.values, a < t.size := fun a member =>
          wellFormed.mentions id known a (by simp [kind, TypeKind.mentions, member])
        have supplied : ∀ b ∈ (Dictionary.ofList (g.typeParameters.zip i.bindings.values)).values,
            t.Held (fun _ => True) b := by
          intro b member
          obtain ⟨pair, listed, rfl⟩ := List.mem_map.mp (Dictionary.mem_values_ofList member)
          exact ⟨members pair.2 (List.of_mem_zip listed).2, trivial⟩
        have appended := yields_substitute wellFormed.sound ⟨within, trivial⟩ supplied
        have copy := yields_substitute_copy (represents_supply pairs) body
        refine (appended.and copy).bind fun b u both => ?_
        obtain ⟨⟨appended, held⟩, later, made⟩ := both
        refine ⟨⟨⟨later.size, later.kind⟩, fun _ => ?_, fun _ _ => ?_⟩,
          made.extends ⟨Nat.le_refl _, fun _ _ => rfl⟩⟩
        · exact (@sound_remember false _ u (instantiationKey i) b (appended.sound wellFormed.sound)
            (Nat.lt_of_lt_of_le known' later.size)
            (fun a member => Nat.lt_of_lt_of_le (members a member) later.size) held).toWellFormed
        · refine (faithful.extends wellFormed later appended.resolved).remember fun tree given => ?_
          rw [(given.restrict later wellFormed known' members).unique bodyTree]
          exact made

end TypeTable

end StructuralTyping
