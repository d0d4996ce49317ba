import StructuralTyping.Types.Basic

/-! Finite types written out as trees, and the plain structural rules on them. What
stands for an instantiated type keeps the type arguments beside the body, so that a
tree also says where something was expanded; the rules look at the body alone. The
comparison of types stops below a number of nested expansions and takes everything
further down to be related; that relation of trees is stated here too. -/
namespace StructuralTyping

inductive Tree where
  | primitive (name : Primitive)
  /-- Assignable to and from everything. -/
  | wildcard
  | object (properties : List (String × Bool × Tree))
  | function (parameters : List (Bool × Tree)) (result : Tree)
  /-- The body of an instantiated type. -/
  | expanded (arguments : List Tree) (inner : Tree)

namespace Tree

variable {strict : Bool} {limit : Nat} {s t : Tree}

def isInstance : Tree → Bool
  | expanded _ _ => true
  | _ => false

/-- The tree without the marks at its root. -/
def body : Tree → Tree
  | expanded _ inner => inner.body
  | tree => tree

/-- The arguments that a caller must supply: all up to the last required one. -/
def required (parameters : List (Bool × Tree)) : Nat :=
  (parameters.reverse.dropWhile fun p => p.1).length

/-- The pairs of parts that the rules look at. -/
inductive Compared (s t : Tree) : Tree → Tree → Prop
  | property {given expected : List (String × Bool × Tree)} {name : String} {p q : Bool × Tree}
      (source : s.body = object given) (aim : t.body = object expected)
      (wanted : (name, q) ∈ expected) (found : Dictionary.findIn? name given = some p) :
      Compared s t p.2 q.2
  | parameter {given expected : List (Bool × Tree)} {r r' : Tree} {p q : Bool × Tree}
      (source : s.body = function given r) (aim : t.body = function expected r')
      (paired : (p, q) ∈ given.zip expected) : Compared s t p.2 q.2
  | parameterBack {given expected : List (Bool × Tree)} {r r' : Tree} {p q : Bool × Tree}
      (source : s.body = function given r) (aim : t.body = function expected r')
      (paired : (p, q) ∈ given.zip expected) : Compared s t q.2 p.2
  | result {given expected : List (Bool × Tree)} {r r' : Tree}
      (source : s.body = function given r) (aim : t.body = function expected r') :
      Compared s t r r'

/-- One step of the structural rules over a relation: primitives by name, objects by
width and depth with optionality, functions by arity, parameters and result. -/
def Rule (strict : Bool) (R : Tree → Tree → Prop) (s t : Tree) : Prop :=
  match s.body, t.body with
  | wildcard, _ => True
  | _, wildcard => True
  | primitive a, primitive b => a = b
  | object given, object expected =>
      ∀ q ∈ expected,
        match Dictionary.findIn? q.1 given with
        | none => q.2.1 = true
        | some p => (p.1 = true → q.2.1 = true) ∧ R p.2 q.2.2
  | function given r, function expected r' =>
      required given ≤ expected.length ∧
        (∀ pair ∈ given.zip expected,
          R pair.2.2 pair.1.2 ∨ (strict = false ∧ R pair.1.2 pair.2.2)) ∧
        (r' = primitive .void ∨ R r r')
  | _, _ => False

theorem body_of_not_isInstance (whole : s.isInstance = false) : s.body = s := by
  cases s with
  | expanded => simp [isInstance] at whole
  | _ => rfl

@[simp] theorem isInstance_body : ∀ s : Tree, s.body.isInstance = false
  | expanded _ inner => isInstance_body inner
  | primitive _ | wildcard | object _ | function _ _ => rfl

section Sizes

theorem sizeOf_property {properties : List (String × Bool × Tree)} {name : String}
    {p : Bool × Tree} (member : (name, p) ∈ properties) :
    sizeOf p.2 < sizeOf (object properties) := by
  have smaller := List.sizeOf_lt_of_mem member
  obtain ⟨optional, tree⟩ := p
  simp only [object.sizeOf_spec, Prod.mk.sizeOf_spec] at smaller ⊢
  omega

theorem sizeOf_argument {arguments : List Tree} {inner a : Tree} (member : a ∈ arguments) :
    sizeOf a < sizeOf (expanded arguments inner) := by
  have smaller := List.sizeOf_lt_of_mem member
  simp only [expanded.sizeOf_spec]
  omega

theorem sizeOf_parameter {parameters : List (Bool × Tree)} {r : Tree} {p : Bool × Tree}
    (member : p ∈ parameters) : sizeOf p.2 < sizeOf (function parameters r) := by
  have smaller := List.sizeOf_lt_of_mem member
  obtain ⟨optional, tree⟩ := p
  simp only [function.sizeOf_spec, Prod.mk.sizeOf_spec] at smaller ⊢
  omega

theorem sizeOf_result (parameters : List (Bool × Tree)) (r : Tree) :
    sizeOf r < sizeOf (function parameters r) := by
  simp only [function.sizeOf_spec]
  omega

theorem sizeOf_body_le : ∀ t : Tree, sizeOf t.body ≤ sizeOf t
  | expanded arguments inner => by
      have smaller := sizeOf_body_le inner
      simp only [body, expanded.sizeOf_spec]
      omega
  | primitive _ | wildcard | object _ | function _ _ => Nat.le_refl _

theorem sizeOf_lt_of_body {a b : Tree} (same : s.body = b) (smaller : sizeOf a < sizeOf b) :
    sizeOf a < sizeOf s :=
  Nat.lt_of_lt_of_le smaller (same ▸ sizeOf_body_le s)

end Sizes

/-- The rules only look at smaller trees. -/
theorem Compared.smaller {a b : Tree} (compared : Compared s t a b) :
    sizeOf a + sizeOf b < sizeOf s + sizeOf t := by
  cases compared with
  | property source aim wanted found =>
      have listed := Dictionary.mem_of_findIn? found
      exact Nat.add_lt_add (sizeOf_lt_of_body source (sizeOf_property listed))
        (sizeOf_lt_of_body aim (sizeOf_property wanted))
  | parameter source aim paired =>
      obtain ⟨p, q⟩ := List.of_mem_zip paired
      exact Nat.add_lt_add (sizeOf_lt_of_body source (sizeOf_parameter p))
        (sizeOf_lt_of_body aim (sizeOf_parameter q))
  | parameterBack source aim paired =>
      obtain ⟨p, q⟩ := List.of_mem_zip paired
      rw [Nat.add_comm]
      exact Nat.add_lt_add (sizeOf_lt_of_body source (sizeOf_parameter p))
        (sizeOf_lt_of_body aim (sizeOf_parameter q))
  | result source aim =>
      exact Nat.add_lt_add (sizeOf_lt_of_body source (sizeOf_result _ _))
        (sizeOf_lt_of_body aim (sizeOf_result _ _))

theorem Rule.mono {R R' : Tree → Tree → Prop} (rule : Rule strict R s t)
    (within : ∀ a b, Compared s t a b → R a b → R' a b) : Rule strict R' s t := by
  unfold Rule at *
  split
  · trivial
  · trivial
  · next source aim => simpa [source, aim] using rule
  · next source aim =>
      simp only [source, aim] at rule
      intro q wanted
      have here := rule q wanted
      split
      · next absent => simpa [absent] using here
      · next p found =>
          simp only [found] at here
          exact ⟨here.1, within _ _ (.property source aim wanted found) here.2⟩
  · next source aim =>
      simp only [source, aim] at rule
      obtain ⟨arity, parameters, result⟩ := rule
      refine ⟨arity, fun pair paired => ?_, result.imp_right (within _ _ (.result source aim))⟩
      exact (parameters pair paired).imp (within _ _ (.parameterBack source aim paired))
        fun either => ⟨either.1, within _ _ (.parameter source aim paired) either.2⟩
  · simp_all

/-- The plain structural relation. -/
def Related (strict : Bool) (s t : Tree) : Prop :=
  Rule strict (fun a b => ∃ _ : sizeOf a + sizeOf b < sizeOf s + sizeOf t, Related strict a b) s t
termination_by sizeOf s + sizeOf t

theorem related_iff : Related strict s t ↔ Rule strict (Related strict) s t := by
  rw [Related]
  constructor
  · exact fun rule => rule.mono fun _ _ _ guarded => guarded.2
  · exact fun rule => rule.mono fun _ _ compared related => ⟨compared.smaller, related⟩

/-- The marks at the roots are of no account. -/
theorem rule_body (R : Tree → Tree → Prop) : Rule strict R s.body t.body ↔ Rule strict R s t := by
  rw [Rule, body_of_not_isInstance (isInstance_body s), body_of_not_isInstance (isInstance_body t)]
  rfl

theorem rule_of_wildcard {R : Tree → Tree → Prop} (wild : s.body = wildcard ∨ t.body = wildcard) :
    Rule strict R s t := by
  rw [Rule]
  rcases wild with wild | wild
  · rw [wild]
    trivial
  · rw [wild]
    cases s.body <;> trivial

section Limit

/-- The next expansion is one too many. -/
def Spent (limit : Nat) (s t : Tree) : Prop :=
  limit = 0 ∧ (s.isInstance = true ∨ t.isInstance = true)

/-- The expansions that are left for the parts. -/
def left (limit : Nat) (s t : Tree) : Nat :=
  if s.isInstance = true ∨ t.isInstance = true then limit - 1 else limit

/-- The structural relation with everything related below a number of nested
expansions. -/
def RelatedUpTo (strict : Bool) (limit : Nat) (s t : Tree) : Prop :=
  Spent limit s t ∨
    Rule strict (fun a b => ∃ _ : sizeOf a + sizeOf b < sizeOf s + sizeOf t,
      RelatedUpTo strict (left limit s t) a b) s t
termination_by sizeOf s + sizeOf t

/-- No path that the trees have in common passes more expansions than this. -/
inductive Within : Nat → Tree → Tree → Prop
  | intro {limit : Nat} {s t : Tree} (free : ¬ Spent limit s t)
      (parts : ∀ a b, Compared s t a b → Within (left limit s t) a b) : Within limit s t

theorem relatedUpTo_iff : RelatedUpTo strict limit s t ↔
    Spent limit s t ∨ Rule strict (RelatedUpTo strict (left limit s t)) s t := by
  rw [RelatedUpTo]
  refine or_congr_right ⟨fun rule => ?_, fun rule => ?_⟩
  · exact rule.mono fun _ _ _ guarded => guarded.2
  · exact rule.mono fun _ _ compared related => ⟨compared.smaller, related⟩

theorem left_le {more : Nat} (fewer : limit ≤ more) : left limit s t ≤ left more s t := by
  unfold left
  split <;> omega

/-- With fewer expansions to go more is related. -/
theorem RelatedUpTo.of_le {limit more : Nat} {s t : Tree} (related : RelatedUpTo strict more s t)
    (fewer : limit ≤ more) : RelatedUpTo strict limit s t := by
  rw [relatedUpTo_iff] at related ⊢
  rcases related with spent | rule
  · exact .inl ⟨by have := spent.1; omega, spent.2⟩
  · refine .inr (rule.mono fun a b compared here => ?_)
    have smaller := compared.smaller
    exact RelatedUpTo.of_le here (left_le fewer)
termination_by sizeOf s + sizeOf t

theorem Related.upTo {s t : Tree} (related : Related strict s t) (limit : Nat) :
    RelatedUpTo strict limit s t := by
  rw [related_iff] at related
  refine relatedUpTo_iff.mpr (.inr (related.mono fun a b compared here => ?_))
  have smaller := compared.smaller
  exact Related.upTo here _
termination_by sizeOf s + sizeOf t

/-- Within the limit nothing is cut off. -/
theorem Within.relatedUpTo_iff_related (within : Within limit s t) :
    RelatedUpTo strict limit s t ↔ Related strict s t := by
  refine ⟨fun related => ?_, fun related => related.upTo limit⟩
  induction within with
  | intro free parts ih =>
      have rule := (relatedUpTo_iff.mp related).resolve_left free
      exact related_iff.mpr (rule.mono fun a b compared => ih a b compared)

theorem Within.of_le {limit more : Nat} (within : Within limit s t) (fewer : limit ≤ more) :
    Within more s t := by
  induction within generalizing more with
  | intro free parts ih =>
      refine .intro (fun spent => free ⟨?_, spent.2⟩) fun a b compared => ?_
      · have nothing := spent.1
        omega
      · exact ih a b compared (left_le fewer)

end Limit

section Boxes

/-- The tree of `Box<T> { value: T }`. -/
def box (s : Tree) : Tree := .expanded [s] (.object [("value", false, s)])

/-- A box in a box and so on, around a tree. -/
def boxed : Nat → Tree → Tree
  | 0, s => s
  | n + 1, s => box (boxed n s)

theorem rule_box (R : Tree → Tree → Prop) : Rule strict R (box s) (box t) ↔ R s t := by
  simp [Rule, box, body, Dictionary.findIn?]

theorem related_boxed (n : Nat) : Related strict (boxed n s) (boxed n t) ↔ Related strict s t := by
  induction n with
  | zero => rfl
  | succ n ih => rw [related_iff, boxed, boxed, rule_box, ih]

/-- The boxes beyond the limit are all related, those before it as what they hold. -/
theorem relatedUpTo_boxed (n : Nat) : RelatedUpTo strict limit (boxed n s) (boxed n t) ↔
    limit < n ∨ RelatedUpTo strict (limit - n) s t := by
  induction n generalizing limit with
  | zero => simp [boxed]
  | succ n ih =>
      have inside : left limit (boxed (n + 1) s) (boxed (n + 1) t) = limit - 1 := rfl
      have spent : Spent limit (boxed (n + 1) s) (boxed (n + 1) t) ↔ limit = 0 := by
        simp [Spent, boxed, box, isInstance]
      rw [relatedUpTo_iff, inside, spent, boxed, boxed, rule_box, ih, ← or_assoc, Nat.sub_sub,
        Nat.add_comm 1 n]
      refine or_congr_left ?_
      omega

end Boxes

end Tree

end StructuralTyping
