import Std.Data.ExtTreeSet.Lemmas
import StructuralTyping.Assignability.Mismatch
import StructuralTyping.Types.Inference

/-! Assignability. A source type is assignable to a target type when its values
may be used where the target is expected. Types relate by their structure; a pair
that is already being compared is assumed related, which ends the comparison of
types that mention themselves. Only a fresh object literal is refused for having
properties that the target does not declare. -/
namespace StructuralTyping

/-- The answer to one question, with the reason for a no. -/
abbrev Verdict := Except Mismatch Unit

namespace Assignability

/-- Comparisons below this many expanded instantiations are assumed related; a
generic interface that mentions larger instances of itself yields a new pair of
bodies at every level. -/
def expansionLimit : Nat := 5

/-- Pairs of types are ordered by their sources, then by their targets. -/
def comparePairs (p q : TypeId × TypeId) : Ordering :=
  (compare p.1 q.1).then (compare p.2 q.2)

theorem comparePairs_eq_compareLex :
    comparePairs = compareLex (compareOn Prod.fst) (compareOn Prod.snd) := rfl

instance : Std.TransCmp comparePairs := by
  rw [comparePairs_eq_compareLex]
  infer_instance

instance : Std.LawfulEqCmp comparePairs where
  compare_self := by simp [comparePairs]
  eq_of_compare {p q} equal := by
    have parts : p.1 = q.1 ∧ p.2 = q.2 := by
      simpa [comparePairs, Ordering.then_eq_eq] using equal
    exact Prod.ext parts.1 parts.2

/-- The pairs whose comparison has begun and not ended. -/
abbrev PairSet := Std.ExtTreeSet (TypeId × TypeId) comparePairs

/-- The state of one series of questions to a table. -/
structure Session where
  table : TypeTable
  inProgress : PairSet
  expansionDepth : Nat

namespace Session

def ofTable (table : TypeTable) : Session := ⟨table, ∅, 0⟩

instance : Inhabited Session := ⟨ofTable default⟩

end Session

/-- A comparison has no result when its fuel runs out. -/
abbrev RelationM := StateT Session Option

namespace RelationM

def onTable {α : Type} (action : TableM α) : RelationM α :=
  modifyGet fun ⟨table, inProgress, depth⟩ =>
    let (result, table) := action.run table
    (result, ⟨table, inProgress, depth⟩)

def enter (s t : TypeId) (expanded : Bool) : RelationM Unit :=
  modify fun ⟨table, inProgress, depth⟩ =>
    ⟨table, inProgress.insert (s, t), depth + (if expanded then 1 else 0)⟩

def leave (s t : TypeId) (expanded : Bool) : RelationM Unit :=
  modify fun ⟨table, inProgress, depth⟩ =>
    ⟨table, inProgress.erase (s, t), depth - (if expanded then 1 else 0)⟩

end RelationM

/-- The comparison of two types, on which the comparison of their structure is
built. -/
abbrev Related := TypeId → TypeId → RelationM Verdict

def holds (related : Related) (source target : TypeId) : RelationM Bool := do
  match ← related source target with
  | .ok () => return true
  | .error _ => return false

/-- A parameter may stand in a place where the direction is reversed, so in
strict mode arguments must relate both ways. -/
def argumentsRelated (strict : Bool) (related : Related) :
    List (TypeId × TypeId) → RelationM Bool
  | [] => return true
  | (a, b) :: rest => do
      if ← holds related a b then
        if strict then
          if ← holds related b a then argumentsRelated strict related rest else return false
        else argumentsRelated strict related rest
      else return false

/-- Two instances of one generic interface relate without being expanded when
their arguments do. -/
def instancesRelated (strict : Bool) (related : Related) (source target : TypeId) :
    RelationM Bool := do
  let table := (← get).table
  match table.kind source, table.kind target with
  | .instantiated s, .instantiated t =>
      if s.origin = t.origin then
        argumentsRelated strict related (s.bindings.values.zip t.bindings.values)
      else return false
  | _, _ => return false

/-- Every property of the target must be there, unless it is optional, and must
not be optional where the target requires it. -/
def objectRelated (related : Related) (source target : TypeId) (s : ObjectType) :
    List (String × Property) → RelationM Verdict
  | [] => return .ok ()
  | (name, expected) :: rest =>
      match s.property? name with
      | none =>
          if expected.optional then objectRelated related source target s rest
          else return .error (.missingProperty name source target)
      | some given =>
          if !given.optional || expected.optional then do
            match ← related given.type expected.type with
            | .ok () => objectRelated related source target s rest
            | .error cause => return .error (.property name source target cause)
          else return .error (.missingProperty name source target)

/-- Parameters are compared in reverse, or in either direction if not strict. -/
def parameterRelated (strict : Bool) (related : Related) (source target : TypeId) :
    RelationM Verdict := do
  match ← related target source with
  | .ok () => return .ok ()
  | .error reversed =>
      if strict then return .error reversed
      else
        match ← related source target with
        | .ok () => return .ok ()
        | .error _ => return .error reversed

def parametersRelated (strict : Bool) (related : Related) (source target : TypeId) (index : Nat) :
    List (Parameter × Parameter) → RelationM Verdict
  | [] => return .ok ()
  | (s, t) :: rest => do
      match ← parameterRelated strict related s.type t.type with
      | .ok () => parametersRelated strict related source target (index + 1) rest
      | .error cause => return .error (.parameter index source target cause)

/-- Match parameter types up to the first conflict. -/
def inferParameters (inference : Inference) : List (Parameter × Parameter) → TableM Inference
  | [] => return inference
  | (s, t) :: rest => do
      let (outcome, inference) ← inference.infer s.type t.type
      match outcome with
      | .ok () => inferParameters inference rest
      | .error _ => return inference

/-- A generic source is instantiated by matching its parameters against those of
the target. -/
def instantiateAgainst (s t : FunctionType) : TableM FunctionType := do
  let inference ←
    inferParameters (.ofTypeParameters s.typeParameters) (s.parameters.zip t.parameters)
  let signature ← inference.finish.apply s
  return {
    typeParameters := []
    parameters := (s.parameters.zip signature.parameters).map fun (p, type) =>
      { p with type := type }
    returnType := signature.returnType }

/-- A function may ignore arguments but must not miss one; any result will do
where the target returns nothing. -/
def signatureRelated (strict : Bool) (related : Related) (source target : TypeId)
    (s t : FunctionType) : RelationM Verdict := do
  if t.parameters.length < s.minArgumentCount then
    return .error (.tooFewArguments source target s.minArgumentCount t.parameters.length)
  else
    match ← parametersRelated strict related source target 0 (s.parameters.zip t.parameters) with
    | .error mismatch => return .error mismatch
    | .ok () => do
        if (← get).table.isPrimitive t.returnType .void then return .ok ()
        else
          match ← related s.returnType t.returnType with
          | .ok () => return .ok ()
          | .error cause => return .error (.returnType source target cause)

def functionRelated (strict : Bool) (related : Related) (source target : TypeId)
    (s t : FunctionType) : RelationM Verdict := do
  let s ← if s.isGeneric then RelationM.onTable (instantiateAgainst s t) else pure s
  signatureRelated strict related source target s t

/-- Compare the bodies `s` and `t` of the types named `source` and `target`. -/
def structureRelated (strict : Bool) (related : Related) (source target s t : TypeId) :
    RelationM Verdict := do
  let table := (← get).table
  let incompatible : Verdict := .error (.incompatible source target)
  match table.kind s, table.kind t with
  | .primitive a, .primitive b => return if a = b then .ok () else incompatible
  | .typeParameter _ constraint, _ =>
      match constraint with
      | none => return incompatible
      | some bound => do
          match ← related bound target with
          | .ok () => return .ok ()
          | .error _ => return incompatible
  | .object given, .object expected =>
      objectRelated related source target given expected.properties.pairs
  | .function given, .function expected =>
      functionRelated strict related source target given expected
  | _, _ => return incompatible

/-- Compare two different bodies that are not in progress. -/
def expandRelated (strict : Bool) (related : Related) (source target s t : TypeId) :
    RelationM Verdict := do
  let expanded := s != source || t != target
  if expanded && expansionLimit ≤ (← get).expansionDepth then return .ok ()
  else
    RelationM.enter s t expanded
    let verdict ← structureRelated strict related source target s t
    RelationM.leave s t expanded
    return verdict

/-- Compare what two types stand for, assuming the pairs in progress. -/
def bodiesRelated (strict : Bool) (related : Related) (source target : TypeId) :
    RelationM Verdict := do
  let s ← RelationM.onTable (resolve source)
  let t ← RelationM.onTable (resolve target)
  let session ← get
  if s = t then return .ok ()
  else if session.table.isWildcard s || session.table.isWildcard t then return .ok ()
  else if (s, t) ∈ session.inProgress then return .ok ()
  else expandRelated strict related source target s t

/-- The relation on two types. -/
def relatedWithin (strict : Bool) : Nat → Related
  | 0, _, _ => StateT.lift none
  | fuel + 1, source, target => do
      let related := relatedWithin strict fuel
      if source = target then return .ok ()
      else if ← instancesRelated strict related source target then return .ok ()
      else bodiesRelated strict related source target

/-- Properties of the source that the target does not declare. A target without
properties accepts any. -/
def excessProperties (source target : TypeId) : TableM (List String) := do
  let s ← resolve source
  let t ← resolve target
  let table ← get
  match table.asObject? s, table.asObject? t with
  | some given, some expected =>
      if expected.properties.isEmpty then return []
      else return given.properties.keys.filter fun name => !expected.properties.contains name
  | _, _ => return []

/-- Whether the source may be used where the target is expected; a fresh source
comes directly from an object literal. -/
def assignableWithin (strict : Bool) (fuel : Nat) (source target : TypeId) (fresh : Bool) :
    RelationM Verdict := do
  let excess ← if fresh then RelationM.onTable (excessProperties source target) else pure []
  if excess.isEmpty then relatedWithin strict fuel source target
  else return .error (.excessProperty excess source target)

/-- A fuel that ordinary comparisons do not use up. -/
def searchDepth (table : TypeTable) : Nat := Nat.pow (table.size + 2) 16

/-- The answer under one fuel, or else the next fuel to try. -/
def attempt {α : Type} (answer : Nat → Option α) (fuel : Nat) : Id (Nat ⊕ α) :=
  match answer fuel with
  | some found => pure (.inr found)
  | none => pure (.inl (fuel + 1))

/-- The answer under the least fuel from `fuel` on that suffices. The search goes on
for ever where there is none. -/
def firstAnswer {α : Type} [Nonempty α] (answer : Nat → Option α) (fuel : Nat) : α :=
  (repeatM (attempt answer) fuel).run

/-- What a search comes to: the answer under some fuel. A search that goes on for ever
counts as having come to `otherwise`. -/
abbrev Found {α : Type} (answer : Nat → Option α) (otherwise : α) : Type :=
  { a : α // (∃ fuel, answer fuel = some a) ∨ ((∀ fuel, answer fuel = none) ∧ a = otherwise) }

instance {α : Type} (answer : Nat → Option α) (otherwise : α) :
    Nonempty (Found answer otherwise) := by
  by_cases ends : ∃ fuel a, answer fuel = some a
  · obtain ⟨fuel, a, found⟩ := ends
    exact ⟨⟨a, .inl ⟨fuel, found⟩⟩⟩
  · refine ⟨⟨otherwise, .inr ⟨fun fuel => ?_, rfl⟩⟩⟩
    exact Option.eq_none_iff_forall_ne_some.mpr fun a found => ends ⟨fuel, a, found⟩

/-- The answer together with the fuel that gives it. -/
def certify {α : Type} (answer : Nat → Option α) (otherwise : α) (fuel : Nat) :
    Option (Found answer otherwise) :=
  match found : answer fuel with
  | some a => some ⟨a, .inl ⟨fuel, found⟩⟩
  | none => none

end Assignability

/-- Ask one question of a table. Nothing comes of a comparison that does not end; in a
statement about runs it counts as a yes that leaves the table as it is. -/
def assignable (strict : Bool) (source target : TypeId) (fresh : Bool) : TableM Verdict :=
  modifyGet fun table =>
    let found := Assignability.firstAnswer
      (Assignability.certify
        (fun fuel =>
          (Assignability.assignableWithin strict fuel source target fresh).run (.ofTable table))
        (.ok (), .ofTable table))
      (Assignability.searchDepth table)
    (found.val.1, found.val.2.table)

end StructuralTyping
