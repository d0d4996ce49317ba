import StructuralTyping.Types.Equality
import StructuralTyping.Types.Substitution

/-! Instantiating generic signatures. Type arguments are written explicitly or
inferred by matching the declared type of each parameter, the pattern, against
the type of the argument. A parameter that is inferred at several places must get
structurally equal candidates. -/
namespace StructuralTyping

inductive InferenceError where
  | notAFunction (id : TypeId)
  | typeArgumentCount (expected found : Nat)
  | inconsistent (parameter first second : TypeId)
deriving DecidableEq, Repr

namespace InferenceError

def message : InferenceError → String
  | notAFunction id => "type " ++ ConstructionError.showId id ++ " is not a function"
  | typeArgumentCount expected found =>
      "expected " ++ toString expected ++ " type arguments, but got " ++ toString found
  | inconsistent parameter first second =>
      "conflicting inferences for type parameter " ++ ConstructionError.showId parameter ++ ": " ++
        ConstructionError.showId first ++ " and " ++ ConstructionError.showId second

end InferenceError

/-- The state of one inference: what to find, what has been found, and the pairs
of pattern and actual type that are being matched. -/
structure Inference where
  typeParameters : List TypeId
  bindings : Bindings
  visiting : List (TypeId × TypeId)
deriving DecidableEq, Repr

/-- The bindings chosen for one application of a generic signature, and the
parameters that had no candidate, in the order of their declaration. -/
structure Instantiation where
  bindings : Bindings
  unresolved : List TypeId
deriving DecidableEq, Repr

/-- A signature with its type parameters replaced. -/
structure InstantiatedSignature where
  bindings : Bindings
  parameters : List TypeId
  returnType : TypeId
  unresolved : List TypeId
deriving DecidableEq, Repr

namespace Inference

/-- Matching gives up below this many nested pairs; a generic interface that
mentions larger instances of itself would otherwise never bottom out. -/
def depthLimit : Nat := 64

def ofTypeParameters (typeParameters : List TypeId) : Inference := ⟨typeParameters, .empty, []⟩

/-- Matching works on a table and an inference, and keeps what it found up to a
conflict. -/
abbrev MatchM := ExceptT InferenceError (StateM (TypeTable × Inference))

namespace MatchM

def onTable {α : Type} (action : TableM α) : MatchM α :=
  modifyGet fun (table, inference) =>
    let (result, table) := action.run table
    (result, (table, inference))

def table : MatchM TypeTable := return (← get).1

def inference : MatchM Inference := return (← get).2

def bind (parameter actual : TypeId) : MatchM Unit :=
  modify fun (table, inference) =>
    (table, { inference with bindings := inference.bindings.insert parameter actual })

def enter (pattern actual : TypeId) : MatchM Unit :=
  modify fun (table, inference) =>
    (table, { inference with visiting := (pattern, actual) :: inference.visiting })

/-- Run an action inside a pair, which is left again also after a conflict. -/
def within (pattern actual : TypeId) (action : MatchM Unit) : MatchM Unit := do
  enter pattern actual
  ExceptT.mk do
    let outcome ← action.run
    modify fun (table, inference) =>
      (table, { inference with visiting := inference.visiting.tail })
    return outcome

end MatchM

/-- Match pairs one after another up to the first conflict. -/
def matchAll (matchPair : TypeId → TypeId → MatchM Unit) : List (TypeId × TypeId) → MatchM Unit
  | [] => return ()
  | (pattern, actual) :: rest => do
      matchPair pattern actual
      matchAll matchPair rest

/-- Match a candidate for a type parameter. -/
def matchParameter (parameter actual : TypeId) : MatchM Unit := do
  match (← MatchM.inference).bindings.find? parameter with
  | none => MatchM.bind parameter actual
  | some first =>
      if (← MatchM.table).equals first actual then return ()
      else throw (.inconsistent parameter first actual)

/-- Match the parts of two types of the same shape. Properties and parameters
correspond by name and by position. -/
def matchStructure (matchPair : TypeId → TypeId → MatchM Unit) (pattern actual : TypeId) :
    MatchM Unit := do
  let table ← MatchM.table
  let byBody : MatchM Unit := do
    let patternBody ← MatchM.onTable (resolve pattern)
    let actualBody ← MatchM.onTable (resolve actual)
    if patternBody = pattern ∧ actualBody = actual then return ()
    else matchPair patternBody actualBody
  match table.kind pattern, table.kind actual with
  | .function p, .function a => do
      matchAll matchPair
        ((p.parameters.zip a.parameters).map fun (x, y) => (x.type, y.type))
      matchPair p.returnType a.returnType
  | .instantiated p, .instantiated a =>
      if p.origin = a.origin then matchAll matchPair (p.bindings.values.zip a.bindings.values)
      else byBody
  | .instantiated _, _ => byBody
  | _, .instantiated _ => byBody
  | .object p, .object a =>
      matchAll matchPair (p.properties.pairs.filterMap fun (name, x) =>
        (a.property? name).map fun y => (x.type, y.type))
  | _, _ => return ()

/-- Match a pattern against an actual type. A wildcard says nothing about any
parameter. -/
def matchWithin : Nat → TypeId → TypeId → MatchM Unit
  | 0, _, _ => return ()
  | fuel + 1, pattern, actual => do
      if (← MatchM.table).isWildcard actual then return ()
      let inference ← MatchM.inference
      if pattern ∈ inference.typeParameters then matchParameter pattern actual
      else if pattern = actual ∨ (pattern, actual) ∈ inference.visiting then return ()
      else if depthLimit ≤ inference.visiting.length then return ()
      else MatchM.within pattern actual (matchStructure (matchWithin fuel) pattern actual)

theorem matchWithin_succ (fuel : Nat) (pattern actual : TypeId) :
    matchWithin (fuel + 1) pattern actual = (do
      if (← MatchM.table).isWildcard actual then return ()
      let inference ← MatchM.inference
      if pattern ∈ inference.typeParameters then matchParameter pattern actual
      else if pattern = actual ∨ (pattern, actual) ∈ inference.visiting then return ()
      else if depthLimit ≤ inference.visiting.length then return ()
      else MatchM.within pattern actual (matchStructure (matchWithin fuel) pattern actual)) :=
  rfl

/-- Match one pattern. The inference goes on from what it holds, after a conflict
too. -/
def infer (i : Inference) (pattern actual : TypeId) :
    TableM (Except InferenceError Unit × Inference) := do
  let table ← get
  let (outcome, table, inference) := (matchWithin (depthLimit + 1) pattern actual).run.run (table, i)
  set table
  return (outcome, inference)

/-- The pattern with what has been inferred so far, `unknown` for the rest. -/
def contextualType (i : Inference) (pattern : TypeId) : TableM TypeId :=
  substitute pattern
    (i.typeParameters.foldl
      (fun bindings p => if bindings.contains p then bindings else bindings.insert p TypeId.unknown)
      i.bindings)

/-- Close the inference: a parameter without a candidate becomes `unknown`. -/
def finish (i : Inference) : Instantiation :=
  i.typeParameters.foldl
    (fun result p =>
      if result.bindings.contains p then result
      else ⟨result.bindings.insert p TypeId.unknown, result.unresolved ++ [p]⟩)
    ⟨i.bindings, []⟩

end Inference

namespace Instantiation

/-- Bind the parameters to explicit arguments, in order. -/
def explicit (typeParameters arguments : List TypeId) : Instantiation :=
  ⟨.ofList (typeParameters.zip arguments), []⟩

def apply (i : Instantiation) (signature : FunctionType) : TableM InstantiatedSignature := do
  let parameters ← signature.parameters.mapM fun p => substitute p.type i.bindings
  let returnType ← substitute signature.returnType i.bindings
  return ⟨i.bindings, parameters, returnType, i.unresolved⟩

end Instantiation

namespace Inference

/-- Match the parameters of a signature against argument types up to the first
conflict. -/
def inferAll (i : Inference) : List (TypeId × TypeId) → TableM (Except InferenceError Unit × Inference)
  | [] => return (.ok (), i)
  | (pattern, actual) :: rest => do
      let (outcome, i) ← i.infer pattern actual
      match outcome with
      | .ok () => inferAll i rest
      | .error e => return (.error e, i)

end Inference

/-- Instantiate a generic function for one call, from explicit type arguments or
by inference from the argument types. -/
def instantiate (id : TypeId) (argumentTypes : List TypeId) (explicit : Option (List TypeId)) :
    TableM (Except InferenceError InstantiatedSignature) := do
  match (← get).asFunction? id with
  | none => return .error (.notAFunction id)
  | some signature =>
      match explicit with
      | some arguments =>
          if arguments.length ≠ signature.typeParameters.length then
            return .error (.typeArgumentCount signature.typeParameters.length arguments.length)
          else
            return .ok (← (Instantiation.explicit signature.typeParameters arguments).apply signature)
      | none =>
          let sites := (signature.parameters.map fun p => p.type).zip argumentTypes
          let (outcome, inference) ←
            (Inference.ofTypeParameters signature.typeParameters).inferAll sites
          match outcome with
          | .error e => return .error e
          | .ok () => return .ok (← inference.finish.apply signature)

end StructuralTyping
