import StructuralTyping.Checker.State

/-! Checking that a value may flow into a place of known type. Object literals are
fresh, and problems in them are reported at the property that causes them: at the
property itself, inside a nested literal, or as a property that is missing. -/
namespace StructuralTyping

open CheckM

/-- The location of the first property with the name. -/
def propertyLocation (properties : List PropertyAssignment) (name : Option String)
    (otherwise : Location) : Location :=
  ((properties.find? fun p => some p.name == name).map fun p => p.location).getD otherwise

/-- Report the required properties of the target that the source does not have.
The answer is whether there are none. -/
def reportMissing (location : Location) (source target : TypeId) (s : ObjectType) :
    List (String × Property) → CheckM Bool
  | [] => return true
  | (name, expected) :: rest => do
      let given :=
        match s.property? name with
        | some p => !p.optional || expected.optional
        | none => false
      if !expected.optional && !given then
        error location .propertyMissing [name, ← display source, ← display target]
        let _ ← reportMissing location source target s rest
        return false
      else reportMissing location source target s rest

/-- Look for problems inside a literal whose types are known. The walk examines
its properties; with `nestedOnly` nothing but nested literals is examined. The
answer is whether nothing was reported. -/
def elaborateWith (walk : ObjectType → ObjectType → CheckM Bool) (location : Location)
    (source target : TypeId) (nestedOnly : Bool) : CheckM Bool := do
  let s ← CheckM.resolve source
  let t ← CheckM.resolve target
  let table ← table
  match table.asObject? s, table.asObject? t with
  | some given, some expected => do
      let clean ← walk given expected
      if nestedOnly then return clean
      else do
        let complete ← reportMissing location source target given expected.properties.pairs
        return clean && complete
  | _, _ => return true

mutual

/-- Check a literal of type `source` against a target. The answer is whether
nothing was reported. -/
def checkLiteralAssignment (source target : TypeId) (head : Message) :
    ObjectLiteral → CheckM Bool
  | ⟨properties, location⟩ => do
      match ← CheckM.assignable source target true with
      | .ok () =>
          elaborateWith (fun s t => elaborateProperties true s t properties) location source target
            true
      | .error (.excessProperty names s t) => do
          reportMismatch (.excessProperty names s t)
            (propertyLocation properties names.head? location) head
          return false
      | .error mismatch => do
          if ← elaborateWith (fun s t => elaborateProperties false s t properties) location source
              target false then
            reportMismatch mismatch location head
          return false

/-- Examine the properties that both sides have. -/
def elaborateProperties (nestedOnly : Bool) (s t : ObjectType) :
    List PropertyAssignment → CheckM Bool
  | [] => return true
  | ⟨name, initializer, location⟩ :: rest => do
      let clean ←
        match s.property? name, t.property? name with
        | some given, some expected =>
            match initializer with
            | .object nested =>
                checkLiteralAssignment given.type expected.type .notAssignable nested
            | _ =>
                if nestedOnly then pure true
                else do
                  match ← CheckM.assignable given.type expected.type false with
                  | .ok () => pure true
                  | .error mismatch => do
                      reportMismatch mismatch location .notAssignable
                      pure false
        | _, _ => pure true
      let restClean ← elaborateProperties nestedOnly s t rest
      return clean && restClean

end

/-- Check that an expression of type `source` may flow into the target. The answer
is whether nothing was reported. -/
def checkAssignment (expression : Expression) (source target : TypeId) (location : Location)
    (head : Message) : CheckM Bool := do
  match expression.asObjectLiteral? with
  | some literal => checkLiteralAssignment source target head literal
  | none => do
      match ← CheckM.assignable source target false with
      | .ok () => return true
      | .error mismatch => do
          reportMismatch mismatch location head
          return false

end StructuralTyping
