import StructuralTyping.Types.Basic

/-! Replacing type parameters by the types bound to them. A part that mentions no
bound parameter is kept as it is; everything around a replaced part becomes a new
entry. Resolving an instantiated type is replacing the parameters of its origin
in the origin's body; the result is remembered. -/
namespace StructuralTyping

namespace Substitution

/-- A type that is met again on the way down to it is left alone. The fuel ends
the descent; a way down meets every entry of the table at most once. -/
def applyWithin (bindings : Bindings) : Nat → List TypeId → TypeId → TableM TypeId
  | 0, _, id => return id
  | fuel + 1, visiting, id =>
      match bindings.find? id with
      | some bound => return bound
      | none => do
          if id ∈ visiting then return id
          let descend := applyWithin bindings fuel (id :: visiting)
          match ← TableM.kind id with
          | .object o => do
              let properties ← o.properties.mapValuesM fun p => do
                return { p with type := ← descend p.type }
              if properties = o.properties then return id
              else TableM.add (.object ⟨none, properties⟩)
          | .function f => do
              let parameters ← f.parameters.mapM fun p => do
                return { p with type := ← descend p.type }
              let returnType ← descend f.returnType
              let replaced : FunctionType :=
                { typeParameters := f.typeParameters.filter fun p => !bindings.contains p
                  parameters := parameters
                  returnType := returnType }
              if replaced = f then return id else TableM.add (.function replaced)
          | .instantiated i => do
              let arguments ← i.bindings.mapValuesM descend
              if arguments = i.bindings then return id
              else TableM.add (.instantiated ⟨i.origin, arguments⟩)
          | _ => return id

end Substitution

/-- Replace every bound type parameter that occurs in a type. A function whose
own parameters are bound loses them. -/
def substitute (id : TypeId) (bindings : Bindings) : TableM TypeId := do
  if bindings.isEmpty then return id
  let table ← get
  Substitution.applyWithin bindings (table.size + 1) [] id

/-- The body of an instantiated type; any other type is its own. A body that is
not built yet is not remembered, since it would outlive the building. -/
def resolve (id : TypeId) : TableM TypeId := do
  let table ← get
  match table.kind id with
  | .instantiated i =>
      let key := TypeTable.instantiationKey i
      match table.resolved.find? key with
      | some body => return body
      | none =>
          match table.kind i.origin with
          | .generic g =>
              if table.kind g.body = .pending then return g.body
              else do
                let body ← substitute g.body (.ofList (g.typeParameters.zip i.bindings.values))
                modify fun t => { t with resolved := t.resolved.insert key body }
                return body
          | _ => return TypeId.unknown
  | _ => return id

end StructuralTyping
