import StructuralTyping.Types.Basic

/-! Structural equality. A pair that is already being compared further out is
assumed equal, which is what makes types equal that mention themselves. The type
parameters of two functions correspond by position. An instantiated type is
compared by its arguments when the origins agree, else by its body, if that has
been resolved. -/
namespace StructuralTyping

namespace Equality

/-- Whether all answers are yes; an earlier no makes the later ones irrelevant,
and a missing answer is one. -/
def every {α : Type} (answer : α → Option Bool) : List α → Option Bool
  | [] => some true
  | x :: rest =>
      match answer x with
      | some true => every answer rest
      | other => other

/-- A first answer of yes leaves it to the second. -/
def both (first : Option Bool) (second : Unit → Option Bool) : Option Bool :=
  match first with
  | some true => second ()
  | other => other

/-- The remembered body of an instantiated type; any other type is its own. -/
def body? (table : TypeTable) (id : TypeId) : Option TypeId :=
  match table.kind id with
  | .instantiated i => table.resolved.find? (TypeTable.instantiationKey i)
  | _ => some id

/-- The answer for two types under the assumed pairs; `none` when the fuel runs
out first. -/
def equalWithin (table : TypeTable) : Nat → List (TypeId × TypeId) → TypeId → TypeId → Option Bool
  | 0, _, _, _ => none
  | fuel + 1, assumed, a, b =>
      if a = b ∨ (a, b) ∈ assumed then some true
      else
        let byBody : Unit → Option Bool := fun _ =>
          match body? table a, body? table b with
          | some x, some y => if x = a ∧ y = b then some false else equalWithin table fuel assumed x y
          | _, _ => some false
        match table.kind a, table.kind b with
        | .primitive x, .primitive y => some (x == y)
        | .unknown, .unknown => some true
        | .object x, .object y =>
            if x.properties.size ≠ y.properties.size then some false
            else
              every (fun (name, p) =>
                match y.property? name with
                | some q =>
                    both (some (p.optional == q.optional)) fun _ =>
                      equalWithin table fuel ((a, b) :: assumed) p.type q.type
                | none => some false) x.properties.pairs
        | .function x, .function y =>
            if x.typeParameters.length ≠ y.typeParameters.length ∨
                x.parameters.length ≠ y.parameters.length then some false
            else
              let inside := x.typeParameters.zip y.typeParameters ++ (a, b) :: assumed
              both
                (every (fun (p, q) =>
                  both (some (p.optional == q.optional)) fun _ =>
                    equalWithin table fuel inside p.type q.type) (x.parameters.zip y.parameters))
                fun _ => equalWithin table fuel inside x.returnType y.returnType
        | .instantiated x, .instantiated y =>
            if x.origin = y.origin then
              every (fun (p, q) => equalWithin table fuel assumed p q)
                (x.bindings.values.zip y.bindings.values)
            else byBody ()
        | .instantiated _, _ => byBody ()
        | _, .instantiated _ => byBody ()
        | _, _ => some false

/-- A comparison meets each pair of types at most once on its way down, and
between two such pairs it passes at most through the arguments and bodies of
instantiated types. -/
def searchDepth (table : TypeTable) : Nat := Nat.pow (table.size + 2) 8

end Equality

def TypeTable.equals (t : TypeTable) (a b : TypeId) : Bool :=
  (Equality.equalWithin t (Equality.searchDepth t) [] a b).getD false

end StructuralTyping
