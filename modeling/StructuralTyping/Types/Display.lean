import StructuralTyping.Types.Basic

/-! The text that stands for a type in messages. Nesting beyond a fixed depth is
shown as an ellipsis, so a type that mentions itself has a text too. -/
namespace StructuralTyping

namespace Display

/-- The deepest level that is still written out. -/
def depthLimit : Nat := 20

def join (separator : String) : List String → String
  | [] => ""
  | [one] => one
  | one :: rest => one ++ separator ++ join separator rest

def named (name : String) (optional : Bool) (type : String) : String :=
  name ++ (if optional then "?" else "") ++ ": " ++ type

/-- An interface goes by its name. -/
def object (render : TypeId → String) (o : ObjectType) : String :=
  match o.name with
  | some name => name
  | none =>
      if o.properties.isEmpty then "\x7b\x7d"
      else
        let members := o.properties.pairs.map fun (name, p) =>
          named name p.optional (render p.type) ++ ";"
        "\x7b " ++ join " " members ++ " \x7d"

/-- A type parameter in the list of its function, with its constraint. -/
def declaredParameter (table : TypeTable) (render : TypeId → String) (id : TypeId) : String :=
  match table.kind id with
  | .typeParameter name (some constraint) => name ++ " extends " ++ render constraint
  | _ => render id

def function (table : TypeTable) (render : TypeId → String) (f : FunctionType) : String :=
  let typeParameters :=
    if f.isGeneric then
      "<" ++ join ", " (f.typeParameters.map (declaredParameter table render)) ++ ">"
    else ""
  let parameters := f.parameters.map fun p => named p.name p.optional (render p.type)
  typeParameters ++ "(" ++ join ", " parameters ++ ") => " ++ render f.returnType

/-- The first argument counts the levels that may still be written out. -/
def typeText (table : TypeTable) : Nat → TypeId → String
  | 0, _ => "..."
  | remaining + 1, id =>
      match table.kind id with
      | .primitive name => name.text
      | .unknown => "unknown"
      | .pending => "unknown"
      | .typeParameter name _ => name
      | .object o => object (typeText table remaining) o
      | .function f => function table (typeText table remaining) f
      | .generic g => g.name
      | .instantiated i =>
          typeText table remaining i.origin ++ "<" ++
            join ", " (i.bindings.values.map (typeText table remaining)) ++ ">"

end Display

/-- The text of a type. -/
def TypeTable.text (t : TypeTable) (id : TypeId) : String :=
  Display.typeText t (Display.depthLimit + 1) id

end StructuralTyping
