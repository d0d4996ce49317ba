import Mathlib.Data.List.Nodup
import StructuralTyping.Tree.Decode
import StructuralTyping.Tree.Encode

/-! A tree is decoded from its encoding. Every field of a node is read under the name it is
written under, and what a node may leave out is written all the same. The depth that is
passed down is enough for every value that is readable within the limit: a list of nodes
takes two levels of nesting, and a function, which takes two steps to decode, one. -/
namespace StructuralTyping

namespace Record

/-- A record with named fields that are all expected has just these fields. -/
theorem ofJson?_named {names : List String} {members : List (String × Json)}
    (same : members.map Prod.fst = names) (distinct : names.Nodup) :
    ofJson? names (.object members) = some ⟨false, members⟩ := by
  have once : (names.all fun name => decide (count name members ≤ 1)) = true := by
    refine List.all_eq_true.mpr fun name _ => decide_eq_true ?_
    have counted : count name members = (members.map Prod.fst).count name := by
      rw [count, List.count, List.countP_map]
      rfl
    rw [counted, same]
    exact List.nodup_iff_count_le_one.mp distinct name
  have all : (members.filter fun member => names.contains member.1) = members := by
    refine List.filter_eq_self.mpr fun member listed => ?_
    rw [← same]
    exact List.contains_iff_mem.mpr (List.mem_map_of_mem listed)
  rw [ofJson?, ofMembers?, if_pos once, all]

theorem splitKind?_kind {kinds : List String} {kind : String} (known : kind ∈ kinds)
    (numbered : Bool) {members : List (String × Json)}
    (plain : "kind" ∉ members.map Prod.fst) :
    splitKind? kinds numbered (.object (kindField kind :: members)) =
      some (kind, .object members) := by
  have none : (members.filter fun member => member.1 == "kind") = [] := by
    refine List.filter_eq_nil_iff.mpr fun member listed same => plain ?_
    exact beq_iff_eq.mp same ▸ List.mem_map_of_mem listed
  have all : (members.filter fun member => member.1 != "kind") = members := by
    refine List.filter_eq_self.mpr fun member listed => bne_iff_ne.mpr fun same => plain ?_
    exact same ▸ List.mem_map_of_mem listed
  have name : kindName? kinds numbered (.string kind) = some kind := by
    rw [kindName?, if_pos (List.contains_iff_mem.mpr known)]
  simp [splitKind?, kindField, none, all, name]

section Fields
variable {α : Type} (positional : Bool) (name : String) (value : Json)
  (fields : List (String × Json)) (decode : Json → Option α) (absent : α)

theorem find?_self : (⟨positional, (name, value) :: fields⟩ : Record).find? name = some value := by
  simp [find?]

@[simp] theorem required?_self :
    (⟨positional, (name, value) :: fields⟩ : Record).required? name decode = decode value := by
  rw [required?, find?_self]
  rfl

@[simp] theorem defaulted?_self :
    (⟨positional, (name, value) :: fields⟩ : Record).defaulted? name absent decode =
      decode value := by
  rw [defaulted?, find?_self]

@[simp] theorem optional?_self :
    (⟨positional, (name, value) :: fields⟩ : Record).optional? name decode =
      nullable? decode value := by
  rw [optional?, find?_self]

variable {name} {other : String} (apart : other ≠ name)

include apart

theorem find?_other : (⟨positional, (other, value) :: fields⟩ : Record).find? name =
    (⟨positional, fields⟩ : Record).find? name := by
  simp [find?, apart]

@[simp] theorem required?_other :
    (⟨positional, (other, value) :: fields⟩ : Record).required? name decode =
      (⟨positional, fields⟩ : Record).required? name decode := by
  rw [required?, required?, find?_other _ _ _ apart]

@[simp] theorem defaulted?_other :
    (⟨positional, (other, value) :: fields⟩ : Record).defaulted? name absent decode =
      (⟨positional, fields⟩ : Record).defaulted? name absent decode := by
  rw [defaulted?, defaulted?, find?_other _ _ _ apart]

@[simp] theorem optional?_other :
    (⟨positional, (other, value) :: fields⟩ : Record).optional? name decode =
      (⟨positional, fields⟩ : Record).optional? name decode := by
  rw [optional?, optional?, find?_other _ _ _ apart]

end Fields

end Record

section Leaves

theorem Location.decode?_encode (l : Location) : Location.decode? l.encode = some l := by
  have line : l.line.toNat < UInt32.size := l.line.toNat_lt
  have column : l.column.toNat < UInt32.size := l.column.toNat_lt
  rw [Location.decode?, Location.encode, Record.ofJson?_named (by rfl) (by decide)]
  simp [Json.word?, line, column]

@[simp] theorem Record.location?_self (positional : Bool) (l : Location) :
    (⟨positional, [locationField l]⟩ : Record).location? = some l := by
  rw [Record.location?, locationField, Record.defaulted?_self, Location.decode?_encode]

@[simp] theorem Record.location?_other (positional : Bool) {other : String}
    (apart : other ≠ "loc") (value : Json) (fields : List (String × Json)) :
    (⟨positional, (other, value) :: fields⟩ : Record).location? =
      (⟨positional, fields⟩ : Record).location? := by
  rw [Record.location?, Record.location?, Record.defaulted?_other _ _ _ _ _ apart]

theorem Keyword.decode?_text (keyword : Keyword) :
    Keyword.decode? (.string keyword.text) = some keyword := by
  cases keyword <;> rfl

theorem BinaryOperator.decode?_text (operator : BinaryOperator) :
    BinaryOperator.decode? (.string operator.text) = some operator := by
  cases operator <;> rfl

end Leaves

namespace Json

theorem readable_object {limit : Nat} {members : List (String × Json)} :
    (object members).readable limit = true ↔
      0 < limit ∧ readableMembers (limit - 1) members = true := by
  simp [readable, Nat.pos_iff_ne_zero]

theorem readable_array {limit : Nat} {items : List Json} :
    (array items).readable limit = true ↔ 0 < limit ∧ readableItems (limit - 1) items = true := by
  simp [readable, Nat.pos_iff_ne_zero]

theorem readableItems_cons {limit : Nat} {item : Json} {rest : List Json} :
    readableItems limit (item :: rest) = true ↔
      item.readable limit = true ∧ readableItems limit rest = true := by
  simp [readableItems]

theorem readableMembers_cons {limit : Nat} {name : String} {value : Json}
    {rest : List (String × Json)} :
    readableMembers limit ((name, value) :: rest) = true ↔
      value.readable limit = true ∧ readableMembers limit rest = true := by
  simp [readableMembers]

end Json

section Types

theorem TypeNode.encode_object : ∀ node : TypeNode, ∃ members, node.encode = .object members
  | .keyword _ _ => ⟨_, rfl⟩
  | .reference _ _ _ => ⟨_, rfl⟩
  | .literal _ _ => ⟨_, rfl⟩
  | .function _ _ _ _ => ⟨_, rfl⟩

mutual

theorem TypeNode.decodeAt?_encode : ∀ (node : TypeNode) {limit depth : Nat} (nested : Bool),
    node.encode.readable limit = true → limit ≤ depth →
      TypeNode.decodeAt? depth nested node.encode = some node
  | .keyword word location, limit, depth, nested, readable, enough => by
      rw [TypeNode.encode, Json.readable_object] at readable
      obtain ⟨depth, rfl⟩ : ∃ d, depth = d + 1 := ⟨depth - 1, by omega⟩
      rw [TypeNode.encode, TypeNode.decodeAt?,
        Record.splitKind?_kind (by decide) _ (by simp [locationField])]
      simp only [Option.bind_eq_bind, Option.bind_some]
      rw [Record.ofJson?_named (by rfl) (by decide)]
      simp [Keyword.decode?_text]
  | .reference name arguments location, limit, depth, nested, readable, enough => by
      simp only [TypeNode.encode, kindField, Json.readable_object, Json.readableMembers_cons,
        Json.readable_array] at readable
      obtain ⟨positive, -, -, ⟨-, within⟩, -⟩ := readable
      obtain ⟨depth, rfl⟩ : ∃ d, depth = d + 1 := ⟨depth - 1, by omega⟩
      have decoded := TypeNode.mapM_decode_encode arguments within (show _ ≤ depth by omega)
      rw [TypeNode.encode, TypeNode.decodeAt?,
        Record.splitKind?_kind (by decide) _ (by simp [locationField])]
      simp only [Option.bind_eq_bind, Option.bind_some]
      rw [Record.ofJson?_named (by rfl) (by decide)]
      simp [Json.string?, Json.list?, decoded]
  | .literal members location, limit, depth, nested, readable, enough => by
      simp only [TypeNode.encode, kindField, Json.readable_object, Json.readableMembers_cons,
        Json.readable_array] at readable
      obtain ⟨positive, -, ⟨-, within⟩, -⟩ := readable
      obtain ⟨depth, rfl⟩ : ∃ d, depth = d + 1 := ⟨depth - 1, by omega⟩
      have decoded := PropertySignature.mapM_decode_encode members within (show _ ≤ depth by omega)
      rw [TypeNode.encode, TypeNode.decodeAt?,
        Record.splitKind?_kind (by decide) _ (by simp [locationField])]
      simp only [Option.bind_eq_bind, Option.bind_some]
      rw [Record.ofJson?_named (by rfl) (by decide)]
      simp [Json.list?, decoded]
  | .function typeParameters parameters returnType location, limit, depth, nested, readable,
      enough => by
      simp only [TypeNode.encode, kindField, Json.readable_object, Json.readableMembers_cons,
        Json.readable_array] at readable
      obtain ⟨positive, -, ⟨-, first⟩, ⟨-, second⟩, third, -⟩ := readable
      obtain ⟨depth, rfl⟩ : ∃ d, depth = d + 1 := ⟨depth - 1, by omega⟩
      have one := TypeParameterNode.mapM_decode_encode typeParameters first
        (show _ ≤ depth by omega)
      have two := ParameterNode.mapM_decode_encode parameters second (show _ ≤ depth by omega)
      have three := TypeNode.decodeAt?_encode returnType true third (show _ ≤ depth by omega)
      rw [TypeNode.encode, TypeNode.decodeAt?,
        Record.splitKind?_kind (by decide) _ (by simp [locationField])]
      simp only [Option.bind_eq_bind, Option.bind_some, String.reduceEq, imp_self]
      rw [Record.ofJson?_named (by rfl) (by decide)]
      simp [Json.list?, one, two, three]

theorem TypeNode.mapM_decode_encode : ∀ (nodes : List TypeNode) {limit depth : Nat},
    Json.readableItems limit (TypeNode.encodeList nodes) = true → limit ≤ depth →
      (TypeNode.encodeList nodes).mapM (TypeNode.decodeAt? depth true) = some nodes
  | [], _, _, _, _ => rfl
  | node :: rest, limit, depth, readable, enough => by
      obtain ⟨here, later⟩ := Json.readableItems_cons.mp readable
      have one := TypeNode.decodeAt?_encode node true here enough
      have others := TypeNode.mapM_decode_encode rest later enough
      simp [TypeNode.encodeList, one, others]

theorem PropertySignature.mapM_decode_encode :
    ∀ (members : List PropertySignature) {limit depth : Nat},
      Json.readableItems limit (PropertySignature.encodeList members) = true → limit ≤ depth →
        (PropertySignature.encodeList members).mapM (TypeNode.decodeSignatureAt? depth) =
          some members
  | [], _, _, _, _ => rfl
  | ⟨name, optional, declaredType, location⟩ :: rest, limit, depth, readable, enough => by
      obtain ⟨here, later⟩ := Json.readableItems_cons.mp readable
      have others := PropertySignature.mapM_decode_encode rest later enough
      simp only [Json.readable_object, Json.readableMembers_cons] at here
      obtain ⟨positive, -, -, within, -⟩ := here
      obtain ⟨depth, rfl⟩ : ∃ d, depth = d + 1 := ⟨depth - 1, by omega⟩
      have decoded := TypeNode.decodeAt?_encode declaredType true within (show _ ≤ depth by omega)
      rw [PropertySignature.encodeList, List.mapM_cons, others, TypeNode.decodeSignatureAt?,
        Record.ofJson?_named (by rfl) (by decide)]
      simp [Json.string?, Json.bool?, decoded]

theorem TypeParameterNode.mapM_decode_encode :
    ∀ (nodes : List TypeParameterNode) {limit depth : Nat},
      Json.readableItems limit (TypeParameterNode.encodeList nodes) = true → limit ≤ depth →
        (TypeParameterNode.encodeList nodes).mapM (TypeNode.decodeTypeParameterAt? depth) =
          some nodes
  | [], _, _, _, _ => rfl
  | ⟨name, constraint, location⟩ :: rest, limit, depth, readable, enough => by
      obtain ⟨here, later⟩ := Json.readableItems_cons.mp readable
      have others := TypeParameterNode.mapM_decode_encode rest later enough
      simp only [Json.readable_object, Json.readableMembers_cons] at here
      obtain ⟨positive, -, within, -⟩ := here
      obtain ⟨depth, rfl⟩ : ∃ d, depth = d + 1 := ⟨depth - 1, by omega⟩
      have decoded := TypeNode.nullable?_encode constraint within (show _ ≤ depth by omega)
      rw [TypeParameterNode.encodeList, List.mapM_cons, others, TypeNode.decodeTypeParameterAt?,
        Record.ofJson?_named (by rfl) (by decide)]
      simp [Json.string?, decoded]

theorem ParameterNode.mapM_decode_encode :
    ∀ (nodes : List ParameterNode) {limit depth : Nat},
      Json.readableItems limit (ParameterNode.encodeList nodes) = true → limit ≤ depth →
        (ParameterNode.encodeList nodes).mapM (TypeNode.decodeParameterAt? depth) = some nodes
  | [], _, _, _, _ => rfl
  | ⟨name, optional, declaredType, location⟩ :: rest, limit, depth, readable, enough => by
      obtain ⟨here, later⟩ := Json.readableItems_cons.mp readable
      have others := ParameterNode.mapM_decode_encode rest later enough
      simp only [Json.readable_object, Json.readableMembers_cons] at here
      obtain ⟨positive, -, -, within, -⟩ := here
      obtain ⟨depth, rfl⟩ : ∃ d, depth = d + 1 := ⟨depth - 1, by omega⟩
      have decoded := TypeNode.nullable?_encode declaredType within (show _ ≤ depth by omega)
      rw [ParameterNode.encodeList, List.mapM_cons, others, TypeNode.decodeParameterAt?,
        Record.ofJson?_named (by rfl) (by decide)]
      simp [Json.string?, Json.bool?, decoded]

theorem TypeNode.nullable?_encode : ∀ (node : Option TypeNode) {limit depth : Nat},
    (TypeNode.encodeOption node).readable limit = true → limit ≤ depth →
      Record.nullable? (TypeNode.decodeAt? depth true) (TypeNode.encodeOption node) = some node
  | none, _, _, _, _ => rfl
  | some node, limit, depth, readable, enough => by
      have decoded := TypeNode.decodeAt?_encode node true readable enough
      obtain ⟨members, same⟩ := node.encode_object
      rw [same] at decoded
      rw [TypeNode.encodeOption, same, Record.nullable?, decoded]
      · rfl
      · exact nofun

end

end Types

section Expressions

theorem FunctionNode.decodeAt?_named (depth : Nat) (positional : Bool) (value : Json)
    (fields : List (String × Json)) :
    FunctionNode.decodeAt? depth ⟨positional, ("name", value) :: fields⟩ =
      FunctionNode.decodeAt? depth ⟨positional, fields⟩ := by
  cases depth <;> simp [FunctionNode.decodeAt?]

theorem FunctionNode.encodeFields_names (node : FunctionNode) :
    node.encodeFields.map Prod.fst =
      ["typeParameters", "parameters", "returnType", "body", "loc"] := by
  obtain ⟨typeParameters, parameters, returnType, body, location⟩ := node
  rfl

theorem Expression.encode_object : ∀ e : Expression, ∃ members, e.encode = .object members
  | .identifier _ _ => ⟨_, rfl⟩
  | .string _ _ => ⟨_, rfl⟩
  | .number _ _ => ⟨_, rfl⟩
  | .boolean _ _ => ⟨_, rfl⟩
  | .object ⟨_, _⟩ => ⟨_, rfl⟩
  | .call _ _ _ _ => ⟨_, rfl⟩
  | .property _ _ _ => ⟨_, rfl⟩
  | .function _ => ⟨_, rfl⟩
  | .binary _ _ _ _ => ⟨_, rfl⟩

mutual

theorem Expression.decodeAt?_encode : ∀ (e : Expression) {limit depth : Nat} (nested : Bool),
    e.encode.readable limit = true → 2 * limit ≤ depth →
      Expression.decodeAt? depth nested e.encode = some e
  | .identifier name location, limit, depth, nested, readable, enough => by
      rw [Expression.encode, Json.readable_object] at readable
      obtain ⟨depth, rfl⟩ : ∃ d, depth = d + 1 := ⟨depth - 1, by omega⟩
      rw [Expression.encode, Expression.decodeAt?,
        Record.splitKind?_kind (by decide) _ (by simp [locationField])]
      simp only [Option.bind_eq_bind, Option.bind_some]
      rw [Record.ofJson?_named (by rfl) (by decide)]
      simp [Json.string?]
  | .string value location, limit, depth, nested, readable, enough => by
      rw [Expression.encode, Json.readable_object] at readable
      obtain ⟨depth, rfl⟩ : ∃ d, depth = d + 1 := ⟨depth - 1, by omega⟩
      rw [Expression.encode, Expression.decodeAt?,
        Record.splitKind?_kind (by decide) _ (by simp [locationField])]
      simp only [Option.bind_eq_bind, Option.bind_some]
      rw [Record.ofJson?_named (by rfl) (by decide)]
      simp [Json.string?]
  | .number value location, limit, depth, nested, readable, enough => by
      rw [Expression.encode, Json.readable_object] at readable
      obtain ⟨depth, rfl⟩ : ∃ d, depth = d + 1 := ⟨depth - 1, by omega⟩
      rw [Expression.encode, Expression.decodeAt?,
        Record.splitKind?_kind (by decide) _ (by simp [locationField])]
      simp only [Option.bind_eq_bind, Option.bind_some]
      rw [Record.ofJson?_named (by rfl) (by decide)]
      simp [Json.double?]
  | .boolean value location, limit, depth, nested, readable, enough => by
      rw [Expression.encode, Json.readable_object] at readable
      obtain ⟨depth, rfl⟩ : ∃ d, depth = d + 1 := ⟨depth - 1, by omega⟩
      rw [Expression.encode, Expression.decodeAt?,
        Record.splitKind?_kind (by decide) _ (by simp [locationField])]
      simp only [Option.bind_eq_bind, Option.bind_some]
      rw [Record.ofJson?_named (by rfl) (by decide)]
      simp [Json.bool?]
  | .object ⟨properties, location⟩, limit, depth, nested, readable, enough => by
      simp only [Expression.encode, kindField, Json.readable_object, Json.readableMembers_cons,
        Json.readable_array] at readable
      obtain ⟨positive, -, ⟨-, within⟩, -⟩ := readable
      obtain ⟨depth, rfl⟩ : ∃ d, depth = d + 1 := ⟨depth - 1, by omega⟩
      have decoded := PropertyAssignment.mapM_decode_encode properties within
        (show _ ≤ depth by omega)
      rw [Expression.encode, Expression.decodeAt?,
        Record.splitKind?_kind (by decide) _ (by simp [locationField])]
      simp only [Option.bind_eq_bind, Option.bind_some]
      rw [Record.ofJson?_named (by rfl) (by decide)]
      simp [Json.list?, decoded]
  | .call callee typeArguments arguments location, limit, depth, nested, readable, enough => by
      simp only [Expression.encode, kindField, Json.readable_object, Json.readableMembers_cons,
        Json.readable_array] at readable
      obtain ⟨positive, -, first, ⟨-, second⟩, ⟨-, third⟩, -⟩ := readable
      obtain ⟨depth, rfl⟩ : ∃ d, depth = d + 1 := ⟨depth - 1, by omega⟩
      have one := Expression.decodeAt?_encode callee true first (show _ ≤ depth by omega)
      have two := TypeNode.mapM_decode_encode typeArguments second (show _ ≤ depth by omega)
      have three := Expression.mapM_decode_encode arguments third (show _ ≤ depth by omega)
      rw [Expression.encode, Expression.decodeAt?,
        Record.splitKind?_kind (by decide) _ (by simp [locationField])]
      simp only [Option.bind_eq_bind, Option.bind_some]
      rw [Record.ofJson?_named (by rfl) (by decide)]
      simp [Json.list?, one, two, three]
  | .property object name location, limit, depth, nested, readable, enough => by
      simp only [Expression.encode, kindField, Json.readable_object,
        Json.readableMembers_cons] at readable
      obtain ⟨positive, -, within, -⟩ := readable
      obtain ⟨depth, rfl⟩ : ∃ d, depth = d + 1 := ⟨depth - 1, by omega⟩
      have decoded := Expression.decodeAt?_encode object true within (show _ ≤ depth by omega)
      rw [Expression.encode, Expression.decodeAt?,
        Record.splitKind?_kind (by decide) _ (by simp [locationField])]
      simp only [Option.bind_eq_bind, Option.bind_some]
      rw [Record.ofJson?_named (by rfl) (by decide)]
      simp [Json.string?, decoded]
  | .function node, limit, depth, nested, readable, enough => by
      simp only [Expression.encode, kindField, Json.readable_object,
        Json.readableMembers_cons] at readable
      obtain ⟨positive, -, within⟩ := readable
      obtain ⟨depth, rfl⟩ : ∃ d, depth = d + 1 := ⟨depth - 1, by omega⟩
      have decoded := FunctionNode.decodeAt?_encode node within (show _ ≤ depth by omega)
      rw [Expression.encode, Expression.decodeAt?,
        Record.splitKind?_kind (by decide) _ (by simp [node.encodeFields_names])]
      simp only [Option.bind_eq_bind, Option.bind_some]
      rw [Record.ofJson?_named node.encodeFields_names (by decide)]
      simp [decoded]
  | .binary operator left right location, limit, depth, nested, readable, enough => by
      simp only [Expression.encode, kindField, Json.readable_object,
        Json.readableMembers_cons] at readable
      obtain ⟨positive, -, -, first, second, -⟩ := readable
      obtain ⟨depth, rfl⟩ : ∃ d, depth = d + 1 := ⟨depth - 1, by omega⟩
      have one := Expression.decodeAt?_encode left true first (show _ ≤ depth by omega)
      have two := Expression.decodeAt?_encode right true second (show _ ≤ depth by omega)
      rw [Expression.encode, Expression.decodeAt?,
        Record.splitKind?_kind (by decide) _ (by simp [locationField])]
      simp only [Option.bind_eq_bind, Option.bind_some, String.reduceEq, imp_self]
      rw [Record.ofJson?_named (by rfl) (by decide)]
      simp [BinaryOperator.decode?_text, one, two]

theorem Expression.mapM_decode_encode : ∀ (es : List Expression) {limit depth : Nat},
    Json.readableItems limit (Expression.encodeList es) = true → 2 * limit ≤ depth →
      (Expression.encodeList es).mapM (Expression.decodeAt? depth true) = some es
  | [], _, _, _, _ => rfl
  | e :: rest, limit, depth, readable, enough => by
      obtain ⟨here, later⟩ := Json.readableItems_cons.mp readable
      have one := Expression.decodeAt?_encode e true here enough
      have others := Expression.mapM_decode_encode rest later enough
      simp [Expression.encodeList, one, others]

theorem Expression.nullable?_encode : ∀ (e : Option Expression) {limit depth : Nat},
    (Expression.encodeOption e).readable limit = true → 2 * limit ≤ depth →
      Record.nullable? (Expression.decodeAt? depth true) (Expression.encodeOption e) = some e
  | none, _, _, _, _ => rfl
  | some e, limit, depth, readable, enough => by
      have decoded := Expression.decodeAt?_encode e true readable enough
      obtain ⟨members, same⟩ := e.encode_object
      rw [same] at decoded
      rw [Expression.encodeOption, same, Record.nullable?, decoded]
      · rfl
      · exact nofun

theorem PropertyAssignment.mapM_decode_encode :
    ∀ (properties : List PropertyAssignment) {limit depth : Nat},
      Json.readableItems limit (PropertyAssignment.encodeList properties) = true →
        2 * limit ≤ depth →
          (PropertyAssignment.encodeList properties).mapM (PropertyAssignment.decodeAt? depth) =
            some properties
  | [], _, _, _, _ => rfl
  | ⟨name, initializer, location⟩ :: rest, limit, depth, readable, enough => by
      obtain ⟨here, later⟩ := Json.readableItems_cons.mp readable
      have others := PropertyAssignment.mapM_decode_encode rest later enough
      simp only [Json.readable_object, Json.readableMembers_cons] at here
      obtain ⟨positive, -, within, -⟩ := here
      obtain ⟨depth, rfl⟩ : ∃ d, depth = d + 1 := ⟨depth - 1, by omega⟩
      have decoded := Expression.decodeAt?_encode initializer true within (show _ ≤ depth by omega)
      rw [PropertyAssignment.encodeList, List.mapM_cons, others, PropertyAssignment.decodeAt?,
        Record.ofJson?_named (by rfl) (by decide)]
      simp [Json.string?, decoded]

/-- The fields of a function are decoded in a step of their own. -/
theorem FunctionNode.decodeAt?_encode : ∀ (node : FunctionNode) {limit depth : Nat},
    Json.readableMembers limit node.encodeFields = true → 2 * limit + 1 ≤ depth →
      FunctionNode.decodeAt? depth ⟨false, node.encodeFields⟩ = some node
  | ⟨typeParameters, parameters, returnType, body, location⟩, limit, depth, readable, enough => by
      simp only [FunctionNode.encodeFields, Json.readableMembers_cons,
        Json.readable_array] at readable
      obtain ⟨⟨-, first⟩, ⟨-, second⟩, third, ⟨-, fourth⟩, -⟩ := readable
      obtain ⟨depth, rfl⟩ : ∃ d, depth = d + 1 := ⟨depth - 1, by omega⟩
      have one := TypeParameterNode.mapM_decode_encode typeParameters first
        (show _ ≤ depth by omega)
      have two := ParameterNode.mapM_decode_encode parameters second (show _ ≤ depth by omega)
      have three := TypeNode.nullable?_encode returnType third (show _ ≤ depth by omega)
      have four := Statement.mapM_decode_encode body true fourth (show _ ≤ depth by omega)
      rw [FunctionNode.encodeFields, FunctionNode.decodeAt?]
      simp [Json.list?, one, two, three, four]

theorem Statement.decodeAt?_encode : ∀ (s : Statement) {limit depth : Nat} (nested : Bool),
    s.encode.readable limit = true → 2 * limit ≤ depth →
      Statement.decodeAt? depth nested s.encode = some s
  | .interface ⟨name, typeParameters, members, location⟩, limit, depth, nested, readable,
      enough => by
      simp only [Statement.encode, kindField, Json.readable_object, Json.readableMembers_cons,
        Json.readable_array] at readable
      obtain ⟨positive, -, -, ⟨-, first⟩, ⟨-, second⟩, -⟩ := readable
      obtain ⟨depth, rfl⟩ : ∃ d, depth = d + 1 := ⟨depth - 1, by omega⟩
      have one := TypeParameterNode.mapM_decode_encode typeParameters first
        (show _ ≤ depth by omega)
      have two := PropertySignature.mapM_decode_encode members second (show _ ≤ depth by omega)
      rw [Statement.encode, Statement.decodeAt?,
        Record.splitKind?_kind (by decide) _ (by simp [locationField])]
      simp only [Option.bind_eq_bind, Option.bind_some, InterfaceDeclaration.decodeAt?]
      rw [Record.ofJson?_named (by rfl) (by decide)]
      simp [Json.string?, Json.list?, one, two]
  | .function name node, limit, depth, nested, readable, enough => by
      simp only [Statement.encode, kindField, Json.readable_object,
        Json.readableMembers_cons] at readable
      obtain ⟨positive, -, -, within⟩ := readable
      obtain ⟨depth, rfl⟩ : ∃ d, depth = d + 1 := ⟨depth - 1, by omega⟩
      have decoded := FunctionNode.decodeAt?_encode node within (show _ ≤ depth by omega)
      have names : (("name", Json.string name) :: node.encodeFields).map Prod.fst =
          ["name", "typeParameters", "parameters", "returnType", "body", "loc"] :=
        congrArg ("name" :: ·) node.encodeFields_names
      rw [Statement.encode, Statement.decodeAt?,
        Record.splitKind?_kind (by decide) _ (by simp [names])]
      simp only [Option.bind_eq_bind, Option.bind_some]
      rw [Record.ofJson?_named names (by decide)]
      simp [Json.string?, FunctionNode.decodeAt?_named, decoded]
  | .variable name declaredType initializer location, limit, depth, nested, readable,
      enough => by
      simp only [Statement.encode, kindField, Json.readable_object,
        Json.readableMembers_cons] at readable
      obtain ⟨positive, -, -, first, second, -⟩ := readable
      obtain ⟨depth, rfl⟩ : ∃ d, depth = d + 1 := ⟨depth - 1, by omega⟩
      have one := TypeNode.nullable?_encode declaredType first (show _ ≤ depth by omega)
      have two := Expression.nullable?_encode initializer second (show _ ≤ depth by omega)
      rw [Statement.encode, Statement.decodeAt?,
        Record.splitKind?_kind (by decide) _ (by simp [locationField])]
      simp only [Option.bind_eq_bind, Option.bind_some]
      rw [Record.ofJson?_named (by rfl) (by decide)]
      simp [Json.string?, one, two]
  | .expression expression location, limit, depth, nested, readable, enough => by
      simp only [Statement.encode, kindField, Json.readable_object,
        Json.readableMembers_cons] at readable
      obtain ⟨positive, -, within, -⟩ := readable
      obtain ⟨depth, rfl⟩ : ∃ d, depth = d + 1 := ⟨depth - 1, by omega⟩
      have decoded := Expression.decodeAt?_encode expression true within (show _ ≤ depth by omega)
      rw [Statement.encode, Statement.decodeAt?,
        Record.splitKind?_kind (by decide) _ (by simp [locationField])]
      simp only [Option.bind_eq_bind, Option.bind_some]
      rw [Record.ofJson?_named (by rfl) (by decide)]
      simp [decoded]
  | .returning expression location, limit, depth, nested, readable, enough => by
      simp only [Statement.encode, kindField, Json.readable_object,
        Json.readableMembers_cons] at readable
      obtain ⟨positive, -, within, -⟩ := readable
      obtain ⟨depth, rfl⟩ : ∃ d, depth = d + 1 := ⟨depth - 1, by omega⟩
      have decoded := Expression.nullable?_encode expression within (show _ ≤ depth by omega)
      rw [Statement.encode, Statement.decodeAt?,
        Record.splitKind?_kind (by decide) _ (by simp [locationField])]
      simp only [Option.bind_eq_bind, Option.bind_some, String.reduceEq, imp_self]
      rw [Record.ofJson?_named (by rfl) (by decide)]
      simp [decoded]

theorem Statement.mapM_decode_encode :
    ∀ (body : List Statement) {limit depth : Nat} (nested : Bool),
      Json.readableItems limit (Statement.encodeList body) = true → 2 * limit ≤ depth →
        (Statement.encodeList body).mapM (Statement.decodeAt? depth nested) = some body
  | [], _, _, _, _, _ => rfl
  | s :: rest, limit, depth, nested, readable, enough => by
      obtain ⟨here, later⟩ := Json.readableItems_cons.mp readable
      have one := Statement.decodeAt?_encode s nested here enough
      have others := Statement.mapM_decode_encode rest nested later enough
      simp [Statement.encodeList, one, others]

end

end Expressions

/-- A file is decoded from its encoding, if that is readable as a whole. -/
theorem SourceFile.decode?_encode (file : SourceFile)
    (readable : file.encode.readable Json.nestingLimit = true) :
    SourceFile.decode? file.encode = some file := by
  simp only [SourceFile.encode, Json.readable_object, Json.readableMembers_cons] at readable
  obtain ⟨-, -, within, -⟩ := readable
  obtain ⟨-, items⟩ := Json.readable_array.mp within
  have decoded := Statement.mapM_decode_encode file.statements false items
    (show _ ≤ 2 * Json.nestingLimit by omega)
  have statements : SourceFile.decodeStatements? (.array (Statement.encodeList file.statements)) =
      some file.statements := by
    rw [SourceFile.decodeStatements?, if_pos within]
    exact decoded
  rw [SourceFile.encode, SourceFile.decode?, Record.ofJson?_named (by rfl) (by decide)]
  simp [Json.string?, statements]

end StructuralTyping
