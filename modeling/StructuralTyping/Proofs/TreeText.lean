import StructuralTyping.Proofs.DecodedTrees
import StructuralTyping.Proofs.PrintedText

/-! A source file is read from its text. Of a tree only the numbers that are written in it
can be lost on the way, and each of them counts by itself. -/
namespace StructuralTyping

section Numbers

mutual

/-- The numbers that are written in an expression. -/
def Expression.numbers : Expression → List Float
  | .identifier _ _ => []
  | .string _ _ => []
  | .number value _ => [value]
  | .boolean _ _ => []
  | .object ⟨properties, _⟩ => PropertyAssignment.numbersOfList properties
  | .call callee _ arguments _ => callee.numbers ++ Expression.numbersOfList arguments
  | .property object _ _ => object.numbers
  | .function node => node.numbers
  | .binary _ left right _ => left.numbers ++ right.numbers

def Expression.numbersOfList : List Expression → List Float
  | [] => []
  | e :: rest => e.numbers ++ Expression.numbersOfList rest

def Expression.numbersOfOption : Option Expression → List Float
  | none => []
  | some e => e.numbers

def PropertyAssignment.numbersOfList : List PropertyAssignment → List Float
  | [] => []
  | ⟨_, initializer, _⟩ :: rest => initializer.numbers ++ PropertyAssignment.numbersOfList rest

def FunctionNode.numbers : FunctionNode → List Float
  | ⟨_, _, _, body, _⟩ => Statement.numbersOfList body

def Statement.numbers : Statement → List Float
  | .interface _ => []
  | .function _ node => node.numbers
  | .variable _ _ initializer _ => Expression.numbersOfOption initializer
  | .expression expression _ => expression.numbers
  | .returning expression _ => Expression.numbersOfOption expression

def Statement.numbersOfList : List Statement → List Float
  | [] => []
  | s :: rest => s.numbers ++ Statement.numbersOfList rest

end

/-- The numbers that are written in a file. -/
def SourceFile.numbers (file : SourceFile) : List Float := Statement.numbersOfList file.statements

end Numbers

section Types

theorem Location.encode_readsBack (l : Location) : l.encode.ReadsBack := by
  have fits : ∀ word : UInt32, word.toNat ≤ NumberText.largestWord := fun word =>
    Nat.le_trans (Nat.le_of_lt word.toNat_lt) (by decide)
  exact ⟨Json.readsBack_natural (fits l.line), Json.readsBack_natural (fits l.column), trivial⟩

mutual

theorem TypeNode.encode_readsBack : ∀ node : TypeNode, node.encode.ReadsBack
  | .keyword _ location => ⟨trivial, trivial, location.encode_readsBack, trivial⟩
  | .reference _ arguments location =>
      ⟨trivial, trivial, TypeNode.encodeList_readBack arguments, location.encode_readsBack, trivial⟩
  | .literal members location =>
      ⟨trivial, PropertySignature.encodeList_readBack members, location.encode_readsBack, trivial⟩
  | .function typeParameters parameters returnType location =>
      ⟨trivial, TypeParameterNode.encodeList_readBack typeParameters,
        ParameterNode.encodeList_readBack parameters, returnType.encode_readsBack,
        location.encode_readsBack, trivial⟩

theorem TypeNode.encodeList_readBack : ∀ nodes : List TypeNode,
    Json.ItemsReadBack (TypeNode.encodeList nodes)
  | [] => trivial
  | node :: rest => ⟨node.encode_readsBack, TypeNode.encodeList_readBack rest⟩

theorem PropertySignature.encodeList_readBack : ∀ members : List PropertySignature,
    Json.ItemsReadBack (PropertySignature.encodeList members)
  | [] => trivial
  | ⟨_, _, declaredType, location⟩ :: rest =>
      ⟨⟨trivial, trivial, declaredType.encode_readsBack, location.encode_readsBack, trivial⟩,
        PropertySignature.encodeList_readBack rest⟩

theorem TypeParameterNode.encodeList_readBack : ∀ nodes : List TypeParameterNode,
    Json.ItemsReadBack (TypeParameterNode.encodeList nodes)
  | [] => trivial
  | ⟨_, constraint, location⟩ :: rest =>
      ⟨⟨trivial, TypeNode.encodeOption_readsBack constraint, location.encode_readsBack, trivial⟩,
        TypeParameterNode.encodeList_readBack rest⟩

theorem ParameterNode.encodeList_readBack : ∀ nodes : List ParameterNode,
    Json.ItemsReadBack (ParameterNode.encodeList nodes)
  | [] => trivial
  | ⟨_, _, declaredType, location⟩ :: rest =>
      ⟨⟨trivial, trivial, TypeNode.encodeOption_readsBack declaredType,
          location.encode_readsBack, trivial⟩,
        ParameterNode.encodeList_readBack rest⟩

theorem TypeNode.encodeOption_readsBack : ∀ node : Option TypeNode,
    (TypeNode.encodeOption node).ReadsBack
  | none => trivial
  | some node => node.encode_readsBack

end

end Types

section Expressions

/-- Every one of the numbers is read back from the text that it is written as. -/
def ReadBack (numbers : List Float) : Prop := ∀ x ∈ numbers, (JsonNumber.real x).ReadsBack

theorem readBack_append {first second : List Float} :
    ReadBack (first ++ second) ↔ ReadBack first ∧ ReadBack second := List.forall_mem_append

mutual

theorem Expression.encode_readsBack : ∀ e : Expression, ReadBack e.numbers → e.encode.ReadsBack
  | .identifier _ location, _ => ⟨trivial, trivial, location.encode_readsBack, trivial⟩
  | .string _ location, _ => ⟨trivial, trivial, location.encode_readsBack, trivial⟩
  | .number value location, back =>
      ⟨trivial, back value List.mem_cons_self, location.encode_readsBack, trivial⟩
  | .boolean _ location, _ => ⟨trivial, trivial, location.encode_readsBack, trivial⟩
  | .object ⟨properties, location⟩, back =>
      ⟨trivial, PropertyAssignment.encodeList_readBack properties back, location.encode_readsBack,
        trivial⟩
  | .call callee typeArguments arguments location, back =>
      have ⟨first, second⟩ := readBack_append.mp back
      ⟨trivial, callee.encode_readsBack first, TypeNode.encodeList_readBack typeArguments,
        Expression.encodeList_readBack arguments second, location.encode_readsBack, trivial⟩
  | .property object _ location, back =>
      ⟨trivial, object.encode_readsBack back, trivial, location.encode_readsBack, trivial⟩
  | .function node, back => ⟨trivial, node.encodeFields_readBack back⟩
  | .binary _ left right location, back =>
      have ⟨first, second⟩ := readBack_append.mp back
      ⟨trivial, trivial, left.encode_readsBack first, right.encode_readsBack second,
        location.encode_readsBack, trivial⟩

theorem Expression.encodeList_readBack : ∀ es : List Expression,
    ReadBack (Expression.numbersOfList es) → Json.ItemsReadBack (Expression.encodeList es)
  | [], _ => trivial
  | e :: rest, back =>
      have ⟨first, later⟩ := readBack_append.mp back
      ⟨e.encode_readsBack first, Expression.encodeList_readBack rest later⟩

theorem Expression.encodeOption_readsBack : ∀ e : Option Expression,
    ReadBack (Expression.numbersOfOption e) → (Expression.encodeOption e).ReadsBack
  | none, _ => trivial
  | some e, back => e.encode_readsBack back

theorem PropertyAssignment.encodeList_readBack : ∀ properties : List PropertyAssignment,
    ReadBack (PropertyAssignment.numbersOfList properties) →
      Json.ItemsReadBack (PropertyAssignment.encodeList properties)
  | [], _ => trivial
  | ⟨_, initializer, location⟩ :: rest, back =>
      have ⟨first, later⟩ := readBack_append.mp back
      ⟨⟨trivial, initializer.encode_readsBack first, location.encode_readsBack, trivial⟩,
        PropertyAssignment.encodeList_readBack rest later⟩

theorem FunctionNode.encodeFields_readBack : ∀ node : FunctionNode, ReadBack node.numbers →
    Json.MembersReadBack node.encodeFields
  | ⟨typeParameters, parameters, returnType, body, location⟩, back =>
      ⟨TypeParameterNode.encodeList_readBack typeParameters,
        ParameterNode.encodeList_readBack parameters, TypeNode.encodeOption_readsBack returnType,
        Statement.encodeList_readBack body back, location.encode_readsBack, trivial⟩

theorem Statement.encode_readsBack : ∀ s : Statement, ReadBack s.numbers → s.encode.ReadsBack
  | .interface ⟨_, typeParameters, members, location⟩, _ =>
      ⟨trivial, trivial, TypeParameterNode.encodeList_readBack typeParameters,
        PropertySignature.encodeList_readBack members, location.encode_readsBack, trivial⟩
  | .function _ node, back => ⟨trivial, trivial, node.encodeFields_readBack back⟩
  | .variable _ declaredType initializer location, back =>
      ⟨trivial, trivial, TypeNode.encodeOption_readsBack declaredType,
        Expression.encodeOption_readsBack initializer back, location.encode_readsBack, trivial⟩
  | .expression expression location, back =>
      ⟨trivial, expression.encode_readsBack back, location.encode_readsBack, trivial⟩
  | .returning expression location, back =>
      ⟨trivial, Expression.encodeOption_readsBack expression back, location.encode_readsBack,
        trivial⟩

theorem Statement.encodeList_readBack : ∀ body : List Statement,
    ReadBack (Statement.numbersOfList body) → Json.ItemsReadBack (Statement.encodeList body)
  | [], _ => trivial
  | s :: rest, back =>
      have ⟨first, later⟩ := readBack_append.mp back
      ⟨s.encode_readsBack first, Statement.encodeList_readBack rest later⟩

end

end Expressions

namespace SourceFile

/-- A file is read from its text as it was, if the text is not nested too deeply and the
numbers in it are read back. -/
theorem parse?_text (file : SourceFile) (numbers : ReadBack file.numbers)
    (readable : file.encode.readable Json.nestingLimit = true) : parse? file.text = some file := by
  have back : file.encode.ReadsBack :=
    ⟨trivial, Statement.encodeList_readBack file.statements numbers, trivial⟩
  rw [parse?, text, Json.parse?_compact back]
  exact decode?_encode file readable

/-- Doubles are told apart by their bits, so a file that is read back keeps the sign of zero. -/
example : (0.0 : Float) ≠ -0.0 := by decide +kernel

/-- Both zeros and a fraction, a name that has to be escaped, and every node that may be
absent, once left out and once given. -/
def zeros : SourceFile where
  name := "zeros.ts"
  statements := [
    .interface ⟨"Reader", [⟨"T", some (.keyword .number ⟨1, 28⟩), ⟨1, 18⟩⟩, ⟨"U", none, ⟨1, 36⟩⟩],
      [⟨"read", true, .function [] [⟨"at", false, some (.reference "T" [] ⟨2, 17⟩), ⟨2, 13⟩⟩]
        (.reference "U" [] ⟨2, 23⟩) ⟨2, 12⟩, ⟨2, 5⟩⟩], ⟨1, 1⟩⟩,
    .variable "unset" (some (.keyword .number ⟨4, 12⟩)) none ⟨4, 5⟩,
    .variable "above" none (some (.number 0.0 ⟨5, 13⟩)) ⟨5, 5⟩,
    .variable "below" none (some (.number (-0.0) ⟨6, 13⟩)) ⟨6, 5⟩,
    .function "half" ⟨[], [⟨"x", true, none, ⟨7, 15⟩⟩], some (.keyword .number ⟨7, 20⟩),
      [.returning (some (.binary .plus (.identifier "x" ⟨8, 12⟩) (.number 1.5 ⟨8, 16⟩) ⟨8, 12⟩))
        ⟨8, 5⟩], ⟨7, 1⟩⟩,
    .variable "names" none (some (.object ⟨[⟨"\"\n\x01é", .function ⟨[], [], none,
      [.returning none ⟨10, 26⟩], ⟨10, 18⟩⟩, ⟨10, 15⟩⟩], ⟨10, 13⟩⟩)) ⟨10, 5⟩]

theorem zeros_parse? :
    (ReadBack zeros.numbers ∧ zeros.encode.readable Json.nestingLimit = true) ∧
      parse? zeros.text = some zeros := by
  have above : (JsonNumber.real 0.0).ReadsBack :=
    Json.readsBack_real "0.0" ⟨false, [0], some [0], none⟩ (by decide +kernel) (by decide +kernel)
      (by decide +kernel)
  have below : (JsonNumber.real (-0.0)).ReadsBack :=
    Json.readsBack_real "-0.0" ⟨true, [0], some [0], none⟩ (by decide +kernel) (by decide +kernel)
      (by decide +kernel)
  have half : (JsonNumber.real 1.5).ReadsBack :=
    Json.readsBack_real "1.5" ⟨false, [1], some [5], none⟩ (by decide +kernel) (by decide +kernel)
      (by decide +kernel)
  have written : zeros.numbers = [0.0, -0.0, 1.5] := rfl
  have numbers : ReadBack zeros.numbers := by
    rw [written, ReadBack, List.forall_mem_cons, List.forall_mem_cons, List.forall_mem_singleton]
    exact ⟨above, below, half⟩
  have readable : zeros.encode.readable Json.nestingLimit = true := by decide +kernel
  exact ⟨⟨numbers, readable⟩, parse?_text zeros numbers readable⟩

end SourceFile

end StructuralTyping
