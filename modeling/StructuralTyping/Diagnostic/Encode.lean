import StructuralTyping.Diagnostic.Basic
import StructuralTyping.Tree.Record

/-! The written form of diagnostics. Parts that are absent are left out. -/
namespace StructuralTyping.Diagnostic

mutual

def encode : Diagnostic → Json
  | ⟨file, location, message, code, severity, related⟩ =>
      .object <|
        (file.map fun name => ("file", Json.string name)).toList ++
        (location.map fun l => ("location", l.encode)).toList ++
        [("message", .string message), ("code", .number (.natural code)),
          ("severity", .string severity.text)] ++
        (if related.isEmpty then [] else [("relatedInformation", .array (encodeList related))])

def encodeList : List Diagnostic → List Json
  | [] => []
  | d :: rest => encode d :: encodeList rest

end

end StructuralTyping.Diagnostic
