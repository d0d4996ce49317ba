/-! Message templates. A placeholder is a number in braces; the arguments are
put in one after another, so text that arrived with one argument is searched
again for the placeholders of the later ones. -/
namespace StructuralTyping.Template

/-- Every occurrence of the pattern, left to right and without overlap, becomes
the replacement. The counter holds the characters of a matched pattern that are
still to be dropped. -/
def replaceFrom (pattern replacement : List Char) : Nat → List Char → List Char
  | _, [] => []
  | skip + 1, _ :: rest => replaceFrom pattern replacement skip rest
  | 0, c :: rest =>
      if pattern.isPrefixOf (c :: rest) then
        replacement ++ replaceFrom pattern replacement (pattern.length - 1) rest
      else
        c :: replaceFrom pattern replacement 0 rest

def replaceAll (pattern replacement text : List Char) : List Char :=
  replaceFrom pattern replacement 0 text

def placeholder (index : Nat) : List Char :=
  '{' :: (toString index).toList ++ ['}']

/-- The arguments are put in starting with the given placeholder number. -/
def fillFrom : Nat → List String → List Char → List Char
  | _, [], text => text
  | index, argument :: rest, text =>
      fillFrom (index + 1) rest (replaceAll (placeholder index) argument.toList text)

def fill (template : String) (arguments : List String) : String :=
  String.ofList (fillFrom 0 arguments template.toList)

end StructuralTyping.Template
