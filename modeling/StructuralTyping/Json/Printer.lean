import StructuralTyping.Json.Basic
import StructuralTyping.Decimal.Layout

/-! Writing values as text: compactly on one line, or indented by two blanks a
level. Only the quote, the backslash and control characters are escaped. -/
namespace StructuralTyping.Json

def lowerHexDigit (n : Nat) : Char :=
  if n < 10 then Char.ofNat ('0'.toNat + n) else Char.ofNat ('a'.toNat + (n - 10))

def escapeChar (c : Char) : List Char :=
  if c == '"' then ['\\', '"']
  else if c == '\\' then ['\\', '\\']
  else if c == '\x08' then ['\\', 'b']
  else if c == '\x0c' then ['\\', 'f']
  else if c == '\n' then ['\\', 'n']
  else if c == '\r' then ['\\', 'r']
  else if c == '\t' then ['\\', 't']
  else if c.toNat < 0x20 then
    ['\\', 'u', '0', '0', lowerHexDigit (c.toNat / 16), lowerHexDigit (c.toNat % 16)]
  else [c]

def quote (s : String) : List Char :=
  '"' :: s.toList.flatMap escapeChar ++ ['"']

/-- A number that is not finite has no written form but `null`. -/
def printNumber : JsonNumber → List Char
  | .natural n => (toString n).toList
  | .negative n => '-' :: (toString n).toList
  | .real x => ((Decimal.print? x).getD "null").toList

mutual

def printCompact : Json → List Char
  | null => "null".toList
  | bool true => "true".toList
  | bool false => "false".toList
  | number n => printNumber n
  | string s => quote s
  | array items => '[' :: printCompactItems items ++ [']']
  | object members => '\x7b' :: printCompactMembers members ++ ['\x7d']
  | unreadable => "null".toList

def printCompactItems : List Json → List Char
  | [] => []
  | item :: rest =>
      printCompact item ++ (if rest.isEmpty then [] else [',']) ++ printCompactItems rest

def printCompactMembers : List (String × Json) → List Char
  | [] => []
  | (name, value) :: rest =>
      quote name ++ ':' :: printCompact value ++ (if rest.isEmpty then [] else [',']) ++
        printCompactMembers rest

end

/-- The value on one line, without blanks. -/
def compact (value : Json) : String :=
  String.ofList (printCompact value)

def lineBreak (depth : Nat) : List Char :=
  '\n' :: List.replicate (2 * depth) ' '

mutual

def printIndented (depth : Nat) : Json → List Char
  | array [] => ['[', ']']
  | array (item :: rest) =>
      '[' :: printIndentedItems (depth + 1) (item :: rest) ++ lineBreak depth ++ [']']
  | object [] => ['\x7b', '\x7d']
  | object (member :: rest) =>
      '\x7b' :: printIndentedMembers (depth + 1) (member :: rest) ++ lineBreak depth ++ ['\x7d']
  | null => "null".toList
  | bool true => "true".toList
  | bool false => "false".toList
  | number n => printNumber n
  | string s => quote s
  | unreadable => "null".toList

def printIndentedItems (depth : Nat) : List Json → List Char
  | [] => []
  | item :: rest =>
      lineBreak depth ++ printIndented depth item ++ (if rest.isEmpty then [] else [',']) ++
        printIndentedItems depth rest

def printIndentedMembers (depth : Nat) : List (String × Json) → List Char
  | [] => []
  | (name, value) :: rest =>
      lineBreak depth ++ quote name ++ ':' :: ' ' :: printIndented depth value ++
        (if rest.isEmpty then [] else [',']) ++ printIndentedMembers depth rest

end

/-- The value over several lines; empty containers stay on one. -/
def indented (value : Json) : String :=
  String.ofList (printIndented 0 value)

end StructuralTyping.Json
