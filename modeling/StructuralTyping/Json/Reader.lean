import StructuralTyping.Json.Number

/-! Reading text strictly: one value, white space around it and nothing else. A
scanner takes the characters that remain and answers what it read together with
the rest, or `none` where the text is malformed. -/
namespace StructuralTyping.Json

def isBlank (c : Char) : Bool :=
  c == ' ' || c == '\n' || c == '\t' || c == '\r'

def skipBlank : List Char → List Char
  | [] => []
  | c :: rest => if isBlank c then skipBlank rest else c :: rest

def hexDigit? (c : Char) : Option Nat :=
  if '0' ≤ c ∧ c ≤ '9' then some (c.toNat - '0'.toNat)
  else if 'a' ≤ c ∧ c ≤ 'f' then some (c.toNat - 'a'.toNat + 10)
  else if 'A' ≤ c ∧ c ≤ 'F' then some (c.toNat - 'A'.toNat + 10)
  else none

/-- The four digits of an escaped character. -/
def hexWord? (a b c d : Char) : Option Nat := do
  let w ← hexDigit? a
  let x ← hexDigit? b
  let y ← hexDigit? c
  let z ← hexDigit? d
  return ((w * 16 + x) * 16 + y) * 16 + z

def isHighSurrogate (n : Nat) : Bool := 0xD800 ≤ n && n ≤ 0xDBFF

def isLowSurrogate (n : Nat) : Bool := 0xDC00 ≤ n && n ≤ 0xDFFF

def joinSurrogates (high low : Nat) : Char :=
  Char.ofNat (0x10000 + (high - 0xD800) * 0x400 + (low - 0xDC00))

def simpleEscape? : Char → Option Char
  | '"' => some '"'
  | '\\' => some '\\'
  | '/' => some '/'
  | 'b' => some '\x08'
  | 'f' => some '\x0c'
  | 'n' => some '\n'
  | 'r' => some '\r'
  | 't' => some '\t'
  | _ => none

/-- A string is read into characters and, for now, halves of surrogate pairs. -/
inductive StringPart where
  | char (c : Char)
  | half (unit : Nat)
deriving DecidableEq, Repr

def StringPart.ofUnit (unit : Nat) : StringPart :=
  if isHighSurrogate unit || isLowSurrogate unit then .half unit else .char (Char.ofNat unit)

/-- The parts of a string up to its closing quote, latest first in the
accumulator. -/
def scanString (acc : List StringPart) : List Char → Option (List StringPart × List Char)
  | [] => none
  | '"' :: rest => some (acc.reverse, rest)
  | '\\' :: 'u' :: a :: b :: c :: d :: rest =>
      match hexWord? a b c d with
      | some unit => scanString (StringPart.ofUnit unit :: acc) rest
      | none => none
  | '\\' :: c :: rest =>
      match simpleEscape? c with
      | some plain => scanString (.char plain :: acc) rest
      | none => none
  | c :: rest =>
      if c.toNat < 0x20 || c == '\\' then none else scanString (.char c :: acc) rest

/-- Two matching halves make one character; no other half may stand. -/
def joinHalves (acc : List Char) : List StringPart → Option (List Char)
  | [] => some acc.reverse
  | .char c :: rest => joinHalves (c :: acc) rest
  | .half high :: .half low :: rest =>
      if isHighSurrogate high && isLowSurrogate low then
        joinHalves (joinSurrogates high low :: acc) rest
      else none
  | .half _ :: _ => none

def wholeText? (parts : List StringPart) : Option String :=
  (joinHalves [] parts).map String.ofList

def digit? (c : Char) : Option Nat :=
  if '0' ≤ c ∧ c ≤ '9' then some (c.toNat - '0'.toNat) else none

def scanDigits : List Char → List Nat × List Char
  | [] => ([], [])
  | c :: rest =>
      match digit? c with
      | some d => let (ds, after) := scanDigits rest; (d :: ds, after)
      | none => ([], c :: rest)

/-- No further digit follows a leading zero. -/
def scanInteger (text : List Char) : Option (List Nat × List Char) :=
  match scanDigits text with
  | ([], _) => none
  | (0 :: _ :: _, _) => none
  | (digits, rest) => some (digits, rest)

def scanFraction : List Char → Option (Option (List Nat) × List Char)
  | '.' :: text =>
      match scanDigits text with
      | ([], _) => none
      | (digits, rest) => some (some digits, rest)
  | text => some (none, text)

def decimalValue (digits : List Nat) : Nat :=
  digits.foldl (fun n d => n * 10 + d) 0

def scanExponentDigits (sign : Int) (text : List Char) : Option (Option Int × List Char) :=
  match scanDigits text with
  | ([], _) => none
  | (digits, rest) => some (some (sign * decimalValue digits), rest)

def scanExponent : List Char → Option (Option Int × List Char)
  | [] => some (none, [])
  | c :: text =>
      if c == 'e' || c == 'E' then
        match text with
        | '-' :: rest => scanExponentDigits (-1) rest
        | '+' :: rest => scanExponentDigits 1 rest
        | rest => scanExponentDigits 1 rest
      else
        some (none, c :: text)

def scanNumber (text : List Char) : Option (NumberText × List Char) := do
  let (negative, text) :=
    match text with
    | '-' :: rest => (true, rest)
    | rest => (false, rest)
  let (integer, text) ← scanInteger text
  let (fraction, text) ← scanFraction text
  let (exponent, text) ← scanExponent text
  return (⟨negative, integer, fraction, exponent⟩, text)

/-- The items of an array after its bracket; there is at least one. -/
def scanItems (scanItem : List Char → Option (Json × List Char)) :
    Nat → List Char → Option (List Json × List Char)
  | 0, _ => none
  | fuel + 1, text => do
      let (item, text) ← scanItem text
      match skipBlank text with
      | ',' :: text => do
          let (items, text) ← scanItems scanItem fuel text
          return (item :: items, text)
      | ']' :: text => return ([item], text)
      | _ => none

/-- The members of an object after its brace; there is at least one. A name that
is no text stays `none`. -/
def scanMembers (scanItem : List Char → Option (Json × List Char)) :
    Nat → List Char → Option (List (Option String × Json) × List Char)
  | 0, _ => none
  | fuel + 1, text =>
      match skipBlank text with
      | '"' :: text => do
          let (name, text) ← scanString [] text
          match skipBlank text with
          | ':' :: text => do
              let (value, text) ← scanItem text
              match skipBlank text with
              | ',' :: text => do
                  let (members, text) ← scanMembers scanItem fuel text
                  return ((wholeText? name, value) :: members, text)
              | '\x7d' :: text => return ([(wholeText? name, value)], text)
              | _ => none
          | _ => none
      | _ => none

def ofMembers (members : List (Option String × Json)) : Json :=
  match members.mapM fun member => member.1.map fun name => (name, member.2) with
  | some named => object named
  | none => unreadable

def ofNumberText (t : NumberText) : Json :=
  match t.value? with
  | some value => number value
  | none => unreadable

/-- The fuel bounds the nesting and the number of entries of a container; no text
needs more than its own length. -/
def scanValue : Nat → List Char → Option (Json × List Char)
  | 0, _ => none
  | fuel + 1, text =>
      match skipBlank text with
      | 'n' :: 'u' :: 'l' :: 'l' :: rest => some (null, rest)
      | 't' :: 'r' :: 'u' :: 'e' :: rest => some (bool true, rest)
      | 'f' :: 'a' :: 'l' :: 's' :: 'e' :: rest => some (bool false, rest)
      | '"' :: rest =>
          (scanString [] rest).map fun (parts, rest) =>
            (((wholeText? parts).map string).getD unreadable, rest)
      | '[' :: rest =>
          match skipBlank rest with
          | ']' :: rest => some (array [], rest)
          | rest =>
              (scanItems (scanValue fuel) fuel rest).map fun (items, rest) =>
                (array items, rest)
      | '\x7b' :: rest =>
          match skipBlank rest with
          | '\x7d' :: rest => some (object [], rest)
          | rest =>
              (scanMembers (scanValue fuel) fuel rest).map fun (members, rest) =>
                (ofMembers members, rest)
      | text =>
          (scanNumber text).map fun (written, rest) => (ofNumberText written, rest)

/-- A whole text holds exactly one value. -/
def parse? (text : String) : Option Json :=
  match scanValue (text.length + 1) text.toList with
  | some (value, rest) => if (skipBlank rest).isEmpty then some value else none
  | none => none

end StructuralTyping.Json
