import StructuralTyping.Decimal.Shortest

/-! How a double is written: its shortest digits, with a point if the leading
digit stands between `10 ^ -5` and `10 ^ 15`, else with an exponent that always
shows its sign. A number without an exponent has at least one digit behind the
point. -/
namespace StructuralTyping.Decimal

/-- The first place of the leading digit that is written without an exponent. -/
def plainFrom : Int := -5

/-- The first place of the leading digit that needs an exponent again. -/
def plainBelow : Int := 16

def zeros (count : Nat) : List Char := List.replicate count '0'

def decimalDigits (n : Nat) : List Char := Nat.toDigits 10 n

def layoutPlain (digits : List Char) (exponent : Int) : List Char :=
  let point := (digits.length : Int) + exponent
  if 0 ≤ exponent then digits ++ zeros exponent.toNat ++ ['.', '0']
  else if 0 < point then digits.take point.toNat ++ '.' :: digits.drop point.toNat
  else '0' :: '.' :: zeros (-point).toNat ++ digits

def layoutScientific (digits : List Char) (exponent : Int) : List Char :=
  let place := (digits.length : Int) + exponent - 1
  let sign := if 0 ≤ place then '+' else '-'
  let mantissa := if digits.length ≤ 1 then digits else digits.take 1 ++ '.' :: digits.drop 1
  mantissa ++ 'e' :: sign :: decimalDigits place.natAbs

def layout (d : Decimal) : List Char :=
  let digits := decimalDigits d.digits
  let place := (digits.length : Int) + d.exponent - 1
  if plainFrom ≤ place ∧ place < plainBelow then layoutPlain digits d.exponent
  else layoutScientific digits d.exponent

def signBit : UInt64 := 0x8000000000000000

/-- The written form of a double; one that is not finite has none. -/
def print? (x : Float) : Option String :=
  if x.isFinite then
    let bits := x.toBits
    let sign := if bits &&& signBit == 0 then [] else ['-']
    let magnitude := bits &&& ~~~ signBit
    let body := if magnitude == 0 then ['0', '.', '0'] else layout (shortest magnitude)
    some (String.ofList (sign ++ body))
  else none

end StructuralTyping.Decimal
