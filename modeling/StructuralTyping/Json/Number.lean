import StructuralTyping.Json.Basic

/-! What a written number stands for. Integers of 64 bits are kept exactly. Any
other number is a double: its digits are gathered while they fit 64 bits, the
gathered integer is rounded, and the result is multiplied or divided by a power
of ten. Digits that no longer fit count only by their place. -/
namespace StructuralTyping

/-- The parts of a written number; digits are values below ten. -/
structure NumberText where
  negative : Bool
  integer : List Nat
  fraction : Option (List Nat)
  exponent : Option Int
deriving DecidableEq, Repr

namespace NumberText

/-- The largest integer of 64 bits. -/
def largestWord : Nat := UInt64.size - 1

/-- The largest magnitude of a negative integer of 64 bits. -/
def largestNegative : Nat := 0x8000000000000000

/-- Gather digits onto a significand until one no longer fits; the second part
is the number of digits left over. -/
def gather (significand : Nat) : List Nat → Nat × Nat
  | [] => (significand, 0)
  | digit :: rest =>
      if significand * 10 + digit ≤ largestWord then
        gather (significand * 10 + digit) rest
      else
        (significand, rest.length + 1)

/-- The largest power of ten that is a double. -/
def largestPower : Nat := 308

def powerOfTen (exponent : Nat) : Float :=
  Float.ofScientific 1 false exponent

/-- Division by a power of ten, in steps of the largest one. -/
def scaleDown (x : Float) (exponent : Nat) : Float :=
  if exponent ≤ largestPower then x / powerOfTen exponent
  else if x == 0 then x
  else scaleDown (x / powerOfTen largestPower) (exponent - largestPower)
termination_by exponent
decreasing_by
  have : 0 < largestPower := by decide
  omega

/-- Multiplication by a power of ten, unless the result is no longer finite. -/
def scaleUp? (x : Float) (exponent : Nat) : Option Float :=
  if exponent ≤ largestPower then
    let scaled := x * powerOfTen exponent
    if scaled.isInf then none else some scaled
  else if x == 0 then some x
  else none

def scale? (significand : Nat) : Int → Option Float
  | .ofNat exponent => scaleUp? (Float.ofNat significand) exponent
  | .negSucc below => some (scaleDown (Float.ofNat significand) (below + 1))

def signed (negative : Bool) (x : Float) : Float :=
  if negative then -x else x

/-- The magnitude as a double; `none` when it is too large. -/
def magnitude? (t : NumberText) : Option Float :=
  let (whole, droppedWhole) := gather 0 t.integer
  let fraction := t.fraction.getD []
  let (significand, droppedFraction) := gather whole fraction
  let place : Int := droppedWhole - ((fraction.length - droppedFraction : Nat) : Int)
  scale? significand (place + t.exponent.getD 0)

/-- An integer that fits 64 bits stays one, except negative zero. -/
def value? (t : NumberText) : Option JsonNumber :=
  let real := (t.magnitude?).map fun x => JsonNumber.real (signed t.negative x)
  match t.fraction, t.exponent, gather 0 t.integer with
  | none, none, (n, 0) =>
      if !t.negative then some (.natural n)
      else if 0 < n ∧ n ≤ largestNegative then some (.negative n)
      else real
  | _, _, _ => real

end NumberText

end StructuralTyping
