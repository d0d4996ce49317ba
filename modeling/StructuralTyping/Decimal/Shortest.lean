/-! The shortest decimal that stands for a double. A finite double is a natural
number times a power of two. The reals that are rounded to it form an interval,
whose ends count exactly when that natural number is even. Of the decimals with
the fewest digits in the interval the one nearest to the double is chosen, and
the even one of two that are equally near. -/
namespace StructuralTyping

/-- The value `digits * 10 ^ exponent`. -/
structure Decimal where
  digits : Nat
  exponent : Int
deriving DecidableEq, Repr

namespace Decimal

/-- Powers with a sign left out: a negative exponent counts as zero. -/
def power (base : Nat) (exponent : Int) : Nat := Nat.pow base exponent.toNat

/-- A positive value and the interval that is rounded to it, each over the same
denominator. -/
structure Rounding where
  value : Nat
  low : Nat
  high : Nat
  denominator : Nat
  endsIncluded : Bool
deriving DecidableEq, Repr

namespace Rounding

/-- The value is `significand * 2 ^ exponent`; just above a power of two the
double below is only half as far away as the one above. -/
def ofBinary (significand : Nat) (exponent : Int) (narrowBelow : Bool) : Rounding :=
  let scale := power 2 exponent
  { value := 4 * significand * scale
    low := (if narrowBelow then 4 * significand - 1 else 4 * significand - 2) * scale
    high := (4 * significand + 2) * scale
    denominator := 4 * power 2 (-exponent)
    endsIncluded := significand % 2 == 0 }

/-- The leading bit of the significand, which is not stored. -/
def hiddenBit : Nat := 0x10000000000000

/-- The positive finite double with these bits. -/
def ofBits (bits : UInt64) : Rounding :=
  let biased := ((bits >>> 52) &&& 0x7FF).toNat
  let fraction := (bits &&& 0xFFFFFFFFFFFFF).toNat
  if biased = 0 then ofBinary fraction (-1074) false
  else ofBinary (hiddenBit + fraction) ((biased : Int) - 1075) (fraction == 0 && biased != 1)

/-- Whether `digits * 10 ^ exponent` lies in the interval. -/
def contains (r : Rounding) (d : Decimal) : Bool :=
  let candidate := d.digits * power 10 d.exponent * r.denominator
  let scale := power 10 (-d.exponent)
  if r.endsIncluded then
    r.low * scale ≤ candidate && candidate ≤ r.high * scale
  else
    r.low * scale < candidate && candidate < r.high * scale

/-- The least power of ten that lifts a value below one to at least one. -/
def liftToOne (r : Rounding) : Nat → Nat → Nat
  | 0, count => count
  | fuel + 1, count =>
      if r.denominator ≤ r.value * power 10 count then count else liftToOne r fuel (count + 1)

/-- The least `k` with the value below `10 ^ k`. -/
def leadingPlace (r : Rounding) : Int :=
  if r.denominator ≤ r.value then
    ((Nat.toDigits 10 (r.value / r.denominator)).length : Int)
  else
    1 - (liftToOne r 400 1 : Int)

/-- The two neighbours of the value among the multiples of `10 ^ exponent`. -/
def floorAt (r : Rounding) (exponent : Int) : Nat :=
  r.value * power 10 (-exponent) / (power 10 exponent * r.denominator)

/-- Of two neighbours in the interval the nearer one, or the even one. -/
def nearer (r : Rounding) (below : Nat) (exponent : Int) : Nat :=
  let doubled := 2 * r.value * power 10 (-exponent)
  let middle := (2 * below + 1) * power 10 exponent * r.denominator
  if doubled < middle then below
  else if middle < doubled then below + 1
  else if below % 2 = 0 then below
  else below + 1

/-- The best decimal among the multiples of `10 ^ exponent`, if one is in the
interval. -/
def pick? (r : Rounding) (exponent : Int) : Option Decimal :=
  let below := r.floorAt exponent
  match r.contains ⟨below, exponent⟩, r.contains ⟨below + 1, exponent⟩ with
  | true, true => some ⟨r.nearer below exponent, exponent⟩
  | true, false => some ⟨below, exponent⟩
  | false, true => some ⟨below + 1, exponent⟩
  | false, false => none

/-- Digits are added one at a time until a decimal falls into the interval. -/
def search (r : Rounding) (place : Int) : Nat → Nat → Decimal
  | 0, count => ⟨r.floorAt (place - count), place - count⟩
  | fuel + 1, count =>
      match r.pick? (place - count) with
      | some d => d
      | none => search r place fuel (count + 1)

end Rounding

/-- Trailing zeros move into the exponent. -/
def dropZeros : Nat → Decimal → Decimal
  | 0, d => d
  | fuel + 1, d =>
      if d.digits ≠ 0 ∧ d.digits % 10 = 0 then
        dropZeros fuel ⟨d.digits / 10, d.exponent + 1⟩
      else d

/-- Seventeen digits tell any two doubles apart. -/
def longest : Nat := 17

/-- The shortest decimal of a positive finite double. -/
def shortest (bits : UInt64) : Decimal :=
  let r := Rounding.ofBits bits
  dropZeros longest (r.search r.leadingPlace longest 1)

end Decimal

end StructuralTyping
