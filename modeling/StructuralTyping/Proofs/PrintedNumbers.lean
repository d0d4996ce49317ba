import StructuralTyping.Json.Printer
import StructuralTyping.Json.Reader

/-! Reading numbers as they are written. A scanner that takes all of a text takes as much
of a longer one, if what follows ends a number. The digits of a natural number that fits 64
bits stand for that number. -/
namespace StructuralTyping.Json

/-- What may follow a value inside a text, or nothing. -/
def Ends (rest : List Char) : Prop := ∀ c ∈ rest.head?, c = ',' ∨ c = ']' ∨ c = '\x7d'

theorem Ends.nil : Ends [] := fun _ member => nomatch member

section Scanners
variable {text after rest : List Char} (ends : Ends rest)

include ends

theorem scanDigits_rest : scanDigits rest = ([], rest) := by
  cases rest with
  | nil => rfl
  | cons c rest =>
      obtain rfl | rfl | rfl := ends c rfl <;> rfl

theorem scanDigits_append (text : List Char) :
    scanDigits (text ++ rest) = ((scanDigits text).1, (scanDigits text).2 ++ rest) := by
  induction text with
  | nil => exact scanDigits_rest ends
  | cons c text ih =>
      rw [List.cons_append, scanDigits, scanDigits]
      cases digit? c with
      | none => rfl
      | some d => simp only [ih]

theorem scanInteger_append {digits : List Nat} (taken : scanInteger text = some (digits, after)) :
    scanInteger (text ++ rest) = some (digits, after ++ rest) := by
  rw [scanInteger] at taken ⊢
  rw [scanDigits_append ends]
  generalize scanDigits text = scanned at taken
  obtain ⟨_ | ⟨_ | d, _ | ⟨d', ds⟩⟩, tail⟩ := scanned <;> cases taken <;> rfl

omit ends in
theorem scanFraction_other {c : Char} (other : c ≠ '.') (text : List Char) :
    scanFraction (c :: text) = some (none, c :: text) := by
  rw [scanFraction.eq_def]
  split
  · next same => exact absurd (List.cons.inj same).1 other
  · rfl

theorem scanFraction_append {digits : Option (List Nat)}
    (taken : scanFraction text = some (digits, after)) :
    scanFraction (text ++ rest) = some (digits, after ++ rest) := by
  rcases text with _ | ⟨c, text⟩
  · cases taken
    cases rest with
    | nil => rfl
    | cons c rest => obtain rfl | rfl | rfl := ends c rfl <;> rfl
  · by_cases point : c = '.'
    · subst point
      rw [List.cons_append, scanFraction] at *
      rw [scanDigits_append ends]
      generalize scanDigits text = scanned at taken
      obtain ⟨_ | ⟨d, ds⟩, tail⟩ := scanned
      · cases taken
      · cases taken
        rfl
    · rw [scanFraction_other point] at taken
      cases taken
      exact scanFraction_other point _

theorem scanExponentDigits_append {sign : Int} {exponent : Option Int}
    (taken : scanExponentDigits sign text = some (exponent, after)) :
    scanExponentDigits sign (text ++ rest) = some (exponent, after ++ rest) := by
  rw [scanExponentDigits] at taken ⊢
  rw [scanDigits_append ends]
  generalize scanDigits text = scanned at taken
  obtain ⟨_ | ⟨d, ds⟩, tail⟩ := scanned
  · cases taken
  · cases taken
    rfl

theorem scanExponent_append {exponent : Option Int}
    (taken : scanExponent text = some (exponent, after)) :
    scanExponent (text ++ rest) = some (exponent, after ++ rest) := by
  rcases text with _ | ⟨c, text⟩
  · cases taken
    cases rest with
    | nil => rfl
    | cons c rest => obtain rfl | rfl | rfl := ends c rfl <;> rfl
  unfold scanExponent at *
  rw [List.cons_append]
  dsimp only at *
  split at taken
  · next mark =>
      rw [if_pos mark]
      rcases text with _ | ⟨sign, text⟩
      · cases taken
      by_cases minus : sign = '-'
      · subst minus
        exact scanExponentDigits_append ends taken
      by_cases plus : sign = '+'
      · subst plus
        exact scanExponentDigits_append ends taken
      rw [List.cons_append]
      split at taken
      · next same => exact absurd (List.cons.inj same).1 minus
      · next same => exact absurd (List.cons.inj same).1 plus
      split
      · next same => exact absurd (List.cons.inj same).1 minus
      · next same => exact absurd (List.cons.inj same).1 plus
      · exact scanExponentDigits_append ends taken
  · next mark =>
      rw [if_neg mark]
      cases taken
      rfl

/-- What is scanned of a number behind its sign. -/
def scanUnsigned (negative : Bool) (text : List Char) : Option (NumberText × List Char) := do
  let (integer, text) ← scanInteger text
  let (fraction, text) ← scanFraction text
  let (exponent, text) ← scanExponent text
  return (⟨negative, integer, fraction, exponent⟩, text)

omit ends in
theorem scanNumber_unsigned {c : Char} (plain : c ≠ '-') (text : List Char) :
    scanNumber (c :: text) = scanUnsigned false (c :: text) := by
  unfold scanNumber
  split
  next negative scanned split =>
    split at split
    · next same => exact absurd (List.cons.inj same).1 plain
    · cases split
      rfl

/-- The scanner of a number takes no less of a longer text. -/
theorem scanNumber_append {written : NumberText} (taken : scanNumber text = some (written, after)) :
    scanNumber (text ++ rest) = some (written, after ++ rest) := by
  have unsigned {negative : Bool} {text : List Char}
      (taken : scanUnsigned negative text = some (written, after)) :
      scanUnsigned negative (text ++ rest) = some (written, after ++ rest) := by
    obtain ⟨⟨integer, one⟩, first, taken⟩ := Option.bind_eq_some_iff.mp taken
    obtain ⟨⟨fraction, two⟩, second, taken⟩ := Option.bind_eq_some_iff.mp taken
    obtain ⟨⟨exponent, three⟩, third, taken⟩ := Option.bind_eq_some_iff.mp taken
    cases taken
    simp only [scanUnsigned, scanInteger_append ends first, scanFraction_append ends second,
      scanExponent_append ends third, Option.bind_eq_bind, Option.bind_some]
    rfl
  rcases text with _ | ⟨c, text⟩
  · cases taken
  by_cases minus : c = '-'
  · subst minus
    exact @unsigned true text taken
  · rw [scanNumber_unsigned minus] at taken
    rw [List.cons_append, scanNumber_unsigned minus]
    exact unsigned taken

end Scanners

section Digits

def digitValue (c : Char) : Nat := c.toNat - '0'.toNat

/-- The decimal digits of a number, the leading one first. -/
def digits (n : Nat) : List Nat := (Nat.toDigits 10 n).map digitValue

theorem digits_of_lt {n : Nat} (small : n < 10) : digits n = [n] := by
  rw [digits, Nat.toDigits_of_lt_base small]
  exact congrArg (· :: []) (Nat.toNat_digitChar_sub_48_of_lt_ten small)

theorem digits_of_le {n : Nat} (large : 10 ≤ n) : digits n = digits (n / 10) ++ [n % 10] := by
  have last : digitValue (Nat.digitChar (n % 10)) = n % 10 :=
    Nat.toNat_digitChar_sub_48_of_lt_ten (Nat.mod_lt n (by decide))
  rw [digits, Nat.toDigits_of_base_le (by decide) large, List.map_append, List.map_singleton, last]
  rfl

/-- No number but zero is written with a leading zero. -/
theorem digits_of_pos {n : Nat} (positive : 0 < n) : ∃ d rest, digits n = (d + 1) :: rest := by
  induction n using Nat.strongRecOn with
  | ind n ih =>
      by_cases small : n < 10
      · exact ⟨n - 1, [], by rw [digits_of_lt small, Nat.sub_add_cancel positive]⟩
      · obtain ⟨d, rest, same⟩ := ih (n / 10) (by omega) (by omega)
        exact ⟨d, rest ++ [n % 10], by rw [digits_of_le (by omega), same, List.cons_append]⟩

theorem digit?_of_isDigit {c : Char} (isDigit : c.isDigit = true) :
    digit? c = some (digitValue c) := by
  have bounds : '0' ≤ c ∧ c ≤ '9' := by simpa [Char.isDigit, Char.le_def] using isDigit
  rw [digit?, if_pos bounds, digitValue]

theorem scanDigits_of_isDigit {text : List Char} (all : ∀ c ∈ text, c.isDigit = true) :
    scanDigits text = (text.map digitValue, []) := by
  induction text with
  | nil => rfl
  | cons c rest ih =>
      obtain ⟨here, later⟩ := List.forall_mem_cons.mp all
      rw [scanDigits, digit?_of_isDigit here]
      simp only [ih later, List.map_cons]

theorem isDigit_toDigits (n : Nat) : ∀ c ∈ Nat.toDigits 10 n, c.isDigit = true :=
  fun _ member => Nat.isDigit_of_mem_toDigits (by decide) (by decide) member

theorem scanInteger_toDigits (n : Nat) :
    scanInteger (Nat.toDigits 10 n) = some (digits n, []) := by
  have scanned : scanDigits (Nat.toDigits 10 n) = (digits n, []) :=
    scanDigits_of_isDigit (isDigit_toDigits n)
  rw [scanInteger, scanned]
  rcases Nat.eq_zero_or_pos n with rfl | positive
  · rfl
  · obtain ⟨d, rest, same⟩ := digits_of_pos positive
    rw [same]
    rfl

theorem scanUnsigned_toDigits (n : Nat) :
    scanUnsigned false (Nat.toDigits 10 n) = some (⟨false, digits n, none, none⟩, []) := by
  rw [scanUnsigned, scanInteger_toDigits]
  rfl

end Digits

section Values
open NumberText

theorem gather_append {significand gathered : Nat} {first : List Nat}
    (all : gather significand first = (gathered, 0)) (rest : List Nat) :
    gather significand (first ++ rest) = gather gathered rest := by
  induction first generalizing significand with
  | nil =>
      cases all
      rfl
  | cons d first ih =>
      rw [List.cons_append, gather] at *
      split at all
      · next fits =>
          rw [if_pos fits]
          exact ih all
      · exact absurd (Prod.mk.inj all).2 (Nat.succ_ne_zero _)

/-- The digits of a number of 64 bits are gathered to the number. -/
theorem gather_digits {n : Nat} (fits : n ≤ largestWord) : gather 0 (digits n) = (n, 0) := by
  induction n using Nat.strongRecOn with
  | ind n ih =>
      by_cases small : n < 10
      · have here : 0 * 10 + n ≤ largestWord := by omega
        rw [digits_of_lt small, gather, if_pos here, gather, Nat.zero_mul, Nat.zero_add]
      · have before := ih (n / 10) (by omega) (by omega)
        have here : n / 10 * 10 + n % 10 ≤ largestWord := by omega
        rw [digits_of_le (by omega), gather_append before, gather, if_pos here, gather,
          Nat.div_add_mod']

theorem value?_natural {n : Nat} (fits : n ≤ largestWord) :
    (⟨false, digits n, none, none⟩ : NumberText).value? = some (.natural n) := by
  simp only [value?, gather_digits fits, Bool.not_false, if_true]

end Values

section Remainders
variable {text after : List Char}

theorem scanDigits_suffix (text : List Char) : (scanDigits text).2 <:+ text := by
  induction text with
  | nil => exact List.suffix_refl []
  | cons c text ih =>
      rw [scanDigits]
      cases digit? c with
      | none => exact List.suffix_refl _
      | some d => exact ih.trans (List.suffix_cons c text)

theorem scanInteger_suffix {digits : List Nat} (taken : scanInteger text = some (digits, after)) :
    after <:+ text := by
  have suffix := scanDigits_suffix text
  rw [scanInteger] at taken
  generalize scanDigits text = scanned at taken suffix
  obtain ⟨_ | ⟨_ | d, _ | ⟨d', ds⟩⟩, tail⟩ := scanned <;> cases taken <;> exact suffix

theorem scanFraction_suffix {digits : Option (List Nat)}
    (taken : scanFraction text = some (digits, after)) : after <:+ text := by
  rcases text with _ | ⟨c, text⟩
  · cases taken
    exact List.suffix_refl []
  by_cases point : c = '.'
  · subst point
    have suffix := scanDigits_suffix text
    rw [scanFraction] at taken
    generalize scanDigits text = scanned at taken suffix
    obtain ⟨_ | ⟨d, ds⟩, tail⟩ := scanned
    · cases taken
    · cases taken
      exact suffix.trans (List.suffix_cons _ _)
  · rw [scanFraction_other point] at taken
    cases taken
    exact List.suffix_refl _

theorem scanExponentDigits_suffix {sign : Int} {exponent : Option Int}
    (taken : scanExponentDigits sign text = some (exponent, after)) : after <:+ text := by
  have suffix := scanDigits_suffix text
  rw [scanExponentDigits] at taken
  generalize scanDigits text = scanned at taken suffix
  obtain ⟨_ | ⟨d, ds⟩, tail⟩ := scanned
  · cases taken
  · cases taken
    exact suffix

theorem scanExponent_suffix {exponent : Option Int}
    (taken : scanExponent text = some (exponent, after)) : after <:+ text := by
  rcases text with _ | ⟨c, text⟩
  · cases taken
    exact List.suffix_refl []
  unfold scanExponent at taken
  dsimp only at taken
  split at taken
  · refine List.IsSuffix.trans ?_ (List.suffix_cons c text)
    split at taken
    · exact (scanExponentDigits_suffix taken).trans (List.suffix_cons _ _)
    · exact (scanExponentDigits_suffix taken).trans (List.suffix_cons _ _)
    · exact scanExponentDigits_suffix taken
  · cases taken
    exact List.suffix_refl _

/-- What a scanner leaves is the end of the text. -/
theorem scanNumber_suffix {written : NumberText} (taken : scanNumber text = some (written, after)) :
    after <:+ text := by
  have unsigned {negative : Bool} {text : List Char}
      (taken : scanUnsigned negative text = some (written, after)) : after <:+ text := by
    obtain ⟨⟨integer, one⟩, first, taken⟩ := Option.bind_eq_some_iff.mp taken
    obtain ⟨⟨fraction, two⟩, second, taken⟩ := Option.bind_eq_some_iff.mp taken
    obtain ⟨⟨exponent, three⟩, third, taken⟩ := Option.bind_eq_some_iff.mp taken
    cases taken
    exact ((scanExponent_suffix third).trans (scanFraction_suffix second)).trans
      (scanInteger_suffix first)
  rcases text with _ | ⟨c, text⟩
  · cases taken
  by_cases minus : c = '-'
  · subst minus
    exact (@unsigned true text taken).trans (List.suffix_cons _ _)
  · exact unsigned (scanNumber_unsigned minus text ▸ taken)

end Remainders

section Shapes

/-- The first character of a number. -/
def StartsNumber (c : Char) : Prop := c = '-' ∨ c.isDigit = true

/-- The text starts as a number does and has no blanks. -/
structure LooksNumeric (text : List Char) : Prop where
  starts : ∃ c rest, text = c :: rest ∧ StartsNumber c
  solid : ∀ c ∈ text, isBlank c = false

theorem isBlank_of_isDigit {c : Char} (isDigit : c.isDigit = true) : isBlank c = false := by
  cases blank : isBlank c with
  | false => rfl
  | true =>
      simp only [isBlank, Bool.or_eq_true, beq_iff_eq] at blank
      obtain ((rfl | rfl) | rfl) | rfl := blank <;> exact absurd isDigit (by decide)

theorem LooksNumeric.append {first rest : List Char} (one : LooksNumeric first)
    (solid : ∀ c ∈ rest, isBlank c = false) : LooksNumeric (first ++ rest) := by
  obtain ⟨⟨c, tail, rfl, here⟩, filled⟩ := one
  exact ⟨⟨c, tail ++ rest, rfl, here⟩, List.forall_mem_append.mpr ⟨filled, solid⟩⟩

theorem looksNumeric_of_isDigit {text : List Char} (some : text ≠ [])
    (all : ∀ c ∈ text, c.isDigit = true) : LooksNumeric text := by
  obtain ⟨c, rest, rfl⟩ := List.exists_cons_of_ne_nil some
  exact ⟨⟨c, rest, rfl, .inr (all c List.mem_cons_self)⟩,
    fun c member => isBlank_of_isDigit (all c member)⟩

theorem looksNumeric_toDigits (n : Nat) : LooksNumeric (Nat.toDigits 10 n) :=
  looksNumeric_of_isDigit Nat.toDigits_ne_nil (isDigit_toDigits n)

theorem looksNumeric_minus {text : List Char} (looks : LooksNumeric text) :
    LooksNumeric ('-' :: text) :=
  ⟨⟨_, _, rfl, .inl rfl⟩, List.forall_mem_cons.mpr ⟨rfl, looks.solid⟩⟩

section Layouts
open Decimal
variable {digits : List Char} (some : digits ≠ []) (all : ∀ c ∈ digits, c.isDigit = true)

theorem solid_zeros (count : Nat) : ∀ c ∈ zeros count, isBlank c = false := by
  intro c member
  obtain rfl := List.eq_of_mem_replicate member
  rfl

include all in
theorem solid_drop (count : Nat) : ∀ c ∈ digits.drop count, isBlank c = false :=
  fun c member => isBlank_of_isDigit (all c (List.mem_of_mem_drop member))

include some all in
theorem looksNumeric_take {count : Nat} (positive : 0 < count) :
    LooksNumeric (digits.take count) := by
  refine looksNumeric_of_isDigit ?_ fun c member => all c (List.mem_of_mem_take member)
  intro none
  rcases List.take_eq_nil_iff.mp none with zero | empty
  · omega
  · exact some empty

include some all in
theorem looksNumeric_layoutPlain (exponent : Int) :
    LooksNumeric (layoutPlain digits exponent) := by
  rw [layoutPlain]
  split
  · have zeroed := (looksNumeric_of_isDigit some all).append (solid_zeros exponent.toNat)
    exact zeroed.append (by simp [isBlank])
  split
  · next inside =>
      refine (looksNumeric_take some all (by omega)).append ?_
      exact List.forall_mem_cons.mpr ⟨rfl, solid_drop all _⟩
  · have pointed (count : Nat) : LooksNumeric ('0' :: '.' :: zeros count) :=
      (looksNumeric_toDigits 0).append (List.forall_mem_cons.mpr ⟨rfl, solid_zeros count⟩)
    exact (pointed _).append fun c member => isBlank_of_isDigit (all c member)

include some all in
theorem looksNumeric_layoutScientific (exponent : Int) :
    LooksNumeric (layoutScientific digits exponent) := by
  have mantissa : LooksNumeric
      (if digits.length ≤ 1 then digits else digits.take 1 ++ '.' :: digits.drop 1) := by
    split
    · exact looksNumeric_of_isDigit some all
    · refine (looksNumeric_take some all Nat.one_pos).append ?_
      exact List.forall_mem_cons.mpr ⟨rfl, solid_drop all _⟩
  refine mantissa.append (List.forall_mem_cons.mpr ⟨rfl, List.forall_mem_cons.mpr ⟨?_, ?_⟩⟩)
  · split <;> rfl
  · exact (looksNumeric_toDigits _).solid

end Layouts

/-- A finite double is written as a number. -/
theorem looksNumeric_print {x : Float} {text : String} (printed : Decimal.print? x = some text) :
    LooksNumeric text.toList := by
  have body (magnitude : UInt64) : LooksNumeric
      (if magnitude == 0 then ['0', '.', '0']
        else Decimal.layout (Decimal.shortest magnitude)) := by
    split
    · exact (looksNumeric_toDigits 0).append (by simp [isBlank])
    · have laid := isDigit_toDigits (Decimal.shortest magnitude).digits
      rw [Decimal.layout]
      split
      · exact looksNumeric_layoutPlain Nat.toDigits_ne_nil laid _
      · exact looksNumeric_layoutScientific Nat.toDigits_ne_nil laid _
  rw [Decimal.print?] at printed
  split at printed
  · obtain rfl := Option.some.inj printed
    rw [String.toList_ofList]
    split
    · exact body _
    · exact looksNumeric_minus (body _)
  · cases printed

end Shapes

end StructuralTyping.Json
