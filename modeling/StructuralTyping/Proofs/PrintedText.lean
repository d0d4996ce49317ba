import StructuralTyping.Proofs.PrintedNumbers

/-! A value is read back from its text. Strings are, whatever they hold, and numbers have to
be so one by one: a double is read as the nearest one only where the reader of numbers is
that exact. -/
namespace StructuralTyping

/-- The number is read back from the text that it is written as. -/
def JsonNumber.ReadsBack (n : JsonNumber) : Prop :=
  Json.parse? (Json.compact (.number n)) = some (.number n)

namespace Json

mutual

/-- Every number in the value is read back, and no part of it stands for nothing. -/
def ReadsBack : Json → Prop
  | null => True
  | bool _ => True
  | number n => n.ReadsBack
  | string _ => True
  | array items => ItemsReadBack items
  | object members => MembersReadBack members
  | unreadable => False

def ItemsReadBack : List Json → Prop
  | [] => True
  | item :: rest => item.ReadsBack ∧ ItemsReadBack rest

def MembersReadBack : List (String × Json) → Prop
  | [] => True
  | (_, value) :: rest => value.ReadsBack ∧ MembersReadBack rest

end

section Blanks

theorem skipBlank_of_solid {c : Char} (solid : isBlank c = false) (rest : List Char) :
    skipBlank (c :: rest) = c :: rest := by
  rw [skipBlank, solid]
  rfl

theorem skipBlank_eq_nil {text : List Char} (solid : ∀ c ∈ text, isBlank c = false)
    (blank : skipBlank text = []) : text = [] := by
  cases text with
  | nil => rfl
  | cons c rest =>
      rw [skipBlank_of_solid (solid c List.mem_cons_self)] at blank
      cases blank

end Blanks

section Strings

theorem hexDigit?_lowerHexDigit : ∀ n < 16, hexDigit? (lowerHexDigit n) = some n := by
  decide

theorem scanString_escapeChar (acc : List StringPart) (c : Char) (rest : List Char) :
    scanString acc (escapeChar c ++ rest) = scanString (.char c :: acc) rest := by
  by_cases quote : c = '"'
  · subst quote; rfl
  by_cases backslash : c = '\\'
  · subst backslash; rfl
  by_cases backspace : c = '\x08'
  · subst backspace; rfl
  by_cases feed : c = '\x0c'
  · subst feed; rfl
  by_cases newline : c = '\n'
  · subst newline; rfl
  by_cases back : c = '\r'
  · subst back; rfl
  by_cases tab : c = '\t'
  · subst tab; rfl
  simp only [escapeChar, beq_iff_eq, quote, backslash, backspace, feed, newline, back, tab,
    if_false]
  split
  · next control =>
      have zero : hexDigit? '0' = some 0 := by decide
      have high := hexDigit?_lowerHexDigit (c.toNat / 16) (by omega)
      have low := hexDigit?_lowerHexDigit (c.toNat % 16) (by omega)
      have unit : hexWord? '0' '0' (lowerHexDigit (c.toNat / 16)) (lowerHexDigit (c.toNat % 16)) =
          some c.toNat := by
        simp only [hexWord?, zero, high, low, Option.bind_eq_bind, Option.bind_some,
          Option.pure_def, Option.some.injEq]
        omega
      have whole : StringPart.ofUnit c.toNat = .char c := by
        have high : isHighSurrogate c.toNat = false := by simp [isHighSurrogate]; omega
        have low : isLowSurrogate c.toNat = false := by simp [isLowSurrogate]; omega
        rw [StringPart.ofUnit, high, low, Char.ofNat_toNat]
        rfl
      rw [List.cons_append, List.cons_append, List.cons_append, List.cons_append,
        List.cons_append, List.cons_append, List.nil_append, scanString, unit]
      simp only [whole]
  · next plain =>
      have printable : (c.toNat < 0x20 || c == '\\') = false := by
        simp [backslash, Nat.not_lt.mp plain]
      rw [List.cons_append, List.nil_append, scanString, printable]
      · rfl
      · exact quote
      · exact fun _ _ _ _ _ same => absurd same backslash
      · exact fun _ _ same => absurd same backslash

/-- A quoted text is read up to the quote at its end. -/
theorem scanString_quoted (text : List Char) (acc : List StringPart) (rest : List Char) :
    scanString acc (text.flatMap escapeChar ++ '"' :: rest) =
      some (acc.reverse ++ text.map .char, rest) := by
  induction text generalizing acc with
  | nil => rw [List.flatMap_nil, List.nil_append, scanString, List.map_nil, List.append_nil]
  | cons c text ih =>
      rw [List.flatMap_cons, List.append_assoc, scanString_escapeChar, ih, List.reverse_cons,
        List.append_assoc, List.map_cons]
      rfl

theorem joinHalves_chars (acc text : List Char) :
    joinHalves acc (text.map .char) = some (acc.reverse ++ text) := by
  induction text generalizing acc with
  | nil => rw [List.map_nil, joinHalves, List.append_nil]
  | cons c text ih => rw [List.map_cons, joinHalves, ih, List.reverse_cons, List.append_assoc]; rfl

theorem wholeText?_chars (s : String) : wholeText? (s.toList.map .char) = some s := by
  rw [wholeText?, joinHalves_chars]
  exact congrArg some String.ofList_toList

end Strings

section Numbers

theorem StartsNumber.solid {c : Char} (starts : StartsNumber c) : isBlank c = false := by
  obtain rfl | isDigit := starts
  · rfl
  · exact isBlank_of_isDigit isDigit

theorem StartsNumber.ne {c other : Char} (starts : StartsNumber c) (minus : other ≠ '-')
    (digit : other.isDigit = false) : c ≠ other := by
  rintro rfl
  obtain same | isDigit := starts
  · exact minus same
  · rw [digit] at isDigit
    cases isDigit

/-- What starts as a number does is nothing else. -/
theorem scanValue_number {c : Char} (starts : StartsNumber c) (fuel : Nat) (text : List Char) :
    scanValue (fuel + 1) (c :: text) =
      (scanNumber (c :: text)).map fun (written, rest) => (ofNumberText written, rest) := by
  rw [scanValue, skipBlank_of_solid starts.solid]
  split
  · next same => exact absurd (List.cons.inj same).1 (starts.ne (by decide) (by decide))
  · next same => exact absurd (List.cons.inj same).1 (starts.ne (by decide) (by decide))
  · next same => exact absurd (List.cons.inj same).1 (starts.ne (by decide) (by decide))
  · next same => exact absurd (List.cons.inj same).1 (starts.ne (by decide) (by decide))
  · next same => exact absurd (List.cons.inj same).1 (starts.ne (by decide) (by decide))
  · next same => exact absurd (List.cons.inj same).1 (starts.ne (by decide) (by decide))
  · rfl

theorem toList_toString (n : Nat) : (toString n).toList = Nat.toDigits 10 n := by
  rw [Nat.toString_eq_ofList_toDigits, String.toList_ofList]

/-- A number is parsed by scanning its text. -/
theorem parse?_number {n : JsonNumber} (numeric : LooksNumeric (printNumber n)) :
    parse? (compact (number n)) = (scanNumber (printNumber n)).bind fun (written, rest) =>
      if (skipBlank rest).isEmpty then some (ofNumberText written) else none := by
  obtain ⟨⟨c, text, same, starts⟩, -⟩ := numeric
  rw [parse?, compact, String.toList_ofList, printCompact, same, scanValue_number starts]
  cases scanNumber (c :: text) <;> rfl

/-- A number is read back if it is what its text stands for. -/
theorem readsBack_of_scan {n : JsonNumber} {written : NumberText}
    (numeric : LooksNumeric (printNumber n))
    (scanned : scanNumber (printNumber n) = some (written, []))
    (value : written.value? = some n) : n.ReadsBack := by
  rw [JsonNumber.ReadsBack, parse?_number numeric, scanned, Option.bind_some]
  simp only [ofNumberText, value]
  rfl

theorem printNumber_natural (n : Nat) : printNumber (.natural n) = Nat.toDigits 10 n :=
  toList_toString n

theorem printNumber_real {x : Float} {text : String} (printed : Decimal.print? x = some text) :
    printNumber (.real x) = text.toList := by
  rw [printNumber, printed, Option.getD_some]

/-- A number that is read back is written as a number. -/
theorem looksNumeric_readsBack {n : JsonNumber} (back : n.ReadsBack) :
    LooksNumeric (printNumber n) := by
  cases n with
  | natural n => exact printNumber_natural n ▸ looksNumeric_toDigits n
  | negative n =>
      rw [printNumber, toList_toString]
      exact looksNumeric_minus (looksNumeric_toDigits n)
  | real x =>
      cases printed : Decimal.print? x with
      | some text =>
          rw [printNumber_real printed]
          exact looksNumeric_print printed
      | none =>
          have text : compact (.number (.real x)) = "null" := by
            simp [compact, printCompact, printNumber, printed]
          have null : parse? "null" = some null := rfl
          rw [JsonNumber.ReadsBack, text, null] at back
          cases back

/-- A number that is read back is scanned to the end of its text. -/
theorem scanNumber_readsBack {n : JsonNumber} (back : n.ReadsBack) :
    ∃ written, scanNumber (printNumber n) = some (written, []) ∧
      ofNumberText written = number n := by
  have numeric := looksNumeric_readsBack back
  rw [JsonNumber.ReadsBack, parse?_number numeric, Option.bind_eq_some_iff] at back
  obtain ⟨⟨written, after⟩, scanned, back⟩ := back
  dsimp only at back
  split at back
  · next empty =>
      have kept := (scanNumber_suffix scanned).subset
      have none := skipBlank_eq_nil (fun c member => numeric.solid c (kept member))
        (List.isEmpty_iff.mp empty)
      exact ⟨written, by rw [scanned, none], Option.some.inj back⟩
  · cases back

/-- A double is read back if it is what the text that it is written as stands for. -/
theorem readsBack_real {x : Float} (text : String) (written : NumberText)
    (printed : Decimal.print? x = some text)
    (scanned : scanNumber text.toList = some (written, []))
    (value : written.value? = some (.real x)) : (JsonNumber.real x).ReadsBack := by
  have same := printNumber_real printed
  exact readsBack_of_scan (same ▸ looksNumeric_print printed) (same ▸ scanned) value

/-- A natural number of 64 bits is read back. -/
theorem readsBack_natural {n : Nat} (fits : n ≤ NumberText.largestWord) :
    (JsonNumber.natural n).ReadsBack := by
  have same := printNumber_natural n
  obtain ⟨⟨c, text, starting, starts⟩, -⟩ := looksNumeric_toDigits n
  have plain : c ≠ '-' := by
    rintro rfl
    have isDigit := isDigit_toDigits n '-' (starting ▸ List.mem_cons_self)
    cases isDigit
  have scanned : scanNumber (Nat.toDigits 10 n) = some (⟨false, digits n, none, none⟩, []) := by
    rw [starting, scanNumber_unsigned plain, ← starting]
    exact scanUnsigned_toDigits n
  exact readsBack_of_scan (same ▸ looksNumeric_toDigits n) (same ▸ scanned) (value?_natural fits)

end Numbers

section Values

/-- The text of a value starts with a character that is neither blank nor a bracket that
closes. -/
theorem printCompact_starts {j : Json} (back : j.ReadsBack) :
    ∃ c rest, printCompact j = c :: rest ∧ isBlank c = false ∧ c ≠ ']' := by
  cases j with
  | null => exact ⟨_, _, rfl, rfl, by decide⟩
  | bool value => cases value <;> exact ⟨_, _, rfl, rfl, by decide⟩
  | number n =>
      obtain ⟨⟨c, rest, same, starts⟩, -⟩ := looksNumeric_readsBack back
      exact ⟨c, rest, same, starts.solid, starts.ne (by decide) (by decide)⟩
  | string s => exact ⟨_, _, rfl, rfl, by decide⟩
  | array items => exact ⟨_, _, rfl, rfl, by decide⟩
  | object members => exact ⟨_, _, rfl, rfl, by decide⟩
  | unreadable => cases back

section Texts
variable (rest : List Char)

theorem printCompactItems_last (item : Json) :
    printCompactItems [item] ++ rest = printCompact item ++ rest := by
  simp [printCompactItems]

theorem printCompactItems_more (item next : Json) (items : List Json) :
    printCompactItems (item :: next :: items) ++ rest =
      printCompact item ++ ',' :: (printCompactItems (next :: items) ++ rest) := by
  rw [printCompactItems]
  simp

theorem printCompactMembers_last (name : String) (value : Json) :
    printCompactMembers [(name, value)] ++ rest =
      quote name ++ ':' :: (printCompact value ++ rest) := by
  simp [printCompactMembers]

theorem printCompactMembers_more (name : String) (value : Json) (next : String × Json)
    (members : List (String × Json)) :
    printCompactMembers ((name, value) :: next :: members) ++ rest =
      quote name ++ ':' :: (printCompact value ++
        ',' :: (printCompactMembers (next :: members) ++ rest)) := by
  rw [printCompactMembers]
  simp

end Texts

/-- A list of items has no more of them than characters. -/
theorem length_printCompactItems {items : List Json} (back : ItemsReadBack items) :
    items.length ≤ (printCompactItems items).length := by
  induction items with
  | nil => exact Nat.zero_le _
  | cons item rest ih =>
      obtain ⟨c, text, same, -⟩ := printCompact_starts back.1
      have later := ih back.2
      simp only [printCompactItems, same, List.length_append, List.length_cons]
      omega

theorem length_printCompactMembers (members : List (String × Json)) :
    members.length ≤ (printCompactMembers members).length := by
  induction members with
  | nil => exact Nat.zero_le _
  | cons member rest ih =>
      simp only [printCompactMembers, List.length_append, List.length_cons]
      omega

theorem ofMembers_named (members : List (String × Json)) :
    ofMembers (members.map fun member => (some member.1, member.2)) = object members := by
  have named : (members.map fun member => (some member.1, member.2)).mapM
      (fun member : Option String × Json => member.1.map fun name => (name, member.2)) =
        some members := by
    induction members with
    | nil => rfl
    | cons member rest ih => simp [ih]
  rw [ofMembers, named]

theorem quote_append (s : String) (rest : List Char) :
    quote s ++ rest = '"' :: (s.toList.flatMap escapeChar ++ '"' :: rest) := by
  simp [quote]

theorem scanValue_string (s : String) (fuel : Nat) (rest : List Char) :
    scanValue (fuel + 1) (quote s ++ rest) = some (string s, rest) := by
  rw [quote_append, scanValue, skipBlank_of_solid rfl]
  simp only [scanString_quoted, List.reverse_nil, List.nil_append, Option.map_some,
    wholeText?_chars, Option.getD_some]

theorem scanValue_array {c : Char} (solid : isBlank c = false) (opens : c ≠ ']') (fuel : Nat)
    (text : List Char) : scanValue (fuel + 1) ('[' :: c :: text) =
      (scanItems (scanValue fuel) fuel (c :: text)).map fun (items, rest) =>
        (array items, rest) := by
  rw [scanValue, skipBlank_of_solid rfl]
  simp only [skipBlank_of_solid solid]
  split
  · next same => exact absurd (List.cons.inj same).1 opens
  · rfl

theorem scanValue_object (fuel : Nat) (text : List Char) :
    scanValue (fuel + 1) ('\x7b' :: '"' :: text) =
      (scanMembers (scanValue fuel) fuel ('"' :: text)).map fun (members, rest) =>
        (ofMembers members, rest) := by
  rw [scanValue, skipBlank_of_solid rfl]
  have quoted : skipBlank ('"' :: text) = '"' :: text := skipBlank_of_solid rfl text
  simp only [quoted]
  rfl

section Entries
variable {scanItem : List Char → Option (Json × List Char)} {item : Json}
  {text rest after : List Char} (count : Nat)

/-- An item is followed by the end of the list or by more of them. -/
theorem scanItems_step {items : List Json} (scanned : scanItem text = some (item, rest))
    (follows : rest = ']' :: after ∧ items = [] ∨
      ∃ more, rest = ',' :: more ∧ scanItems scanItem count more = some (items, after)) :
    scanItems scanItem (count + 1) text = some (item :: items, after) := by
  rw [scanItems, scanned]
  obtain ⟨rfl, rfl⟩ | ⟨more, rfl, others⟩ := follows
  · rfl
  · have comma : skipBlank (',' :: more) = ',' :: more := skipBlank_of_solid rfl more
    simp only [Option.bind_eq_bind, Option.bind_some, comma, others]
    rfl

theorem scanMembers_step {name : String} {members : List (Option String × Json)}
    (scanned : scanItem text = some (item, rest))
    (follows : rest = '\x7d' :: after ∧ members = [] ∨
      ∃ more, rest = ',' :: more ∧ scanMembers scanItem count more = some (members, after)) :
    scanMembers scanItem (count + 1) (quote name ++ ':' :: text) =
      some ((some name, item) :: members, after) := by
  have colon : skipBlank (':' :: text) = ':' :: text := skipBlank_of_solid rfl text
  rw [quote_append, scanMembers, skipBlank_of_solid rfl]
  simp only [scanString_quoted, Option.bind_eq_bind, Option.bind_some, colon, scanned,
    List.reverse_nil, List.nil_append, wholeText?_chars]
  obtain ⟨rfl, rfl⟩ | ⟨more, rfl, others⟩ := follows
  · rfl
  · have comma : skipBlank (',' :: more) = ',' :: more := skipBlank_of_solid rfl more
    simp only [comma, others]
    rfl

end Entries

theorem Ends.comma (rest : List Char) : Ends (',' :: rest) := by
  rintro _ ⟨⟩
  exact .inl rfl

theorem Ends.bracket (rest : List Char) : Ends (']' :: rest) := by
  rintro _ ⟨⟩
  exact .inr (.inl rfl)

theorem Ends.brace (rest : List Char) : Ends ('\x7d' :: rest) := by
  rintro _ ⟨⟩
  exact .inr (.inr rfl)

mutual

/-- A value is scanned from its text, and what follows is left. The fuel is used up no
faster than the text. -/
theorem scanValue_printCompact : ∀ j : Json, j.ReadsBack → ∀ (fuel : Nat) (rest : List Char),
    (printCompact j).length ≤ fuel → Ends rest →
      scanValue fuel (printCompact j ++ rest) = some (j, rest)
  | j, back, 0, rest, enough, ends => by
      obtain ⟨c, text, same, -⟩ := printCompact_starts back
      rw [same] at enough
      cases enough
  | null, _, _ + 1, _, _, _ => rfl
  | bool true, _, _ + 1, _, _, _ => rfl
  | bool false, _, _ + 1, _, _, _ => rfl
  | number n, back, fuel + 1, rest, _, ends => by
      obtain ⟨⟨c, text, same, starts⟩, -⟩ := looksNumeric_readsBack back
      obtain ⟨written, scanned, value⟩ := scanNumber_readsBack back
      have longer := scanNumber_append ends scanned
      rw [same, List.cons_append] at longer
      rw [printCompact, same, List.cons_append, scanValue_number starts, longer]
      simp only [Option.map_some, value, List.nil_append]
  | string s, _, fuel + 1, rest, _, _ => scanValue_string s fuel rest
  | array [], _, _ + 1, _, _, _ => rfl
  | array (item :: items), back, fuel + 1, rest, enough, _ => by
      obtain ⟨c, text, same, solid, opens⟩ := printCompact_starts back.1
      have room : (printCompactItems (item :: items)).length ≤ fuel := by
        simp only [printCompact, List.length_cons, List.length_append] at enough
        omega
      have several := Nat.le_trans (length_printCompactItems back) room
      have scanned := scanItems_printCompact (item :: items) (List.cons_ne_nil _ _) back fuel fuel
        rest room several
      have starts : printCompactItems (item :: items) ++ ']' :: rest =
          c :: (text ++ (if items.isEmpty then [] else [',']) ++ printCompactItems items ++
            ']' :: rest) := by
        rw [printCompactItems, same]
        rfl
      rw [starts] at scanned
      have whole : printCompact (array (item :: items)) ++ rest =
          '[' :: (printCompactItems (item :: items) ++ ']' :: rest) := by
        simp [printCompact]
      rw [whole, starts, scanValue_array solid opens, scanned]
      rfl
  | object [], _, _ + 1, _, _, _ => rfl
  | object ((name, value) :: members), back, fuel + 1, rest, enough, _ => by
      have room : (printCompactMembers ((name, value) :: members)).length ≤ fuel := by
        simp only [printCompact, List.length_cons, List.length_append] at enough
        omega
      have several := Nat.le_trans (length_printCompactMembers ((name, value) :: members)) room
      have scanned := scanMembers_printCompact ((name, value) :: members) (List.cons_ne_nil _ _)
        back fuel fuel rest room several
      obtain ⟨text, starts⟩ : ∃ text, printCompactMembers ((name, value) :: members) ++
          '\x7d' :: rest = '"' :: text := ⟨_, rfl⟩
      rw [starts] at scanned
      have whole : printCompact (object ((name, value) :: members)) ++ rest =
          '\x7b' :: (printCompactMembers ((name, value) :: members) ++ '\x7d' :: rest) := by
        simp [printCompact]
      rw [whole, starts, scanValue_object, scanned]
      exact congrArg (fun value => some (value, rest)) (ofMembers_named _)

theorem scanItems_printCompact : ∀ items : List Json, items ≠ [] → ItemsReadBack items →
    ∀ (fuel count : Nat) (rest : List Char), (printCompactItems items).length ≤ fuel →
      items.length ≤ count →
        scanItems (scanValue fuel) count (printCompactItems items ++ ']' :: rest) =
          some (items, rest)
  | [], filled, _, _, _, _, _, _ => absurd rfl filled
  | _ :: _, _, _, _, 0, _, _, several => absurd several (Nat.not_succ_le_zero _)
  | [item], _, back, fuel, count + 1, rest, enough, _ => by
      have room : (printCompact item).length ≤ fuel := by
        simpa [printCompactItems] using enough
      rw [printCompactItems_last]
      exact scanItems_step count (scanValue_printCompact item back.1 fuel _ room (.bracket rest))
        (.inl ⟨rfl, rfl⟩)
  | item :: next :: items, _, back, fuel, count + 1, rest, enough, several => by
      have lengths := congrArg List.length (printCompactItems_more [] item next items)
      simp only [List.append_nil, List.length_append, List.length_cons] at lengths several
      rw [printCompactItems_more]
      have others := scanItems_printCompact (next :: items) (List.cons_ne_nil _ _) back.2 fuel count
        rest (by omega) (by simp only [List.length_cons]; omega)
      exact scanItems_step count
        (scanValue_printCompact item back.1 fuel _ (by omega) (.comma _)) (.inr ⟨_, rfl, others⟩)

theorem scanMembers_printCompact : ∀ members : List (String × Json), members ≠ [] →
    MembersReadBack members → ∀ (fuel count : Nat) (rest : List Char),
      (printCompactMembers members).length ≤ fuel → members.length ≤ count →
        scanMembers (scanValue fuel) count (printCompactMembers members ++ '\x7d' :: rest) =
          some (members.map fun member => (some member.1, member.2), rest)
  | [], filled, _, _, _, _, _, _ => absurd rfl filled
  | _ :: _, _, _, _, 0, _, _, several => absurd several (Nat.not_succ_le_zero _)
  | [(name, value)], _, back, fuel, count + 1, rest, enough, _ => by
      have lengths := congrArg List.length (printCompactMembers_last [] name value)
      simp only [List.append_nil, List.length_append, List.length_cons] at lengths
      rw [printCompactMembers_last]
      exact scanMembers_step count
        (scanValue_printCompact value back.1 fuel _ (by omega) (.brace rest)) (.inl ⟨rfl, rfl⟩)
  | (name, value) :: next :: members, _, back, fuel, count + 1, rest, enough, several => by
      have lengths := congrArg List.length (printCompactMembers_more [] name value next members)
      simp only [List.append_nil, List.length_append, List.length_cons] at lengths several
      rw [printCompactMembers_more]
      have others := scanMembers_printCompact (next :: members) (List.cons_ne_nil _ _) back.2 fuel
        count rest (by omega) (by simp only [List.length_cons]; omega)
      exact scanMembers_step count
        (scanValue_printCompact value back.1 fuel _ (by omega) (.comma _)) (.inr ⟨_, rfl, others⟩)

end

/-- A value is read back from its text. -/
theorem parse?_compact {j : Json} (back : j.ReadsBack) : parse? j.compact = some j := by
  have scanned := scanValue_printCompact j back ((printCompact j).length + 1) [] (Nat.le_succ _)
    .nil
  rw [List.append_nil] at scanned
  rw [parse?, compact, String.length_ofList, String.toList_ofList, scanned]
  rfl

end Values

end Json

end StructuralTyping
