import Mathlib
import StructuralTyping.Proofs.IdentifierAccount

/-! When a template comes out as if all its holes had been filled at once. The
arguments are put in one after another, so what the first of them left behind is
searched for the placeholders of the others. The result is the intended one as
long as no text around the open holes spells the placeholder that comes next. -/
namespace StructuralTyping.Template

/-- A template read once, before any argument is put in. -/
inductive Piece where
  | letter (c : Char)
  | hole (index : Nat)
deriving DecidableEq, Repr

/-- The placeholders of the given number of arguments are holes, everything else
is text. The counter holds the characters of a placeholder that are still to be
dropped. -/
def pieces (count : Nat) : Nat → List Char → List Piece
  | _, [] => []
  | skip + 1, _ :: rest => pieces count skip rest
  | 0, c :: rest =>
      match (List.range count).find? fun index => (placeholder index).isPrefixOf (c :: rest) with
      | some index => .hole index :: pieces count ((placeholder index).length - 1) rest
      | none => .letter c :: pieces count 0 rest

def Piece.spell : Piece → List Char
  | .letter c => [c]
  | .hole index => placeholder index

/-- The piece once the first arguments have been put in. -/
def Piece.settle (arguments : List String) (placed : Nat) : Piece → List Piece
  | .letter c => [.letter c]
  | .hole index =>
      if index < placed then (arguments.getD index "").toList.map .letter else [.hole index]

def Piece.fill (arguments : List String) : Piece → List Char
  | .letter c => [c]
  | .hole index => (arguments.getD index "").toList

/-- Every hole becomes its argument as it was given, everything else stays. -/
def fillAtOnce (template : String) (arguments : List String) : String :=
  String.ofList ((pieces arguments.length 0 template.toList).flatMap (Piece.fill arguments))

/-- With the first arguments in place, no text between two open holes spells the
placeholder that is searched for next. -/
def Unambiguous (template : String) (arguments : List String) : Prop :=
  ∀ index < arguments.length, 0 < index →
    ¬ (placeholder index).map Piece.letter <:+:
      (pieces arguments.length 0 template.toList).flatMap (Piece.settle arguments index)

instance (template : String) (arguments : List String) :
    Decidable (Unambiguous template arguments) :=
  inferInstanceAs (Decidable (∀ index < arguments.length, _))

section Placeholders

theorem placeholder_eq (index : Nat) :
    placeholder index = '{' :: (Nat.toDigits 10 index ++ ['}']) := by
  rw [placeholder, Nat.toString_eq_ofList_toDigits, String.toList_ofList, List.cons_append]

/-- No placeholder starts inside another. -/
theorem brace_notMem_tail (index : Nat) : '{' ∉ Nat.toDigits 10 index ++ ['}'] := by
  intro member
  rcases List.mem_append.mp member with digit | closing
  · exact absurd (Nat.isDigit_of_mem_toDigits (by omega) (by omega) digit) (by decide)
  · exact absurd (List.mem_singleton.mp closing) (by decide)

/-- The digits behind the opening brace tell the placeholder. -/
theorem takeWhile_digits (index : Nat) (rest : List Char) :
    (Nat.toDigits 10 index ++ ['}'] ++ rest).takeWhile Char.isDigit = Nat.toDigits 10 index := by
  have digits : ∀ c ∈ Nat.toDigits 10 index, c.isDigit = true :=
    fun _ member => Nat.isDigit_of_mem_toDigits (by omega) (by omega) member
  rw [List.append_assoc, List.takeWhile_append_of_pos digits]
  simp

/-- A text starts with at most one placeholder. -/
theorem placeholder_unique {first second : Nat} {text : List Char}
    (one : placeholder first <+: text) (other : placeholder second <+: text) :
    first = second := by
  obtain ⟨rest, rfl⟩ := one
  obtain ⟨rest', same⟩ := other
  rw [placeholder_eq, placeholder_eq, List.cons_append, List.cons_append] at same
  have digits := congrArg (List.takeWhile Char.isDigit) (List.cons.inj same).2
  rw [takeWhile_digits, takeWhile_digits] at digits
  have values := congrArg (fun digits => Nat.ofDigitChars 10 digits 0) digits
  simpa [Nat.ofDigitChars_toDigits] using values.symm

end Placeholders

section Reading

variable {count : Nat}

theorem pieces_skip (count : Nat) (dropped rest : List Char) :
    pieces count dropped.length (dropped ++ rest) = pieces count 0 rest := by
  induction dropped with
  | nil => rfl
  | cons c dropped ih => simpa [pieces] using ih

/-- Where a placeholder begins there is a hole. -/
theorem pieces_hole {index : Nat} (below : index < count) (rest : List Char) :
    pieces count 0 (placeholder index ++ rest) = .hole index :: pieces count 0 rest := by
  have found : (List.range count).find? (fun other =>
      (placeholder other).isPrefixOf (placeholder index ++ rest)) = some index := by
    rw [List.find?_range_eq_some]
    refine ⟨by simp, List.mem_range.mpr below, fun other smaller => ?_⟩
    rw [Bool.not_eq_true', Bool.eq_false_iff, Ne, List.isPrefixOf_iff_prefix]
    exact fun starts => smaller.ne (placeholder_unique starts (List.prefix_append _ _))
  have shape := placeholder_eq index
  rw [shape, List.cons_append] at found ⊢
  rw [pieces, found]
  simp only [shape, List.length_cons, Nat.add_sub_cancel]
  rw [pieces_skip]

/-- Where none begins there is a letter. -/
theorem pieces_letter {c : Char} {rest : List Char}
    (none : ∀ index < count, ¬ placeholder index <+: c :: rest) :
    pieces count 0 (c :: rest) = .letter c :: pieces count 0 rest := by
  have found : (List.range count).find? (fun index =>
      (placeholder index).isPrefixOf (c :: rest)) = .none := by
    simpa using none
  rw [pieces, found]

/-- A text is empty, or it begins with a placeholder, or with a letter at which
none begins. -/
theorem reading (count : Nat) {motive : List Char → Prop} (empty : motive [])
    (hole : ∀ index < count, ∀ rest, motive rest → motive (placeholder index ++ rest))
    (letter : ∀ c rest, (∀ index < count, ¬ placeholder index <+: c :: rest) → motive rest →
      motive (c :: rest))
    (text : List Char) : motive text := by
  induction size : text.length using Nat.strong_induction_on generalizing text with
  | _ size ih =>
      subst size
      by_cases begins : ∃ index < count, placeholder index <+: text
      · obtain ⟨index, below, rest, rfl⟩ := begins
        exact hole index below rest (ih _ (by simp [placeholder_eq]; omega) rest rfl)
      · push Not at begins
        cases text with
        | nil => exact empty
        | cons c rest => exact letter c rest begins (ih _ (by simp) rest rfl)

/-- Nothing is lost: the pieces spell the template. -/
theorem spell_pieces (count : Nat) (text : List Char) :
    (pieces count 0 text).flatMap Piece.spell = text := by
  induction text using reading count with
  | empty => rfl
  | hole index below rest ih => rw [pieces_hole below, List.flatMap_cons, ih, Piece.spell]
  | letter c rest begins ih =>
      rw [pieces_letter begins, List.flatMap_cons, ih, Piece.spell, List.singleton_append]

theorem spell_letters (text : List Char) :
    (text.map Piece.letter).flatMap Piece.spell = text := by
  simp [List.flatMap_map, Piece.spell]

/-- Letters that the pieces begin with stand at the beginning of the text. -/
theorem spell_of_letters {text : List Char} {pieces : List Piece}
    (letters : text.map Piece.letter <+: pieces) : text <+: pieces.flatMap Piece.spell := by
  obtain ⟨rest, rfl⟩ := letters
  rw [List.flatMap_append, spell_letters]
  exact List.prefix_append _ _

/-- No placeholder of an argument is left among the letters. -/
theorem not_infix_pieces {index : Nat} (below : index < count) (text : List Char) :
    ¬ (placeholder index).map Piece.letter <:+: pieces count 0 text := by
  induction text using reading count with
  | empty => simp [pieces, placeholder_eq]
  | hole other below' rest ih =>
      rw [pieces_hole below', List.infix_cons_iff, not_or]
      exact ⟨by simp [placeholder_eq], ih⟩
  | letter c rest begins ih =>
      rw [pieces_letter begins, List.infix_cons_iff, not_or]
      refine ⟨fun starts => begins index below ?_, ih⟩
      have spelled := spell_of_letters starts
      rwa [← pieces_letter begins, spell_pieces] at spelled

/-- Only placeholders of arguments are holes. -/
theorem hole_below {index : Nat} (text : List Char) (member : .hole index ∈ pieces count 0 text) :
    index < count := by
  induction text using reading count with
  | empty => simp [pieces] at member
  | hole other below rest ih =>
      rw [pieces_hole below, List.mem_cons, Piece.hole.injEq] at member
      rcases member with rfl | later
      · exact below
      · exact ih later
  | letter c rest begins ih =>
      rw [pieces_letter begins, List.mem_cons] at member
      exact ih (member.resolve_left nofun)

end Reading

section Filling

variable {index : Nat} (argument : List Char)

/-- One argument put in for its holes. -/
def Piece.put (index : Nat) (argument : List Char) : Piece → List Piece
  | .letter c => [.letter c]
  | .hole other => if other = index then argument.map .letter else [.hole other]

/-- Text without an opening brace that the pieces begin with is made of letters. -/
theorem letters_of_spell {text : List Char} (plain : '{' ∉ text) {pieces : List Piece}
    (starts : text <+: pieces.flatMap Piece.spell) : text.map Piece.letter <+: pieces := by
  induction text generalizing pieces with
  | nil => exact List.nil_prefix
  | cons c text ih =>
      obtain ⟨apart, plain⟩ : ¬ '{' = c ∧ '{' ∉ text := by simpa using plain
      cases pieces with
      | nil => simp at starts
      | cons piece pieces =>
          rw [List.flatMap_cons] at starts
          cases piece with
          | letter other =>
              rw [Piece.spell, List.singleton_append, List.cons_prefix_cons] at starts
              exact List.cons_prefix_cons.mpr ⟨by rw [starts.1], ih plain starts.2⟩
          | hole other =>
              rw [Piece.spell, placeholder_eq, List.cons_append, List.cons_prefix_cons] at starts
              exact absurd starts.1.symm apart

/-- The search passes over the placeholder of another argument. -/
theorem replaceFrom_placeholder {other : Nat} (apart : other ≠ index) (rest : List Char) :
    replaceFrom (placeholder index) argument 0 (placeholder other ++ rest) =
      placeholder other ++ replaceFrom (placeholder index) argument 0 rest := by
  have elsewhere : ¬ (placeholder index).isPrefixOf (placeholder other ++ rest) = true := by
    rw [List.isPrefixOf_iff_prefix]
    exact fun starts => apart (placeholder_unique (List.prefix_append _ _) starts)
  rw [placeholder_eq other, List.cons_append] at elsewhere ⊢
  rw [replaceFrom, if_neg elsewhere, placeholder_eq index,
    replaceFrom_text _ _ _ _ (brace_notMem_tail other), List.cons_append]

/-- The placeholder of the argument is replaced. -/
theorem replaceFrom_own (index : Nat) (rest : List Char) :
    replaceFrom (placeholder index) argument 0 (placeholder index ++ rest) =
      argument ++ replaceFrom (placeholder index) argument 0 rest := by
  have starts : (placeholder index).isPrefixOf (placeholder index ++ rest) = true := by simp
  have shape := placeholder_eq index
  rw [shape, List.cons_append] at starts ⊢
  rw [replaceFrom, if_pos starts, List.length_cons, Nat.add_sub_cancel, replaceFrom_skip]

/-- If the letters nowhere spell the placeholder, exactly its holes are replaced. -/
theorem replaceAll_spell {pieces : List Piece}
    (unspelled : ¬ (placeholder index).map Piece.letter <:+: pieces) :
    replaceAll (placeholder index) argument (pieces.flatMap Piece.spell) =
      (pieces.flatMap (Piece.put index argument)).flatMap Piece.spell := by
  rw [replaceAll]
  induction pieces with
  | nil => rfl
  | cons piece pieces ih =>
      rw [List.infix_cons_iff, not_or] at unspelled
      have rest := ih unspelled.2
      cases piece with
      | hole other =>
          by_cases same : other = index
          · subst same
            rw [List.flatMap_cons, Piece.spell, replaceFrom_own, rest, List.flatMap_cons,
              List.flatMap_append, Piece.put, if_pos rfl, spell_letters]
          · rw [List.flatMap_cons, Piece.spell, replaceFrom_placeholder argument same, rest]
            simp [Piece.put, same, Piece.spell]
      | letter c =>
          have elsewhere :
              ¬ (placeholder index).isPrefixOf (c :: pieces.flatMap Piece.spell) = true := by
            rw [List.isPrefixOf_iff_prefix, placeholder_eq, List.cons_prefix_cons]
            rintro ⟨rfl, tail⟩
            apply unspelled.1
            rw [placeholder_eq, List.map_cons, List.cons_prefix_cons]
            exact ⟨rfl, letters_of_spell (brace_notMem_tail index) tail⟩
          rw [List.flatMap_cons, Piece.spell, List.singleton_append, replaceFrom,
            if_neg elsewhere, rest]
          simp [Piece.put, Piece.spell]

theorem settle_succ (arguments : List String) (placed : Nat) (piece : Piece) :
    piece.settle arguments (placed + 1) =
      (piece.settle arguments placed).flatMap
        (Piece.put placed (arguments.getD placed "").toList) := by
  cases piece with
  | letter c => rfl
  | hole index =>
      rcases Nat.lt_trichotomy index placed with before | rfl | behind
      · simp only [Piece.settle, if_pos before, if_pos (Nat.lt_succ_of_lt before),
          List.flatMap_map, Piece.put]
        exact List.map_eq_flatMap
      · simp [Piece.settle, Piece.put]
      · have later : ¬ index < placed + 1 := by omega
        simp [Piece.settle, behind.not_gt, later, Piece.put, behind.ne']

/-- With every argument in place the pieces spell the intended text. -/
theorem spell_settle {arguments : List String} {piece : Piece} {placed : Nat}
    (all : ∀ index, piece = .hole index → index < placed) :
    (piece.settle arguments placed).flatMap Piece.spell = piece.fill arguments := by
  cases piece with
  | letter c => rfl
  | hole index => rw [Piece.settle, if_pos (all index rfl), spell_letters, Piece.fill]

/-- The arguments that are left are put in one after another. -/
theorem fillFrom_settle {arguments : List String} {pieces : List Piece}
    (holes : ∀ index, .hole index ∈ pieces → index < arguments.length)
    (unspelled : ∀ index < arguments.length,
      ¬ (placeholder index).map Piece.letter <:+:
        pieces.flatMap (Piece.settle arguments index))
    (rest : List String) (placed : Nat) (left : arguments.drop placed = rest) :
    fillFrom placed rest ((pieces.flatMap (Piece.settle arguments placed)).flatMap Piece.spell) =
      pieces.flatMap (Piece.fill arguments) := by
  induction rest generalizing placed with
  | nil =>
      have all : arguments.length ≤ placed := List.drop_eq_nil_iff.mp left
      rw [fillFrom, List.flatMap_assoc]
      refine List.flatMap_congr fun piece member => spell_settle fun index hole => ?_
      exact (holes index (hole ▸ member)).trans_le all
  | cons argument rest ih =>
      have below : placed < arguments.length := by
        by_contra beyond
        rw [List.drop_of_length_le (by omega)] at left
        contradiction
      rw [List.drop_eq_getElem_cons below] at left
      obtain ⟨same, left⟩ := List.cons.inj left
      have stage : pieces.flatMap (Piece.settle arguments (placed + 1)) =
          (pieces.flatMap (Piece.settle arguments placed)).flatMap
            (Piece.put placed argument.toList) := by
        rw [List.flatMap_assoc, ← same, ← List.getD_eq_getElem _ "" below]
        exact List.flatMap_congr fun piece _ => settle_succ arguments placed piece
      rw [fillFrom, replaceAll_spell argument.toList (unspelled placed below), ← stage,
        ih (placed + 1) left]

end Filling

section Calm

/-- Behind every opening brace stands a character that is no digit, as in the
text of an object type. -/
def calm : List Char → Bool
  | [] => true
  | c :: rest => (c != '{' || rest.head?.any fun next => !next.isDigit) && calm rest

theorem placeholder_shape (index : Nat) :
    ∃ digit rest, digit.isDigit = true ∧ placeholder index = '{' :: digit :: rest := by
  cases digits : Nat.toDigits 10 index with
  | nil => exact absurd digits Nat.toDigits_ne_nil
  | cons digit rest =>
      refine ⟨digit, rest ++ ['}'], ?_, by rw [placeholder_eq, digits, List.cons_append]⟩
      exact Nat.isDigit_of_mem_toDigits (b := 10) (n := index) (by omega) (by omega)
        (by rw [digits]; exact List.mem_cons_self)

/-- A calm argument spells no placeholder, also not with what stands behind it. -/
theorem not_infix_calm {index : Nat} {pieces : List Piece}
    (behind : ¬ (placeholder index).map Piece.letter <:+: pieces) {text : List Char}
    (calmly : calm text = true) :
    ¬ (placeholder index).map Piece.letter <:+: text.map Piece.letter ++ pieces := by
  obtain ⟨digit, rest, isDigit, shape⟩ := placeholder_shape index
  rw [shape] at behind ⊢
  induction text with
  | nil => exact behind
  | cons c text ih =>
      rw [calm, Bool.and_eq_true] at calmly
      rw [List.map_cons (a := c), List.cons_append, List.infix_cons_iff, not_or]
      refine ⟨fun starts => ?_, ih calmly.2⟩
      obtain ⟨brace, starts⟩ := List.cons_prefix_cons.mp starts
      cases text with
      | nil => simp [← Piece.letter.inj brace] at calmly
      | cons next text =>
          obtain ⟨same, -⟩ := List.cons_prefix_cons.mp starts
          simp [← Piece.letter.inj brace, ← Piece.letter.inj same, isDigit] at calmly

/-- A template without loose braces takes calm arguments as they are. -/
theorem unambiguous_of_calm {template : String} {arguments : List String}
    (plain : .letter '{' ∉ pieces arguments.length 0 template.toList)
    (calmly : ∀ argument ∈ arguments, calm argument.toList = true) :
    Unambiguous template arguments := by
  intro index below _
  obtain ⟨digit, rest, -, shape⟩ := placeholder_shape index
  generalize pieces arguments.length 0 template.toList = pieces at plain ⊢
  induction pieces with
  | nil => simp [shape]
  | cons piece pieces ih =>
      rw [List.mem_cons, not_or] at plain
      rw [List.flatMap_cons]
      by_cases inPlace : ∃ hole, piece = .hole hole ∧ hole < index
      · obtain ⟨hole, rfl, placed⟩ := inPlace
        rw [Piece.settle, if_pos placed]
        refine not_infix_calm (ih plain.2) (calmly _ ?_)
        rw [List.getD_eq_getElem _ _ (placed.trans below)]
        exact List.getElem_mem _
      · have stays : piece.settle arguments index = [piece] := by
          cases piece with
          | letter c => rfl
          | hole hole => rw [Piece.settle, if_neg fun placed => inPlace ⟨hole, rfl, placed⟩]
        rw [stays, List.singleton_append, List.infix_cons_iff, not_or]
        refine ⟨fun starts => ?_, ih plain.2⟩
        rw [shape, List.map_cons, List.cons_prefix_cons] at starts
        exact plain.1 starts.1

end Calm

/-- The arguments come out as they were given, each in the places of its
placeholder, and nothing else changes. -/
theorem fill_eq_fillAtOnce (template : String) (arguments : List String)
    (unambiguous : Unambiguous template arguments) :
    fill template arguments = fillAtOnce template arguments := by
  have untouched : (pieces arguments.length 0 template.toList).flatMap
      (Piece.settle arguments 0) = pieces arguments.length 0 template.toList := by
    calc
      _ = (pieces arguments.length 0 template.toList).flatMap ([·]) :=
        List.flatMap_congr fun piece _ => by cases piece <;> rfl
      _ = _ := List.flatMap_singleton' _
  have unspelled : ∀ index < arguments.length, ¬ (placeholder index).map Piece.letter <:+:
      (pieces arguments.length 0 template.toList).flatMap (Piece.settle arguments index) := by
    intro index below
    rcases Nat.eq_zero_or_pos index with rfl | positive
    · rw [untouched]
      exact not_infix_pieces below template.toList
    · exact unambiguous index below positive
  have filled := fillFrom_settle (fun _ => hole_below template.toList) unspelled arguments 0 rfl
  rw [untouched, spell_pieces] at filled
  rw [fill, fillAtOnce, filled]

theorem fill_propertyMissing_braces :
    Unambiguous Message.propertyMissing.template ["a", "\x7b b: number; \x7d", "Box<\x7b\x7d>"] ∧
      fill Message.propertyMissing.template ["a", "\x7b b: number; \x7d", "Box<\x7b\x7d>"] =
        fillAtOnce Message.propertyMissing.template
          ["a", "\x7b b: number; \x7d", "Box<\x7b\x7d>"] :=
  ⟨by decide +kernel, fill_eq_fillAtOnce _ _ (by decide +kernel)⟩

theorem bracedName_lost :
    fill Message.propertyMissing.template ["\x7b1\x7d", "\x7b\x7d", "A"] =
        "Property '\x7b\x7d' is missing in type '\x7b\x7d' but required in type 'A'." ∧
      fillAtOnce Message.propertyMissing.template ["\x7b1\x7d", "\x7b\x7d", "A"] =
        "Property '\x7b1\x7d' is missing in type '\x7b\x7d' but required in type 'A'." := by
  decide +kernel

end StructuralTyping.Template
