import AmbientStubs.JsonValue.Printer
import AmbientStubs.JsonValue.Token
import AmbientStubs.Proofs.Text.Pieces

/-!
Printed scalars are read back: a quoted text that holds no line separator, an integer of 64 bits,
and the names of the constants.
-/

namespace AmbientStubs.JsonValue

open Text

/-- A text that may stand between quotes as it is: the printer escapes no line or paragraph
separator, and the reader takes none. -/
def PlainText (text : String) : Prop :=
  '\u2028' ∉ text.toList ∧ '\u2029' ∉ text.toList

instance (text : String) : Decidable (PlainText text) :=
  inferInstanceAs (Decidable (_ ∧ _))

def InRange (value : Int) : Prop :=
  -(integerBound : Int) ≤ value ∧ value < integerBound

/-- What follows a printed value: a comma or a line break. -/
def Delimited (rest : List Char) : Prop :=
  ∃ more, rest = ',' :: more ∨ rest = '\n' :: more

namespace Token

def Piece.StandsFor (piece : Piece) (character : Char) : Prop :=
  ∀ rest, decode? (piece :: rest) = (decode? rest).map (character :: ·)

theorem Piece.standsFor_character (character : Char) :
    (Piece.character character).StandsFor character := by
  intro rest
  rw [decode?]
  cases decode? rest <;> rfl

theorem Piece.standsFor_unit {character : Char} (low : character.toNat < 0xD800) :
    (Piece.unit character.toNat).StandsFor character := by
  intro rest
  have notTrailing : ¬ (0xDC00 ≤ character.toNat ∧ character.toNat ≤ 0xDFFF) := by omega
  have notLeading : ¬ (0xD800 ≤ character.toNat ∧ character.toNat ≤ 0xDBFF) := by omega
  rw [decode?.eq_def]
  simp only [notTrailing, notLeading, if_false, Char.ofNat_toNat]
  cases decode? rest <;> rfl

theorem decode?_map_character (characters : List Char) :
    decode? (characters.map .character) = some characters := by
  induction characters with
  | nil => rfl
  | cons character rest inductionHypothesis =>
      rw [List.map_cons, Piece.standsFor_character character, inductionHypothesis]
      rfl

theorem hexValue?_hexDigit : ∀ value < 16, hexValue? (hexDigit value) = some value := by
  decide

theorem hexDigits?_hexDigit {character : Char} (low : character.toNat < 0x20) (rest : List Char) :
    hexDigits? 4 0 ('0' :: '0' :: hexDigit (character.toNat / 16) ::
      hexDigit (character.toNat % 16) :: rest) = some (character.toNat, rest) := by
  have zero : hexValue? '0' = some 0 := by decide
  have high := hexValue?_hexDigit (character.toNat / 16) (by omega)
  have last := hexValue?_hexDigit (character.toNat % 16) (by omega)
  have value : 16 * (character.toNat / 16) + character.toNat % 16 = character.toNat := by omega
  simp [hexDigits?, zero, high, last, value]

/-- What a printed character looks like: an escape with a letter of its own, an escape with its
code, or the character itself. -/
theorem escaped_cases (character : Char) :
    (∃ letter, escaped character = ['\\', letter] ∧
      ∀ rest, escape? (letter :: rest) = some ([.character character], rest)) ∨
    (character.toNat < 0x20 ∧ escaped character =
      ['\\', 'u', '0', '0', hexDigit (character.toNat / 16), hexDigit (character.toNat % 16)]) ∨
    (escaped character = [character] ∧ character ≠ '"' ∧ character ≠ '\\' ∧ character ≠ '\n' ∧
      character ≠ '\r') := by
  unfold escaped
  split
  · next same => exact .inl ⟨'"', rfl, fun rest => by rw [same]; rfl⟩
  split
  · next same => exact .inl ⟨'\\', rfl, fun rest => by rw [same]; rfl⟩
  split
  · next same => exact .inl ⟨'b', rfl, fun rest => by rw [same]; rfl⟩
  split
  · next same => exact .inl ⟨'f', rfl, fun rest => by rw [same]; rfl⟩
  split
  · next same => exact .inl ⟨'n', rfl, fun rest => by rw [same]; rfl⟩
  split
  · next same => exact .inl ⟨'r', rfl, fun rest => by rw [same]; rfl⟩
  split
  · next same => exact .inl ⟨'t', rfl, fun rest => by rw [same]; rfl⟩
  split
  · next low => exact .inr (.inl ⟨low, rfl⟩)
  · next quote backslash _ _ lineBreak carriageReturn _ _ =>
      exact .inr (.inr ⟨rfl, quote, backslash, lineBreak, carriageReturn⟩)

/-- A printed character is read as one piece that stands for it. -/
theorem quotedPieces?_escaped {character : Char}
    (noLine : character ≠ '\u2028') (noParagraph : character ≠ '\u2029') :
    ∃ piece, Piece.StandsFor piece character ∧ ∀ steps rest,
      quotedPieces? '"' (steps + 1) (escaped character ++ rest) =
        (quotedPieces? '"' steps rest).map fun found => (piece :: found.1, found.2) := by
  rcases escaped_cases character with
    ⟨letter, written, read⟩ | ⟨low, written⟩ | ⟨written, quote, backslash, lineBreak, carriageReturn⟩
  · refine ⟨.character character, Piece.standsFor_character character, fun steps rest => ?_⟩
    simp only [written, List.cons_append, List.nil_append, quotedPieces?, read,
      Option.bind_eq_bind, Option.bind_some]
    cases quotedPieces? '"' steps rest <;> rfl
  · refine ⟨.unit character.toNat, Piece.standsFor_unit (by omega), fun steps rest => ?_⟩
    simp only [written, List.cons_append, List.nil_append, quotedPieces?, escape?,
      hexDigits?_hexDigit low rest, Option.bind_eq_bind, Option.bind_some]
    cases quotedPieces? '"' steps rest <;> rfl
  · refine ⟨.character character, Piece.standsFor_character character, fun steps rest => ?_⟩
    have ordinary : isLineTerminator character = false := by
      simp [isLineTerminator, lineBreak, carriageReturn, noLine, noParagraph]
    rw [written, List.singleton_append, quotedPieces?.eq_def]
    simp only [quote, ordinary, if_false]
    cases quotedPieces? '"' steps rest <;> simp

theorem exists_pieces_of_flatMap_escaped {characters : List Char}
    (noLine : '\u2028' ∉ characters) (noParagraph : '\u2029' ∉ characters) :
    ∃ pieces, decode? pieces = some characters ∧ ∀ steps rest, characters.length < steps →
      quotedPieces? '"' steps (characters.flatMap escaped ++ '"' :: rest) =
        some (pieces, rest) := by
  induction characters with
  | nil =>
      refine ⟨[], rfl, fun steps rest enough => ?_⟩
      obtain ⟨steps, rfl⟩ := Nat.exists_eq_add_of_lt enough
      rfl
  | cons character more inductionHypothesis =>
      rw [List.mem_cons, not_or] at noLine noParagraph
      obtain ⟨pieces, decoded, read⟩ := inductionHypothesis noLine.2 noParagraph.2
      obtain ⟨piece, stands, readFirst⟩ :=
        quotedPieces?_escaped (Ne.symm noLine.1) (Ne.symm noParagraph.1)
      refine ⟨piece :: pieces, by rw [stands, decoded]; rfl, fun steps rest enough => ?_⟩
      obtain ⟨steps, rfl⟩ := Nat.exists_eq_add_one_of_ne_zero (Nat.ne_zero_of_lt enough)
      rw [List.flatMap_cons, List.append_assoc, readFirst, read steps rest (by simpa using enough)]
      rfl

theorem length_le_length_flatMap_escaped (characters : List Char) :
    characters.length ≤ (characters.flatMap escaped).length := by
  induction characters with
  | nil => simp
  | cons character rest inductionHypothesis =>
      have nonempty : 1 ≤ (escaped character).length := by
        rcases escaped_cases character with ⟨letter, written, -⟩ | ⟨-, written⟩ | ⟨written, -⟩ <;>
          simp [written]
      rw [List.flatMap_cons, List.length_append, List.length_cons]
      omega

theorem quoted?_quoted {value : String} (plain : PlainText value) (rest : List Char) :
    quoted? '"' (value.toList.flatMap escaped ++ '"' :: rest) = some (.text value, rest) := by
  obtain ⟨pieces, decoded, read⟩ := exists_pieces_of_flatMap_escaped plain.1 plain.2
  have enough := length_le_length_flatMap_escaped value.toList
  rw [quoted?, read _ rest (by rw [List.length_append]; omega)]
  simp [decoded]

section Name

variable {rest : List Char}

theorem namePieces_of_delimited (ends : Delimited rest) (steps : Nat) :
    namePieces false steps rest = ([], rest) := by
  have comma : isNamePart ',' = false := by decide +kernel
  have lineBreak : isNamePart '\n' = false := by decide +kernel
  cases steps with
  | zero => rfl
  | succ steps =>
      obtain ⟨more, rfl | rfl⟩ := ends
      · simp [namePieces, comma, literal?, after?]
      · simp [namePieces, lineBreak, literal?, after?]

theorem namePieces_append (ends : Delimited rest) {word : List Char}
    (inside : ∀ character ∈ word, isNameStart character = true) (atStart : Bool)
    (nonempty : atStart = true → word ≠ []) {steps : Nat} (enough : word.length < steps) :
    namePieces atStart steps (word ++ rest) = (word.map .character, rest) := by
  induction word generalizing atStart steps with
  | nil =>
      obtain rfl : atStart = false := by
        cases atStart with
        | false => rfl
        | true => exact absurd rfl (nonempty rfl)
      exact namePieces_of_delimited ends steps
  | cons character word inductionHypothesis =>
      rw [List.forall_mem_cons] at inside
      obtain ⟨steps, rfl⟩ := Nat.exists_eq_add_one_of_ne_zero (Nat.ne_zero_of_lt enough)
      have later := inductionHypothesis inside.2 false (by simp)
        (show word.length < steps by simpa using enough)
      cases atStart <;> simp [namePieces, isNamePart, inside.1, later]

theorem name?_append (ends : Delimited rest) {word : List Char} (nonempty : word ≠ [])
    (inside : ∀ character ∈ word, isNameStart character = true) :
    name? (word ++ rest) = some (.name (String.ofList word) true, rest) := by
  have read := namePieces_append ends inside true (fun _ => nonempty)
    (show word.length < (word ++ rest).length + 1 by rw [List.length_append]; omega)
  simp only [name?, read, decode?_map_character, Option.bind_eq_bind, Option.bind_some]
  simp [nonempty]

end Name

section Number

theorem isAsciiDigit_of_mem_toDigits {number : Nat} {digit : Char}
    (membership : digit ∈ Nat.toDigits 10 number) : isAsciiDigit digit = true := by
  have isDigit := Nat.isDigit_of_mem_toDigits (by decide) (by decide) membership
  simpa [Char.isDigit, isAsciiDigit, Char.le_def] using isDigit

theorem mem_of_isAsciiDigit {character : Char} (digit : isAsciiDigit character = true) :
    character ∈ ['0', '1', '2', '3', '4', '5', '6', '7', '8', '9'] := by
  have first : '0'.val.toNat = 48 := rfl
  have last : '9'.val.toNat = 57 := rfl
  simp only [isAsciiDigit, Bool.and_eq_true, decide_eq_true_eq, Char.le_def,
    UInt32.le_iff_toNat_le] at digit
  have codes : ∀ offset < 10, Char.ofNat (48 + offset) ∈
      ['0', '1', '2', '3', '4', '5', '6', '7', '8', '9'] := by decide
  have code := codes (character.toNat - 48) (by rw [Char.toNat]; omega)
  rwa [show 48 + (character.toNat - 48) = character.toNat by rw [Char.toNat]; omega,
    Char.ofNat_toNat] at code

theorem foldl_eq_ofDigitChars {digits : List Char}
    (decimal : ∀ digit ∈ digits, isAsciiDigit digit = true) (value : Nat) :
    digits.foldl (fun value digit => 10 * value + (hexValue? digit).getD 0) value =
      Nat.ofDigitChars 10 digits value := by
  induction digits generalizing value with
  | nil => rfl
  | cons digit rest inductionHypothesis =>
      rw [List.forall_mem_cons] at decimal
      rw [List.foldl_cons, inductionHypothesis decimal.2, Nat.ofDigitChars_cons, hexValue?,
        if_pos decimal.1, Option.getD_some]

theorem numberOfDigits_toDigits (number : Nat) :
    numberOfDigits 10 (Nat.toDigits 10 number) = number := by
  rw [numberOfDigits, foldl_eq_ofDigitChars fun digit => isAsciiDigit_of_mem_toDigits,
    Nat.ofDigitChars_ten_toDigits]

theorem head_toDigits_ne_zero {number : Nat} (positive : 0 < number) :
    ∃ first more, Nat.toDigits 10 number = first :: more ∧ first ≠ '0' := by
  induction number using Nat.strongRecOn with
  | ind number inductionHypothesis =>
      rw [Nat.toDigits_eq_if (by decide)]
      split
      · next small =>
          refine ⟨_, [], rfl, ?_⟩
          have digits : ∀ digit < 10, 0 < digit → Nat.digitChar digit ≠ '0' := by decide
          exact digits number small positive
      · next large =>
          obtain ⟨first, more, front, nonzero⟩ :=
            inductionHypothesis (number / 10) (by omega) (by omega)
          exact ⟨first, more ++ [Nat.digitChar (number % 10)], by rw [front]; rfl, nonzero⟩

variable {rest : List Char}

/-- Digits after a sign are a decimal number, unless they start like a hexadecimal one. -/
theorem number?_of_decimal? {negative : Bool} {first : Char} {more : List Char} {value : JsonValue}
    (digit : isAsciiDigit first = true)
    (noHexadecimal : first = '0' → ∀ second ∈ more.head?, second ≠ 'x' ∧ second ≠ 'X')
    (read : decimal? negative (first :: more) = some (value, rest)) :
    number? ((if negative then ['-'] else []) ++ first :: more) = some (.number value, rest) := by
  have noLiteral (word : String) (second : Char) (hexadecimal : word.toList = ['0', second])
      (letter : second = 'x' ∨ second = 'X') : literal? word (first :: more) = none := by
    rw [literal?, hexadecimal, after?]
    split
    · next zero =>
        cases more with
        | nil => rfl
        | cons character others =>
            have different := noHexadecimal zero.symm character rfl
            rw [after?, if_neg]
            rcases letter with rfl | rfl
            · exact different.1.symm
            · exact different.2.symm
    · rfl
  have lower := noLiteral "0x" 'x' rfl (.inl rfl)
  have upper := noLiteral "0X" 'X' rfl (.inr rfl)
  cases negative with
  | true =>
      have noI : first ≠ 'I' := by rintro rfl; contradiction
      have noN : first ≠ 'N' := by rintro rfl; contradiction
      have finite : nonFinite? (first :: more) = none := by
        simp [nonFinite?, literal?, after?, Ne.symm noI, Ne.symm noN]
      have decimal : hexInteger? (first :: more) = none := by
        simp [hexInteger?, lower, upper]
      simp [number?, finite, decimal, read]
  | false =>
      have noMinus : first ≠ '-' := by rintro rfl; contradiction
      have noPlus : first ≠ '+' := by rintro rfl; contradiction
      rw [if_neg Bool.false_ne_true, List.nil_append, number?.eq_def]
      simp only [lower, upper, read]
      split
      · next minus => exact absurd (List.cons.inj minus).1 noMinus
      · next plus => exact absurd (List.cons.inj plus).1 noPlus
      · rfl

theorem wholeDigits_toDigits (ends : Delimited rest) (number : Nat) :
    wholeDigits (Nat.toDigits 10 number ++ rest) = (Nat.toDigits 10 number, rest) := by
  have digits : ∀ digit ∈ Nat.toDigits 10 number, isAsciiDigit digit = true :=
    fun digit => isAsciiDigit_of_mem_toDigits
  have stops : rest.takeWhile isAsciiDigit = [] ∧ rest.dropWhile isAsciiDigit = rest := by
    obtain ⟨following, rfl | rfl⟩ := ends <;> simp [isAsciiDigit]
  by_cases positive : 0 < number
  · obtain ⟨first, more, shape, nonzero⟩ := head_toDigits_ne_zero positive
    rw [shape] at digits ⊢
    rw [List.cons_append, wholeDigits.eq_2 _ (by simpa using nonzero), ← List.cons_append,
      List.takeWhile_append_of_pos digits, List.dropWhile_append_of_pos digits, stops.1, stops.2,
      List.append_nil]
  · obtain rfl : number = 0 := by omega
    rfl

theorem decimal?_toDigits (ends : Delimited rest) (negative : Bool) {number : Nat}
    (inRange : number < integerBound ∨ (negative = true ∧ number = integerBound)) :
    decimal? negative (Nat.toDigits 10 number ++ rest) =
      some (.integer (if negative then -(number : Int) else number), rest) := by
  have noFraction (whole : List Char) : fraction? whole rest = none := by
    obtain ⟨following, rfl | rfl⟩ := ends <;> rfl
  have noExponent : exponent? rest = none := by
    obtain ⟨following, rfl | rfl⟩ := ends <;> rfl
  have nonempty : (Nat.toDigits 10 number).isEmpty = false := by
    simp
  simp only [decimal?, wholeDigits_toDigits ends, noFraction, noExponent, nonempty,
    numberOfDigits_toDigits, if_pos inRange]
  rfl

/-- A printed integer is read back. -/
theorem number?_integerText (ends : Delimited rest) {value : Int} (inRange : InRange value) :
    number? (integerText value ++ rest) = some (.number (.integer value), rest) := by
  obtain ⟨first, more, shape⟩ := List.exists_cons_of_ne_nil
    (Nat.toDigits_ne_nil (n := value.natAbs) (b := 10))
  have digit : isAsciiDigit first = true :=
    isAsciiDigit_of_mem_toDigits (by rw [shape]; exact List.mem_cons_self)
  have noHexadecimal : first = '0' →
      ∀ second ∈ (more ++ rest).head?, second ≠ 'x' ∧ second ≠ 'X' := by
    rintro rfl
    have zero : value.natAbs = 0 := by
      refine Nat.eq_zero_of_not_pos fun positive => ?_
      obtain ⟨_, _, other, nonzero⟩ := head_toDigits_ne_zero positive
      rw [shape] at other
      exact nonzero (List.cons.inj other).1.symm
    rw [zero] at shape
    obtain rfl : [] = more := (List.cons.inj shape).2
    obtain ⟨following, rfl | rfl⟩ := ends <;> simp
  obtain ⟨below, above⟩ := inRange
  have bound : value.natAbs < integerBound ∨
      (decide (value < 0) = true ∧ value.natAbs = integerBound) := by
    rw [decide_eq_true_eq]
    omega
  have read := decimal?_toDigits ends (decide (value < 0)) bound
  have same :
      (if decide (value < 0) = true then -(value.natAbs : Int) else value.natAbs) = value := by
    by_cases negative : value < 0
    · rw [if_pos (decide_eq_true negative)]
      omega
    · rw [if_neg (by rwa [decide_eq_true_eq])]
      omega
  rw [shape, List.cons_append, same] at read
  have whole := number?_of_decimal? digit noHexadecimal read
  simpa [integerText, shape] using whole

end Number

end Token

end AmbientStubs.JsonValue
