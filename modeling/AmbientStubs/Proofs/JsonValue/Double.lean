import AmbientStubs.Proofs.Binary64
import AmbientStubs.Proofs.JsonValue.Scalar

/-!
Printed doubles are read back.  The digits of a double are written in three ways, and whichever is
taken, the digits and the power of ten that are read stand for the same decimal.
-/

namespace AmbientStubs

open Text

namespace Text

theorem foldl_digits_eq (base : Nat) (digits : List Char) (value : Nat) :
    digits.foldl (fun value digit => base * value + (hexValue? digit).getD 0) value =
      value * base ^ digits.length + numberOfDigits base digits := by
  induction digits generalizing value with
  | nil => simp [numberOfDigits]
  | cons digit rest inductionHypothesis =>
      rw [numberOfDigits, List.foldl_cons, List.foldl_cons, inductionHypothesis,
        inductionHypothesis (base * 0 + _), List.length_cons, Nat.pow_succ]
      ring

theorem numberOfDigits_append (base : Nat) (first second : List Char) :
    numberOfDigits base (first ++ second) =
      numberOfDigits base first * base ^ second.length + numberOfDigits base second := by
  rw [numberOfDigits, List.foldl_append, foldl_digits_eq]
  rfl

theorem numberOfDigits_zeros (base count : Nat) :
    numberOfDigits base (List.replicate count '0') = 0 := by
  induction count with
  | zero => rfl
  | succ count inductionHypothesis =>
      rw [List.replicate_succ', numberOfDigits_append, inductionHypothesis, Nat.zero_mul]
      rfl

/-- Digits are what is left of them without the zeros at their end, and these zeros. -/
theorem exists_trailingZeros (digits : List Char) :
    ∃ count, digits = withoutTrailingZeros digits ++ List.replicate count '0' := by
  refine ⟨(digits.reverse.takeWhile (· == '0')).length, ?_⟩
  have zeros : digits.reverse.takeWhile (· == '0') =
      List.replicate (digits.reverse.takeWhile (· == '0')).length '0' := by
    refine List.eq_replicate_of_mem fun digit inside => ?_
    simpa using List.all_eq_true.1 List.all_takeWhile digit inside
  conv_lhs => rw [← List.reverse_reverse digits,
    ← List.takeWhile_append_dropWhile (p := (· == '0')) (l := digits.reverse), List.reverse_append]
  rw [withoutTrailingZeros, zeros, List.reverse_replicate, List.length_replicate]

end Text

namespace Binary64

/-- Digits, the first of which stands for the given power of ten, spell a number: every decimal of
the same value is read as the number. -/
structure Spelled (number : Binary64) (digits : List Char) (first : Int) : Prop where
  decimal : ∀ digit ∈ digits, isAsciiDigit digit = true
  leading : (∃ digit more, digits = digit :: more ∧ digit ≠ '0') ∨ digits = ['0'] ∧ first = 0
  reads {value : Nat} {power : Int} (same : (value * 10 ^ power : ℚ) =
    numberOfDigits 10 digits * 10 ^ (first + 1 - digits.length)) :
    nearest? number.negative value power = some number

variable {number : Binary64}

theorem spelled_zero (canonical : number.Canonical) (zero : number.significand = 0) :
    number.Spelled ['0'] 0 where
  decimal := by simp [isAsciiDigit]
  leading := .inr ⟨rfl, rfl⟩
  reads := by
    intro value power same
    have nothing : value = 0 := by
      have product : (value * 10 ^ power : ℚ) = 0 := by
        rw [same, show numberOfDigits 10 ['0'] = 0 from rfl]
        simp
      rcases mul_eq_zero.1 product with none | none
      · exact_mod_cast none
      · exact absurd none (by positivity)
    have least : number.exponent = leastExponent := by
      refine canonical.full.resolve_right fun full => ?_
      rw [zero] at full
      exact absurd full (by decide)
    rw [nearest?, if_pos (.inl nothing), ← zero, ← least]

theorem spelled_shortest (canonical : number.Canonical) (positive : 0 < number.significand) :
    number.Spelled number.shortest.1 number.shortest.2 := by
  obtain ⟨digits, power, covers, shown⟩ := shortest_spec canonical positive
  obtain ⟨low, -⟩ := value_bounds_of_covers canonical positive covers
  have nonzero : 0 < digits := by
    apply Nat.pos_of_ne_zero
    rintro rfl
    rw [Nat.cast_zero, zero_mul] at low
    exact absurd low (by positivity : (0 : ℚ) < 10 ^ (-330 : Int)).not_gt
  obtain ⟨count, split⟩ := exists_trailingZeros (Nat.toDigits 10 digits)
  have value := JsonValue.Token.numberOfDigits_toDigits digits
  rw [shown]
  dsimp only
  generalize kept : withoutTrailingZeros (Nat.toDigits 10 digits) = shortened at *
  rw [split, numberOfDigits_append, numberOfDigits_zeros, List.length_replicate, Nat.add_zero]
    at value
  refine ⟨fun digit inside => ?_, .inl ?_, ?_⟩
  · have written : digit ∈ Nat.toDigits 10 digits := by
      rw [split]
      exact List.mem_append_left _ inside
    exact JsonValue.Token.isAsciiDigit_of_mem_toDigits written
  · obtain ⟨digit, more, shape, leading⟩ := JsonValue.Token.head_toDigits_ne_zero nonzero
    cases shortened with
    | nil =>
        rw [show numberOfDigits 10 [] = 0 from rfl, Nat.zero_mul] at value
        omega
    | cons head rest =>
        rw [split, List.cons_append] at shape
        obtain ⟨rfl, -⟩ := List.cons.inj shape
        exact ⟨head, rest, rfl, leading⟩
  · intro written exponent same
    apply nearest?_of_covers canonical positive
    rw [same, split, List.length_append, List.length_replicate]
    have moved : (numberOfDigits 10 shortened : ℚ) * 10 ^ (power + ((shortened.length + count :
        Nat) : Int) - 1 + 1 - shortened.length) = digits * 10 ^ power := by
      rw [← value, show power + ((shortened.length + count : Nat) : Int) - 1 + 1 -
        shortened.length = count + power by push_cast; ring, zpow_add₀ (by norm_num), zpow_natCast]
      push_cast
      ring
    rwa [moved]

end Binary64

namespace JsonValue.Token

section Reading

variable {number : Binary64} {digits : List Char} {first : Int} {rest : List Char}

theorem takeWhile_digits {run after : List Char}
    (decimal : ∀ digit ∈ run, isAsciiDigit digit = true)
    (ends : ∀ digit ∈ after.head?, isAsciiDigit digit = false) :
    (run ++ after).takeWhile isAsciiDigit = run ∧
      (run ++ after).dropWhile isAsciiDigit = after := by
  have stops : after.takeWhile isAsciiDigit = [] ∧ after.dropWhile isAsciiDigit = after := by
    cases after with
    | nil => exact ⟨rfl, rfl⟩
    | cons character more => simp [ends character rfl]
  rw [List.takeWhile_append_of_pos decimal, List.dropWhile_append_of_pos decimal, stops.1, stops.2,
    List.append_nil]
  exact ⟨rfl, rfl⟩

theorem noDigit_of_delimited (ends : Delimited rest) :
    ∀ digit ∈ rest.head?, isAsciiDigit digit = false := by
  obtain ⟨more, rfl | rfl⟩ := ends <;> simp [isAsciiDigit]

theorem exponent?_of_delimited (ends : Delimited rest) : exponent? rest = none := by
  obtain ⟨more, rfl | rfl⟩ := ends <;> rfl

theorem exponent?_append (ends : Delimited rest) (power : Int) :
    exponent? ('e' :: (if power < 0 then '-' else '+') ::
      (Nat.toDigits 10 power.natAbs ++ rest)) = some (power, rest) := by
  have decimal : ∀ digit ∈ Nat.toDigits 10 power.natAbs, isAsciiDigit digit = true :=
    fun digit => isAsciiDigit_of_mem_toDigits
  obtain ⟨taken, dropped⟩ := takeWhile_digits decimal (noDigit_of_delimited ends)
  obtain ⟨digit, more, shape⟩ := List.exists_cons_of_ne_nil
    (Nat.toDigits_ne_nil (n := power.natAbs) (b := 10))
  have read : run? isAsciiDigit (Nat.toDigits 10 power.natAbs ++ rest) =
      some (Nat.toDigits 10 power.natAbs, rest) := by
    rw [run?, taken, dropped, shape]
  have letter (text : List Char) : (literal? "e" ('e' :: text)).or (literal? "E" ('e' :: text)) =
      some text := rfl
  by_cases below : power < 0
  · simp only [exponent?, if_pos below, letter, Option.bind_eq_bind, Option.bind_some, read,
      numberOfDigits_toDigits]
    simp only [if_true, Option.some.injEq, Prod.mk.injEq, and_true]
    omega
  · simp only [exponent?, if_neg below, letter, Option.bind_eq_bind, Option.bind_some, read,
      numberOfDigits_toDigits]
    simp only [Bool.false_eq_true, if_false, Option.some.injEq, Prod.mk.injEq, and_true]
    omega

/-- The digits before the point: a zero alone, or digits that do not start with one. -/
theorem wholeDigits_append {whole after : List Char}
    (decimal : ∀ digit ∈ whole, isAsciiDigit digit = true)
    (leading : (∃ digit more, whole = digit :: more ∧ digit ≠ '0') ∨ whole = ['0'])
    (ends : ∀ digit ∈ after.head?, isAsciiDigit digit = false) :
    wholeDigits (whole ++ after) = (whole, after) := by
  rcases leading with ⟨digit, more, rfl, nonzero⟩ | rfl
  · obtain ⟨taken, dropped⟩ := takeWhile_digits decimal ends
    rw [List.cons_append] at taken dropped ⊢
    rw [wholeDigits.eq_2 _ (by simpa using nonzero), taken, dropped]
  · rfl

theorem decimal?_point {negative : Bool} {whole fraction after : List Char}
    (decimalWhole : ∀ digit ∈ whole, isAsciiDigit digit = true)
    (leading : (∃ digit more, whole = digit :: more ∧ digit ≠ '0') ∨ whole = ['0'])
    (decimal : ∀ digit ∈ fraction, isAsciiDigit digit = true)
    (ends : ∀ digit ∈ after.head?, isAsciiDigit digit = false) {power : Int} {rest : List Char}
    (scaled : (exponent? after).getD (0, after) = (power, rest)) :
    decimal? negative (whole ++ '.' :: (fraction ++ after)) =
      (Binary64.nearest? negative (numberOfDigits 10 (whole ++ fraction))
        (power - (fraction.length : Int))).map fun value => (.double value, rest) := by
  have nonempty : whole.isEmpty = false := by
    rcases leading with ⟨digit, more, rfl, -⟩ | rfl <;> rfl
  obtain ⟨taken, dropped⟩ := takeWhile_digits decimal ends
  have split : wholeDigits (whole ++ '.' :: (fraction ++ after)) =
      (whole, '.' :: (fraction ++ after)) :=
    wholeDigits_append decimalWhole leading (by simp [isAsciiDigit])
  simp only [decimal?, split, fraction?, taken, dropped, nonempty, scaled, Bool.false_and,
    Bool.false_eq_true, if_false]
  cases Binary64.nearest? negative (numberOfDigits 10 (whole ++ fraction))
    (power - (fraction.length : Int)) <;> rfl

theorem decimal?_exponent {negative : Bool} {digit : Char} (decimal : isAsciiDigit digit = true)
    (nonzero : digit ≠ '0') {after rest : List Char} {power : Int}
    (scaled : exponent? ('e' :: after) = some (power, rest)) :
    decimal? negative (digit :: 'e' :: after) =
      (Binary64.nearest? negative (numberOfDigits 10 [digit]) power).map
        fun value => (.double value, rest) := by
  have split : wholeDigits ([digit] ++ 'e' :: after) = ([digit], 'e' :: after) :=
    wholeDigits_append (by simpa using decimal) (.inl ⟨digit, [], rfl, nonzero⟩)
      (by simp [isAsciiDigit])
  rw [List.singleton_append] at split
  simp only [decimal?, split, fraction?, scaled, List.isEmpty_cons, Bool.false_eq_true, if_false]
  cases Binary64.nearest? negative (numberOfDigits 10 [digit]) power <;> rfl

/-- What is read of the digits when there is a point, and no exponent, among them. -/
theorem decimal?_spelled (ends : Delimited rest) (spelled : number.Spelled digits first)
    {whole fraction : List Char} (decimalWhole : ∀ digit ∈ whole, isAsciiDigit digit = true)
    (leading : (∃ digit more, whole = digit :: more ∧ digit ≠ '0') ∨ whole = ['0'])
    (decimal : ∀ digit ∈ fraction, isAsciiDigit digit = true)
    (same : (numberOfDigits 10 (whole ++ fraction) * 10 ^ (-(fraction.length : Int)) : ℚ) =
      numberOfDigits 10 digits * 10 ^ (first + 1 - digits.length)) :
    decimal? number.negative (whole ++ '.' :: fraction ++ rest) = some (.double number, rest) := by
  have scaled : (exponent? rest).getD (0, rest) = (0, rest) := by
    rw [exponent?_of_delimited ends, Option.getD_none]
  rw [List.append_assoc, List.cons_append, decimal?_point decimalWhole leading decimal
    (noDigit_of_delimited ends) scaled, zero_sub, spelled.reads same, Option.map_some]

theorem isAsciiDigit_of_mem_zeros {count : Nat} :
    ∀ digit ∈ List.replicate count '0', isAsciiDigit digit = true := by
  intro digit inside
  rw [List.eq_of_mem_replicate inside]
  rfl

theorem decimal?_positional (ends : Delimited rest) (spelled : number.Spelled digits first) :
    decimal? number.negative (positional digits first ++ rest) = some (.double number, rest) := by
  rw [positional]
  split
  · next below =>
      rw [show ['0', '.'] ++ List.replicate (-first - 1).toNat '0' ++ digits =
        ['0'] ++ '.' :: (List.replicate (-first - 1).toNat '0' ++ digits) by simp]
      refine decimal?_spelled ends spelled (by simp [isAsciiDigit]) (.inr rfl) ?_ ?_
      · exact List.forall_mem_append.2 ⟨isAsciiDigit_of_mem_zeros, spelled.decimal⟩
      · rw [numberOfDigits_append, numberOfDigits_append, numberOfDigits_zeros,
          show numberOfDigits 10 ['0'] = 0 from rfl, List.length_append, List.length_replicate,
          show (-(((-first - 1).toNat + digits.length : Nat) : Int)) = first + 1 - digits.length by
            push_cast; omega]
        simp
  · next above =>
      dsimp only
      split
      · next short =>
          rw [show digits ++ List.replicate (first.toNat + 1 - digits.length) '0' ++ ['.', '0'] =
            (digits ++ List.replicate (first.toNat + 1 - digits.length) '0') ++ '.' :: ['0'] by
              simp]
          refine decimal?_spelled ends spelled ?_ ?_ (by simp [isAsciiDigit]) ?_
          · exact List.forall_mem_append.2 ⟨spelled.decimal, isAsciiDigit_of_mem_zeros⟩
          · rcases spelled.leading with ⟨digit, more, rfl, nonzero⟩ | ⟨rfl, rfl⟩
            · exact .inl ⟨digit, _, List.cons_append, nonzero⟩
            · exact .inr rfl
          · rw [List.append_assoc, numberOfDigits_append, numberOfDigits_append,
              numberOfDigits_zeros, show numberOfDigits 10 ['0'] = 0 from rfl, List.length_append,
              List.length_replicate, show first + 1 - (digits.length : Int) =
                ((first.toNat + 1 - digits.length + 1 : Nat) : Int) + -1 by push_cast; omega,
              zpow_add₀ (by norm_num), zpow_natCast, List.length_singleton]
            push_cast
            ring
      · next long =>
          rw [show digits.take (first.toNat + 1) ++ ['.'] ++ digits.drop (first.toNat + 1) =
            digits.take (first.toNat + 1) ++ '.' :: digits.drop (first.toNat + 1) by simp]
          refine decimal?_spelled ends spelled (fun digit inside => ?_) (.inl ?_)
            (fun digit inside => ?_) ?_
          · exact spelled.decimal digit (List.mem_of_mem_take inside)
          · rcases spelled.leading with ⟨digit, more, rfl, nonzero⟩ | ⟨rfl, rfl⟩
            · exact ⟨digit, _, List.take_succ_cons, nonzero⟩
            · exact absurd le_rfl long
          · exact spelled.decimal digit (List.mem_of_mem_drop inside)
          · rw [List.take_append_drop, List.length_drop,
              show (-((digits.length - (first.toNat + 1) : Nat) : Int)) =
                first + 1 - digits.length by omega]

theorem decimal?_exponential (ends : Delimited rest) (spelled : number.Spelled digits first)
    (large : first ≠ 0) :
    decimal? number.negative (exponential digits first ++ rest) = some (.double number, rest) := by
  rcases spelled.leading with ⟨digit, more, rfl, nonzero⟩ | ⟨rfl, zero⟩
  · have scaled := exponent?_append ends first
    have shown : exponential (digit :: more) first ++ rest = digit ::
        ((if more.isEmpty then [] else '.' :: more) ++ 'e' :: (if first < 0 then '-' else '+') ::
          (Nat.toDigits 10 first.natAbs ++ rest)) := by
      simp [exponential]
    rw [shown]
    cases more with
    | nil =>
        rw [List.isEmpty_nil, if_pos rfl, List.nil_append,
          decimal?_exponent (spelled.decimal digit List.mem_cons_self) nonzero scaled,
          spelled.reads (by simp), Option.map_some]
    | cons second others =>
        have alone : ∀ one ∈ [digit], isAsciiDigit one = true := by
          simpa using spelled.decimal digit List.mem_cons_self
        have later : ∀ one ∈ second :: others, isAsciiDigit one = true :=
          fun one inside => spelled.decimal one (List.mem_cons_of_mem _ inside)
        have same : (numberOfDigits 10 ([digit] ++ second :: others) *
            10 ^ (first - ((second :: others).length : Int)) : ℚ) =
            numberOfDigits 10 (digit :: second :: others) *
              10 ^ (first + 1 - (digit :: second :: others).length) := by
          rw [List.singleton_append, List.length_cons (a := digit),
            show first + 1 - (((second :: others).length + 1 : Nat) : Int) =
              first - (second :: others).length by push_cast; ring]
        have read : decimal? number.negative ([digit] ++ '.' :: (second :: others ++ 'e' ::
            (if first < 0 then '-' else '+') :: (Nat.toDigits 10 first.natAbs ++ rest))) =
              (Binary64.nearest? number.negative (numberOfDigits 10 ([digit] ++ second :: others))
                (first - ((second :: others).length : Int))).map fun value =>
                  (.double value, rest) :=
          decimal?_point alone (.inl ⟨digit, [], rfl, nonzero⟩) later (by simp [isAsciiDigit])
            (by rw [scaled, Option.getD_some])
        rw [spelled.reads same] at read
        exact read
  · exact absurd zero large

/-- What is written for digits starts with a digit that is no zero, or with a zero and a point. -/
theorem starts_of_spelled (spelled : number.Spelled digits first) :
    ∃ digit more, (if -5 ≤ first ∧ first < 16 then positional digits first
      else exponential digits first) = digit :: more ∧ isAsciiDigit digit = true ∧
      (digit = '0' → ∃ others, more = '.' :: others) := by
  by_cases below : -5 ≤ first ∧ first < 0
  · exact ⟨'0', _, by rw [if_pos ⟨below.1, by omega⟩, positional, if_pos below.2]; rfl, rfl,
      fun _ => ⟨_, rfl⟩⟩
  rcases spelled.leading with ⟨digit, more, rfl, nonzero⟩ | ⟨rfl, rfl⟩
  · have ⟨others, shape⟩ : ∃ others, (if -5 ≤ first ∧ first < 16 then
        positional (digit :: more) first else exponential (digit :: more) first) =
          digit :: others := by
      split
      · rw [positional, if_neg (by omega)]
        dsimp only
        split
        · exact ⟨_, rfl⟩
        · exact ⟨_, by rw [List.take_succ_cons]; rfl⟩
      · exact ⟨_, rfl⟩
    exact ⟨digit, others, shape, spelled.decimal digit List.mem_cons_self,
      fun zero => absurd zero nonzero⟩
  · exact ⟨'0', _, rfl, rfl, fun _ => ⟨_, rfl⟩⟩

theorem exists_spelled (canonical : number.Canonical) :
    ∃ digits first, (if number.significand = 0 then (['0'], 0) else number.shortest) =
      (digits, first) ∧ number.Spelled digits first := by
  split
  · next zero => exact ⟨_, _, rfl, Binary64.spelled_zero canonical zero⟩
  · next nonzero =>
      exact ⟨_, _, rfl, Binary64.spelled_shortest canonical (Nat.pos_of_ne_zero nonzero)⟩

/-- A printed double is read back. -/
theorem number?_doubleText (ends : Delimited rest) (canonical : number.Canonical) :
    number? (doubleText number ++ rest) = some (.number (.double number), rest) := by
  obtain ⟨digits, first, same, spelled⟩ := exists_spelled canonical
  rw [doubleText, same]
  dsimp only
  have read : decimal? number.negative ((if -5 ≤ first ∧ first < 16 then positional digits first
      else exponential digits first) ++ rest) = some (.double number, rest) := by
    split
    · exact decimal?_positional ends spelled
    · exact decimal?_exponential ends spelled (by omega)
  obtain ⟨digit, more, shape, decimal, point⟩ := starts_of_spelled spelled
  rw [shape, List.cons_append] at read
  rw [shape, List.append_assoc, List.cons_append]
  refine number?_of_decimal? decimal (fun zero => ?_) read
  obtain ⟨others, rfl⟩ := point zero
  simp

end Reading

end JsonValue.Token

end AmbientStubs
