import Mathlib.Algebra.Order.Field.Power
import Mathlib.Algebra.Order.Ring.Rat
import Mathlib.Data.Nat.Cast.Order.Field
import Mathlib.Tactic.FieldSimp
import Mathlib.Tactic.Linarith
import Mathlib.Tactic.NormNum
import Mathlib.Tactic.Positivity
import Mathlib.Tactic.Ring
import AmbientStubs.Binary64.Shortest

/-!
The decimal of a double reads back as the double.  A decimal is read as the double whose rounding
interval holds it, and the shortest digits are chosen inside that interval.
-/

namespace AmbientStubs.Binary64

section Scale

variable {base : Nat} {power : Int}

theorem scale_pos (positive : 0 < base) (power : Int) : 0 < (scale base power : ℚ) := by
  have powered : 0 < base ^ power.toNat := Nat.pow_pos positive
  exact_mod_cast powered

theorem scale_eq_zpow_mul (positive : 0 < base) (power : Int) :
    (scale base power : ℚ) = (base : ℚ) ^ power * scale base (-power) := by
  have nonzero : (base : ℚ) ≠ 0 := by exact_mod_cast positive.ne'
  have cast (power : Int) : (scale base power : ℚ) = (base : ℚ) ^ power.toNat := by
    exact_mod_cast (Nat.cast_pow base power.toNat : ((base ^ power.toNat : Nat) : ℚ) = _)
  rw [cast, cast, ← zpow_natCast, ← zpow_natCast, ← zpow_add₀ nonzero]
  congr 1
  omega

end Scale

section DigitCount

variable {number : Nat}

theorem lt_pow_digitCount (number : Nat) : number < 10 ^ digitCount number := by
  have nonempty : 0 < digitCount number := Nat.length_toDigits_pos
  exact (Nat.length_toDigits_le_iff (by decide) nonempty).1 (Nat.le_refl _)

theorem pow_digitCount_le (positive : 0 < number) : 10 ^ (digitCount number - 1) ≤ number := by
  by_cases single : digitCount number ≤ 1
  · rw [Nat.sub_eq_zero_of_le single]
    exact positive
  · have shorter := mt (Nat.length_toDigits_le_iff (b := 10) (n := number)
      (k := digitCount number - 1) (by decide) (by omega)).2
    exact Nat.not_lt.1 (shorter (by rw [digitCount]; unfold digitCount at single; omega))

end DigitCount

/-- The exponent at which a value has 53 bits before the point, though none below the least
exponent. -/
structure FitsAt (value : ℚ) (exponent : Int) : Prop where
  least : leastExponent ≤ exponent
  below : value < 2 ^ (exponent + 53)
  full : exponent = leastExponent ∨ 2 ^ (exponent + 52) ≤ value

/-- The nearest integer to a value, the even one of two equally near. -/
structure RoundsTo (value : ℚ) (integer : Nat) : Prop where
  low : (integer : ℚ) ≤ value + 1 / 2
  high : value ≤ integer + 1 / 2
  odd : integer % 2 = 1 → (integer : ℚ) < value + 1 / 2 ∧ value < integer + 1 / 2

section Rounding

variable {value : ℚ}

theorem FitsAt.le {first second : Int} (fitsFirst : FitsAt value first)
    (fitsSecond : FitsAt value second) : first ≤ second := by
  rcases fitsFirst.full with least | full
  · exact least ▸ fitsSecond.least
  · have exponents := (zpow_lt_zpow_iff_right₀ one_lt_two).1
      (full.trans_lt fitsSecond.below)
    omega

theorem FitsAt.unique {first second : Int} (fitsFirst : FitsAt value first)
    (fitsSecond : FitsAt value second) : first = second :=
  le_antisymm (fitsFirst.le fitsSecond) (fitsSecond.le fitsFirst)

theorem RoundsTo.le {first second : Nat} (roundsFirst : RoundsTo value first)
    (roundsSecond : RoundsTo value second) : first ≤ second := by
  by_contra above
  have next : second + 1 ≤ first := by omega
  have nextCast : (second : ℚ) + 1 ≤ first := by exact_mod_cast next
  have low := roundsFirst.low
  have high := roundsSecond.high
  -- Both are half a unit away, so they are neighbours and one of them is odd.
  have neighbours : first = second + 1 := by
    have together : (first : ℚ) ≤ second + 1 := by linarith
    have : first ≤ second + 1 := by exact_mod_cast together
    omega
  rcases Nat.mod_two_eq_zero_or_one second with even | odd
  · have strict := (roundsFirst.odd (by omega)).1
    linarith
  · have strict := (roundsSecond.odd odd).2
    linarith

theorem RoundsTo.unique {first second : Nat} (roundsFirst : RoundsTo value first)
    (roundsSecond : RoundsTo value second) : first = second :=
  le_antisymm (roundsFirst.le roundsSecond) (roundsSecond.le roundsFirst)

variable {numerator denominator : Nat}

/-- The binary logarithms of numerator and denominator leave two binary places for a quotient. -/
theorem quotient_bounds (positive : 0 < numerator) (divides : 0 < denominator) :
    (2 : ℚ) ^ ((Nat.log2 numerator : Int) - Nat.log2 denominator - 1) ≤ numerator / denominator ∧
    (numerator / denominator : ℚ) <
      2 ^ ((Nat.log2 numerator : Int) - Nat.log2 denominator + 1) := by
  have dividesCast : (0 : ℚ) < denominator := by exact_mod_cast divides
  have aboveNumerator : (2 : ℚ) ^ (Nat.log2 numerator : Int) ≤ numerator := by
    exact_mod_cast Nat.log2_self_le positive.ne'
  have belowNumerator : (numerator : ℚ) < 2 ^ (Nat.log2 numerator + 1 : Int) := by
    exact_mod_cast (Nat.lt_log2_self (n := numerator))
  have aboveDenominator : (2 : ℚ) ^ (Nat.log2 denominator : Int) ≤ denominator := by
    exact_mod_cast Nat.log2_self_le divides.ne'
  have belowDenominator : (denominator : ℚ) < 2 ^ (Nat.log2 denominator + 1 : Int) := by
    exact_mod_cast (Nat.lt_log2_self (n := denominator))
  constructor
  · rw [le_div_iff₀ dividesCast]
    calc _ ≤ (2 : ℚ) ^ ((Nat.log2 numerator : Int) - Nat.log2 denominator - 1) *
          2 ^ (Nat.log2 denominator + 1 : Int) := by gcongr
      _ = 2 ^ (Nat.log2 numerator : Int) := by
          rw [← zpow_add₀ two_ne_zero]
          congr 1
          ring
      _ ≤ numerator := aboveNumerator
  · rw [div_lt_iff₀ dividesCast]
    calc (numerator : ℚ) < 2 ^ (Nat.log2 numerator + 1 : Int) := belowNumerator
      _ = 2 ^ ((Nat.log2 numerator : Int) - Nat.log2 denominator + 1) *
          2 ^ (Nat.log2 denominator : Int) := by
          rw [← zpow_add₀ two_ne_zero]
          congr 1
          ring
      _ ≤ _ := by gcongr

theorem scale_mul_firstBit_le_iff (numerator : Nat) (divides : 0 < denominator) (guess : Int) :
    scale 2 guess * denominator * firstBit ≤ scale 2 (-guess) * numerator ↔
      (2 : ℚ) ^ (guess + 52) ≤ numerator / denominator := by
  have dividesCast : (0 : ℚ) < denominator := by exact_mod_cast divides
  have scales := scale_eq_zpow_mul two_pos guess
  have bits : (firstBit : ℚ) = 2 ^ (52 : Int) := by norm_num [firstBit]
  rw [← Nat.cast_le (α := ℚ), le_div_iff₀ dividesCast, zpow_add₀ two_ne_zero]
  push_cast at scales ⊢
  rw [scales, bits, show (2 : ℚ) ^ guess * scale 2 (-guess) * denominator * 2 ^ (52 : Int) =
    scale 2 (-guess) * (2 ^ guess * 2 ^ (52 : Int) * denominator) by ring]
  exact mul_le_mul_iff_right₀ (scale_pos two_pos (-guess))

theorem fitsAt_quotientExponent (positive : 0 < numerator) (divides : 0 < denominator) :
    FitsAt (numerator / denominator) (quotientExponent numerator denominator) := by
  obtain ⟨low, high⟩ := quotient_bounds positive divides
  rw [quotientExponent]
  generalize exponentIs : (Nat.log2 numerator : Int) - Nat.log2 denominator - 52 = guess
  rw [show (Nat.log2 numerator : Int) - Nat.log2 denominator - 1 = guess + 51 by omega] at low
  rw [show (Nat.log2 numerator : Int) - Nat.log2 denominator + 1 = guess + 53 by omega] at high
  have fits := scale_mul_firstBit_le_iff numerator divides guess
  -- One of the two candidates has exactly 53 bits; the least exponent may still be above it.
  have found : ∃ exponent : Int, (numerator / denominator : ℚ) < 2 ^ (exponent + 53) ∧
      (2 : ℚ) ^ (exponent + 52) ≤ numerator / denominator ∧
      (if decide (scale 2 guess * denominator * firstBit ≤ scale 2 (-guess) * numerator) = true
        then guess else guess - 1) = exponent := by
    by_cases enough : scale 2 guess * denominator * firstBit ≤ scale 2 (-guess) * numerator
    · exact ⟨guess, high, fits.1 enough, by rw [if_pos (by simpa using enough)]⟩
    · refine ⟨guess - 1, ?_, ?_, by rw [if_neg (by simpa using enough)]⟩
      · rw [show guess - 1 + 53 = guess + 52 by ring]
        exact not_le.1 (mt fits.2 enough)
      · rwa [show guess - 1 + 52 = guess + 51 by ring]
  obtain ⟨exponent, below, full, same⟩ := found
  rw [same]
  refine ⟨le_max_left _ _, below.trans_le ?_, ?_⟩
  · exact zpow_le_zpow_right₀ one_le_two (by omega)
  · rcases le_total leastExponent exponent with above | under
    · exact .inr (by rwa [max_eq_right above])
    · exact .inl (max_eq_left under)

theorem roundsTo_roundQuotient (numerator : Nat) (divides : 0 < denominator) :
    RoundsTo (numerator / denominator) (roundQuotient numerator denominator) := by
  have dividesCast : (0 : ℚ) < denominator := by exact_mod_cast divides
  have split : (numerator : ℚ) = denominator * (numerator / denominator : Nat) +
      (numerator % denominator : Nat) := by
    exact_mod_cast (Nat.div_add_mod numerator denominator).symm
  have small := Nat.mod_lt numerator divides
  rw [roundQuotient]
  generalize numerator / denominator = quotient at *
  generalize numerator % denominator = rest at *
  have ratio : (numerator : ℚ) / denominator = quotient + rest / denominator := by
    rw [split]
    field_simp
  rw [ratio]
  have smallCast : (rest : ℚ) / denominator < 1 := by
    rw [div_lt_one dividesCast]
    exact_mod_cast small
  have notNegative : (0 : ℚ) ≤ rest / denominator := by positivity
  split
  · next up =>
    have half : (1 / 2 : ℚ) ≤ rest / denominator := by
      rw [div_le_div_iff₀ two_pos dividesCast]
      exact_mod_cast (by omega : 1 * denominator ≤ rest * 2)
    refine ⟨by push_cast; linarith, by push_cast; linarith, fun odd => ?_⟩
    have strict : (1 / 2 : ℚ) < rest / denominator := by
      rw [div_lt_div_iff₀ two_pos dividesCast]
      exact_mod_cast (by omega : 1 * denominator < rest * 2)
    constructor <;> push_cast <;> linarith
  · next down =>
    have half : (rest / denominator : ℚ) ≤ 1 / 2 := by
      rw [div_le_div_iff₀ dividesCast two_pos]
      exact_mod_cast (by omega : rest * 2 ≤ 1 * denominator)
    refine ⟨by linarith, by linarith, fun odd => ?_⟩
    have strict : (rest / denominator : ℚ) < 1 / 2 := by
      rw [div_lt_div_iff₀ dividesCast two_pos]
      exact_mod_cast (by omega : rest * 2 < 1 * denominator)
    constructor <;> linarith

end Rounding

/-- A double as it is stored: 53 bits, of which only numbers at the least exponent leave the first
ones empty. -/
structure Canonical (number : Binary64) : Prop where
  short : number.significand < 2 * firstBit
  least : leastExponent ≤ number.exponent
  greatest : number.exponent ≤ greatestExponent
  full : number.exponent = leastExponent ∨ firstBit ≤ number.significand

section Nearest

variable {digits : Nat} {power : Int}

/-- The value of a decimal lies between the powers of ten that its width names. -/
theorem decimal_bounds (positive : 0 < digits) (power : Int) :
    (10 : ℚ) ^ ((digitCount digits : Int) + power - 1) ≤ digits * 10 ^ power ∧
    (digits * 10 ^ power : ℚ) < 10 ^ ((digitCount digits : Int) + power) := by
  have counted : 0 < digitCount digits := Nat.length_toDigits_pos
  have low : (10 : ℚ) ^ ((digitCount digits : Int) - 1) ≤ digits := by
    rw [show (digitCount digits : Int) - 1 = ((digitCount digits - 1 : Nat) : Int) by omega,
      zpow_natCast]
    exact_mod_cast pow_digitCount_le positive
  have high : (digits : ℚ) < 10 ^ (digitCount digits : Int) := by
    rw [zpow_natCast]
    exact_mod_cast lt_pow_digitCount digits
  have ten : (10 : ℚ) ≠ 0 := by norm_num
  constructor
  · rw [show (digitCount digits : Int) + power - 1 = (digitCount digits : Int) - 1 + power by ring,
      zpow_add₀ ten]
    gcongr
  · rw [zpow_add₀ ten]
    gcongr

theorem carry_eq (negative : Bool) (significand : Nat) (exponent : Int) :
    (match if significand = 2 * firstBit then (firstBit, exponent + 1)
        else (significand, exponent) with
      | (significand, exponent) =>
          if greatestExponent < exponent then none
          else some (Binary64.mk negative significand exponent)) =
      if significand = 2 * firstBit then
        if greatestExponent < exponent + 1 then none else some ⟨negative, firstBit, exponent + 1⟩
      else if greatestExponent < exponent then none
      else some ⟨negative, significand, exponent⟩ := by
  by_cases carries : significand = 2 * firstBit
  · rw [if_pos carries, if_pos carries]
  · rw [if_neg carries, if_neg carries]

theorem quotient_at (numerator denominator : Nat) (exponent : Int) :
    ((numerator * scale 2 (-exponent) : Nat) : ℚ) / (denominator * scale 2 exponent : Nat) =
      numerator / denominator / 2 ^ exponent := by
  have nonzero := (scale_pos two_pos (-exponent)).ne'
  have scales := scale_eq_zpow_mul two_pos exponent
  push_cast at scales ⊢
  rw [scales]
  field_simp

/-- Reading a decimal rounds its value at the exponent that fits it. -/
theorem nearest?_eq (negative : Bool) (positive : 0 < digits) (power : Int)
    (notTiny : -330 ≤ (digitCount digits : Int) + power)
    (notHuge : (digitCount digits : Int) + power ≤ 310) :
    ∃ exponent significand, FitsAt (digits * 10 ^ power) exponent ∧
      RoundsTo (digits * 10 ^ power / 2 ^ exponent) significand ∧
      nearest? negative digits power =
        if significand = 2 * firstBit then
          if greatestExponent < exponent + 1 then none else some ⟨negative, firstBit, exponent + 1⟩
        else if greatestExponent < exponent then none
        else some ⟨negative, significand, exponent⟩ := by
  have ten : 0 < 10 := by decide
  have scaled : 0 < digits * scale 10 power :=
    Nat.mul_pos positive (Nat.pow_pos ten)
  have divides : 0 < scale 10 (-power) := Nat.pow_pos ten
  have value : ((digits * scale 10 power : Nat) : ℚ) / (scale 10 (-power) : Nat) =
      digits * 10 ^ power := by
    have nonzero := (scale_pos ten (-power)).ne'
    have scales := scale_eq_zpow_mul ten power
    push_cast at scales ⊢
    rw [scales]
    field_simp
  have fits := fitsAt_quotientExponent scaled divides
  rw [value] at fits
  have rounds := roundsTo_roundQuotient
    (digits * scale 10 power *
      scale 2 (-quotientExponent (digits * scale 10 power) (scale 10 (-power))))
    (show 0 < scale 10 (-power) *
      scale 2 (quotientExponent (digits * scale 10 power) (scale 10 (-power)))
      from Nat.mul_pos divides (Nat.pow_pos two_pos))
  rw [quotient_at, value] at rounds
  refine ⟨_, _, fits, rounds, ?_⟩
  have nonzero : ¬ (digits = 0 ∨ (digitCount digits : Int) + power < -330) := by omega
  rw [nearest?, if_neg nonzero, if_neg notHuge.not_gt]
  exact carry_eq negative _ _

theorem firstBit_cast : (firstBit : ℚ) = 2 ^ (52 : Int) := by
  norm_num [firstBit]

theorem fitsAt_iff {value : ℚ} {exponent : Int} :
    FitsAt value exponent ↔ leastExponent ≤ exponent ∧ value / 2 ^ exponent < 2 * firstBit ∧
      (exponent = leastExponent ∨ firstBit ≤ value / 2 ^ exponent) := by
  have positive : (0 : ℚ) < 2 ^ exponent := by positivity
  have double : (2 * firstBit : ℚ) * 2 ^ exponent = 2 ^ (exponent + 53) := by
    rw [firstBit_cast, zpow_add₀ two_ne_zero]
    norm_num
    ring
  have single : (firstBit : ℚ) * 2 ^ exponent = 2 ^ (exponent + 52) := by
    rw [firstBit_cast, zpow_add₀ two_ne_zero, mul_comm]
  rw [div_lt_iff₀ positive, le_div_iff₀ positive, double, single]
  exact ⟨fun fits => ⟨fits.least, fits.below, fits.full⟩,
    fun ⟨least, below, full⟩ => ⟨least, below, full⟩⟩

theorem canonical_of_nearest? {negative : Bool} {number : Binary64}
    (read : nearest? negative digits power = some number) :
    number.Canonical ∧ number.negative = negative := by
  by_cases tiny : digits = 0 ∨ (digitCount digits : Int) + power < -330
  · rw [nearest?, if_pos tiny] at read
    cases read
    exact ⟨⟨(by decide : 0 < 2 * firstBit), le_refl _,
      (by decide : leastExponent ≤ greatestExponent), .inl rfl⟩, rfl⟩
  by_cases huge : 310 < (digitCount digits : Int) + power
  · rw [nearest?, if_neg tiny, if_pos huge] at read
    cases read
  obtain ⟨exponent, significand, fits, rounds, same⟩ :=
    nearest?_eq negative (show 0 < digits by omega) power (by omega) (by omega)
  obtain ⟨least, below, full⟩ := fitsAt_iff.1 fits
  rw [same] at read
  split at read
  · split at read
    · cases read
    · next small =>
        cases read
        exact ⟨⟨(by decide : firstBit < 2 * firstBit), by dsimp only; omega, by dsimp only; omega,
          .inr (le_refl _)⟩, rfl⟩
  · next noCarry =>
      split at read
      · cases read
      · next small =>
          cases read
          have low := rounds.low
          have high := rounds.high
          have short : significand < 2 * firstBit := by
            have atMost : (significand : ℚ) < (2 * firstBit + 1 : Nat) := by
              push_cast
              linarith
            have : significand < 2 * firstBit + 1 := by exact_mod_cast atMost
            omega
          refine ⟨⟨short, least, by dsimp only; omega, full.imp_right fun full => ?_⟩, rfl⟩
          have atLeast : (firstBit : ℚ) < (significand + 1 : Nat) := by
            push_cast
            linarith
          have : firstBit < significand + 1 := by exact_mod_cast atLeast
          exact Nat.lt_succ_iff.1 this

end Nearest

/-- A value lies in the interval of those that round to a number; the ends belong to it exactly
when the significand is even. -/
def Covers (number : Binary64) (value : ℚ) : Prop :=
  let scaled := value / 2 ^ number.exponent
  if number.significand % 2 = 0 then
    number.interval.1 ≤ 4 * scaled ∧ 4 * scaled ≤ number.interval.2
  else number.interval.1 < 4 * scaled ∧ 4 * scaled < number.interval.2

section Covering

variable {number : Binary64} {value : ℚ}

/-- The ends of the interval in quarters.  It is narrower below a power of two. -/
theorem interval_cases (positive : 0 < number.significand) :
    (number.interval.2 : ℚ) = 4 * number.significand + 2 ∧
      ((number.significand = firstBit ∧ leastExponent < number.exponent) ∧
          (number.interval.1 : ℚ) = 4 * number.significand - 1 ∨
        ¬ (number.significand = firstBit ∧ leastExponent < number.exponent) ∧
          (number.interval.1 : ℚ) = 4 * number.significand - 2) := by
  simp only [interval]
  split
  · next narrow =>
      refine ⟨by push_cast; ring, .inl ⟨narrow, ?_⟩⟩
      rw [Nat.cast_sub (by omega)]
      push_cast
      ring
  · next wide =>
      refine ⟨by push_cast; ring, .inr ⟨wide, ?_⟩⟩
      rw [Nat.cast_sub (by omega)]
      push_cast
      ring

/-- The interval lies between the halves on both sides of the significand. -/
theorem Covers.rounds (positive : 0 < number.significand) (covers : number.Covers value) :
    RoundsTo (value / 2 ^ number.exponent) number.significand := by
  obtain ⟨high, low⟩ := interval_cases positive
  have half : (4 * number.significand - 2 : ℚ) ≤ number.interval.1 := by
    rcases low with ⟨-, low⟩ | ⟨-, low⟩ <;> linarith
  simp only [Covers] at covers
  split at covers
  · next even =>
      exact ⟨by linarith [covers.1], by linarith [covers.2], fun odd => by omega⟩
  · exact ⟨by linarith [covers.1], by linarith [covers.2],
      fun _ => ⟨by linarith [covers.1], by linarith [covers.2]⟩⟩

theorem Covers.low (covers : number.Covers value) :
    number.interval.1 ≤ 4 * (value / 2 ^ number.exponent) := by
  simp only [Covers] at covers
  split at covers
  · exact covers.1
  · exact covers.1.le

/-- A value in the interval of a double fits at its exponent and rounds to its significand, but for
the values right below a power of two: they have one bit more, and it is carried. -/
theorem Covers.fits (canonical : number.Canonical) (positive : 0 < number.significand)
    (covers : number.Covers value) :
    FitsAt value number.exponent ∨
    FitsAt value (number.exponent - 1) ∧ number.significand = firstBit ∧
      RoundsTo (value / 2 ^ (number.exponent - 1)) (2 * firstBit) := by
  have rounds := covers.rounds positive
  have short : (number.significand + 1 : ℚ) ≤ 2 * firstBit := by exact_mod_cast canonical.short
  have below : value / 2 ^ number.exponent < 2 * firstBit := by
    linarith [rounds.high]
  by_cases full : number.exponent = leastExponent ∨ firstBit ≤ value / 2 ^ number.exponent
  · exact .inl (fitsAt_iff.2 ⟨canonical.least, below, full⟩)
  rw [not_or, not_le] at full
  have above : leastExponent < number.exponent := lt_of_le_of_ne canonical.least (Ne.symm full.1)
  have first : number.significand = firstBit := by
    have atLeast := canonical.full.resolve_left full.1
    have atMost : (number.significand : ℚ) < (firstBit + 1 : Nat) := by
      push_cast
      linarith [rounds.low]
    have : number.significand < firstBit + 1 := by exact_mod_cast atMost
    omega
  have near : (4 * firstBit - 1 : ℚ) ≤ 4 * (value / 2 ^ number.exponent) := by
    rcases (interval_cases positive).2 with ⟨-, low⟩ | ⟨wide, -⟩
    · rw [← first, ← low]
      exact covers.low
    · exact absurd ⟨first, above⟩ wide
  have twice : value / 2 ^ (number.exponent - 1) = 2 * (value / 2 ^ number.exponent) := by
    rw [zpow_sub_one₀ two_ne_zero]
    field_simp
  have bits : (1 : ℚ) ≤ firstBit := by norm_num [firstBit]
  refine .inr ⟨fitsAt_iff.2 ⟨by omega, ?_, .inr ?_⟩, first, ⟨?_, ?_, fun odd => ?_⟩⟩
  · rw [twice]
    linarith [full.2]
  · rw [twice]
    linarith
  · rw [twice]
    push_cast
    linarith
  · rw [twice]
    push_cast
    linarith [full.2]
  · omega

theorem tiny_lt : (10 : ℚ) ^ (-330 : Int) < 1 / 2 * 2 ^ leastExponent := by
  have powers : (2 : ℚ) ^ 1075 < 10 ^ 330 := by
    exact_mod_cast (by decide +kernel : 2 ^ 1075 < 10 ^ 330)
  have half : (1 / 2 : ℚ) * 2 ^ leastExponent = (2 ^ 1075)⁻¹ := by
    rw [leastExponent, zpow_neg, pow_succ]
    field_simp
  rw [half, zpow_neg]
  exact inv_strictAnti₀ (by positivity) powers

theorem lt_huge : (2 * firstBit : ℚ) * 2 ^ greatestExponent < 10 ^ (310 : Int) := by
  have powers : (2 : ℚ) ^ 1024 < 10 ^ 310 := by
    exact_mod_cast (by decide +kernel : 2 ^ 1024 < 10 ^ 310)
  have joined : (2 * firstBit : ℚ) * 2 ^ greatestExponent = 2 ^ 1024 := by
    rw [firstBit_cast, greatestExponent, ← zpow_one_add₀ two_ne_zero, ← zpow_add₀ two_ne_zero]
    exact zpow_natCast 2 1024
  rw [joined]
  exact powers

theorem value_bounds_of_covers (canonical : number.Canonical) (positive : 0 < number.significand)
    (covers : number.Covers value) :
    (10 : ℚ) ^ (-330 : Int) < value ∧ value < 10 ^ (310 : Int) := by
  have rounds := covers.rounds positive
  have unit : (0 : ℚ) < 2 ^ number.exponent := by positivity
  have smallest : (1 : ℚ) ≤ number.significand := by exact_mod_cast positive
  have short : (number.significand + 1 : ℚ) ≤ 2 * firstBit := by exact_mod_cast canonical.short
  constructor
  · have half : (1 / 2 : ℚ) ≤ value / 2 ^ number.exponent := by linarith [rounds.low]
    rw [le_div_iff₀ unit] at half
    calc (10 : ℚ) ^ (-330 : Int) < 1 / 2 * 2 ^ leastExponent := tiny_lt
      _ ≤ 1 / 2 * 2 ^ number.exponent :=
          mul_le_mul_of_nonneg_left (zpow_le_zpow_right₀ one_le_two canonical.least) (by norm_num)
      _ ≤ value := half
  · have below : value / 2 ^ number.exponent < 2 * firstBit := by linarith [rounds.high]
    rw [div_lt_iff₀ unit] at below
    calc value < 2 * firstBit * 2 ^ number.exponent := below
      _ ≤ 2 * firstBit * 2 ^ greatestExponent :=
          mul_le_mul_of_nonneg_left (zpow_le_zpow_right₀ one_le_two canonical.greatest)
            (by positivity)
      _ < 10 ^ (310 : Int) := lt_huge

/-- A decimal in the interval of a double is read as the double. -/
theorem nearest?_of_covers {digits : Nat} {power : Int} (canonical : number.Canonical)
    (positive : 0 < number.significand) (covers : number.Covers (digits * 10 ^ power)) :
    nearest? number.negative digits power = some number := by
  obtain ⟨low, high⟩ := value_bounds_of_covers canonical positive covers
  have nonzero : 0 < digits := by
    apply Nat.pos_of_ne_zero
    rintro rfl
    have lost : (10 : ℚ) ^ (-330 : Int) < 0 := by simpa using low
    exact absurd lost (by positivity : (0 : ℚ) < 10 ^ (-330 : Int)).not_gt
  obtain ⟨widthLow, widthHigh⟩ := decimal_bounds nonzero power
  have ten : (1 : ℚ) < 10 := by norm_num
  have notTiny := (zpow_lt_zpow_iff_right₀ ten).1 (low.trans widthHigh)
  have notHuge := (zpow_lt_zpow_iff_right₀ ten).1 (widthLow.trans_lt high)
  obtain ⟨exponent, significand, fits, rounds, same⟩ :=
    nearest?_eq number.negative nonzero power (by omega) (by omega)
  have greatest := canonical.greatest
  rw [same]
  rcases covers.fits canonical positive with atExponent | ⟨below, first, carried⟩
  · obtain rfl := fits.unique atExponent
    obtain rfl := rounds.unique (covers.rounds positive)
    rw [if_neg canonical.short.ne, if_neg (by omega)]
  · obtain rfl := fits.unique below
    obtain rfl := rounds.unique carried
    rw [if_pos rfl, if_neg (by omega), ← first, Int.sub_add_cancel]

end Covering

section Shortest

variable {number : Binary64} {digits : Nat} {power : Int}

theorem quarters_comparison (number : Binary64) (digits : Nat) (power : Int) (quarters : Nat) :
    (quarters * scale 2 (number.exponent - 2) * scale 10 (-power) ≤
        digits * scale 10 power * scale 2 (-(number.exponent - 2)) ↔
      (quarters : ℚ) ≤ 4 * (digits * 10 ^ power / 2 ^ number.exponent)) ∧
    (digits * scale 10 power * scale 2 (-(number.exponent - 2)) ≤
        quarters * scale 2 (number.exponent - 2) * scale 10 (-power) ↔
      4 * (digits * 10 ^ power / 2 ^ number.exponent) ≤ (quarters : ℚ)) := by
  have ten : 0 < 10 := by decide
  have twos := scale_eq_zpow_mul two_pos (number.exponent - 2)
  have tens := scale_eq_zpow_mul ten power
  have common : (0 : ℚ) < scale 2 (-(number.exponent - 2)) * scale 10 (-power) :=
    mul_pos (scale_pos two_pos _) (scale_pos ten _)
  have unit : (0 : ℚ) < 2 ^ number.exponent := by positivity
  rw [← Nat.cast_le (α := ℚ), ← Nat.cast_le (α := ℚ), mul_div_assoc', le_div_iff₀ unit,
    div_le_iff₀ unit]
  push_cast at twos tens ⊢
  have left : (quarters * scale 2 (number.exponent - 2) * scale 10 (-power) : ℚ) =
      quarters * 2 ^ number.exponent / 4 *
        (scale 2 (-(number.exponent - 2)) * scale 10 (-power)) := by
    rw [twos, zpow_sub₀ two_ne_zero]
    norm_num
    ring
  have right : (digits * scale 10 power * scale 2 (-(number.exponent - 2)) : ℚ) =
      digits * 10 ^ power * (scale 2 (-(number.exponent - 2)) * scale 10 (-power)) := by
    rw [tens]
    ring
  rw [left, right, mul_le_mul_iff_left₀ common, mul_le_mul_iff_left₀ common]
  constructor <;> constructor <;> intro comparison <;> linarith

theorem readsBack_iff :
    number.readsBack digits power = true ↔ number.Covers (digits * 10 ^ power) := by
  have comparison := quarters_comparison number digits power
  simp only [readsBack, Covers]
  split
  · simp only [Bool.and_eq_true, decide_eq_true_eq, (comparison _).1, (comparison _).2]
  · simp only [Bool.and_eq_true, decide_eq_true_eq, ← Nat.not_le, (comparison _).1,
      (comparison _).2, not_le]

theorem covers_of_digitsAt? (found : number.digitsAt? power = some digits) :
    number.Covers (digits * 10 ^ power) := by
  rw [← readsBack_iff]
  simp only [digitsAt?] at found
  split at found
  · next backBelow backAbove =>
      obtain rfl := Option.some.inj found
      split
      · exact backBelow
      · exact backAbove
  · next backBelow _ =>
      obtain rfl := Option.some.inj found
      exact backBelow
  · next _ backAbove =>
      obtain rfl := Option.some.inj found
      exact backAbove
  · cases found

theorem floor_bounds (numerator : Nat) {denominator : Nat} (divides : 0 < denominator) :
    ((numerator / denominator : Nat) : ℚ) ≤ numerator / denominator ∧
      (numerator / denominator : ℚ) < (numerator / denominator + 1 : Nat) := by
  have dividesCast : (0 : ℚ) < denominator := by exact_mod_cast divides
  refine ⟨Nat.cast_div_le, ?_⟩
  rw [div_lt_iff₀ dividesCast]
  exact_mod_cast Nat.lt_mul_of_div_lt (Nat.lt_succ_self _) divides

/-- Of the two neighbours of a number on a grid of seventeen digits one lies in its interval. -/
theorem covers_neighbour (canonical : number.Canonical) (positive : 0 < number.significand)
    (fine : (10 : ℚ) ^ 16 * 10 ^ power ≤ number.significand * 2 ^ number.exponent) {below : Nat}
    (low : below * 10 ^ power ≤ (number.significand * 2 ^ number.exponent : ℚ))
    (high : (number.significand * 2 ^ number.exponent : ℚ) < (below + 1 : Nat) * 10 ^ power) :
    number.Covers (below * 10 ^ power) ∨ number.Covers ((below + 1 : Nat) * 10 ^ power) := by
  have unit : (0 : ℚ) < 2 ^ number.exponent := by positivity
  have short : (number.significand + 1 : ℚ) ≤ 2 * firstBit := by exact_mod_cast canonical.short
  have bits : (firstBit : ℚ) = 4503599627370496 := by norm_num [firstBit]
  obtain ⟨upper, lower⟩ := interval_cases positive
  -- All is measured in units of the last binary place.
  have stepIs : ((below + 1 : Nat) * 10 ^ power / 2 ^ number.exponent : ℚ) =
      below * 10 ^ power / 2 ^ number.exponent + 10 ^ power / 2 ^ number.exponent := by
    push_cast
    ring
  rw [← div_le_iff₀ unit, mul_div_assoc] at fine
  rw [← div_le_iff₀ unit] at low
  rw [← lt_div_iff₀ unit, stepIs] at high
  simp only [Covers]
  rw [stepIs]
  generalize (10 : ℚ) ^ power / 2 ^ number.exponent = step at *
  generalize (below : ℚ) * 10 ^ power / 2 ^ number.exponent = scaled at *
  by_cases nearBelow : (number.interval.1 : ℚ) < 4 * scaled
  · left
    split <;> constructor <;> linarith
  by_cases nearAbove : 4 * (scaled + step) < (number.interval.2 : ℚ)
  · right
    rcases lower with ⟨-, lower⟩ | ⟨-, lower⟩ <;> split <;> constructor <;> linarith
  · -- Both miss, so the step is too wide for seventeen digits.
    rw [not_lt] at nearBelow nearAbove
    rcases lower with ⟨⟨first, -⟩, lower⟩ | ⟨-, lower⟩
    · rw [first, bits] at fine
      linarith
    · linarith

theorem isSome_digitsAt? (canonical : number.Canonical) (positive : 0 < number.significand)
    (fine : (10 : ℚ) ^ 16 * 10 ^ power ≤ number.significand * 2 ^ number.exponent) :
    (number.digitsAt? power).isSome = true := by
  have ten : 0 < 10 := by decide
  have grid : (0 : ℚ) < 10 ^ power := by positivity
  have quotient : ((number.significand * scale 2 number.exponent * scale 10 (-power) : Nat) : ℚ) /
      (scale 2 (-number.exponent) * scale 10 power : Nat) =
        number.significand * 2 ^ number.exponent / 10 ^ power := by
    have twos := scale_eq_zpow_mul two_pos number.exponent
    have tens := scale_eq_zpow_mul ten power
    have nonzeroTwos := (scale_pos two_pos (-number.exponent)).ne'
    have nonzeroTens := (scale_pos ten (-power)).ne'
    push_cast at twos tens ⊢
    rw [twos, tens]
    field_simp
  obtain ⟨low, high⟩ := floor_bounds
    (number.significand * scale 2 number.exponent * scale 10 (-power))
    (show 0 < scale 2 (-number.exponent) * scale 10 power
      from Nat.mul_pos (Nat.pow_pos two_pos) (Nat.pow_pos ten))
  rw [quotient, le_div_iff₀ grid] at low
  rw [quotient, div_lt_iff₀ grid] at high
  have covered := covers_neighbour canonical positive fine low high
  rw [← readsBack_iff, ← readsBack_iff] at covered
  simp only [digitsAt?]
  rcases covered with back | back <;> rw [back] <;> split <;> simp_all

theorem zpow_decimalExponent_le (canonical : number.Canonical)
    (positive : 0 < number.significand) :
    (10 : ℚ) ^ number.decimalExponent ≤ number.significand * 2 ^ number.exponent := by
  have unit : (0 : ℚ) < 10 ^ (400 : Int) := by positivity
  have quotient : ((number.significand * scale 2 number.exponent * scale 10 400 : Nat) : ℚ) /
      scale 2 (-number.exponent) = number.significand * 2 ^ number.exponent * 10 ^ (400 : Int) := by
    have twos := scale_eq_zpow_mul two_pos number.exponent
    have nonzero := (scale_pos two_pos (-number.exponent)).ne'
    have tens := scale_eq_zpow_mul (show 0 < 10 by decide) 400
    rw [show scale 10 (-400) = 1 from rfl, Nat.cast_one, mul_one, Nat.cast_ofNat] at tens
    rw [Nat.cast_ofNat] at twos
    rw [Nat.cast_mul, Nat.cast_mul, twos, tens]
    field_simp
  obtain ⟨low, high⟩ := floor_bounds (number.significand * scale 2 number.exponent * scale 10 400)
    (show 0 < scale 2 (-number.exponent) from Nat.pow_pos two_pos)
  rw [quotient] at low high
  have atLeast : (10 : ℚ) ^ (-400 : Int) ≤ number.significand * 2 ^ number.exponent := by
    have smallest : (1 : ℚ) ≤ number.significand := by exact_mod_cast positive
    calc (10 : ℚ) ^ (-400 : Int) ≤ 10 ^ (-330 : Int) :=
          zpow_le_zpow_right₀ (by norm_num) (by norm_num)
      _ ≤ 1 / 2 * 2 ^ leastExponent := tiny_lt.le
      _ ≤ number.significand * 2 ^ number.exponent :=
          mul_le_mul (by linarith) (zpow_le_zpow_right₀ one_le_two canonical.least)
            (by positivity) (by linarith)
  rw [decimalExponent]
  generalize number.significand * scale 2 number.exponent * scale 10 400 /
    scale 2 (-number.exponent) = scaled at *
  have nonzero : 0 < scaled := by
    have one : (1 : ℚ) ≤ number.significand * 2 ^ number.exponent * 10 ^ (400 : Int) := by
      rw [← div_le_iff₀ unit, one_div, ← zpow_neg]
      exact atLeast
    have : (1 : ℚ) < (scaled + 1 : Nat) := one.trans_lt high
    have : 1 < scaled + 1 := by exact_mod_cast this
    omega
  have counted : 0 < digitCount scaled := Nat.length_toDigits_pos
  rw [show (digitCount scaled : Int) - 401 = ((digitCount scaled - 1 : Nat) : Int) - 400 by omega,
    zpow_sub₀ (by norm_num), div_le_iff₀ unit, zpow_natCast]
  exact le_trans (by exact_mod_cast pow_digitCount_le nonzero) low

/-- The shortest digits stand for a decimal in the interval. -/
theorem shortest_spec (canonical : number.Canonical) (positive : 0 < number.significand) :
    ∃ (digits : Nat) (power : Int), number.Covers (digits * 10 ^ power) ∧
      number.shortest = (Text.withoutTrailingZeros (Nat.toDigits 10 digits),
        power + ((Nat.toDigits 10 digits).length : Int) - 1) := by
  have last : (number.digitsAt? (number.decimalExponent - 16)).isSome = true := by
    apply isSome_digitsAt? canonical positive
    rw [← zpow_natCast, ← zpow_add₀ (by norm_num)]
    exact (le_of_eq (by congr 1; push_cast; ring)).trans
      (zpow_decimalExponent_le canonical positive)
  rw [shortest]
  split
  · next digits power found =>
      obtain ⟨candidate, -, found⟩ := List.exists_of_findSome?_eq_some found
      obtain ⟨hit, atCandidate, same⟩ := Option.map_eq_some_iff.1 found
      obtain ⟨rfl, rfl⟩ := Prod.mk.inj same
      exact ⟨hit, candidate, covers_of_digitsAt? atCandidate, rfl⟩
  · next missed =>
      have none := List.findSome?_eq_none_iff.1 missed (number.decimalExponent - 16)
        (List.mem_map.2 ⟨16, by decide, rfl⟩)
      rw [Option.map_eq_none_iff] at none
      rw [none] at last
      cases last

end Shortest

end AmbientStubs.Binary64
