import TradingPlatform.KrakenDemoOrder

set_option autoImplicit false

/- The price text of an order, read back by the price parser. -/
namespace TradingPlatform

open Decimal
open OutputStream (padded)

theorem renderInt_nonneg (number : Nat) : renderInt number = render number := rfl

theorem renderInt_negative (number : Nat) (positive : 0 < number) :
    renderInt (-(number : Int)) = '-'.toUInt8 :: render number := by
  obtain ⟨before, rfl⟩ := Nat.exists_eq_succ_of_ne_zero (by omega : number ≠ 0)
  exact rfl

/-- The last two digits, with a zero in front if need be. -/
def cents (number : Nat) : List UInt8 := padded 2 '0'.toUInt8 (render (number % 100))

theorem cents_digits (number : Nat) : Digits (cents number) :=
  OutputStream.digits_padded 2 _ (render_digits _)

theorem cents_length (number : Nat) : (cents number).length = 2 := by
  apply OutputStream.length_padded
  rw [render, List.length_map, Nat.length_toDigits_le_iff (by omega) (by omega)]
  omega

theorem value_cents (number : Nat) : value (cents number) = number % 100 := by
  rw [cents, OutputStream.value_padded, value_render]

/-- The division cuts off towards zero. -/
theorem tdiv_hundred (number : Int) :
    number.tdiv 100 =
      if number ≤ -100 then -((number.natAbs / 100 : Nat) : Int)
      else ((number.natAbs / 100 : Nat) : Int) := by
  obtain ⟨size, rfl | rfl⟩ := Int.eq_nat_or_neg number
  · rw [Int.natCast_tdiv_eq_ediv]
    split <;> omega
  · rw [Int.neg_tdiv, Int.natCast_tdiv_eq_ediv]
    split <;> omega

/-- The text of a price as a numeral. A price of less than one unit has no sign. -/
def priceNumeral (ticks : Price) : Numeral :=
  .pointed (decide (ticks.toInt ≤ -100)) (render (ticks.toInt.natAbs / 100))
    (cents ticks.toInt.natAbs) (render_ne_nil _) (render_digits _) (cents_digits _)

theorem ticksToPriceString_text (ticks : Price) :
    ticksToPriceString ticks = (priceNumeral ticks).text := by
  have low := ticks.le_toInt
  have high := ticks.toInt_lt
  have cut := tdiv_hundred ticks.toInt
  have hundred : (100 : Int64).toInt = 100 := by decide
  have quotient : (ticks / 100).toInt = ticks.toInt.tdiv 100 := by
    rw [Int64.toInt_div, hundred]
    apply SignedWord.bmod_of_fits
    rw [cut]
    split <;> exact ⟨by omega, by omega⟩
  have remainder : (ticks % 100).abs.toInt = (ticks.toInt.natAbs % 100 : Nat) := by
    have size : (ticks % 100).toInt.natAbs = ticks.toInt.natAbs % 100 := by
      rw [Int64.toInt_mod, hundred, Int.natAbs_tmod]
      exact rfl
    rw [SignedWord.toInt_abs, size]
    rw [size]
    exact ⟨by omega, by omega⟩
  have text : ticksToPriceString ticks =
      renderInt (ticks.toInt.tdiv 100) ++ '.'.toUInt8 :: cents ticks.toInt.natAbs := by
    simp only [ticksToPriceString, OutputStream.Stream.put, OutputStream.Stream.putInt, quotient,
      remainder, renderInt_nonneg, OutputStream.padded_zero, List.nil_append, List.append_assoc]
    exact rfl
  rw [text, cut]
  by_cases signed : ticks.toInt ≤ -100
  · rw [if_pos signed, renderInt_negative _ (by omega)]
    simp [priceNumeral, Numeral.pointed, Numeral.text, Numeral.body, signed]
  · rw [if_neg signed, renderInt_nonneg]
    simp [priceNumeral, Numeral.pointed, Numeral.text, Numeral.body, signed]

/-- What the parser makes of the text: the sign counts only from one unit on. -/
theorem parse_ticksToPriceString (ticks : Price) :
    parsePriceToTicks (ticksToPriceString ticks) =
      if ticks.toInt ≤ -100 then -Int64.ofNat ticks.toInt.natAbs
      else Int64.ofNat ticks.toInt.natAbs := by
  have decimals : (priceNumeral ticks).decimals = cents ticks.toInt.natAbs := rfl
  have whole : (priceNumeral ticks).whole = render (ticks.toInt.natAbs / 100) := rfl
  have negative : (priceNumeral ticks).negative = decide (ticks.toInt ≤ -100) := rfl
  have fraction : unscaledFraction (cents ticks.toInt.natAbs) = ticks.toInt.natAbs % 100 := by
    have two := cents_length ticks.toInt.natAbs
    rw [unscaledFraction, List.take_of_length_le (by omega), two, value_cents]
    exact Nat.mul_one _
  have together : ticks.toInt.natAbs / 100 * 10 ^ 2 + ticks.toInt.natAbs % 100 =
      ticks.toInt.natAbs := by omega
  rw [ticksToPriceString_text, parsePriceToTicks_text, decimals, whole, negative, fraction,
    value_render, together]
  simp only [decide_eq_true_eq]

/-- A price comes back from its text exactly when it is not negative or at least
one unit below zero. -/
theorem ticksToPriceString_read_iff (ticks : Price) (notLeast : ticks ≠ Int64.minValue) :
    parsePriceToTicks (ticksToPriceString ticks) = ticks ↔ 0 ≤ ticks ∨ ticks ≤ -100 := by
  have low : -2 ^ 63 < ticks.toInt := by
    have bound := ticks.le_toInt
    have other : ticks.toInt ≠ -2 ^ 63 := fun least => notLeast (Int64.toInt_inj.mp least)
    omega
  have high := ticks.toInt_lt
  have zero : (0 : Int64).toInt = 0 := by decide
  have unit : (-100 : Int64).toInt = -100 := by decide
  have small : ticks.toInt.natAbs < 2 ^ 63 := by omega
  have read := toInt_signed (decide (ticks.toInt ≤ -100)) _ small
  simp only [decide_eq_true_eq] at read
  rw [parse_ticksToPriceString, ← Int64.toInt_inj, read, Int64.le_iff_toInt_le,
    Int64.le_iff_toInt_le, zero, unit]
  split <;> omega

theorem ticksToPriceString_read_loss :
    parsePriceToTicks (ticksToPriceString (-18925)) = -18925 ↔
      (0 : Price) ≤ -18925 ∨ (-18925 : Price) ≤ -100 :=
  ticksToPriceString_read_iff (-18925) (by decide)

/-- The text of -50 ticks is `0.50`. -/
theorem sign_lost_below_one_unit :
    ¬ ∀ ticks : Price, ticks ≠ Int64.minValue →
      parsePriceToTicks (ticksToPriceString ticks) = ticks := by
  intro same
  have wrong := same (-50) (by decide)
  exact absurd wrong (by decide +kernel)

end TradingPlatform
