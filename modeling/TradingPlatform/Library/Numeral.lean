import Mathlib.Data.Rat.Floor
import TradingPlatform.Library.Decimal

set_option autoImplicit false

/- Decimal numerals with a fraction, their exact numbers, and the whole number
that is left when they are scaled and cut off. -/
namespace Decimal

/-- The integer next to a number in the direction of zero. -/
def truncate (number : ℚ) : Int := if number < 0 then -⌊-number⌋ else ⌊number⌋

/-- The numerals `-?D+(.D*)?`. -/
structure Numeral where
  negative : Bool
  whole : List UInt8
  fraction : Option (List UInt8)
  nonempty : whole ≠ []
  wholeDigits : Digits whole
  fractionDigits : ∀ digits ∈ fraction, Digits digits

namespace Numeral

/-- A numeral with digits on both sides of the point. -/
def pointed (negative : Bool) (whole fraction : List UInt8) (nonempty : whole ≠ [])
    (wholeDigits : Digits whole) (fractionDigits : Digits fraction) : Numeral where
  negative := negative
  whole := whole
  fraction := some fraction
  nonempty := nonempty
  wholeDigits := wholeDigits
  fractionDigits := by
    intro digits same
    rw [← Option.mem_some_iff.mp same]
    exact fractionDigits

/-- A numeral without sign and point. -/
def integer (whole : List UInt8) (nonempty : whole ≠ []) (wholeDigits : Digits whole) :
    Numeral where
  negative := false
  whole := whole
  fraction := none
  nonempty := nonempty
  wholeDigits := wholeDigits
  fractionDigits := by
    intro digits same
    cases same

/-- The digits behind the point. -/
def decimals (numeral : Numeral) : List UInt8 := numeral.fraction.getD []

/-- The numeral without its sign. -/
def body (numeral : Numeral) : List UInt8 :=
  numeral.whole ++ (numeral.fraction.elim [] fun digits => '.'.toUInt8 :: digits)

def text (numeral : Numeral) : List UInt8 :=
  if numeral.negative then '-'.toUInt8 :: numeral.body else numeral.body

def magnitude (numeral : Numeral) : ℚ :=
  value numeral.whole + value numeral.decimals / 10 ^ numeral.decimals.length

def number (numeral : Numeral) : ℚ :=
  if numeral.negative then -numeral.magnitude else numeral.magnitude

/-- The magnitude times a power of ten, cut off. -/
def scaled (numeral : Numeral) (places : Nat) : Nat :=
  value numeral.whole * 10 ^ places +
    value (numeral.decimals.take places) * 10 ^ (places - numeral.decimals.length)

theorem decimals_digits (numeral : Numeral) : Digits numeral.decimals := by
  intro unit member
  cases present : numeral.fraction with
  | none =>
      rw [decimals, present] at member
      cases member
  | some digits =>
      rw [decimals, present] at member
      exact numeral.fractionDigits digits present unit member

/-- The units of a numeral. -/
theorem text_units (numeral : Numeral) (unit : UInt8) (member : unit ∈ numeral.text) :
    isDigit unit = true ∨ unit = '.'.toUInt8 ∨ unit = '-'.toUInt8 := by
  have inside : unit = '-'.toUInt8 ∨ unit ∈ numeral.body := by
    unfold text at member
    split at member
    · exact List.mem_cons.mp member
    · exact Or.inr member
  rcases inside with minus | body
  · exact Or.inr (Or.inr minus)
  rcases List.mem_append.mp body with whole | behind
  · exact Or.inl (numeral.wholeDigits unit whole)
  cases present : numeral.fraction with
  | none =>
      rw [present] at behind
      cases behind
  | some digits =>
      rw [present] at behind
      rcases List.mem_cons.mp behind with point | digit
      · exact Or.inr (Or.inl point)
      · exact Or.inl (numeral.fractionDigits digits present unit digit)

theorem text_head (numeral : Numeral) :
    ∃ unit rest, numeral.text = unit :: rest ∧ (isDigit unit = true ∨ unit = '-'.toUInt8) := by
  obtain ⟨unit, rest, whole⟩ := List.exists_cons_of_ne_nil numeral.nonempty
  unfold text body
  cases numeral.negative with
  | true => exact ⟨_, _, rfl, Or.inr rfl⟩
  | false =>
      refine ⟨unit, _, by rw [whole]; exact rfl, Or.inl (numeral.wholeDigits unit ?_)⟩
      rw [whole]
      exact List.mem_cons_self ..

theorem magnitude_nonneg (numeral : Numeral) : 0 ≤ numeral.magnitude := by
  unfold magnitude
  positivity

/-- The first decimals are all that is left of the fraction. -/
theorem scaled_decimals (digits : List UInt8) (all : Digits digits) (places : Nat) :
    value digits * 10 ^ places / 10 ^ digits.length =
      value (digits.take places) * 10 ^ (places - digits.length) := by
  rcases Nat.le_total digits.length places with short | long
  · have power : 10 ^ places = 10 ^ (places - digits.length) * 10 ^ digits.length := by
      rw [← Nat.pow_add, Nat.sub_add_cancel short]
    rw [List.take_of_length_le short, power, ← Nat.mul_assoc,
      Nat.mul_div_cancel _ (Nat.pow_pos (by omega))]
  · have tail : (digits.drop places).length = digits.length - places := List.length_drop
    have small := value_lt (digits.drop places) fun unit member =>
      all unit (List.mem_of_mem_drop member)
    have split : value digits =
        value (digits.take places) * 10 ^ (digits.length - places) +
          value (digits.drop places) := by
      have joined := value_append (digits.take places) (digits.drop places)
      rw [List.take_append_drop, tail] at joined
      exact joined
    have power : 10 ^ digits.length = 10 ^ (digits.length - places) * 10 ^ places := by
      rw [← Nat.pow_add, Nat.sub_add_cancel long]
    rw [power, Nat.mul_div_mul_right _ _ (Nat.pow_pos (by omega)), split, Nat.add_comm,
      Nat.add_mul_div_right _ _ (Nat.pow_pos (by omega)), Nat.div_eq_of_lt (tail ▸ small),
      Nat.sub_eq_zero_of_le long, Nat.zero_add, Nat.pow_zero, Nat.mul_one]

/-- Fewer than one unit comes from behind the point. -/
theorem decimals_lt (numeral : Numeral) (places : Nat) :
    value (numeral.decimals.take places) * 10 ^ (places - numeral.decimals.length) <
      10 ^ places := by
  rw [← scaled_decimals _ numeral.decimals_digits]
  apply Nat.div_lt_of_lt_mul
  exact Nat.mul_lt_mul_of_pos_right (value_lt _ numeral.decimals_digits) (Nat.pow_pos (by omega))

theorem floor_magnitude (numeral : Numeral) (places : Nat) :
    ⌊numeral.magnitude * 10 ^ places⌋ = (numeral.scaled places : Int) := by
  have split : numeral.magnitude * 10 ^ places =
      ((value numeral.decimals * 10 ^ places : Nat) : ℚ) /
          ((10 ^ numeral.decimals.length : Nat) : ℚ) +
        ((value numeral.whole * 10 ^ places : Nat) : ℚ) := by
    unfold magnitude
    push_cast
    ring
  have cut := congrArg (Nat.cast (R := Int))
    (scaled_decimals numeral.decimals numeral.decimals_digits places)
  rw [Int.natCast_ediv] at cut
  rw [split, Int.floor_add_natCast, Rat.floor_natCast_div_natCast, cut, scaled, Int.add_comm]
  exact rfl

theorem truncate_number (numeral : Numeral) (places : Nat) :
    truncate (numeral.number * 10 ^ places) =
      if numeral.negative then -(numeral.scaled places : Int) else numeral.scaled places := by
  have size : 0 ≤ numeral.magnitude * 10 ^ places :=
    mul_nonneg numeral.magnitude_nonneg (by positivity)
  unfold truncate number
  cases numeral.negative with
  | false =>
      simp only [Bool.false_eq_true, ↓reduceIte]
      rw [if_neg (not_lt.mpr size), floor_magnitude]
  | true =>
      simp only [↓reduceIte]
      rw [neg_mul, neg_neg, floor_magnitude]
      split
      · exact rfl
      · rename_i nonneg
        have zero : numeral.magnitude * 10 ^ places = 0 :=
          le_antisymm (neg_nonneg.mp (not_lt.mp nonneg)) size
        have none := numeral.floor_magnitude places
        rw [zero, Int.floor_zero] at none
        rw [zero, neg_zero, Int.floor_zero, ← none, neg_zero]

/-- A bound on the scaled number bounds what is left of it. -/
theorem scaled_lt (numeral : Numeral) (places limit : Nat)
    (small : |numeral.number| * 10 ^ places < limit) : numeral.scaled places < limit := by
  have size : |numeral.number| = numeral.magnitude := by
    unfold number
    split
    · rw [abs_neg, abs_of_nonneg numeral.magnitude_nonneg]
    · exact abs_of_nonneg numeral.magnitude_nonneg
  have below := Int.floor_le (numeral.magnitude * 10 ^ places)
  rw [floor_magnitude] at below
  rw [size] at small
  exact_mod_cast below.trans_lt small

end Numeral
end Decimal
