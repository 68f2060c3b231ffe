import TradingPlatform.Library.Numeral
import TradingPlatform.Library.SignedWord
import TradingPlatform.Types

set_option autoImplicit false

/- Decimal text to integer prices and quantities. Beside each part stand the
exact integers its operations would have to produce. -/
namespace TradingPlatform

open Decimal

/-- The locals of the digit loops. -/
structure DigitLoop where
  whole : Int64 := 0
  fractional : Int64 := 0
  fractionalDigits : Nat := 0
  afterDecimal : Bool := false
  deriving DecidableEq, Repr

namespace DigitLoop

/-- Behind the point only the first `cap` digits count. -/
def onDigit (cap : Nat) (loop : DigitLoop) (digit : Int64) : DigitLoop :=
  if !loop.afterDecimal then
    { loop with whole := loop.whole * 10 + digit }
  else if loop.fractionalDigits < cap then
    { loop with
        fractional := loop.fractional * 10 + digit
        fractionalDigits := loop.fractionalDigits + 1 }
  else
    loop

def run (cap : Nat) (loop : DigitLoop) : List UInt8 → DigitLoop
  | [] => loop
  | unit :: rest =>
      if unit = '.'.toUInt8 then run cap { loop with afterDecimal := true } rest
      else if !isDigit unit then loop
      else run cap (loop.onDigit cap (Int64.ofNat (digit unit))) rest

/-- What the loop has not looked at when it ends: nothing, or the text from the unit
on at which it breaks. -/
def unread : List UInt8 → List UInt8
  | [] => []
  | unit :: rest =>
      if unit = '.'.toUInt8 then unread rest
      else if !isDigit unit then unit :: rest
      else unread rest

/-- Some turns of the loop behind it, which appends zeros to the fraction. -/
def pad : Nat → DigitLoop → DigitLoop
  | 0, loop => loop
  | turns + 1, loop =>
      pad turns
        { loop with
            fractional := loop.fractional * 10
            fractionalDigits := loop.fractionalDigits + 1 }

/-- Pad the fraction to some number of digits. -/
def padTo (digits : Nat) (loop : DigitLoop) : DigitLoop :=
  loop.pad (digits - loop.fractionalDigits)

end DigitLoop

/-- Whether there is a minus at the front, and the text behind it. -/
def splitMinus (value : List UInt8) : Bool × List UInt8 :=
  if value.head? = some '-'.toUInt8 then (true, value.tail) else (false, value)

def parsePriceToTicks (value : List UInt8) (scale : Int32 := 100) : Price :=
  let (negative, value) := splitMinus value
  let loop := (DigitLoop.run 9 {} value).padTo 2
  let result := loop.whole * scale.toInt64
  let result := if scale = 100 then result + loop.fractional / 1 else result
  if negative then -result else result

def parseQuantityToUnits (value : List UInt8) : Quantity :=
  let (negative, value) := splitMinus value
  let loop := (DigitLoop.run 6 {} value).padTo 6
  let result := loop.whole * 1000000 + loop.fractional
  if negative then -result else result

example : parsePriceToTicks (ascii "189.25") = 18925 := by decide
example : parseQuantityToUnits (ascii "0.001234") = 1234 := by decide

/-! ### The loops on a numeral -/

namespace DigitLoop

variable (cap : Nat)

/-- The loop is over at the break: what is behind it does not count. -/
theorem run_unread (text : List UInt8) :
    ∃ read, text = read ++ unread text ∧ unread read = [] ∧
      ∀ loop, run cap loop text = run cap loop read := by
  induction text with
  | nil => exact ⟨[], rfl, rfl, fun _ => rfl⟩
  | cons unit rest ih =>
      obtain ⟨read, split, whole, same⟩ := ih
      by_cases point : unit = '.'.toUInt8
      · refine ⟨unit :: read, ?_, ?_, fun loop => ?_⟩
        · rw [unread, if_pos point, List.cons_append, ← split]
        · rw [unread, if_pos point, whole]
        · rw [run, run, if_pos point, if_pos point, same]
      · cases digit : isDigit unit with
        | true =>
            refine ⟨unit :: read, ?_, ?_, fun loop => ?_⟩
            · simp [unread, point, digit, ← split]
            · simp [unread, point, digit, whole]
            · simp [run, point, digit, same]
        | false =>
            refine ⟨[], ?_, rfl, fun loop => ?_⟩
            · simp [unread, point, digit]
            · simp [run, point, digit]

def onDigits (loop : DigitLoop) (digits : List UInt8) : DigitLoop :=
  digits.foldl (fun loop unit => loop.onDigit cap (Int64.ofNat (digit unit))) loop

theorem onDigits_concat (loop : DigitLoop) (digits : List UInt8) (unit : UInt8) :
    loop.onDigits cap (digits ++ [unit]) =
      (loop.onDigits cap digits).onDigit cap (Int64.ofNat (digit unit)) := by
  simp only [onDigits, List.foldl_append, List.foldl_cons, List.foldl_nil]

/-- A run of digits goes through the loop without leaving it. -/
theorem run_digits (loop : DigitLoop) (digits rest : List UInt8) (all : Digits digits) :
    loop.run cap (digits ++ rest) = (loop.onDigits cap digits).run cap rest := by
  induction digits generalizing loop with
  | nil => rfl
  | cons unit digits ih =>
      have first := all unit (List.mem_cons_self ..)
      have point : unit ≠ '.'.toUInt8 := by
        rintro rfl
        exact absurd first (by decide)
      rw [List.cons_append, run, if_neg point, first]
      exact ih _ fun other member => all other (List.mem_cons_of_mem _ member)

theorem run_point (loop : DigitLoop) (rest : List UInt8) :
    loop.run cap ('.'.toUInt8 :: rest) = run cap { loop with afterDecimal := true } rest := by
  simp only [run, ↓reduceIte]

theorem onDigits_whole (digits : List UInt8) :
    onDigits cap {} digits = { whole := Int64.ofNat (value digits) } := by
  induction digits using List.reverseRecOn with
  | nil => rfl
  | append_singleton digits unit ih =>
      rw [onDigits_concat, ih, value_concat, Int64.ofNat_add, Int64.ofNat_mul]
      exact rfl

theorem onDigits_fraction (whole : Int64) (digits : List UInt8) :
    onDigits cap { whole, afterDecimal := true } digits =
      { whole
        fractional := Int64.ofNat (value (digits.take cap))
        fractionalDigits := min cap digits.length
        afterDecimal := true } := by
  induction digits using List.reverseRecOn with
  | nil =>
      rw [List.take_nil, List.length_nil, Nat.min_zero]
      exact rfl
  | append_singleton digits unit ih =>
      rw [onDigits_concat, ih, List.length_append, List.length_singleton]
      by_cases room : digits.length < cap
      · have kept : (digits ++ [unit]).take cap = digits.take cap ++ [unit] := by
          rw [List.take_of_length_le (by simp; omega), List.take_of_length_le (by omega)]
        have below : min cap digits.length < cap := by omega
        have count : min cap digits.length + 1 = min cap (digits.length + 1) := by omega
        rw [kept, value_concat, Int64.ofNat_add, Int64.ofNat_mul, ← count]
        simp only [onDigit, below, ↓reduceIte, Bool.not_true, Bool.false_eq_true]
        exact rfl
      · have kept : (digits ++ [unit]).take cap = digits.take cap :=
          List.take_append_of_le_length (by omega)
        have closed : ¬ min cap digits.length < cap := by omega
        have count : min cap digits.length = min cap (digits.length + 1) := by omega
        rw [kept, ← count]
        simp only [onDigit, closed, ↓reduceIte, Bool.not_true, Bool.false_eq_true]

theorem run_body (numeral : Numeral) :
    run cap {} numeral.body =
      { whole := Int64.ofNat (value numeral.whole)
        fractional := Int64.ofNat (value (numeral.decimals.take cap))
        fractionalDigits := min cap numeral.decimals.length
        afterDecimal := numeral.fraction.isSome } := by
  unfold Numeral.body Numeral.decimals
  rw [run_digits cap _ _ _ numeral.wholeDigits, onDigits_whole]
  cases present : numeral.fraction with
  | none =>
      rw [Option.elim_none, Option.getD_none, List.take_nil, List.length_nil, Nat.min_zero]
      exact rfl
  | some digits =>
      have all := numeral.fractionDigits digits present
      have last := run_digits cap
        { whole := Int64.ofNat (value numeral.whole), afterDecimal := true } digits [] all
      rw [List.append_nil, onDigits_fraction] at last
      rw [Option.elim_some, run_point, last]
      exact rfl

theorem pad_eq (turns : Nat) (loop : DigitLoop) :
    loop.pad turns =
      { loop with
          fractional := loop.fractional * Int64.ofNat (10 ^ turns)
          fractionalDigits := loop.fractionalDigits + turns } := by
  induction turns generalizing loop with
  | zero =>
      have unit : Int64.ofNat (10 ^ 0) = 1 := rfl
      rw [pad, unit, Int64.mul_one, Nat.add_zero]
  | succ turns ih =>
      have scaled : loop.fractional * 10 * Int64.ofNat (10 ^ turns) =
          loop.fractional * Int64.ofNat (10 ^ (turns + 1)) := by
        rw [Nat.pow_succ, Nat.mul_comm (10 ^ turns), Int64.ofNat_mul, Int64.mul_assoc]
        exact rfl
      rw [pad, ih, scaled, Nat.add_assoc, Nat.add_comm 1]

/-- Both loops on a numeral, whatever the number of digits to pad to. -/
theorem padTo_run (target : Nat) (numeral : Numeral) :
    ((run cap {} numeral.body).padTo target).whole = Int64.ofNat (value numeral.whole) ∧
      ((run cap {} numeral.body).padTo target).fractional =
        Int64.ofNat (value (numeral.decimals.take cap) *
          10 ^ (target - min cap numeral.decimals.length)) := by
  rw [run_body, padTo, pad_eq, Int64.ofNat_mul]
  exact ⟨rfl, rfl⟩

end DigitLoop

theorem splitMinus_text (numeral : Numeral) :
    splitMinus numeral.text = (numeral.negative, numeral.body) := by
  unfold Numeral.text splitMinus
  cases numeral.negative with
  | true => simp
  | false =>
      unfold Numeral.body
      cases whole : numeral.whole with
      | nil => exact absurd whole numeral.nonempty
      | cons unit rest =>
          have first := numeral.wholeDigits unit (by rw [whole]; exact List.mem_cons_self ..)
          have minus := (digit_apart unit first).2.1
          simp [minus]

/-- A word that holds a natural number, or its negative. -/
theorem toInt_signed (negative : Bool) (number : Nat) (small : number < 2 ^ 63) :
    (if negative then -Int64.ofNat number else Int64.ofNat number).toInt =
      if negative then -(number : Int) else number := by
  cases negative with
  | false => exact SignedWord.toInt_ofNat number small
  | true =>
      have exact' := SignedWord.toInt_ofNat number small
      have negated := SignedWord.toInt_neg (Int64.ofNat number) (by
        rw [exact']
        exact ⟨by omega, by omega⟩)
      rw [exact'] at negated
      exact negated

/-! ### Prices -/

/-- The fraction as the price parser has it: up to nine digits as they stand. -/
def unscaledFraction (digits : List UInt8) : Nat :=
  value (digits.take 9) * 10 ^ (2 - min 9 digits.length)

theorem parsePriceToTicks_text (numeral : Numeral) :
    parsePriceToTicks numeral.text =
      if numeral.negative then
        -Int64.ofNat (value numeral.whole * 10 ^ 2 + unscaledFraction numeral.decimals)
      else
        Int64.ofNat (value numeral.whole * 10 ^ 2 + unscaledFraction numeral.decimals) := by
  obtain ⟨whole, fractional⟩ := DigitLoop.padTo_run 9 2 numeral
  simp only [parsePriceToTicks, splitMinus_text, whole, fractional, unscaledFraction, ↓reduceIte,
    Int64.div_one, Int64.ofNat_add, Int64.ofNat_mul (value numeral.whole)]
  exact rfl

theorem unscaledFraction_lt (numeral : Numeral) :
    unscaledFraction numeral.decimals < 10 ^ 9 := by
  unfold unscaledFraction
  by_cases short : numeral.decimals.length < 2
  · have padded := numeral.decimals_lt 2
    have places : 2 - min 9 numeral.decimals.length = 2 - numeral.decimals.length := by omega
    rw [List.take_of_length_le (by omega)] at padded
    rw [List.take_of_length_le (by omega), places]
    omega
  · have none : 2 - min 9 numeral.decimals.length = 0 := by omega
    have digits := value_lt _ (numeral.decimals_digits.take 9)
    have count : (numeral.decimals.take 9).length ≤ 9 := List.length_take_le ..
    have power : 10 ^ (numeral.decimals.take 9).length ≤ 10 ^ 9 :=
      Nat.pow_le_pow_right (by omega) count
    rw [none, Nat.pow_zero, Nat.mul_one]
    omega

/-- Digits beyond the second do not disturb the fraction only when there are
none, or nothing but zeros. -/
theorem unscaledFraction_eq_iff (digits : List UInt8) (all : Digits digits) :
    unscaledFraction digits = value (digits.take 2) * 10 ^ (2 - digits.length) ↔
      digits.length ≤ 2 ∨ ∀ unit ∈ digits.take 9, unit = '0'.toUInt8 := by
  unfold unscaledFraction
  rw [← value_eq_zero _ (all.take 9)]
  by_cases short : digits.length ≤ 2
  · have places : 2 - min 9 digits.length = 2 - digits.length := by omega
    rw [places, List.take_of_length_le (by omega), List.take_of_length_le short]
    exact iff_of_true rfl (Or.inl short)
  · have first : 2 - min 9 digits.length = 0 := by omega
    have second : 2 - digits.length = 0 := by omega
    have joined := value_append (digits.take 2) ((digits.take 9).drop 2)
    have front : digits.take 2 = (digits.take 9).take 2 := by rw [List.take_take]; exact rfl
    have count : ((digits.take 9).drop 2).length = min 9 digits.length - 2 := by simp
    have power : 10 ^ 1 ≤ 10 ^ ((digits.take 9).drop 2).length :=
      Nat.pow_le_pow_right (by omega) (by omega)
    have grown := Nat.mul_le_mul_left (value (digits.take 2)) power
    rw [front, List.take_append_drop, ← front] at joined
    rw [first, second, Nat.pow_zero, Nat.mul_one, Nat.mul_one, joined]
    constructor
    · intro same
      exact Or.inr (by omega)
    · rintro (few | zero)
      · omega
      · omega

/-- Two numbers below the modulus that a word does not tell apart. -/
theorem ofNat_inj_signed (negative : Bool) (number other : Nat) (small : number < 2 ^ 64)
    (fits : other < 2 ^ 63)
    (same : (if negative then -Int64.ofNat number else Int64.ofNat number).toInt =
      if negative then -(other : Int) else other) : number = other := by
  rw [← toInt_signed negative other fits, Int64.toInt_inj] at same
  have words : Int64.ofNat number = Int64.ofNat other := by
    cases negative with
    | false => exact same
    | true => exact Int64.neg_inj.mp same
  have read := congrArg Int64.toInt words
  rw [SignedWord.toInt_ofNat other fits, Int64.toInt_ofNat'] at read
  have balanced : (number : Int).bmod (2 ^ 64) = other := read
  rw [Int.bmod_def] at balanced
  split at balanced <;> omega

/-- A price is its numeral times a hundred, cut off, exactly when no more than
two digits follow the point or the first nine that do are zeros. -/
theorem parsePriceToTicks_numeral (numeral : Numeral) (small : |numeral.number| * 100 < 2 ^ 63) :
    (parsePriceToTicks numeral.text).toInt = truncate (numeral.number * 100) ↔
      numeral.decimals.length ≤ 2 ∨ ∀ unit ∈ numeral.decimals.take 9, unit = '0'.toUInt8 := by
  have hundred : (100 : ℚ) = 10 ^ 2 := by norm_num
  have below : numeral.scaled 2 < 2 ^ 63 := by
    apply numeral.scaled_lt 2 (2 ^ 63)
    rw [← hundred]
    exact_mod_cast small
  have fraction := unscaledFraction_lt numeral
  have bounded : value numeral.whole * 10 ^ 2 ≤ numeral.scaled 2 := Nat.le_add_right _ _
  rw [← unscaledFraction_eq_iff _ numeral.decimals_digits, hundred, numeral.truncate_number,
    parsePriceToTicks_text]
  constructor
  · intro same
    have numbers := ofNat_inj_signed _ _ _ (by omega) below same
    exact Nat.add_left_cancel numbers
  · intro same
    rw [same]
    exact toInt_signed _ _ below

theorem parsePriceToTicks_cents :
    ∃ numeral : Numeral, numeral.text = ascii "-189.25" ∧
      ((parsePriceToTicks numeral.text).toInt = truncate (numeral.number * 100) ↔
        numeral.decimals.length ≤ 2 ∨ ∀ unit ∈ numeral.decimals.take 9, unit = '0'.toUInt8) :=
  ⟨.pointed true (ascii "189") (ascii "25") (by decide) (by decide) (by decide), by decide,
    parsePriceToTicks_numeral _ (by decide +kernel)⟩

/-- The price of `1.500` comes out as 600 ticks. -/
theorem price_of_three_decimals :
    ¬ ∀ numeral : Numeral, |numeral.number| * 100 < 2 ^ 63 →
      (parsePriceToTicks numeral.text).toInt = truncate (numeral.number * 100) := by
  intro cut
  have wrong := cut (.pointed false (ascii "1") (ascii "500") (by decide) (by decide) (by decide))
    (by decide +kernel)
  exact absurd wrong (by decide +kernel)

/-! ### Quantities -/

theorem parseQuantityToUnits_text (numeral : Numeral) :
    parseQuantityToUnits numeral.text =
      if numeral.negative then -Int64.ofNat (numeral.scaled 6)
      else Int64.ofNat (numeral.scaled 6) := by
  obtain ⟨whole, fractional⟩ := DigitLoop.padTo_run 6 6 numeral
  have places : 6 - min 6 numeral.decimals.length = 6 - numeral.decimals.length := by omega
  rw [places] at fractional
  simp only [parseQuantityToUnits, splitMinus_text, whole, fractional, Numeral.scaled,
    Int64.ofNat_add, Int64.ofNat_mul (value numeral.whole)]
  exact rfl

namespace DigitLoop

/-- The exact results of the arithmetic of `onDigit`. -/
def onDigitResults (cap : Nat) (loop : DigitLoop) (digit : Int64) : List Int :=
  if !loop.afterDecimal then
    [loop.whole.toInt * 10, (loop.whole * 10).toInt + digit.toInt]
  else if loop.fractionalDigits < cap then
    [loop.fractional.toInt * 10, (loop.fractional * 10).toInt + digit.toInt]
  else
    []

def runResults (cap : Nat) (loop : DigitLoop) : List UInt8 → List Int
  | [] => []
  | unit :: rest =>
      if unit = '.'.toUInt8 then runResults cap { loop with afterDecimal := true } rest
      else if !isDigit unit then []
      else
        loop.onDigitResults cap (Int64.ofNat (digit unit)) ++
          runResults cap (loop.onDigit cap (Int64.ofNat (digit unit))) rest

def padResults : Nat → DigitLoop → List Int
  | 0, _ => []
  | turns + 1, loop =>
      loop.fractional.toInt * 10 ::
        padResults turns
          { loop with
              fractional := loop.fractional * 10
              fractionalDigits := loop.fractionalDigits + 1 }

end DigitLoop

/-- The exact results of all arithmetic in `parseQuantityToUnits`, in order. -/
def quantityResults (value : List UInt8) : List Int :=
  let (negative, value) := splitMinus value
  let read := DigitLoop.run 6 {} value
  let loop := read.padTo 6
  let result := loop.whole * 1000000 + loop.fractional
  DigitLoop.runResults 6 {} value ++
    (DigitLoop.padResults (6 - read.fractionalDigits) read ++
      ([loop.whole.toInt * 1000000, (loop.whole * 1000000).toInt + loop.fractional.toInt] ++
        if negative then [-result.toInt] else []))

namespace DigitLoop

open SignedWord (Fits)

/-- Appending a digit to a number that stays in range. -/
theorem shift_fits (number digit : Nat) (small : number * 10 + digit < 2 ^ 63) :
    Fits ((Int64.ofNat number).toInt * 10) ∧
      Fits ((Int64.ofNat number * 10).toInt + (Int64.ofNat digit).toInt) := by
  have times : Int64.ofNat number * 10 = Int64.ofNat (number * 10) :=
    (Int64.ofNat_mul number 10).symm
  rw [times, SignedWord.toInt_ofNat _ (by omega), SignedWord.toInt_ofNat _ (by omega),
    SignedWord.toInt_ofNat _ (by omega)]
  exact ⟨⟨by omega, by omega⟩, ⟨by omega, by omega⟩⟩

variable (cap : Nat)

/-- Each number on the way is at most the one in the end. -/
theorem runResults_whole (loop : DigitLoop) (number : Nat) (digits rest : List UInt8)
    (all : Digits digits) (before : loop.afterDecimal = false)
    (holds : loop.whole = Int64.ofNat number)
    (small : number * 10 ^ digits.length + value digits < 2 ^ 63)
    (later : ∀ result ∈ runResults cap (loop.onDigits cap digits) rest, Fits result) :
    ∀ result ∈ runResults cap loop (digits ++ rest), Fits result := by
  induction digits generalizing loop number with
  | nil => exact later
  | cons unit digits ih =>
      have first := all unit (List.mem_cons_self ..)
      have point : unit ≠ '.'.toUInt8 := by
        rintro rfl
        exact absurd first (by decide)
      rw [value_cons, List.length_cons, Nat.pow_succ, Nat.mul_comm _ 10, ← Nat.mul_assoc,
        ← Nat.add_assoc, ← Nat.add_mul] at small
      have grown : (number * 10 + digit unit) * 1 ≤ (number * 10 + digit unit) * 10 ^ digits.length :=
        Nat.mul_le_mul_left _ (Nat.pow_pos (by omega))
      obtain ⟨shifted, added⟩ := shift_fits number (digit unit) (by omega)
      have next : loop.onDigit cap (Int64.ofNat (digit unit)) =
          { loop with whole := Int64.ofNat (number * 10 + digit unit) } := by
        simp only [onDigit, before, Bool.not_false, ↓reduceIte, holds, Int64.ofNat_add,
          Int64.ofNat_mul]
        exact rfl
      intro result member
      rw [List.cons_append, runResults, if_neg point, first] at member
      rcases List.mem_append.mp member with now | then'
      · simp only [onDigitResults, before, Bool.not_false, ↓reduceIte, holds] at now
        rcases List.mem_pair.mp now with rfl | rfl
        · exact shifted
        · exact added
      · refine ih (loop.onDigit cap (Int64.ofNat (digit unit))) (number * 10 + digit unit)
          (fun other member => all other (List.mem_cons_of_mem _ member)) ?_ ?_ small later result
          then'
        · rw [next]
          exact before
        · rw [next]

/-- At most eighteen digits fit, whatever they are. -/
theorem runResults_fraction (loop : DigitLoop) (number : Nat) (digits : List UInt8)
    (all : Digits digits) (after : loop.afterDecimal = true)
    (holds : loop.fractional = Int64.ofNat number)
    (small : number < 10 ^ loop.fractionalDigits) (few : cap ≤ 18) :
    ∀ result ∈ runResults cap loop digits, Fits result := by
  induction digits generalizing loop number with
  | nil =>
      intro result member
      cases member
  | cons unit digits ih =>
      have first := all unit (List.mem_cons_self ..)
      have rest : Digits digits := fun other member => all other (List.mem_cons_of_mem _ member)
      have point : unit ≠ '.'.toUInt8 := by
        rintro rfl
        exact absurd first (by decide)
      have one := digit_lt unit first
      intro result member
      rw [runResults, if_neg point, first] at member
      by_cases room : loop.fractionalDigits < cap
      · have grown : number * 10 + digit unit < 10 ^ (loop.fractionalDigits + 1) := by
          rw [Nat.pow_succ]
          omega
        have power : 10 ^ (loop.fractionalDigits + 1) ≤ 10 ^ 18 :=
          Nat.pow_le_pow_right (by omega) (by omega)
        obtain ⟨shifted, added⟩ := shift_fits number (digit unit) (by omega)
        have next : loop.onDigit cap (Int64.ofNat (digit unit)) =
            { loop with
                fractional := Int64.ofNat (number * 10 + digit unit)
                fractionalDigits := loop.fractionalDigits + 1 } := by
          simp only [onDigit, after, Bool.not_true, Bool.false_eq_true, ↓reduceIte, room, holds,
            Int64.ofNat_add, Int64.ofNat_mul]
          exact rfl
        rcases List.mem_append.mp member with now | then'
        · simp only [onDigitResults, after, Bool.not_true, Bool.false_eq_true, ↓reduceIte, room,
            holds] at now
          rcases List.mem_pair.mp now with rfl | rfl
          · exact shifted
          · exact added
        · refine ih (loop.onDigit cap (Int64.ofNat (digit unit))) (number * 10 + digit unit) rest
            ?_ ?_ ?_ result then'
          · rw [next]
            exact after
          · rw [next]
          · rw [next]
            exact grown
      · have kept : loop.onDigit cap (Int64.ofNat (digit unit)) = loop := by
          simp only [onDigit, after, Bool.not_true, Bool.false_eq_true, ↓reduceIte, room]
        have none : loop.onDigitResults cap (Int64.ofNat (digit unit)) = [] := by
          simp only [onDigitResults, after, Bool.not_true, Bool.false_eq_true, ↓reduceIte, room]
        rw [kept, none, List.nil_append] at member
        exact ih loop number rest after holds small result member

theorem padResults_fits (turns : Nat) (loop : DigitLoop) (number : Nat)
    (holds : loop.fractional = Int64.ofNat number) (small : number * 10 ^ turns < 2 ^ 63) :
    ∀ result ∈ padResults turns loop, Fits result := by
  induction turns generalizing loop number with
  | zero =>
      intro result member
      cases member
  | succ turns ih =>
      rw [Nat.pow_succ, Nat.mul_comm _ 10, ← Nat.mul_assoc] at small
      have grown : number * 10 * 1 ≤ number * 10 * 10 ^ turns :=
        Nat.mul_le_mul_left _ (Nat.pow_pos (by omega))
      intro result member
      rcases List.mem_cons.mp member with rfl | later
      · rw [holds]
        exact (shift_fits number 0 (by omega)).1
      · refine ih _ (number * 10) ?_ small result later
        rw [holds]
        exact (Int64.ofNat_mul number 10).symm

/-- The digits of a numeral whose whole part fits. -/
theorem runResults_body (numeral : Numeral) (small : value numeral.whole < 2 ^ 63)
    (few : cap ≤ 18) : ∀ result ∈ runResults cap {} numeral.body, Fits result := by
  refine runResults_whole cap {} 0 _ _ numeral.wholeDigits rfl rfl (by omega) ?_
  rw [onDigits_whole]
  cases present : numeral.fraction with
  | none =>
      intro result member
      cases member
  | some digits =>
      have all := numeral.fractionDigits digits present
      rw [Option.elim_some, runResults, if_pos rfl]
      exact runResults_fraction cap _ 0 digits all rfl rfl (by simp) few

end DigitLoop

/-- A quantity is its numeral times a million, cut off, and nothing overflows on
the way to it. -/
theorem parseQuantityToUnits_numeral (numeral : Numeral)
    (small : |numeral.number| * 10 ^ 6 < 2 ^ 63) :
    (parseQuantityToUnits numeral.text).toInt = truncate (numeral.number * 10 ^ 6) ∧
      ∀ result ∈ quantityResults numeral.text, SignedWord.Fits result := by
  have below : numeral.scaled 6 < 2 ^ 63 := by
    apply numeral.scaled_lt 6 (2 ^ 63)
    exact_mod_cast small
  constructor
  · rw [parseQuantityToUnits_text, toInt_signed _ _ below, numeral.truncate_number]
  have tail := numeral.decimals_lt 6
  have places : 6 - min 6 numeral.decimals.length = 6 - numeral.decimals.length := by omega
  obtain ⟨whole, fractional⟩ := DigitLoop.padTo_run 6 6 numeral
  have read := DigitLoop.run_body 6 numeral
  rw [places] at fractional
  unfold Numeral.scaled at below
  intro result member
  simp only [quantityResults, splitMinus_text, whole, fractional] at member
  rcases List.mem_append.mp member with digits | member
  · exact DigitLoop.runResults_body 6 numeral (by omega) (by omega) result digits
  rcases List.mem_append.mp member with padding | member
  · rw [read] at padding
    refine DigitLoop.padResults_fits _ _ _ rfl ?_ result padding
    simp only [places]
    omega
  have first := SignedWord.toInt_ofNat (value numeral.whole) (by omega)
  have second := SignedWord.toInt_ofNat _ (Nat.lt_of_le_of_lt (Nat.le_add_right _ _) below)
  have third := SignedWord.toInt_ofNat _ (Nat.lt_of_le_of_lt (Nat.le_add_left _ _) below)
  have scaled : Int64.ofNat (value numeral.whole) * 1000000 =
      Int64.ofNat (value numeral.whole * 10 ^ 6) :=
    (Int64.ofNat_mul (value numeral.whole) 1000000).symm
  rw [scaled, ← Int64.ofNat_add, first, second, third, SignedWord.toInt_ofNat _ below] at member
  rcases List.mem_append.mp member with last | negation
  · rcases List.mem_pair.mp last with rfl | rfl
    · exact ⟨by omega, by omega⟩
    · exact ⟨by omega, by omega⟩
  · cases sign : numeral.negative with
    | false =>
        rw [sign] at negation
        cases negation
    | true =>
        rw [sign] at negation
        rw [List.mem_singleton.mp negation]
        exact ⟨by omega, by omega⟩

theorem parseQuantityToUnits_thirds :
    ∃ numeral : Numeral, numeral.text = ascii "-0.3333333" ∧
      (parseQuantityToUnits numeral.text).toInt = truncate (numeral.number * 10 ^ 6) ∧
      ∀ result ∈ quantityResults numeral.text, SignedWord.Fits result :=
  ⟨.pointed true (ascii "0") (ascii "3333333") (by decide) (by decide) (by decide), by decide,
    parseQuantityToUnits_numeral _ (by decide +kernel)⟩

end TradingPlatform
