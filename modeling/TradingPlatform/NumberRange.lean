import TradingPlatform.VenueNormalizers

set_option autoImplicit false

/- Which texts the parsers of prices and quantities take without leaving the
range of a word, whatever the texts look like. -/
namespace TradingPlatform

open Decimal
open SignedWord (Fits)

/-! ### What the digit loop takes of a text -/

/-- The units behind the digits at the front that the loop goes through. -/
def continues (unit : UInt8) : Bool := isDigit unit || decide (unit = '.'.toUInt8)

/-- The digits that count as a fraction: further points do not end it. -/
def fractionUnits (text : List UInt8) : List UInt8 :=
  ((text.dropWhile isDigit).takeWhile continues).filter isDigit

theorem fractionUnits_digits (text : List UInt8) : Digits (fractionUnits text) :=
  fun _ member => (List.mem_filter.mp member).2

namespace DigitLoop

variable (cap : Nat)

theorem onDigit_afterDecimal (loop : DigitLoop) (digit : Int64) :
    (loop.onDigit cap digit).afterDecimal = loop.afterDecimal := by
  unfold onDigit
  split
  · exact rfl
  · split
    · exact rfl
    · exact rfl

/-- Behind the point the loop takes digits only, and their results. -/
theorem run_after (loop : DigitLoop) (rest : List UInt8) (after : loop.afterDecimal = true) :
    loop.run cap rest = loop.onDigits cap ((rest.takeWhile continues).filter isDigit) ∧
      loop.runResults cap rest =
        loop.runResults cap ((rest.takeWhile continues).filter isDigit) := by
  induction rest generalizing loop with
  | nil => exact ⟨rfl, rfl⟩
  | cons unit rest ih =>
      by_cases point : unit = '.'.toUInt8
      · have taken : continues unit = true := by
          rw [point]
          decide
        have noDigit : ¬ isDigit unit = true := by
          rw [point]
          decide
        have same : { loop with afterDecimal := true } = loop := by rw [← after]
        rw [List.takeWhile_cons_of_pos taken, List.filter_cons_of_neg noDigit, run, if_pos point,
          runResults, if_pos point, same]
        exact ih loop after
      · by_cases digits : isDigit unit = true
        · have taken : continues unit = true := by
            unfold continues
            rw [digits, Bool.true_or]
          obtain ⟨final, results⟩ := ih (loop.onDigit cap (Int64.ofNat (digit unit)))
            ((loop.onDigit_afterDecimal cap _).trans after)
          rw [List.takeWhile_cons_of_pos taken, List.filter_cons_of_pos digits, run,
            if_neg point, runResults, if_neg point, runResults, if_neg point, digits]
          exact ⟨final, congrArg (_ ++ ·) results⟩
        · have stops : ¬ continues unit = true := by
            unfold continues
            rw [Bool.or_eq_true, decide_eq_true_eq]
            exact fun either => either.elim digits point
          have no : isDigit unit = false := Bool.not_eq_true _ |>.mp digits
          rw [List.takeWhile_cons_of_neg stops, run, if_neg point, runResults, if_neg point, no]
          exact ⟨rfl, rfl⟩

/-- The part of a text behind the digits at its front: the loop is through, or
there is a point. -/
theorem run_tail (loop : DigitLoop) (text : List UInt8) :
    (fractionUnits text = [] ∧ loop.run cap (text.dropWhile isDigit) = loop ∧
        loop.runResults cap (text.dropWhile isDigit) = []) ∨
      (loop.run cap (text.dropWhile isDigit) =
          onDigits cap { loop with afterDecimal := true } (fractionUnits text) ∧
        loop.runResults cap (text.dropWhile isDigit) =
          runResults cap { loop with afterDecimal := true } (fractionUnits text)) := by
  unfold fractionUnits
  cases tail : text.dropWhile isDigit with
  | nil => exact Or.inl ⟨rfl, rfl, rfl⟩
  | cons unit rest =>
      have head : isDigit unit = false := by
        have first := List.head_dropWhile_not isDigit (w := by rw [tail]; exact List.cons_ne_nil _ _)
        simpa only [tail, List.head_cons] using first
      by_cases point : unit = '.'.toUInt8
      · right
        have taken : continues unit = true := by
          rw [point]
          decide
        have noDigit : ¬ isDigit unit = true := by rw [head]; exact Bool.false_ne_true
        rw [run, if_pos point, runResults, if_pos point, List.takeWhile_cons_of_pos taken,
          List.filter_cons_of_neg noDigit]
        exact run_after cap { loop with afterDecimal := true } rest rfl
      · left
        have stops : ¬ continues unit = true := by
          unfold continues
          rw [head, Bool.false_or, decide_eq_true_eq]
          exact point
        rw [List.takeWhile_cons_of_neg stops, run, if_neg point, runResults, if_neg point, head]
        exact ⟨rfl, rfl, rfl⟩

theorem run_text (text : List UInt8) :
    ∃ pointed, run cap {} text =
      { whole := Int64.ofNat (value (leading text))
        fractional := Int64.ofNat (value ((fractionUnits text).take cap))
        fractionalDigits := min cap (fractionUnits text).length
        afterDecimal := pointed } := by
  have front : Digits (leading text) := fun unit member => (List.mem_takeWhile_imp member)
  have split : leading text ++ text.dropWhile isDigit = text := List.takeWhile_append_dropWhile
  have read := run_digits cap {} (leading text) (text.dropWhile isDigit) front
  rw [split, onDigits_whole] at read
  rw [read]
  rcases run_tail cap { whole := Int64.ofNat (value (leading text)) } text with
    ⟨none, stopped, -⟩ | ⟨more, -⟩
  · refine ⟨false, ?_⟩
    rw [stopped, none, List.take_nil, List.length_nil, Nat.min_zero]
    exact rfl
  · refine ⟨true, ?_⟩
    rw [more]
    exact onDigits_fraction cap _ _

/-- As long as no result leaves the range, the word holds the number. -/
theorem whole_of_fits (loop : DigitLoop) (number : Nat) (digits rest : List UInt8)
    (all : Digits digits) (before : loop.afterDecimal = false)
    (holds : loop.whole = Int64.ofNat number) (small : number < 2 ^ 63)
    (fits : ∀ result ∈ runResults cap loop (digits ++ rest), Fits result) :
    number * 10 ^ digits.length + value digits < 2 ^ 63 := by
  induction digits generalizing loop number with
  | nil =>
      rw [List.length_nil, Nat.pow_zero, value_nil]
      omega
  | cons unit digits ih =>
      have first := all unit (List.mem_cons_self ..)
      have point : unit ≠ '.'.toUInt8 := by
        rintro rfl
        exact absurd first (by decide)
      have one := digit_lt unit first
      rw [List.cons_append, runResults, if_neg point, first] at fits
      have now : ∀ result ∈ loop.onDigitResults cap (Int64.ofNat (digit unit)), Fits result :=
        fun result member => fits result (List.mem_append_left _ member)
      simp only [onDigitResults, before, Bool.not_false, ↓reduceIte, holds,
        SignedWord.toInt_ofNat number small, List.mem_cons, List.not_mem_nil, or_false,
        forall_eq_or_imp, forall_eq] at now
      obtain ⟨shifted, added⟩ := now
      have times : Int64.ofNat number * 10 = Int64.ofNat (number * 10) :=
        (Int64.ofNat_mul number 10).symm
      have below : number * 10 < 2 ^ 63 := by
        have high := shifted.2
        omega
      rw [times, SignedWord.toInt_ofNat _ below, SignedWord.toInt_ofNat _ (by omega)] at added
      have next : loop.onDigit cap (Int64.ofNat (digit unit)) =
          { loop with whole := Int64.ofNat (number * 10 + digit unit) } := by
        simp only [onDigit, before, Bool.not_false, ↓reduceIte, holds, Int64.ofNat_add,
          Int64.ofNat_mul]
        exact rfl
      have grown : number * 10 + digit unit < 2 ^ 63 := by
        have high := added.2
        omega
      have later := ih (loop.onDigit cap (Int64.ofNat (digit unit))) (number * 10 + digit unit)
        (fun other member => all other (List.mem_cons_of_mem _ member))
        (by rw [next]; exact before) (by rw [next]) grown
        (fun result member => fits result (List.mem_append_right _ member))
      rw [value_cons, List.length_cons, Nat.pow_succ, Nat.mul_comm _ 10, ← Nat.mul_assoc,
        ← Nat.add_assoc, ← Nat.add_mul]
      exact later

/-- The loop stays in range exactly when the number in front of the point does. -/
theorem runResults_fit_iff (text : List UInt8) (few : cap ≤ 18) :
    (∀ result ∈ runResults cap {} text, Fits result) ↔ value (leading text) < 2 ^ 63 := by
  have front : Digits (leading text) := fun unit member => (List.mem_takeWhile_imp member)
  have split : leading text ++ text.dropWhile isDigit = text := List.takeWhile_append_dropWhile
  constructor
  · intro fits
    rw [← split] at fits
    have read := whole_of_fits cap {} 0 (leading text) _ front rfl rfl (by omega) fits
    rwa [Nat.zero_mul, Nat.zero_add] at read
  · intro small
    rw [← split]
    refine runResults_whole cap {} 0 _ _ front rfl rfl (by omega) ?_
    rw [onDigits_whole]
    rcases run_tail cap { whole := Int64.ofNat (value (leading text)) } text with
      ⟨-, -, none⟩ | ⟨-, more⟩
    · rw [none]
      intro result member
      cases member
    · rw [more]
      exact runResults_fraction cap _ 0 _ (fractionUnits_digits text) rfl rfl (by simp) few

end DigitLoop

/-! ### The two parsers -/

/-- The exact results of all arithmetic in a parser that keeps `cap` digits of the
fraction and pads it to `target` digits. -/
def numberResults (cap target : Nat) (scale : Int64) (value : List UInt8) : List Int :=
  let (negative, value) := splitMinus value
  let read := DigitLoop.run cap {} value
  let loop := read.padTo target
  let result := loop.whole * scale + loop.fractional
  DigitLoop.runResults cap {} value ++
    (DigitLoop.padResults (target - read.fractionalDigits) read ++
      ([loop.whole.toInt * scale.toInt, (loop.whole * scale).toInt + loop.fractional.toInt] ++
        if negative then [-result.toInt] else []))

theorem quantityResults_eq (value : List UInt8) :
    quantityResults value = numberResults 6 6 1000000 value := rfl

/-- The exact results of all arithmetic in `parsePriceToTicks` with the default
scale, in order. -/
def priceResults (value : List UInt8) : List Int :=
  let (negative, value) := splitMinus value
  let read := DigitLoop.run 9 {} value
  let loop := read.padTo 2
  let scaled := loop.whole * 100
  let result := scaled + loop.fractional / 1
  DigitLoop.runResults 9 {} value ++
    (DigitLoop.padResults (2 - read.fractionalDigits) read ++
      ([loop.whole.toInt * 100, scaled.toInt + (loop.fractional / 1).toInt] ++
        if negative then [-result.toInt] else []))

theorem priceResults_eq (value : List UInt8) :
    priceResults value = numberResults 9 2 100 value := by
  unfold priceResults numberResults
  simp only [Int64.div_one]
  exact rfl

/-- The digits behind the point, cut or padded to the length that is kept. -/
def paddedFraction (cap target : Nat) (text : List UInt8) : Nat :=
  value ((fractionUnits text).take cap) * 10 ^ (target - min cap (fractionUnits text).length)

/-- The number that a parser makes of a text without its sign. -/
def readNumber (cap target scale : Nat) (text : List UInt8) : Nat :=
  value (leading text) * scale + paddedFraction cap target text

theorem paddedFraction_lt (cap target : Nat) (text : List UInt8) (few : cap ≤ 18)
    (short : target ≤ 18) : paddedFraction cap target text < 2 ^ 63 := by
  have digits := value_lt _ ((fractionUnits_digits text).take cap)
  rw [List.length_take] at digits
  have padded := Nat.mul_lt_mul_of_pos_right digits
    (Nat.pow_pos (by omega) : 0 < 10 ^ (target - min cap (fractionUnits text).length))
  rw [← Nat.pow_add] at padded
  have places : 10 ^ (min cap (fractionUnits text).length +
      (target - min cap (fractionUnits text).length)) ≤ 10 ^ 18 :=
    Nat.pow_le_pow_right (by omega) (by omega)
  unfold paddedFraction
  omega

theorem DigitLoop.padTo_text (cap target : Nat) (text : List UInt8) :
    ((run cap {} text).padTo target).whole = Int64.ofNat (value (leading text)) ∧
      ((run cap {} text).padTo target).fractional =
        Int64.ofNat (paddedFraction cap target text) := by
  obtain ⟨pointed, read⟩ := run_text cap text
  rw [read, padTo, pad_eq, paddedFraction, Int64.ofNat_mul]
  exact ⟨rfl, rfl⟩

theorem DigitLoop.padResults_text (cap target : Nat) (text : List UInt8) (few : cap ≤ 18)
    (short : target ≤ 18) :
    ∀ result ∈ padResults (target - (run cap {} text).fractionalDigits) (run cap {} text),
      Fits result := by
  obtain ⟨pointed, read⟩ := run_text cap text
  have bound := paddedFraction_lt cap target text few short
  rw [read]
  exact padResults_fits _ _ _ rfl bound

/-- No result leaves the range exactly when the number does not. -/
theorem numberResults_fit_iff (cap target scale : Nat) (text : List UInt8) (few : cap ≤ 18)
    (short : target ≤ 18) (positive : 0 < scale) (scaleFits : scale < 2 ^ 63) :
    (∀ result ∈ numberResults cap target (Int64.ofNat scale) text, Fits result) ↔
      readNumber cap target scale (splitMinus text).2 < 2 ^ 63 := by
  obtain ⟨whole, fractional⟩ := DigitLoop.padTo_text cap target (splitMinus text).2
  have digits := DigitLoop.runResults_fit_iff cap (splitMinus text).2 few
  have padding := DigitLoop.padResults_text cap target (splitMinus text).2 few short
  have fraction := paddedFraction_lt cap target (splitMinus text).2 few short
  have least := Nat.le_mul_of_pos_right (value (leading (splitMinus text).2)) positive
  simp only [numberResults, whole, fractional, readNumber, List.forall_mem_append,
    List.forall_mem_cons, SignedWord.toInt_ofNat scale scaleFits,
    SignedWord.toInt_ofNat _ fraction, ← Int64.ofNat_mul, ← Int64.ofNat_add, digits]
  constructor
  · rintro ⟨inRange, -, ⟨scaled, added, -⟩, -⟩
    rw [SignedWord.toInt_ofNat _ inRange] at scaled
    have product : value (leading (splitMinus text).2) * scale < 2 ^ 63 := by
      exact_mod_cast scaled.2
    rw [SignedWord.toInt_ofNat _ product] at added
    exact_mod_cast added.2
  · intro small
    have product : value (leading (splitMinus text).2) * scale < 2 ^ 63 := by omega
    have inRange : value (leading (splitMinus text).2) < 2 ^ 63 := by omega
    rw [SignedWord.toInt_ofNat _ inRange, SignedWord.toInt_ofNat _ product,
      SignedWord.toInt_ofNat _ small]
    refine ⟨inRange, padding, ⟨⟨?_, ?_⟩, ⟨by omega, by omega⟩, by simp⟩, ?_⟩
    · have nonneg : (0 : Int) ≤ (value (leading (splitMinus text).2) : Int) * scale := by
        positivity
      omega
    · exact_mod_cast product
    · intro result member
      split at member
      · rw [List.mem_singleton.mp member]
        exact ⟨by omega, by omega⟩
      · cases member

/-! ### Messages -/

/-- No result in the four conversions of a message leaves the range. -/
structure QuoteFields.ConversionsFit (texts : QuoteFields) : Prop where
  prices : ∀ text ∈ [texts.bidPx, texts.askPx], ∀ result ∈ priceResults text, Fits result
  quantities : ∀ text ∈ [texts.bidQty, texts.askQty], ∀ result ∈ quantityResults text, Fits result

/-- The digits of the prices and quantities stand for numbers of 63 bits. -/
structure QuoteFields.NumbersFit (texts : QuoteFields) : Prop where
  prices : ∀ text ∈ [texts.bidPx, texts.askPx],
    readNumber 9 2 100 (splitMinus text).2 < 2 ^ 63
  quantities : ∀ text ∈ [texts.bidQty, texts.askQty],
    readNumber 6 6 1000000 (splitMinus text).2 < 2 ^ 63

theorem QuoteFields.conversionsFit_iff (texts : QuoteFields) :
    texts.ConversionsFit ↔ texts.NumbersFit := by
  have price : ∀ text, (∀ result ∈ priceResults text, Fits result) ↔
      readNumber 9 2 100 (splitMinus text).2 < 2 ^ 63 := by
    intro text
    rw [priceResults_eq]
    exact numberResults_fit_iff 9 2 100 text (by omega) (by omega) (by omega) (by omega)
  have quantity : ∀ text, (∀ result ∈ quantityResults text, Fits result) ↔
      readNumber 6 6 1000000 (splitMinus text).2 < 2 ^ 63 := by
    intro text
    rw [quantityResults_eq]
    exact numberResults_fit_iff 6 6 1000000 text (by omega) (by omega) (by omega) (by omega)
  constructor
  · rintro ⟨prices, quantities⟩
    exact ⟨fun text member => (price text).mp (prices text member),
      fun text member => (quantity text).mp (quantities text member)⟩
  · rintro ⟨prices, quantities⟩
    exact ⟨fun text member => (price text).mpr (prices text member),
      fun text member => (quantity text).mpr (quantities text member)⟩

namespace JsonNormalizer

/-- A message that a normalizer accepts is converted without leaving the range
exactly when the numbers in its price and quantity texts fit. -/
theorem run_fits_iff (normalizer : JsonNormalizer) (rawJson : List UInt8) (symbolId : SymbolId)
    (sendTsNs recvTsNs : TimestampNs) :
    (∀ md, normalizer.run rawJson symbolId sendTsNs recvTsNs = some md →
        ∃ texts, normalizer.texts rawJson = some texts ∧ texts.ConversionsFit) ↔
      ∀ texts, normalizer.texts rawJson = some texts →
        parseSequence texts.sequence = none ∨ texts.NumbersFit := by
  rw [run_texts_iff normalizer rawJson symbolId sendTsNs recvTsNs QuoteFields.ConversionsFit]
  apply forall₂_congr
  intro texts _
  exact or_congr_right texts.conversionsFit_iff

/-- A bid price of twenty nines overflows in the digit loop. -/
theorem long_price_overflows :
    ¬ ∀ (normalizer : JsonNormalizer) (rawJson : List UInt8) (symbolId : SymbolId)
        (sendTsNs recvTsNs : TimestampNs) (md : NormalizedMarketData),
      normalizer.run rawJson symbolId sendTsNs recvTsNs = some md →
        ∃ texts, normalizer.texts rawJson = some texts ∧ texts.ConversionsFit := by
  intro fits
  let message := ascii
    "\x7b\"u\":1,\"s\":\"X\",\"b\":\"99999999999999999999\",\"B\":\"1\",\"a\":\"2\",\"A\":\"1\"\x7d"
  have found : JsonNormalizer.binanceBookTicker.texts message =
      some ⟨ascii "X", ascii "1", ascii "99999999999999999999", ascii "1", ascii "2",
        ascii "1"⟩ := by
    decide +kernel
  have parsed : parseSequence (ascii "1") = some 1 := by decide
  obtain ⟨md, returned⟩ := (JsonNormalizer.binanceBookTicker.run_isSome message 1 0 0).mpr
    ⟨_, 1, found, parsed⟩
  obtain ⟨texts, extracted, all⟩ := fits _ _ _ _ _ _ returned
  have same := Option.some.inj (found.symm.trans extracted)
  have numbers := texts.conversionsFit_iff.mp all
  have price := numbers.prices (ascii "99999999999999999999")
    (by rw [← same]; exact List.mem_cons_self ..)
  exact absurd price (by decide)

end JsonNormalizer
end TradingPlatform
