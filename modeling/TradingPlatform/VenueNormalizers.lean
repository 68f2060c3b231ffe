import TradingPlatform.HyperliquidBook

set_option autoImplicit false

/- All JSON normalizers: which texts they turn into numbers. -/
namespace TradingPlatform

open Decimal

inductive JsonNormalizer where
  | binanceBookTicker
  | coinbaseTicker
  | polygonQuote
  | hyperliquidL2Book
  deriving DecidableEq, Repr

namespace JsonNormalizer

/-- The texts that are extracted from a message. -/
def texts : JsonNormalizer → List UInt8 → Option QuoteFields
  | .binanceBookTicker => TradingPlatform.binanceBookTicker.texts
  | .coinbaseTicker => TradingPlatform.coinbaseTicker.texts
  | .polygonQuote => TradingPlatform.polygonQuote.texts
  | .hyperliquidL2Book => hyperliquidTexts

def run : JsonNormalizer → List UInt8 → SymbolId → TimestampNs → TimestampNs →
    Option NormalizedMarketData
  | .binanceBookTicker => normalizeBinanceBookTicker
  | .coinbaseTicker => normalizeCoinbaseTicker
  | .polygonQuote => normalizePolygonQuote
  | .hyperliquidL2Book => normalizeHyperliquidL2Book

/-- Only a missing text or the sequence is ever refused. -/
theorem run_isSome (normalizer : JsonNormalizer) (rawJson : List UInt8) (symbolId : SymbolId)
    (sendTsNs recvTsNs : TimestampNs) :
    (∃ md, normalizer.run rawJson symbolId sendTsNs recvTsNs = some md) ↔
      ∃ texts sequence, normalizer.texts rawJson = some texts ∧
        parseSequence texts.sequence = some sequence := by
  have common : ∀ (found : Option QuoteFields) (venue : MarketDataVenue),
      (∃ md, found.bind (QuoteFields.normalize venue symbolId sendTsNs recvTsNs) = some md) ↔
        ∃ texts sequence, found = some texts ∧ parseSequence texts.sequence = some sequence := by
    intro found venue
    constructor
    · rintro ⟨md, built⟩
      obtain ⟨texts, same, built⟩ := Option.bind_eq_some_iff.mp built
      obtain ⟨sequence, parsed, -⟩ := Option.map_eq_some_iff.mp built
      exact ⟨texts, sequence, same, parsed⟩
    · rintro ⟨texts, sequence, same, parsed⟩
      rw [same, Option.bind_some, QuoteFields.normalize, parsed]
      exact ⟨_, rfl⟩
  cases normalizer with
  | binanceBookTicker => exact common (TradingPlatform.binanceBookTicker.texts rawJson) .binance
  | coinbaseTicker => exact common (TradingPlatform.coinbaseTicker.texts rawJson) .coinbase
  | polygonQuote => exact common (TradingPlatform.polygonQuote.texts rawJson) .polygon
  | hyperliquidL2Book => exact common (hyperliquidTexts rawJson) .hyperliquid

/-- What holds of the texts of every accepted message. -/
theorem run_texts_iff (normalizer : JsonNormalizer) (rawJson : List UInt8) (symbolId : SymbolId)
    (sendTsNs recvTsNs : TimestampNs) (holds : QuoteFields → Prop) :
    (∀ md, normalizer.run rawJson symbolId sendTsNs recvTsNs = some md →
        ∃ texts, normalizer.texts rawJson = some texts ∧ holds texts) ↔
      ∀ texts, normalizer.texts rawJson = some texts →
        parseSequence texts.sequence = none ∨ holds texts := by
  constructor
  · intro accepted texts extracted
    cases parsed : parseSequence texts.sequence with
    | none => exact Or.inl rfl
    | some sequence =>
        right
        obtain ⟨md, returned⟩ :=
          (normalizer.run_isSome rawJson symbolId sendTsNs recvTsNs).mpr
            ⟨texts, sequence, extracted, parsed⟩
        obtain ⟨texts', extracted', all⟩ := accepted md returned
        rw [Option.some.inj (extracted.symm.trans extracted')]
        exact all
  · intro every md returned
    obtain ⟨texts, sequence, extracted, parsed⟩ :=
      (normalizer.run_isSome rawJson symbolId sendTsNs recvTsNs).mp ⟨md, returned⟩
    refine ⟨texts, extracted, ?_⟩
    exact (every texts extracted).resolve_left (by simp [parsed])

end JsonNormalizer

/-! ### Complete texts -/

/-- The numerals `-?D+(.D+)?`. -/
def CompleteDecimal (text : List UInt8) : Prop :=
  ∃ numeral : Numeral, numeral.text = text ∧ numeral.fraction ≠ some []

def CompleteUnsigned (text : List UInt8) : Prop := text ≠ [] ∧ Digits text

structure QuoteFields.Complete (texts : QuoteFields) : Prop where
  sequence : CompleteUnsigned texts.sequence
  levels : ∀ text ∈ texts.levels, CompleteDecimal text

/-- The digit loops see only digits and at most one point, with digits on both
sides, so that they never stop early. -/
def loopFinishes (pointed digitBefore : Bool) : List UInt8 → Bool
  | [] => digitBefore
  | unit :: rest =>
      if unit = '.'.toUInt8 then digitBefore && !pointed && loopFinishes true false rest
      else isDigit unit && loopFinishes pointed true rest

/-- So it is with a text behind its sign. -/
def ReadInFull (text : List UInt8) : Prop :=
  loopFinishes false false (splitMinus text).2 = true

instance (text : List UInt8) : Decidable (ReadInFull text) :=
  inferInstanceAs (Decidable (loopFinishes false false (splitMinus text).2 = true))

theorem loopFinishes_pointed (digitBefore : Bool) (text : List UInt8) :
    loopFinishes true digitBefore text = true ↔
      Digits text ∧ (digitBefore = true ∨ text ≠ []) := by
  induction text generalizing digitBefore with
  | nil => simp [loopFinishes, Digits]
  | cons unit rest ih =>
      unfold loopFinishes
      split
      · rename_i point
        refine iff_of_false (by simp) fun both => ?_
        have digit := both.1 unit (List.mem_cons_self ..)
        rw [point] at digit
        exact absurd digit (by decide)
      · rw [Bool.and_eq_true, ih]
        simp [Digits]

/-- What finishing means for the loop itself: its break is not taken, it meets at most
one point, and neither the front nor the end of the text is one. -/
theorem loopFinishes_unread (pointed digitBefore : Bool) (text : List UInt8) :
    loopFinishes pointed digitBefore text = true ↔
      DigitLoop.unread text = [] ∧ text.count '.'.toUInt8 + pointed.toNat ≤ 1 ∧
        (digitBefore = true ∨ text ≠ [] ∧ text.head? ≠ some '.'.toUInt8) ∧
        text.getLast? ≠ some '.'.toUInt8 := by
  induction text generalizing pointed digitBefore with
  | nil => cases pointed <;> simp [loopFinishes, DigitLoop.unread]
  | cons unit rest ih =>
      unfold loopFinishes DigitLoop.unread
      by_cases point : unit = '.'.toUInt8
      · rw [if_pos point, if_pos point, Bool.and_eq_true, Bool.and_eq_true, ih]
        subst point
        have last : (('.'.toUInt8 :: rest).getLast? ≠ some '.'.toUInt8) ↔
            rest ≠ [] ∧ rest.getLast? ≠ some '.'.toUInt8 := by
          cases rest <;> simp
        rw [last, List.count_cons_self]
        constructor
        · rintro ⟨⟨before, fresh⟩, read, count, front, final⟩
          refine ⟨read, ?_, Or.inl before, (front.resolve_left (by simp)).1, final⟩
          simp only [Bool.not_eq_true'] at fresh
          simp only [fresh, Bool.toNat_true, Bool.toNat_false] at count ⊢
          omega
        · rintro ⟨read, count, before, nonempty, final⟩
          have none : rest.count '.'.toUInt8 = 0 := by omega
          have fresh : pointed = false := by
            cases pointed with
            | false => rfl
            | true => simp at count
          refine ⟨⟨before.resolve_right (by simp), by simp [fresh]⟩, read, by simp [none],
            Or.inr ⟨nonempty, fun first => ?_⟩, final⟩
          exact List.count_eq_zero.mp none (List.mem_of_mem_head? first)
      · rw [if_neg point, if_neg point, Bool.and_eq_true, ih, List.count_cons_of_ne point]
        have last : ((unit :: rest).getLast? ≠ some '.'.toUInt8) ↔
            rest.getLast? ≠ some '.'.toUInt8 := by
          cases rest <;> simp [point]
        rw [last]
        cases digit : isDigit unit <;> simp [point]

/-- A whole part, and perhaps a fraction with a digit. -/
def Parts (digitBefore : Bool) (text : List UInt8) : Prop :=
  ∃ (whole : List UInt8) (fraction : Option (List UInt8)),
    text = whole ++ (fraction.elim [] fun digits => '.'.toUInt8 :: digits) ∧
    (digitBefore = true ∨ whole ≠ []) ∧ Digits whole ∧
    ∀ digits ∈ fraction, Digits digits ∧ digits ≠ []

theorem loopFinishes_iff (digitBefore : Bool) (text : List UInt8) :
    loopFinishes false digitBefore text = true ↔ Parts digitBefore text := by
  induction text generalizing digitBefore with
  | nil =>
      constructor
      · intro finishes
        exact ⟨[], none, rfl, Or.inl finishes, by decide, by simp⟩
      · rintro ⟨whole, fraction, split, before, -, -⟩
        have none := (List.append_eq_nil_iff.mp split.symm).1
        exact before.resolve_right (not_not.mpr none)
  | cons unit rest ih =>
      unfold loopFinishes
      split
      · rename_i point
        rw [Bool.and_eq_true, Bool.and_eq_true, loopFinishes_pointed]
        constructor
        · rintro ⟨⟨before, -⟩, digits, nonempty⟩
          refine ⟨[], some rest, by rw [point]; exact rfl, Or.inl before, by decide, ?_⟩
          intro fraction same
          rw [← Option.mem_some_iff.mp same]
          exact ⟨digits, nonempty.resolve_left (by simp)⟩
        · rintro ⟨whole, fraction, split, before, digits, fractional⟩
          cases whole with
          | nil =>
              cases fraction with
              | none => exact absurd split (List.cons_ne_nil _ _)
              | some fraction =>
                  obtain ⟨all, nonempty⟩ := fractional fraction rfl
                  rw [(List.cons.inj split).2]
                  exact ⟨⟨before.resolve_right (by simp), rfl⟩, all, Or.inr nonempty⟩
          | cons first whole =>
              have digit := digits first (List.mem_cons_self ..)
              rw [← (List.cons.inj split).1, point] at digit
              exact absurd digit (by decide)
      · rename_i other
        rw [Bool.and_eq_true, ih]
        constructor
        · rintro ⟨digit, whole, fraction, split, -, digits, fractional⟩
          refine ⟨unit :: whole, fraction, by rw [split, List.cons_append], Or.inr (by simp), ?_,
            fractional⟩
          intro one member
          rcases List.mem_cons.mp member with rfl | later
          · exact digit
          · exact digits one later
        · rintro ⟨whole, fraction, split, before, digits, fractional⟩
          cases whole with
          | nil =>
              cases fraction with
              | none => cases split
              | some fraction => exact absurd (List.cons.inj split).1 other
          | cons first whole =>
              obtain ⟨same, tail⟩ := List.cons.inj split
              refine ⟨?_, whole, fraction, tail, Or.inl rfl, ?_, fractional⟩
              · rw [same]
                exact digits first (List.mem_cons_self ..)
              · exact fun one member => digits one (List.mem_cons_of_mem _ member)

/-- A text is read in full if the digit loop, behind the sign, does not break, meets
at most one point, and has a digit on either side of it. -/
theorem readInFull_iff (text : List UInt8) :
    ReadInFull text ↔
      let digits := (splitMinus text).2
      DigitLoop.unread digits = [] ∧ digits.count '.'.toUInt8 ≤ 1 ∧ digits ≠ [] ∧
        digits.head? ≠ some '.'.toUInt8 ∧ digits.getLast? ≠ some '.'.toUInt8 := by
  rw [ReadInFull, loopFinishes_unread]
  simp [and_assoc]

/-- The complete numerals are those that the loops take in full. -/
theorem completeDecimal_iff (text : List UInt8) : CompleteDecimal text ↔ ReadInFull text := by
  rw [ReadInFull, loopFinishes_iff]
  constructor
  · rintro ⟨numeral, rfl, pointed⟩
    rw [splitMinus_text]
    refine ⟨numeral.whole, numeral.fraction, rfl, Or.inr numeral.nonempty, numeral.wholeDigits, ?_⟩
    intro digits member
    refine ⟨numeral.fractionDigits digits member, ?_⟩
    rintro rfl
    exact pointed member
  · rintro ⟨whole, fraction, split, before, digits, fractional⟩
    have nonempty : whole ≠ [] := before.resolve_left (by simp)
    have fractionDigits : ∀ digits ∈ fraction, Digits digits :=
      fun digits member => (fractional digits member).1
    refine ⟨⟨(splitMinus text).1, whole, fraction, nonempty, digits, fractionDigits⟩, ?_,
      fun empty => (fractional [] empty).2 rfl⟩
    unfold Numeral.text Numeral.body
    dsimp only
    rw [← split]
    unfold splitMinus
    split
    · rename_i minus
      obtain ⟨rest, whole⟩ := List.head?_eq_some_iff.mp minus
      rw [whole]
      exact rfl
    · exact rfl

/-- Without points and signs, all units of a number text are digits. -/
theorem completeUnsigned_iff {text : List UInt8} (nonempty : text ≠ [])
    (units : ∀ unit ∈ text, isNumberUnit unit = true) :
    CompleteUnsigned text ↔ '.'.toUInt8 ∉ text ∧ '-'.toUInt8 ∉ text := by
  constructor
  · rintro ⟨-, digits⟩
    exact ⟨fun member => absurd (digits _ member) (by decide),
      fun member => absurd (digits _ member) (by decide)⟩
  · rintro ⟨noPoint, noMinus⟩
    refine ⟨nonempty, fun unit member => ?_⟩
    have kind := units unit member
    rw [isNumberUnit, Bool.or_eq_true, Bool.or_eq_true, decide_eq_true_eq, decide_eq_true_eq] at kind
    rcases kind with (digit | rfl) | rfl
    · exact digit
    · exact absurd member noPoint
    · exact absurd member noMinus

/-- The branches that stop early are not taken: the sequence is all digits, and
the digit loops take all of every price and quantity. -/
structure QuoteFields.LoopsFinish (texts : QuoteFields) : Prop where
  noPoint : '.'.toUInt8 ∉ texts.sequence
  noMinus : '-'.toUInt8 ∉ texts.sequence
  levels : ∀ text ∈ texts.levels, ReadInFull text

namespace JsonNormalizer

/-- The sequence is a number text for every venue. -/
theorem texts_sequence {normalizer : JsonNormalizer} {rawJson : List UInt8} {texts : QuoteFields}
    (extracted : normalizer.texts rawJson = some texts) :
    ∃ key, extractJsonNumberAsString rawJson key = some texts.sequence := by
  cases normalizer with
  | binanceBookTicker => exact ⟨_, QuoteFields.gather_sequence extracted⟩
  | coinbaseTicker => exact ⟨_, QuoteFields.gather_sequence extracted⟩
  | polygonQuote => exact ⟨_, QuoteFields.gather_sequence extracted⟩
  | hyperliquidL2Book => exact ⟨_, hyperliquidTexts_sequence extracted⟩

theorem complete_iff_loopsFinish {normalizer : JsonNormalizer} {rawJson : List UInt8}
    {texts : QuoteFields} (extracted : normalizer.texts rawJson = some texts) :
    texts.Complete ↔ texts.LoopsFinish := by
  obtain ⟨key, number⟩ := texts_sequence extracted
  obtain ⟨nonempty, units⟩ := extractJsonNumberAsString_units number
  constructor
  · intro complete
    obtain ⟨noPoint, noMinus⟩ := (completeUnsigned_iff nonempty units).mp complete.sequence
    exact ⟨noPoint, noMinus,
      fun text member => (completeDecimal_iff text).mp (complete.levels text member)⟩
  · intro finish
    exact ⟨(completeUnsigned_iff nonempty units).mpr ⟨finish.noPoint, finish.noMinus⟩,
      fun text member => (completeDecimal_iff text).mpr (finish.levels text member)⟩

/-- A normalizer returns a value only for complete texts exactly when a field is
missing, the sequence does not begin with a number of 64 bits, or no loop stops
early. -/
theorem run_complete_iff (normalizer : JsonNormalizer) (rawJson : List UInt8)
    (symbolId : SymbolId) (sendTsNs recvTsNs : TimestampNs) :
    (∀ md, normalizer.run rawJson symbolId sendTsNs recvTsNs = some md →
        ∃ texts, normalizer.texts rawJson = some texts ∧ texts.Complete) ↔
      ∀ texts, normalizer.texts rawJson = some texts →
        parseSequence texts.sequence = none ∨ texts.LoopsFinish := by
  rw [run_texts_iff normalizer rawJson symbolId sendTsNs recvTsNs QuoteFields.Complete]
  apply forall₂_congr
  intro texts extracted
  exact or_congr_right (complete_iff_loopsFinish extracted)

/-- A bid price of `abc` comes out as zero. -/
theorem malformed_price_taken :
    ¬ ∀ (normalizer : JsonNormalizer) (rawJson : List UInt8) (symbolId : SymbolId)
        (sendTsNs recvTsNs : TimestampNs) (md : NormalizedMarketData),
      normalizer.run rawJson symbolId sendTsNs recvTsNs = some md →
        ∃ texts, normalizer.texts rawJson = some texts ∧ texts.Complete := by
  intro complete
  have returned : JsonNormalizer.binanceBookTicker.run
      (ascii "\x7b\"u\":1,\"s\":\"X\",\"b\":\"abc\",\"B\":\"1\",\"a\":\"2\",\"A\":\"1\"\x7d")
      1 0 0 = some {
        venue := .binance
        update := makeUpdate .binance 1 (ascii "X") 0 1000000 200 1000000 1 0 0 } := by
    decide +kernel
  obtain ⟨texts, extracted, all⟩ := complete _ _ _ _ _ _ returned
  have found : JsonNormalizer.binanceBookTicker.texts
      (ascii "\x7b\"u\":1,\"s\":\"X\",\"b\":\"abc\",\"B\":\"1\",\"a\":\"2\",\"A\":\"1\"\x7d") =
      some ⟨ascii "X", ascii "1", ascii "abc", ascii "1", ascii "2", ascii "1"⟩ := by
    decide +kernel
  have same := Option.some.inj (found.symm.trans extracted)
  have letters : CompleteDecimal (ascii "abc") :=
    all.levels _ (by rw [← same]; exact List.mem_cons_self ..)
  exact absurd ((completeDecimal_iff _).mp letters) (by decide)

end JsonNormalizer

end TradingPlatform
