import TradingPlatform.Library.Delimited
import TradingPlatform.Library.SignedWord
import TradingPlatform.MarketDataAdapter

set_option autoImplicit false

/- The quotes of the simulated ITCH feed, one to a line. -/
namespace TradingPlatform

open Decimal

def splitPipeLine (line : List UInt8) : List (List UInt8) :=
  Delimited.split '|'.toUInt8 (line.length + 1) line

/-- Each conversion may throw; nothing between them depends on their order. -/
def normalizeSimulatedItchQuote (rawLine : List UInt8) (symbolId : SymbolId)
    (sendTsNs recvTsNs : TimestampNs) : Except ReadError (Option NormalizedMarketData) :=
  match splitPipeLine rawLine with
  | [tag, sequence, symbol, bidPx, bidQty, askPx, askQty] =>
      if tag ≠ ascii "Q" then .ok none
      else
        match parseSequence sequence with
        | none => .ok none
        | some sequence => do
            let bidPx ← stoll bidPx
            let bidQty ← stoll bidQty
            let askPx ← stoll askPx
            let askQty ← stoll askQty
            .ok (some {
              venue := .simulatedItch
              update := makeUpdate .simulatedItch symbolId symbol bidPx bidQty askPx askQty
                sequence sendTsNs recvTsNs })
  | _ => .ok none

/-! ### The grammar of the lines -/

def Unsigned64 (text : List UInt8) : Prop := text ≠ [] ∧ Digits text ∧ value text < 2 ^ 64

def Signed64 (text : List UInt8) : Prop :=
  ∃ number, Signed text number ∧ SignedWord.Fits number

def joinPipes (fields : List (List UInt8)) : List UInt8 := ['|'.toUInt8].intercalate fields

inductive ItchLine : List UInt8 → Prop
  | quote (sequence symbol bidPx bidQty askPx askQty : List UInt8)
      (sequenceNumber : Unsigned64 sequence) (plain : '|'.toUInt8 ∉ symbol)
      (bidPxNumber : Signed64 bidPx) (bidQtyNumber : Signed64 bidQty)
      (askPxNumber : Signed64 askPx) (askQtyNumber : Signed64 askQty) :
      ItchLine (joinPipes [ascii "Q", sequence, symbol, bidPx, bidQty, askPx, askQty])

theorem splitPipeLine_eq (line : List UInt8) :
    splitPipeLine line = line.splitOn '|'.toUInt8 :=
  Delimited.split_eq_splitOn _ line (Nat.lt_succ_self _)

theorem splitPipeLine_join (fields : List (List UInt8)) (some : fields ≠ [])
    (plain : ∀ field ∈ fields, '|'.toUInt8 ∉ field) : splitPipeLine (joinPipes fields) = fields := by
  rw [splitPipeLine_eq]
  exact List.splitOn_intercalate _ plain some

theorem pipe_not_mem_digits {digits : List UInt8} (all : Digits digits) :
    '|'.toUInt8 ∉ digits :=
  fun member => absurd (all _ member) (by decide)

theorem parseSequence_unsigned {text : List UInt8} (number : Unsigned64 text) :
    parseSequence text = some (value text) :=
  fromChars_digits _ text number.1 number.2.1 number.2.2

/-- The text is one field and is read as this word. -/
structure ReadsAs (text : List UInt8) (word : Int64) : Prop where
  plain : '|'.toUInt8 ∉ text
  read : stoll text = .ok word

theorem readsAs_signed (text : List UInt8) (number : Int) (complete : Signed text number)
    (fits : SignedWord.Fits number) : ReadsAs text (Int64.ofInt number) := by
  refine ⟨?_, stoll_signed text number complete fits.1 fits.2⟩
  cases complete with
  | positive digits some all => exact pipe_not_mem_digits all
  | negative digits some all =>
      intro member
      rcases List.mem_cons.mp member with sign | later
      · exact absurd sign (by decide)
      · exact pipe_not_mem_digits all later

/-- A line of seven fields that are read in full. -/
theorem normalizeSimulatedItchQuote_reads (sequence symbol : List UInt8)
    {bidPx bidQty askPx askQty : List UInt8} {bidPx' askPx' : Price} {bidQty' askQty' : Quantity}
    (number : Unsigned64 sequence) (plain : '|'.toUInt8 ∉ symbol) (bidPxReads : ReadsAs bidPx bidPx')
    (bidQtyReads : ReadsAs bidQty bidQty') (askPxReads : ReadsAs askPx askPx')
    (askQtyReads : ReadsAs askQty askQty') (symbolId : SymbolId)
    (sendTsNs recvTsNs : TimestampNs) :
    normalizeSimulatedItchQuote
        (joinPipes [ascii "Q", sequence, symbol, bidPx, bidQty, askPx, askQty]) symbolId
        sendTsNs recvTsNs =
      .ok (some {
        venue := .simulatedItch
        update := makeUpdate .simulatedItch symbolId symbol bidPx' bidQty' askPx' askQty'
          (value sequence) sendTsNs recvTsNs }) := by
  have split := splitPipeLine_join [ascii "Q", sequence, symbol, bidPx, bidQty, askPx, askQty]
    (by simp) (by
      have tag : '|'.toUInt8 ∉ ascii "Q" := by decide
      simp only [List.forall_mem_cons]
      exact ⟨tag, pipe_not_mem_digits number.2.1, plain, bidPxReads.plain, bidQtyReads.plain,
        askPxReads.plain, askQtyReads.plain, by simp⟩)
  unfold normalizeSimulatedItchQuote
  rw [split]
  simp only [ne_eq, not_true_eq_false, ↓reduceIte, parseSequence_unsigned number,
    bidPxReads.read, bidQtyReads.read, askPxReads.read, askQtyReads.read]
  exact rfl

theorem Signed64.reads {text : List UInt8} (complete : Signed64 text) :
    ∃ word, ReadsAs text word := by
  obtain ⟨number, signed, fits⟩ := complete
  exact ⟨_, readsAs_signed text number signed fits⟩

/-- Every line of the grammar is taken. -/
theorem ItchLine.taken {line : List UInt8} (grammatical : ItchLine line) (symbolId : SymbolId)
    (sendTsNs recvTsNs : TimestampNs) :
    ∃ md, normalizeSimulatedItchQuote line symbolId sendTsNs recvTsNs = .ok (some md) := by
  cases grammatical with
  | quote sequence symbol bidPx bidQty askPx askQty number plain bidPx64 bidQty64 askPx64 askQty64 =>
      obtain ⟨_, bidPxReads⟩ := bidPx64.reads
      obtain ⟨_, bidQtyReads⟩ := bidQty64.reads
      obtain ⟨_, askPxReads⟩ := askPx64.reads
      obtain ⟨_, askQtyReads⟩ := askQty64.reads
      exact ⟨_, normalizeSimulatedItchQuote_reads sequence symbol number plain bidPxReads
        bidQtyReads askPxReads askQtyReads symbolId sendTsNs recvTsNs⟩

/-- The line is not a quote, or its sequence does not begin with a number of 64
bits: both are looked at before anything is converted. -/
def RefusedEarly (line : List UInt8) : Prop :=
  (∀ fields, fields.length = 6 → splitPipeLine line ≠ ascii "Q" :: fields) ∨
    ∃ tag sequence fields, splitPipeLine line = tag :: sequence :: fields ∧
      parseSequence sequence = none

theorem refused_early {line : List UInt8} (refused : RefusedEarly line) (symbolId : SymbolId)
    (sendTsNs recvTsNs : TimestampNs) :
    normalizeSimulatedItchQuote line symbolId sendTsNs recvTsNs = .ok none := by
  unfold normalizeSimulatedItchQuote
  split
  · rename_i tag sequence symbol bidPx bidQty askPx askQty parts
    split
    · exact rfl
    · rename_i quote
      have isQuote : tag = ascii "Q" := not_not.mp quote
      rcases refused with other | ⟨tag', sequence', fields, parts', bad⟩
      · exact absurd (isQuote ▸ parts) (other _ rfl)
      · rw [parts] at parts'
        have same : sequence = sequence' := (List.cons.inj (List.cons.inj parts').2).1
        rw [same, bad]
  · exact rfl

/-- A quote is normalized without an exception, and only if it is grammatical,
exactly when it is grammatical or refused before the conversions. -/
theorem normalizeSimulatedItchQuote_total (line : List UInt8) (symbolId : SymbolId)
    (sendTsNs recvTsNs : TimestampNs) :
    (∃ result, normalizeSimulatedItchQuote line symbolId sendTsNs recvTsNs = .ok result ∧
        (result ≠ none ↔ ItchLine line)) ↔
      RefusedEarly line ∨ ItchLine line := by
  constructor
  · rintro ⟨result, returned, accepts⟩
    by_cases early : RefusedEarly line
    · exact Or.inl early
    · right
      apply accepts.mp
      rintro rfl
      apply early
      unfold normalizeSimulatedItchQuote at returned
      split at returned
      · rename_i tag sequence symbol bidPx bidQty askPx askQty parts
        split at returned
        · rename_i other
          left
          intro fields _ quote
          rw [parts] at quote
          exact other (List.cons.inj quote).1
        · cases number : parseSequence sequence with
          | none => exact Or.inr ⟨tag, sequence, _, parts, number⟩
          | some value =>
              rw [number] at returned
              exact absurd returned (by
                dsimp only
                cases stoll bidPx <;> cases stoll bidQty <;> cases stoll askPx <;>
                  cases stoll askQty <;> simp [bind, Except.bind])
      · rename_i other
        left
        intro fields count quote
        match fields, count with
        | [sequence, symbol, bidPx, bidQty, askPx, askQty], _ =>
            exact other _ _ _ _ _ _ _ quote
  · rintro (early | grammatical)
    · refine ⟨none, refused_early early symbolId sendTsNs recvTsNs, ?_⟩
      refine iff_of_false (by simp) fun grammatical => ?_
      obtain ⟨md, taken⟩ := grammatical.taken symbolId sendTsNs recvTsNs
      rw [refused_early early] at taken
      cases taken
    · obtain ⟨md, taken⟩ := grammatical.taken symbolId sendTsNs recvTsNs
      exact ⟨some md, taken, iff_of_true (by simp) grammatical⟩

/-- An empty price throws. -/
theorem empty_price_throws :
    ¬ ∀ (line : List UInt8) (symbolId : SymbolId) (sendTsNs recvTsNs : TimestampNs),
      ∃ result, normalizeSimulatedItchQuote line symbolId sendTsNs recvTsNs = .ok result ∧
        (result ≠ none ↔ ItchLine line) := by
  intro total
  obtain ⟨result, returned, -⟩ := total (ascii "Q|1001|AAPL||100|18926|200") 4 0 0
  have thrown : normalizeSimulatedItchQuote (ascii "Q|1001|AAPL||100|18926|200") 4 0 0 =
      .error .invalidArgument := rfl
  rw [thrown] at returned
  cases returned

end TradingPlatform
