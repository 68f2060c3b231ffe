import TradingPlatform.Library.Decimal
import TradingPlatform.MultiVenueRouter

set_option autoImplicit false

/- The common end of the venue normalizers. -/
namespace TradingPlatform

/-- The numbers of the venues, which also serve as node ids. -/
def MarketDataVenue.code : MarketDataVenue → NodeId
  | .binance => 1
  | .coinbase => 2
  | .polygon => 3
  | .hyperliquid => 4
  | .simulatedItch => 5

theorem MarketDataVenue.code_injective : Function.Injective MarketDataVenue.code := by
  intro first second same
  cases first <;> cases second <;> first | rfl | exact absurd same (by decide)

/-- `Symbol{text}`: at most fifteen bytes of the text, padded with zeros. -/
def Symbol.ofText (text : List UInt8) : Symbol where
  value := Vector.ofFn fun i : Fin 16 => (text.take 15).getD i 0

/-- `Symbol::str`, the bytes up to the terminator. -/
def Symbol.str (symbol : Symbol) : List UInt8 := symbol.value.toList.takeWhile (· ≠ 0)

theorem Symbol.toList_ofText (text : List UInt8) :
    (Symbol.ofText text).value.toList =
      text.take 15 ++ List.replicate (16 - (text.take 15).length) 0 := by
  have count : (text.take 15).length ≤ 15 := List.length_take_le ..
  apply List.ext_getElem
  · rw [Vector.length_toList, List.length_append, List.length_replicate]
    omega
  · intro index inside _
    rw [Vector.length_toList] at inside
    rw [Vector.getElem_toList]
    simp only [Symbol.ofText, Vector.getElem_ofFn, List.getD_eq_getElem?_getD]
    by_cases front : index < (text.take 15).length
    · rw [List.getElem_append_left front, List.getElem?_eq_getElem front, Option.getD_some]
    · rw [List.getElem_append_right (by omega), List.getElem?_eq_none (by omega),
        List.getElem_replicate, Option.getD_none]

theorem Symbol.str_ofText (text : List UInt8) (short : text.length ≤ 15) (terminated : 0 ∉ text) :
    (Symbol.ofText text).str = text := by
  have count : 16 - text.length = 15 - text.length + 1 := by omega
  have all : ∀ unit ∈ text, decide (unit ≠ 0) = true :=
    fun unit member => decide_eq_true fun zero => terminated (zero ▸ member)
  rw [Symbol.str, Symbol.toList_ofText, List.take_of_length_le short,
    List.takeWhile_append_of_pos all, count, List.replicate_succ, List.takeWhile_cons_of_neg (by simp),
    List.append_nil]

/-- What follows the digits is not looked at. -/
def parseSequence (value : List UInt8) : Option Sequence := Decimal.fromChars (2 ^ 64) value

/-- The last two arguments are the two readings of the clock. -/
def makeUpdate (venue : MarketDataVenue) (symbolId : SymbolId) (symbol : List UInt8)
    (bidPx : Price) (bidQty : Quantity) (askPx : Price) (askQty : Quantity)
    (exchangeSequence : Sequence) (sendTsNs recvTsNs : TimestampNs) : MarketDataUpdate where
  header := {
    type := .marketData
    sourceNode := venue.code
    destinationNode := 2
    sequence := exchangeSequence
    sendTsNs := sendTsNs
    recvTsNs := recvTsNs }
  symbolId := symbolId
  symbol := Symbol.ofText symbol
  bidPx := bidPx
  bidQty := bidQty
  askPx := askPx
  askQty := askQty
  exchangeSequence := exchangeSequence

/-- What a normalizer of any venue returns, whatever fields it has extracted. -/
def Normalized (md : NormalizedMarketData) : Prop :=
  ∃ symbolId symbol bidPx bidQty askPx askQty exchangeSequence sendTsNs recvTsNs,
    md.update = makeUpdate md.venue symbolId symbol bidPx bidQty askPx askQty exchangeSequence
      sendTsNs recvTsNs

theorem Normalized.sourceNode (md : NormalizedMarketData) (built : Normalized md) :
    md.update.header.sourceNode = md.venue.code := by
  obtain ⟨_, _, _, _, _, _, _, _, _, update⟩ := built
  rw [update, makeUpdate]

end TradingPlatform
