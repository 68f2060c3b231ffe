import TradingPlatform.JsonFields
import TradingPlatform.MarketDataAdapter
import TradingPlatform.NumberParsing

set_option autoImplicit false

/- The normalizers of the venues whose quotes are flat JSON objects. -/
namespace TradingPlatform

open Decimal

/-- One text for each part of a quote. -/
structure QuoteFields where
  symbol : List UInt8
  sequence : List UInt8
  bidPx : List UInt8
  bidQty : List UInt8
  askPx : List UInt8
  askQty : List UInt8
  deriving DecidableEq, Repr

namespace QuoteFields

/-- All six fields, each from its key. -/
def gather (keys : QuoteFields) (string number level : List UInt8 → Option (List UInt8)) :
    Option QuoteFields := do
  let symbol ← string keys.symbol
  let sequence ← number keys.sequence
  let bidPx ← level keys.bidPx
  let bidQty ← level keys.bidQty
  let askPx ← level keys.askPx
  let askQty ← level keys.askQty
  return { symbol, sequence, bidPx, bidQty, askPx, askQty }

/-- The common end: only the sequence can still be refused. -/
def normalize (venue : MarketDataVenue) (symbolId : SymbolId) (sendTsNs recvTsNs : TimestampNs)
    (texts : QuoteFields) : Option NormalizedMarketData :=
  (parseSequence texts.sequence).map fun sequence => {
    venue := venue
    update := makeUpdate venue symbolId texts.symbol (parsePriceToTicks texts.bidPx)
      (parseQuantityToUnits texts.bidQty) (parsePriceToTicks texts.askPx)
      (parseQuantityToUnits texts.askQty) sequence sendTsNs recvTsNs }

def levels (keys : QuoteFields) : List (List UInt8) :=
  [keys.bidPx, keys.bidQty, keys.askPx, keys.askQty]

/-- The fields depend on what is read at the six keys only. -/
theorem gather_congr (keys : QuoteFields)
    {string number level string' number' level' : List UInt8 → Option (List UInt8)}
    (symbol : string keys.symbol = string' keys.symbol)
    (sequence : number keys.sequence = number' keys.sequence)
    (levels : ∀ key ∈ keys.levels, level key = level' key) :
    keys.gather string number level = keys.gather string' number' level' := by
  simp only [QuoteFields.levels, List.forall_mem_cons] at levels
  obtain ⟨bidPx, bidQty, askPx, askQty, -⟩ := levels
  simp only [gather, symbol, sequence, bidPx, bidQty, askPx, askQty]

theorem gather_sequence {keys : QuoteFields}
    {string number level : List UInt8 → Option (List UInt8)} {texts : QuoteFields}
    (gathered : keys.gather string number level = some texts) :
    number keys.sequence = some texts.sequence := by
  simp only [gather, Option.bind_eq_bind, Option.bind_eq_some_iff] at gathered
  obtain ⟨_, -, sequence, found, _, -, _, -, _, -, _, -, same⟩ := gathered
  rw [← Option.some.inj same]
  exact found

end QuoteFields

/-- What a venue's prices and quantities are in JSON. -/
inductive LevelKind where
  | string
  | number
  deriving DecidableEq, Repr

def LevelKind.extract : LevelKind → List UInt8 → List UInt8 → Option (List UInt8)
  | .string => extractJsonString
  | .number => extractJsonNumberAsString

/-- In what the flat formats differ. -/
structure TickerFormat where
  venue : MarketDataVenue
  levels : LevelKind
  keys : QuoteFields

namespace TickerFormat

def texts (format : TickerFormat) (raw : List UInt8) : Option QuoteFields :=
  format.keys.gather (extractJsonString raw) (extractJsonNumberAsString raw)
    (format.levels.extract raw)

def normalize (format : TickerFormat) (raw : List UInt8) (symbolId : SymbolId)
    (sendTsNs recvTsNs : TimestampNs) : Option NormalizedMarketData :=
  (format.texts raw).bind (QuoteFields.normalize format.venue symbolId sendTsNs recvTsNs)

end TickerFormat

def binanceBookTicker : TickerFormat where
  venue := .binance
  levels := .string
  keys := {
    symbol := ascii "s"
    sequence := ascii "u"
    bidPx := ascii "b"
    bidQty := ascii "B"
    askPx := ascii "a"
    askQty := ascii "A" }

def coinbaseTicker : TickerFormat where
  venue := .coinbase
  levels := .string
  keys := {
    symbol := ascii "product_id"
    sequence := ascii "sequence"
    bidPx := ascii "best_bid"
    bidQty := ascii "best_bid_size"
    askPx := ascii "best_ask"
    askQty := ascii "best_ask_size" }

def polygonQuote : TickerFormat where
  venue := .polygon
  levels := .number
  keys := {
    symbol := ascii "sym"
    sequence := ascii "q"
    bidPx := ascii "bp"
    bidQty := ascii "bs"
    askPx := ascii "ap"
    askQty := ascii "as" }

def normalizeBinanceBookTicker (rawJson : List UInt8) (symbolId : SymbolId)
    (sendTsNs recvTsNs : TimestampNs) : Option NormalizedMarketData :=
  binanceBookTicker.normalize rawJson symbolId sendTsNs recvTsNs

def normalizeCoinbaseTicker (rawJson : List UInt8) (symbolId : SymbolId)
    (sendTsNs recvTsNs : TimestampNs) : Option NormalizedMarketData :=
  coinbaseTicker.normalize rawJson symbolId sendTsNs recvTsNs

def normalizePolygonQuote (rawJson : List UInt8) (symbolId : SymbolId)
    (sendTsNs recvTsNs : TimestampNs) : Option NormalizedMarketData :=
  polygonQuote.normalize rawJson symbolId sendTsNs recvTsNs

/-! ### What a flat object binds -/

section FlatObject

open FlatJson

/-- The number that a key is bound to, without its exponent. -/
def ownMantissa (object : Object) (key : List UInt8) : Option (List UInt8) :=
  (object.number key).map fun number => number.mantissa.text

def LevelKind.own : LevelKind → Object → List UInt8 → Option (List UInt8)
  | .string => Object.string
  | .number => ownMantissa

namespace TickerFormat

/-- The texts bound to the six keys; none if one is missing or of another kind. -/
def own (format : TickerFormat) (object : Object) : Option QuoteFields :=
  format.keys.gather object.string (ownMantissa object) (format.levels.own object)

/-- The keys whose values are read as strings. -/
def stringKeys (format : TickerFormat) : List (List UInt8) :=
  match format.levels with
  | .string => format.keys.symbol :: format.keys.levels
  | .number => [format.keys.symbol]

/-- Nothing hides one of the six keys, and where a string should be, another value
has no field behind it. -/
structure Readable (format : TickerFormat) (object : Object) : Prop where
  unshadowed : ∀ key ∈ format.keys.symbol :: format.keys.sequence :: format.keys.levels,
    object.Unshadowed key
  strings : ∀ key ∈ format.stringKeys, object.StringOrLast key

variable {format : TickerFormat} {object : Object}

theorem texts_own (readable : format.Readable object) :
    format.texts object.text = format.own object := by
  have unshadowed := readable.unshadowed
  have strings := readable.strings
  simp only [List.forall_mem_cons] at unshadowed
  obtain ⟨symbolSeen, sequenceSeen, levelsSeen⟩ := unshadowed
  have symbolKey : format.keys.symbol ∈ format.stringKeys := by
    unfold stringKeys
    split <;> exact List.mem_cons_self ..
  apply QuoteFields.gather_congr
  · exact extractJsonString_own symbolSeen (strings _ symbolKey)
  · exact extractJsonNumberAsString_own sequenceSeen
  · intro key member
    cases kind : format.levels with
    | string =>
        have stringKey : key ∈ format.stringKeys := by
          rw [stringKeys, kind]
          exact List.mem_cons_of_mem _ member
        exact extractJsonString_own (levelsSeen key member) (strings key stringKey)
    | number => exact extractJsonNumberAsString_own (levelsSeen key member)

/-- A quote is normalized from its own fields. -/
theorem normalize_own (readable : format.Readable object) (symbolId : SymbolId)
    (sendTsNs recvTsNs : TimestampNs) :
    format.normalize object.text symbolId sendTsNs recvTsNs =
      (format.own object).bind
        (QuoteFields.normalize format.venue symbolId sendTsNs recvTsNs) := by
  rw [normalize, texts_own readable]

end TickerFormat

/-- In any flat object a field is read from its own key and no other, unless its
key is hidden, a value that is no string stands in a string's place with fields
behind it, or a number has an exponent, which is left out. -/
theorem flat_object_read (object : Object) (symbolId : SymbolId)
    (sendTsNs recvTsNs : TimestampNs) :
    (∀ key, object.Unshadowed key →
      extractJsonNumberAsString object.text key = ownMantissa object key ∧
      (object.StringOrLast key → extractJsonString object.text key = object.string key)) ∧
    (binanceBookTicker.Readable object →
      normalizeBinanceBookTicker object.text symbolId sendTsNs recvTsNs =
        (binanceBookTicker.own object).bind
          (QuoteFields.normalize .binance symbolId sendTsNs recvTsNs)) ∧
    (coinbaseTicker.Readable object →
      normalizeCoinbaseTicker object.text symbolId sendTsNs recvTsNs =
        (coinbaseTicker.own object).bind
          (QuoteFields.normalize .coinbase symbolId sendTsNs recvTsNs)) ∧
    (polygonQuote.Readable object →
      normalizePolygonQuote object.text symbolId sendTsNs recvTsNs =
        (polygonQuote.own object).bind
          (QuoteFields.normalize .polygon symbolId sendTsNs recvTsNs)) := by
  refine ⟨fun key unshadowed => ?_, ?_, ?_, ?_⟩
  · exact ⟨extractJsonNumberAsString_own unshadowed, extractJsonString_own unshadowed⟩
  · exact fun readable => TickerFormat.normalize_own readable symbolId sendTsNs recvTsNs
  · exact fun readable => TickerFormat.normalize_own readable symbolId sendTsNs recvTsNs
  · exact fun readable => TickerFormat.normalize_own readable symbolId sendTsNs recvTsNs

/-- The sample of the adapter's demonstration program. -/
def binanceSample : Object where
  fields := [
    { key := ⟨ascii "u", by decide⟩,
      value := .number ⟨.integer (ascii "400900217") (by decide) (by decide), none⟩ },
    { key := ⟨ascii "s", by decide⟩, value := .string ⟨ascii "BTCUSDT", by decide⟩ },
    { key := ⟨ascii "b", by decide⟩, value := .string ⟨ascii "64250.12", by decide⟩ },
    { key := ⟨ascii "B", by decide⟩, value := .string ⟨ascii "3.5", by decide⟩ },
    { key := ⟨ascii "a", by decide⟩, value := .string ⟨ascii "64250.13", by decide⟩ },
    { key := ⟨ascii "A", by decide⟩, value := .string ⟨ascii "2.1", by decide⟩ }]
  distinct := by decide

theorem binanceSample_readable : binanceBookTicker.Readable binanceSample where
  unshadowed := by
    intro key member
    have apart : ∀ key ∈ binanceBookTicker.keys.symbol :: binanceBookTicker.keys.sequence ::
        binanceBookTicker.keys.levels, quote ∉ key ∧ key ≠ [] ∧
          (∀ first ∈ key.head?, first ∉ blanks ++ [colon, comma, closing]) ∧
          key ∉ binanceSample.strings := by decide +kernel
    obtain ⟨clean, some, solid, absent⟩ := apart key member
    exact Object.unshadowed_of_apart _ key clean some solid absent
  strings := by
    intro key member
    have bound : ∀ key ∈ binanceBookTicker.stringKeys, (binanceSample.string key).isSome = true := by
      decide +kernel
    obtain ⟨contents, string⟩ := Option.isSome_iff_exists.mp (bound key member)
    exact Object.stringOrLast_of_string string

theorem flat_object_read_binanceSample :
    normalizeBinanceBookTicker binanceSample.text 1 0 0 =
      some {
        venue := .binance
        update := makeUpdate .binance 1 (ascii "BTCUSDT") 6425012 3500000 6425013 2100000 400900217
          0 0 } :=
  ((flat_object_read binanceSample 1 0 0).2.1 binanceSample_readable).trans (by decide +kernel)

def nullSymbol : Object where
  fields := [
    { key := ⟨ascii "s", by decide⟩, value := .null },
    { key := ⟨ascii "b", by decide⟩, value := .string ⟨ascii "1", by decide⟩ }]
  distinct := by decide

def hiddenSymbol : Object where
  fields := [
    { key := ⟨ascii "x", by decide⟩, value := .string ⟨ascii "s", by decide⟩ },
    { key := ⟨ascii "y", by decide⟩, value := .string ⟨ascii "2", by decide⟩ },
    { key := ⟨ascii "s", by decide⟩, value := .string ⟨ascii "1", by decide⟩ }]
  distinct := by decide

def powerOfTen : Object where
  fields := [
    { key := ⟨ascii "u", by decide⟩,
      value := .number ⟨.integer (ascii "1") (by decide) (by decide),
        some ⟨false, none, ascii "5", by decide, by decide⟩⟩ }]
  distinct := by decide

/-- A null gives the next field's key, a value equal to the key gives another
field's value, and an exponent is cut off. -/
theorem extractors_misread :
    (nullSymbol.text = ascii "\x7b\"s\":null,\"b\":\"1\"\x7d" ∧
      extractJsonString nullSymbol.text (ascii "s") = some (ascii "b") ∧
      nullSymbol.string (ascii "s") = none) ∧
    (hiddenSymbol.text = ascii "\x7b\"x\":\"s\",\"y\":\"2\",\"s\":\"1\"\x7d" ∧
      extractJsonString hiddenSymbol.text (ascii "s") = some (ascii "2") ∧
      hiddenSymbol.string (ascii "s") = some (ascii "1")) ∧
    (powerOfTen.text = ascii "\x7b\"u\":1e5\x7d" ∧
      extractJsonNumberAsString powerOfTen.text (ascii "u") = some (ascii "1") ∧
      (powerOfTen.number (ascii "u")).map Number.text = some (ascii "1e5")) := by
  refine ⟨⟨?_, ?_, ?_⟩, ⟨?_, ?_, ?_⟩, ?_, ?_, ?_⟩ <;> decide +kernel

end FlatObject

end TradingPlatform
