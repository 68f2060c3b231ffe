import TradingPlatform.VenueNormalizers

set_option autoImplicit false

/- The live connectors: the loop over the text frames of a venue's websocket. -/
namespace TradingPlatform

open Decimal

/-- A frame that a read delivers, and the clock when it is normalized. -/
structure Frame where
  raw : List UInt8
  sendTsNs : TimestampNs := 0
  recvTsNs : TimestampNs := 0
  deriving DecidableEq, Repr

/-- What the websocket does: whether it connects and takes the subscription, and
the frames until a read fails. -/
structure WssClient where
  connects : Bool := true
  writes : Bool := true
  frames : List Frame
  deriving DecidableEq, Repr

/-- What the three connectors differ in. -/
structure LiveConnector where
  host : List UInt8
  port : List UInt8 := ascii "443"
  target : List UInt8
  /-- The message that is sent before the first read. -/
  subscribe : Option (List UInt8)
  normalizer : JsonNormalizer
  deriving DecidableEq, Repr

def binanceLiveBookTicker (symbolLower : List UInt8) : LiveConnector where
  host := ascii "data-stream.binance.vision"
  target := ascii "/ws/" ++ symbolLower ++ ascii "@bookTicker"
  subscribe := none
  normalizer := .binanceBookTicker

def coinbaseLiveTicker (productId : List UInt8) : LiveConnector where
  host := ascii "ws-feed.exchange.coinbase.com"
  target := ascii "/"
  subscribe := some (ascii "\x7b\"type\":\"subscribe\",\"product_ids\":[\"" ++ productId ++
    ascii "\"],\"channels\":[\"ticker\"]\x7d")
  normalizer := .coinbaseTicker

def hyperliquidLiveL2Book (coin : List UInt8) : LiveConnector where
  host := ascii "api.hyperliquid.xyz"
  target := ascii "/ws"
  subscribe := some (ascii "\x7b\"method\":\"subscribe\"," ++
    ascii "\"subscription\":\x7b\"type\":\"l2Book\",\"coin\":\"" ++ coin ++
    ascii "\"\x7d\x7d")
  normalizer := .hyperliquidL2Book

namespace LiveConnector

variable {σ : Type} (connector : LiveConnector)

def normalize (symbolId : SymbolId) (frame : Frame) : Option NormalizedMarketData :=
  connector.normalizer.run frame.raw symbolId frame.sendTsNs frame.recvTsNs

/-- The loop, with the state that the callback changes and the number of updates
received. A read that fails ends it. -/
def loop (symbolId : SymbolId) (maxUpdates : Nat) (callback : σ → NormalizedMarketData → σ) :
    σ → Nat → List Frame → σ × Nat
  | state, received, [] => (state, received)
  | state, received, frame :: frames =>
      if maxUpdates = 0 ∨ received < maxUpdates then
        match connector.normalize symbolId frame with
        | none => loop symbolId maxUpdates callback state received frames
        | some md => loop symbolId maxUpdates callback (callback state md) (received + 1) frames
      else (state, received)

/-- The connection gets as far as the loop. -/
def opens (client : WssClient) : Bool :=
  client.connects && (connector.subscribe.isNone || client.writes)

def run (client : WssClient) (symbolId : SymbolId) (maxUpdates : Nat)
    (callback : σ → NormalizedMarketData → σ) (state : σ) : σ × Bool :=
  if !connector.opens client then (state, false)
  else
    let (state, received) := connector.loop symbolId maxUpdates callback state 0 client.frames
    (state, decide (received > 0))

/-- The updates of some frames, in their order. -/
def updates (symbolId : SymbolId) (frames : List Frame) : List NormalizedMarketData :=
  frames.filterMap (connector.normalize symbolId)

/-- The updates that a call hands to its callback. -/
def handed (client : WssClient) (symbolId : SymbolId) (maxUpdates : Nat) :
    List NormalizedMarketData :=
  if !connector.opens client then []
  else
    let updates := connector.updates symbolId client.frames
    if maxUpdates = 0 then updates else updates.take maxUpdates

section Loop

variable (symbolId : SymbolId) (maxUpdates : Nat) (callback : σ → NormalizedMarketData → σ)

theorem loop_unbounded (state : σ) (received : Nat) (frames : List Frame) :
    connector.loop symbolId 0 callback state received frames =
      ((connector.updates symbolId frames).foldl callback state,
        received + (connector.updates symbolId frames).length) := by
  induction frames generalizing state received with
  | nil => rfl
  | cons frame frames ih =>
      rw [loop, if_pos (Or.inl rfl), updates, List.filterMap_cons]
      cases normalized : connector.normalize symbolId frame with
      | none => exact ih state received
      | some md =>
          dsimp only
          rw [ih, List.foldl_cons, List.length_cons, updates]
          congr 1
          omega

theorem loop_bounded (state : σ) (received : Nat) (frames : List Frame)
    (positive : maxUpdates ≠ 0) :
    connector.loop symbolId maxUpdates callback state received frames =
      (((connector.updates symbolId frames).take (maxUpdates - received)).foldl callback state,
        received + ((connector.updates symbolId frames).take (maxUpdates - received)).length) := by
  induction frames generalizing state received with
  | nil => simp [loop, updates]
  | cons frame frames ih =>
      rw [loop]
      by_cases more : received < maxUpdates
      · rw [if_pos (Or.inr more), updates, List.filterMap_cons]
        cases normalized : connector.normalize symbolId frame with
        | none => exact ih state received
        | some md =>
            obtain ⟨left, split⟩ : ∃ left, maxUpdates - received = left + 1 :=
              ⟨maxUpdates - received - 1, by omega⟩
            have next : maxUpdates - (received + 1) = left := by omega
            dsimp only
            rw [ih, next, split, List.take_succ_cons, List.foldl_cons, List.length_cons, updates]
            congr 1
            omega
      · rw [if_neg (by omega), Nat.sub_eq_zero_of_le (by omega)]
        rfl

/-- The call hands the first updates of the frames to its callback, as many as it
was asked for, and reports whether there was one. -/
theorem run_handed (client : WssClient) (state : σ) :
    connector.run client symbolId maxUpdates callback state =
      ((connector.handed client symbolId maxUpdates).foldl callback state,
        !(connector.handed client symbolId maxUpdates).isEmpty) := by
  have some_iff : ∀ list : List NormalizedMarketData,
      decide (list.length > 0) = !list.isEmpty := by
    intro list
    cases list <;> simp
  unfold run handed
  cases opens : connector.opens client with
  | false => rfl
  | true =>
      by_cases unbounded : maxUpdates = 0
      · simp [unbounded, loop_unbounded, some_iff]
      · have looped := connector.loop_bounded symbolId maxUpdates callback state 0 client.frames
          unbounded
        rw [Nat.sub_zero, Nat.zero_add] at looped
        simp only [looped, if_neg unbounded, some_iff, Bool.not_true, Bool.false_eq_true,
          ↓reduceIte]

end Loop

end LiveConnector

/-- A message that is no ticker, then one wide enough to trade on. -/
def tickerBehindNoise : WssClient where
  frames :=
    [{ raw := ascii "\x7b\"result\":null\x7d" },
      { raw := ascii "\x7b\"u\":7,\"s\":\"ABC\",\"b\":\"100.00\",\"B\":\"1\"," ++
          ascii "\"a\":\"100.05\",\"A\":\"1\"\x7d" }]

/-- A later ticker of the same symbol, at other prices. -/
def laterTicker : Frame where
  raw := ascii "\x7b\"u\":8,\"s\":\"ABC\",\"b\":\"100.02\",\"B\":\"3\"," ++
    ascii "\"a\":\"100.04\",\"A\":\"2\"\x7d"

/-- Two tickers that differ, with a message between them that is none. -/
def twoTickers : WssClient where
  frames := tickerBehindNoise.frames.reverse ++ [laterTicker]

end TradingPlatform
