import TradingPlatform.Library.Transducer
import TradingPlatform.OrderBook

set_option autoImplicit false

namespace TradingPlatform

structure StrategyEngine where
  nodeId : NodeId
  book : TopOfBook := {}
  signalSequence : Sequence := 0
  deriving DecidableEq, Repr

namespace StrategyEngine

/-- `now` is the reading of `now_ns()`, taken only when a signal is built. -/
def onMarketData (engine : StrategyEngine) (update : MarketDataUpdate) (now : TimestampNs) :
    StrategyEngine × Option Signal :=
  let engine := { engine with book := engine.book.apply update }
  match engine.book.snapshot with
  | none => (engine, none)
  | some tob =>
      let spread := tob.askPx - tob.bidPx
      if spread ≤ 0 then
        (engine, none)
      else if spread ≥ 4 then
        let sequence := engine.signalSequence + 1
        ({ engine with signalSequence := sequence },
          some {
            header := {
              type := .signal
              sourceNode := engine.nodeId
              destinationNode := 3
              sequence := sequence
              sendTsNs := now }
            symbolId := tob.symbolId
            side := .buy
            limitPx := tob.bidPx + 1
            qty := 1
            confidenceBps := 7500 })
      else
        (engine, none)

end StrategyEngine

/-- The quote is wide enough to trade on; the difference is the machine's. -/
def MarketDataUpdate.Wide (tob : MarketDataUpdate) : Prop :=
  4 ≤ tob.askPx - tob.bidPx

instance (tob : MarketDataUpdate) : Decidable tob.Wide :=
  inferInstanceAs (Decidable (4 ≤ tob.askPx - tob.bidPx))

/-- The quote the engine would trade on, if the book shows one. -/
def TopOfBook.tradable (book : TopOfBook) : Option MarketDataUpdate :=
  book.snapshot.filter (fun tob => tob.Wide)

namespace StrategyEngine

/-- The signal built for a tradable quote. -/
def signalFor (engine : StrategyEngine) (tob : MarketDataUpdate) (now : TimestampNs) : Signal where
  header := {
    type := .signal
    sourceNode := engine.nodeId
    destinationNode := 3
    sequence := engine.signalSequence + 1
    sendTsNs := now }
  symbolId := tob.symbolId
  side := .buy
  limitPx := tob.bidPx + 1
  qty := 1
  confidenceBps := 7500

theorem onMarketData_quiet (engine : StrategyEngine) (update : MarketDataUpdate)
    (now : TimestampNs) (quiet : (engine.book.apply update).tradable = none) :
    engine.onMarketData update now = ({ engine with book := engine.book.apply update }, none) := by
  unfold TopOfBook.tradable at quiet
  unfold onMarketData
  cases shown : (engine.book.apply update).snapshot with
  | none => simp only [shown]
  | some tob =>
      have narrow : ¬ tob.Wide := by
        intro wide
        simp [shown, wide] at quiet
      change ¬ (4 ≤ tob.askPx - tob.bidPx) at narrow
      simp [shown, narrow]

theorem onMarketData_trade (engine : StrategyEngine) (update : MarketDataUpdate)
    (now : TimestampNs) (tob : MarketDataUpdate)
    (trade : (engine.book.apply update).tradable = some tob) :
    engine.onMarketData update now =
      ({ engine with
          book := engine.book.apply update
          signalSequence := engine.signalSequence + 1 },
        some (engine.signalFor tob now)) := by
  unfold TopOfBook.tradable at trade
  obtain ⟨shown, wide⟩ := Option.filter_eq_some_iff.mp trade
  have wide : (4 : Int64) ≤ tob.askPx - tob.bidPx := of_decide_eq_true wide
  have positive : ¬ (tob.askPx - tob.bidPx ≤ 0) := by
    rw [Int64.le_iff_toInt_le] at wide ⊢
    have four : (4 : Int64).toInt = 4 := by decide
    have zero : (0 : Int64).toInt = 0 := by decide
    omega
  simp [onMarketData, shown, wide, positive, signalFor]

@[simp] theorem onMarketData_book (engine : StrategyEngine) (update : MarketDataUpdate)
    (now : TimestampNs) :
    (engine.onMarketData update now).1.book = engine.book.apply update := by
  cases trade : (engine.book.apply update).tradable with
  | none => rw [onMarketData_quiet engine update now trade]
  | some tob => rw [onMarketData_trade engine update now tob trade]

/-- The engine as a stage of a pipeline: an update and the clock reading made
on its behalf, at most one signal out. -/
def stage (engine : StrategyEngine) (input : MarketDataUpdate × TimestampNs) :
    StrategyEngine × List Signal :=
  let result := engine.onMarketData input.1 input.2
  (result.1, result.2.toList)

/-- The stage with the clock erased. -/
def untimedStage (engine : StrategyEngine) (update : MarketDataUpdate) :
    StrategyEngine × List Signal :=
  engine.stage (update, 0)

/-- Clock readings reach the signal's header and nothing else. -/
theorem stage_untimed (engine : StrategyEngine) (update : MarketDataUpdate) (now : TimestampNs) :
    (engine.stage (update, now)).1 = (engine.untimedStage update).1 ∧
      (engine.stage (update, now)).2.map Signal.untimed = (engine.untimedStage update).2 := by
  unfold untimedStage stage
  cases trade : (engine.book.apply update).tradable with
  | none => simp [onMarketData_quiet _ _ _ trade]
  | some tob =>
      simp [onMarketData_trade _ _ _ tob trade, signalFor, Signal.untimed, MessageHeader.untimed]

theorem untimedStage_quiet (engine : StrategyEngine) (update : MarketDataUpdate)
    (quiet : (engine.book.apply update).tradable = none) :
    engine.untimedStage update = ({ engine with book := engine.book.apply update }, []) := by
  simp [untimedStage, stage, onMarketData_quiet engine update 0 quiet]

theorem untimedStage_book (engine : StrategyEngine) (update : MarketDataUpdate) :
    (engine.untimedStage update).1.book = engine.book.apply update := by
  simp [untimedStage, stage]

theorem untimedStage_length (engine : StrategyEngine) (update : MarketDataUpdate) :
    (engine.untimedStage update).2.length =
      if (engine.book.apply update).tradable = none then 0 else 1 := by
  cases trade : (engine.book.apply update).tradable with
  | none => simp [untimedStage_quiet engine update trade]
  | some tob => simp [untimedStage, stage, onMarketData_trade engine update 0 tob trade]

/-- Attach to each update the clock reading made while it is handled. -/
def timed (clock : Nat → TimestampNs) (updates : List MarketDataUpdate) :
    List (MarketDataUpdate × TimestampNs) :=
  updates.zipIdx.map fun entry => (entry.1, clock entry.2)

@[simp] theorem timed_updates (clock : Nat → TimestampNs) (updates : List MarketDataUpdate) :
    (timed clock updates).map Prod.fst = updates := by
  simp only [timed, List.map_map]
  exact List.zipIdx_map_fst ..

/-- The signals of a fresh engine. -/
def signals (nodeId : NodeId) (clock : Nat → TimestampNs) (updates : List MarketDataUpdate) :
    List Signal :=
  Transducer.emitted stage { nodeId } (timed clock updates)

/-- The clock decides nothing: states agree, signals agree up to timestamps. -/
theorem stage_erased (engine : StrategyEngine) (feed : List (MarketDataUpdate × TimestampNs)) :
    Transducer.after stage engine feed =
        Transducer.after untimedStage engine (feed.map Prod.fst) ∧
      (Transducer.emitted stage engine feed).map Signal.untimed =
        Transducer.emitted untimedStage engine (feed.map Prod.fst) :=
  Transducer.erasure stage untimedStage Prod.fst Signal.untimed
    (fun engine input => stage_untimed engine input.1 input.2) engine feed

theorem signals_untimed (nodeId : NodeId) (clock : Nat → TimestampNs)
    (updates : List MarketDataUpdate) :
    (signals nodeId clock updates).map Signal.untimed =
      Transducer.emitted untimedStage { nodeId } updates := by
  rw [signals, (stage_erased _ _).2, timed_updates]

end StrategyEngine
end TradingPlatform
