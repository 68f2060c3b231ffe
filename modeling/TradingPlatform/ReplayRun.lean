import TradingPlatform.Pipeline
import TradingPlatform.ReplayLog

set_option autoImplicit false

/- The offline replay: each recorded update goes through strategy, order manager
and simulated gateway before the next one is read. -/
namespace TradingPlatform

open Transducer

structure ReplayStats where
  eventsRead : Nat := 0
  marketDataEvents : Nat := 0
  signalsGenerated : Nat := 0
  ordersGenerated : Nat := 0
  acksGenerated : Nat := 0
  rejectsGenerated : Nat := 0
  deriving DecidableEq, Repr

structure ReplayRun where
  strategy : StrategyEngine := { nodeId := 2 }
  oms : OrderManager :=
    .new 3 { maxPosition := 10, maxOrderQty := 2, maxNotional := 100000000 }
  gateway : ExchangeGateway := { nodeId := 4 }
  stats : ReplayStats := {}

namespace ReplayRun

open Pipeline (Output signalsOf ordersOf signalsOf_append ordersOf_append)

/-- One pass of the loop: the state after it, and what it has produced. -/
def step (run : ReplayRun) (input : ReplayEvent × TurnClock) : ReplayRun × List Output :=
  let (event, clock) := input
  let stats := { run.stats with eventsRead := run.stats.eventsRead + 1 }
  match event.envelope with
  | .marketData update =>
      let stats := { stats with marketDataEvents := stats.marketDataEvents + 1 }
      match run.strategy.onMarketData update clock.strategy with
      | (strategy, none) => ({ run with strategy, stats }, [])
      | (strategy, some signal) =>
          let stats := { stats with signalsGenerated := stats.signalsGenerated + 1 }
          match run.oms.onSignal signal clock.order clock.reject with
          | (oms, some (.newOrder order)) =>
              let stats := { stats with ordersGenerated := stats.ordersGenerated + 1 }
              match run.gateway.sendOrder order clock.gateway with
              | (gateway, some (.ack ack)) =>
                  let stats := { stats with acksGenerated := stats.acksGenerated + 1 }
                  ({ strategy, oms := (oms.onGatewayAck ack).1, gateway, stats },
                    [.signal signal, .order order, .answer (.ack ack), .settled (.ack ack)])
              | (gateway, some (.reject reject)) =>
                  let stats := { stats with rejectsGenerated := stats.rejectsGenerated + 1 }
                  ({ strategy, oms := (oms.onGatewayReject reject).1, gateway, stats },
                    [.signal signal, .order order, .answer (.reject reject),
                      .settled (.reject reject)])
              | (gateway, some response) =>
                  ({ strategy, oms, gateway, stats },
                    [.signal signal, .order order, .answer response])
              | (gateway, none) =>
                  ({ strategy, oms, gateway, stats }, [.signal signal, .order order])
          | (oms, some (.reject _)) =>
              let stats := { stats with rejectsGenerated := stats.rejectsGenerated + 1 }
              ({ run with strategy, oms, stats }, [.signal signal])
          | (oms, _) => ({ run with strategy, oms, stats }, [.signal signal])
  | _ => ({ run with stats }, [])

/-- Everything produced from a replay file; `clock` are the readings made for
the successive events. -/
def outputs (log : ReplayLog) (clock : Nat → TurnClock) : List Output :=
  emitted step {} (log.read.zipIdx.map fun entry => (entry.1, clock entry.2))

def signals (log : ReplayLog) (clock : Nat → TurnClock) : List Signal :=
  signalsOf (outputs log clock)

def orders (log : ReplayLog) (clock : Nat → TurnClock) : List NewOrder :=
  ordersOf (outputs log clock)

/-! ### Replay is stage after stage -/

/-- One pass is one step of the strategy, and of the order manager if there is a
signal; the response of the gateway decides nothing. -/
theorem step_stages (run : ReplayRun) (manager : OrderManager)
    (input : ReplayEvent × TurnClock) (agrees : run.oms.Agrees manager) :
    let updates := input.1.envelope.marketData?.toList
    let signals := emitted StrategyEngine.untimedStage run.strategy updates
    (run.step input).1.strategy = after StrategyEngine.untimedStage run.strategy updates ∧
      (signalsOf (run.step input).2).map Signal.untimed = signals ∧
      (run.step input).1.oms.Agrees (after OrderManager.untimedStage manager signals) ∧
      (ordersOf (run.step input).2).map NewOrder.untimed =
        emitted OrderManager.untimedStage manager signals := by
  obtain ⟨⟨header, envelope⟩, clock⟩ := input
  cases envelope with
  | marketData update =>
      obtain ⟨engine, produced⟩ := run.strategy.stage_untimed update clock.strategy
      simp only [step, Envelope.marketData?, Option.toList_some, after_cons, after_nil,
        emitted_cons, emitted_nil, List.append_nil, ← engine, ← produced]
      cases result : run.strategy.onMarketData update clock.strategy with
      | mk strategy maybeSignal =>
          cases maybeSignal with
          | none =>
              simpa [StrategyEngine.stage, result, signalsOf, ordersOf] using agrees
          | some signal =>
              obtain ⟨final, sent⟩ :=
                agrees.stage (signal, clock.order, clock.reject)
              obtain ⟨bare, placed⟩ :=
                manager.stage_untimed signal clock.order clock.reject
              simp only [StrategyEngine.stage, result, Option.toList_some, List.map_cons,
                List.map_nil, after_cons, after_nil, emitted_cons, emitted_nil, List.append_nil,
                ← bare, ← placed, ← sent]
              by_cases accepted : run.oms.Accepts signal
              · rw [OrderManager.stage_accept _ _ _ _ accepted] at final ⊢
                rw [OrderManager.onSignal_accept _ _ _ _ accepted]
                cases available : run.gateway.available <;>
                  simp only [ExchangeGateway.sendOrder, available] <;>
                  exact ⟨rfl, rfl, final, rfl⟩
              · rw [OrderManager.stage_refuse _ _ _ _ accepted] at final ⊢
                rw [OrderManager.onSignal_refuse _ _ _ _ accepted]
                exact ⟨rfl, rfl, final, rfl⟩
  | _ => simpa [step, Envelope.marketData?, signalsOf, ordersOf] using agrees

theorem run_stages (run : ReplayRun) (manager : OrderManager)
    (feed : List (ReplayEvent × TurnClock)) (agrees : run.oms.Agrees manager) :
    let updates := feed.filterMap fun input => input.1.envelope.marketData?
    let signals := emitted StrategyEngine.untimedStage run.strategy updates
    (signalsOf (emitted step run feed)).map Signal.untimed = signals ∧
      (ordersOf (emitted step run feed)).map NewOrder.untimed =
        emitted OrderManager.untimedStage manager signals := by
  induction feed generalizing run manager with
  | nil => exact ⟨rfl, rfl⟩
  | cons input feed ih =>
      obtain ⟨engine, signals, next, orders⟩ := run.step_stages manager input agrees
      obtain ⟨laterSignals, laterOrders⟩ := ih _ _ next
      have split : (input :: feed).filterMap (fun input => input.1.envelope.marketData?) =
          input.1.envelope.marketData?.toList ++
            feed.filterMap (fun input => input.1.envelope.marketData?) := by
        cases found : input.1.envelope.marketData? <;> simp [found]
      dsimp only
      rw [split, emitted_append, emitted_append, emitted_cons, signalsOf_append, ordersOf_append,
        List.map_append, List.map_append, signals, orders, laterSignals, laterOrders, engine]
      exact ⟨rfl, rfl⟩

section File

variable (log : ReplayLog) (clock : Nat → TurnClock) (sound : log.Sound)
include sound

/-- The updates of a file, in the order in which they are read. -/
theorem feed_updates :
    (log.read.zipIdx.map fun entry => (entry.1, clock entry.2)).filterMap
        (fun input => input.1.envelope.marketData?) =
      log.envelopes.filterMap Envelope.marketData? := by
  rw [log.read_sound sound, List.filterMap_map, ReplayLog.envelopes, List.filterMap_map]
  conv_rhs => rw [← List.zipIdx_map_fst 0 log.events]
  rw [List.filterMap_map]
  rfl

theorem signals_untimed :
    (signals log clock).map Signal.untimed =
      emitted StrategyEngine.untimedStage { nodeId := 2 }
        (log.envelopes.filterMap Envelope.marketData?) := by
  rw [signals, outputs, (run_stages {} _ _ (OrderManager.Agrees.refl _)).1,
    feed_updates log clock sound]

theorem orders_untimed :
    (orders log clock).map NewOrder.untimed =
      emitted OrderManager.untimedStage
        (.new 3 { maxPosition := 10, maxOrderQty := 2, maxNotional := 100000000 })
        ((signals log clock).map Signal.untimed) := by
  rw [signals_untimed log clock sound, orders, outputs,
    (run_stages {} _ _ (OrderManager.Agrees.refl _)).2, feed_updates log clock sound]

end File

end ReplayRun
end TradingPlatform
