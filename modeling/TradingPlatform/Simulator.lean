import TradingPlatform.ThreadedRefinement

set_option autoImplicit false

/- The single-threaded simulator: for each update it drains one queue after the
other. -/
namespace TradingPlatform

open Transducer

structure Simulator (capacity : Nat) where
  bus : LocalBus capacity
  strategy : StrategyEngine := { nodeId := 2 }
  oms : OrderManager := .new 3 { maxPosition := 10, maxOrderQty := 2, maxNotional := 1000000 }
  gateway : ExchangeGateway := { nodeId := 4 }

namespace Simulator

open Pipeline (Output)

variable {capacity : Nat}

/-- A `while` loop that pops until the queue is empty; a queue never holds as
many messages as its capacity. -/
def drain (pop : Simulator capacity → Simulator capacity × Option Envelope)
    (handle : Simulator capacity → Envelope → Simulator capacity × List Output) :
    Nat → Simulator capacity → Simulator capacity × List Output
  | 0, simulator => (simulator, [])
  | fuel + 1, simulator =>
      match pop simulator with
      | (simulator, none) => (simulator, [])
      | (simulator, some message) =>
          let (simulator, outputs) := handle simulator message
          let (simulator, later) := drain pop handle fuel simulator
          (simulator, outputs ++ later)

def popQuote (simulator : Simulator capacity) : Simulator capacity × Option Envelope :=
  let (marketToStrategy, message) := simulator.bus.marketToStrategy.pop
  ({ simulator with bus := { simulator.bus with marketToStrategy } }, message)

def popSignal (simulator : Simulator capacity) : Simulator capacity × Option Envelope :=
  let (strategyToOms, message) := simulator.bus.strategyToOms.pop
  ({ simulator with bus := { simulator.bus with strategyToOms } }, message)

def popOrder (simulator : Simulator capacity) : Simulator capacity × Option Envelope :=
  let (omsToGateway, message) := simulator.bus.omsToGateway.pop
  ({ simulator with bus := { simulator.bus with omsToGateway } }, message)

def popResponse (simulator : Simulator capacity) : Simulator capacity × Option Envelope :=
  let (gatewayToOms, message) := simulator.bus.gatewayToOms.pop
  ({ simulator with bus := { simulator.bus with gatewayToOms } }, message)

/-- The loops do not look at the type of what they pop, except the last one;
only messages of the right type are ever pushed. -/
def handleQuote (now : TimestampNs) (simulator : Simulator capacity) (message : Envelope) :
    Simulator capacity × List Output :=
  match message with
  | .marketData update =>
      match simulator.strategy.onMarketData update now with
      | (strategy, none) => ({ simulator with strategy }, [])
      | (strategy, some signal) =>
          let (strategyToOms, _) := simulator.bus.strategyToOms.push (.signal signal)
          ({ simulator with strategy, bus := { simulator.bus with strategyToOms } },
            [.signal signal])
  | _ => (simulator, [])

def handleSignal (now rejectNow : TimestampNs) (simulator : Simulator capacity)
    (message : Envelope) : Simulator capacity × List Output :=
  match message with
  | .signal signal =>
      match simulator.oms.onSignal signal now rejectNow with
      | (oms, some (.newOrder order)) =>
          let (omsToGateway, _) := simulator.bus.omsToGateway.push (.newOrder order)
          ({ simulator with oms, bus := { simulator.bus with omsToGateway } }, [.order order])
      | (oms, _) => ({ simulator with oms }, [])
  | _ => (simulator, [])

def handleOrder (now : TimestampNs) (simulator : Simulator capacity) (message : Envelope) :
    Simulator capacity × List Output :=
  match message with
  | .newOrder order =>
      match simulator.gateway.sendOrder order now with
      | (gateway, none) => ({ simulator with gateway }, [])
      | (gateway, some response) =>
          let (gatewayToOms, _) := simulator.bus.gatewayToOms.push response
          ({ simulator with gateway, bus := { simulator.bus with gatewayToOms } },
            [.answer response])
  | _ => (simulator, [])

def handleResponse (simulator : Simulator capacity) (message : Envelope) :
    Simulator capacity × List Output :=
  match message with
  | .ack ack => ({ simulator with oms := (simulator.oms.onGatewayAck ack).1 }, [.settled message])
  | .reject reject =>
      ({ simulator with oms := (simulator.oms.onGatewayReject reject).1 }, [.settled message])
  | _ => (simulator, [.settled message])

/-- One pass of the outer loop. -/
def turn (simulator : Simulator capacity) (input : MarketDataUpdate × TurnClock) :
    Simulator capacity × List Output :=
  let (marketToStrategy, _) := simulator.bus.marketToStrategy.push (.marketData input.1)
  let simulator := { simulator with bus := { simulator.bus with marketToStrategy } }
  let (simulator, signals) :=
    drain popQuote (handleQuote input.2.strategy) capacity simulator
  let (simulator, orders) :=
    drain popSignal (handleSignal input.2.order input.2.reject) capacity simulator
  let (simulator, answers) := drain popOrder (handleOrder input.2.gateway) capacity simulator
  let (simulator, settled) := drain popResponse handleResponse capacity simulator
  (simulator, signals ++ orders ++ answers ++ settled)

/-! ### One turn -/

theorem drain_idle (pop : Simulator capacity → Simulator capacity × Option Envelope)
    (handle : Simulator capacity → Envelope → Simulator capacity × List Output) (fuel : Nat)
    (simulator : Simulator capacity) (idle : pop simulator = (simulator, none)) :
    drain pop handle fuel simulator = (simulator, []) := by
  cases fuel with
  | zero => rfl
  | succ fuel => simp only [drain, idle]

/-- A loop that pops one message and then finds its queue empty. -/
theorem drain_single (pop : Simulator capacity → Simulator capacity × Option Envelope)
    (handle : Simulator capacity → Envelope → Simulator capacity × List Output)
    (simulator popped handled : Simulator capacity) (message : Envelope)
    (outputs : List Output) (enough : 2 ≤ capacity)
    (first : pop simulator = (popped, some message))
    (handles : handle popped message = (handled, outputs))
    (idle : pop handled = (handled, none)) :
    drain pop handle capacity simulator = (handled, outputs) := by
  obtain ⟨fuel, rfl⟩ := Nat.exists_eq_add_of_le' enough
  simp only [drain, first, handles, idle, List.append_nil]

section Loops

variable (simulator : Simulator capacity) (enough : 2 ≤ capacity)
include enough

theorem drain_quotes (now : TimestampNs) (update : MarketDataUpdate)
    (quotes : simulator.bus.marketToStrategy.contents = [.marketData update])
    (signals : simulator.bus.strategyToOms.contents = []) :
    ∃ marketToStrategy strategyToOms,
      drain popQuote (handleQuote now) capacity simulator =
        ({ simulator with
            strategy := (simulator.strategy.stage (update, now)).1
            bus := { simulator.bus with marketToStrategy, strategyToOms } },
          (simulator.strategy.stage (update, now)).2.map .signal) ∧
      marketToStrategy.contents = [] ∧
      strategyToOms.contents =
        (simulator.strategy.stage (update, now)).2.map Envelope.signal := by
  obtain ⟨popped, pop, empty⟩ := SpscQueue.pop_single _ _ quotes
  have again := SpscQueue.pop_nil popped empty
  cases result : simulator.strategy.onMarketData update now with
  | mk engine maybeSignal =>
      cases maybeSignal with
      | none =>
          refine ⟨popped, simulator.bus.strategyToOms, ?_, empty, ?_⟩
          · refine drain_single _ _ simulator
              { simulator with bus := { simulator.bus with marketToStrategy := popped } } _
              (.marketData update) _ enough ?_ ?_ ?_
            · simp [popQuote, pop]
            · simp [handleQuote, result, StrategyEngine.stage]
            · simp [popQuote, again]
          · simp [signals, result, StrategyEngine.stage]
      | some signal =>
          obtain ⟨pushed, push, contents⟩ :=
            SpscQueue.push_empty simulator.bus.strategyToOms (.signal signal) enough signals
          refine ⟨popped, pushed, ?_, empty, ?_⟩
          · refine drain_single _ _ simulator
              { simulator with bus := { simulator.bus with marketToStrategy := popped } } _
              (.marketData update) _ enough ?_ ?_ ?_
            · simp [popQuote, pop]
            · simp [handleQuote, result, push, StrategyEngine.stage]
            · simp [popQuote, again]
          · simp [contents, result, StrategyEngine.stage]

theorem drain_signals (now rejectNow : TimestampNs) (signal : Signal)
    (signals : simulator.bus.strategyToOms.contents = [.signal signal])
    (orders : simulator.bus.omsToGateway.contents = []) :
    ∃ strategyToOms omsToGateway,
      drain popSignal (handleSignal now rejectNow) capacity simulator =
        ({ simulator with
            oms := (simulator.oms.stage (signal, now, rejectNow)).1
            bus := { simulator.bus with strategyToOms, omsToGateway } },
          (simulator.oms.stage (signal, now, rejectNow)).2.map .order) ∧
      strategyToOms.contents = [] ∧
      omsToGateway.contents =
        (simulator.oms.stage (signal, now, rejectNow)).2.map Envelope.newOrder := by
  obtain ⟨popped, pop, empty⟩ := SpscQueue.pop_single _ _ signals
  have again := SpscQueue.pop_nil popped empty
  by_cases accepted : simulator.oms.Accepts signal
  · obtain ⟨pushed, push, contents⟩ := SpscQueue.push_empty simulator.bus.omsToGateway
      (.newOrder (simulator.oms.orderFor signal now)) enough orders
    rw [OrderManager.stage_accept _ _ _ _ accepted]
    refine ⟨popped, pushed, ?_, empty, contents⟩
    refine drain_single _ _ simulator
      { simulator with bus := { simulator.bus with strategyToOms := popped } } _
      (.signal signal) _ enough ?_ ?_ ?_
    · simp [popSignal, pop]
    · simp [handleSignal, OrderManager.onSignal_accept _ _ _ _ accepted, push]
    · simp [popSignal, again]
  · rw [OrderManager.stage_refuse _ _ _ _ accepted]
    refine ⟨popped, simulator.bus.omsToGateway, ?_, empty, orders⟩
    refine drain_single _ _ simulator
      { simulator with bus := { simulator.bus with strategyToOms := popped } } _
      (.signal signal) _ enough ?_ ?_ ?_
    · simp [popSignal, pop]
    · simp [handleSignal, OrderManager.onSignal_refuse _ _ _ _ accepted]
    · simp [popSignal, again]

theorem drain_orders (now : TimestampNs) (order : NewOrder)
    (orders : simulator.bus.omsToGateway.contents = [.newOrder order])
    (responses : simulator.bus.gatewayToOms.contents = []) :
    ∃ omsToGateway gatewayToOms,
      drain popOrder (handleOrder now) capacity simulator =
        ({ simulator with
            gateway := (simulator.gateway.stage (order, now)).1
            bus := { simulator.bus with omsToGateway, gatewayToOms } },
          (simulator.gateway.stage (order, now)).2.map .answer) ∧
      omsToGateway.contents = [] ∧
      gatewayToOms.contents = (simulator.gateway.stage (order, now)).2 := by
  obtain ⟨popped, pop, empty⟩ := SpscQueue.pop_single _ _ orders
  have again := SpscQueue.pop_nil popped empty
  cases result : simulator.gateway.sendOrder order now with
  | mk gateway maybeResponse =>
      cases maybeResponse with
      | none =>
          refine ⟨popped, simulator.bus.gatewayToOms, ?_, empty, ?_⟩
          · refine drain_single _ _ simulator
              { simulator with bus := { simulator.bus with omsToGateway := popped } } _
              (.newOrder order) _ enough ?_ ?_ ?_
            · simp [popOrder, pop]
            · simp [handleOrder, result, ExchangeGateway.stage]
            · simp [popOrder, again]
          · simp [responses, result, ExchangeGateway.stage]
      | some response =>
          obtain ⟨pushed, push, contents⟩ :=
            SpscQueue.push_empty simulator.bus.gatewayToOms response enough responses
          refine ⟨popped, pushed, ?_, empty, ?_⟩
          · refine drain_single _ _ simulator
              { simulator with bus := { simulator.bus with omsToGateway := popped } } _
              (.newOrder order) _ enough ?_ ?_ ?_
            · simp [popOrder, pop]
            · simp [handleOrder, result, push, ExchangeGateway.stage]
            · simp [popOrder, again]
          · simp [contents, result, ExchangeGateway.stage]

theorem drain_responses (response : Envelope)
    (responses : simulator.bus.gatewayToOms.contents = [response]) :
    ∃ gatewayToOms,
      drain popResponse handleResponse capacity simulator =
        ({ simulator with
            oms := simulator.oms.settle response
            bus := { simulator.bus with gatewayToOms } }, [.settled response]) ∧
      gatewayToOms.contents = [] := by
  obtain ⟨popped, pop, empty⟩ := SpscQueue.pop_single _ _ responses
  have again := SpscQueue.pop_nil popped empty
  refine ⟨popped, ?_, empty⟩
  refine drain_single _ _ simulator
    { simulator with bus := { simulator.bus with gatewayToOms := popped } } _ response _
    enough ?_ ?_ ?_
  · simp [popResponse, pop]
  · cases response <;> rfl
  · simp [popResponse, again]

end Loops

/-! ### The simulator is a pipeline -/

/-- No message is waiting. -/
structure Idle (simulator : Simulator capacity) : Prop where
  quotes : simulator.bus.marketToStrategy.contents = []
  signals : simulator.bus.strategyToOms.contents = []
  orders : simulator.bus.omsToGateway.contents = []
  responses : simulator.bus.gatewayToOms.contents = []

/-- An idle simulator as a pipeline with some input to come. -/
def view (simulator : Simulator capacity) (input : List MarketDataUpdate) : Pipeline where
  strategy := simulator.strategy
  oms := simulator.oms
  gateway := simulator.gateway
  input := input

/-- What one turn asks of the pipeline; a stage without input does nothing. -/
def turnActions (clock : TurnClock) : List Pipeline.Action :=
  [.publish, .strategy clock.strategy, .order clock.order clock.reject,
    .exchange clock.gateway, .settle]

theorem idle_pops (simulator : Simulator capacity) :
    (simulator.bus.strategyToOms.contents = [] →
        popSignal simulator = (simulator, none)) ∧
      (simulator.bus.omsToGateway.contents = [] → popOrder simulator = (simulator, none)) ∧
      (simulator.bus.gatewayToOms.contents = [] →
        popResponse simulator = (simulator, none)) := by
  refine ⟨?_, ?_, ?_⟩ <;> intro empty
  · simp [popSignal, SpscQueue.pop_nil _ empty]
  · simp [popOrder, SpscQueue.pop_nil _ empty]
  · simp [popResponse, SpscQueue.pop_nil _ empty]

/-- The turn, from what its push and its four loops do. -/
theorem turn_eq (simulator first second third fourth : Simulator capacity)
    (update : MarketDataUpdate) (clock : TurnClock)
    (marketToStrategy : SpscQueue Envelope capacity)
    (signals orders answers settled : List Output)
    (push : simulator.bus.marketToStrategy.push (.marketData update) = (marketToStrategy, true))
    (quoteLoop : drain popQuote (handleQuote clock.strategy) capacity
      { simulator with bus := { simulator.bus with marketToStrategy } } = (first, signals))
    (signalLoop : drain popSignal (handleSignal clock.order clock.reject) capacity first =
      (second, orders))
    (orderLoop : drain popOrder (handleOrder clock.gateway) capacity second = (third, answers))
    (responseLoop : drain popResponse handleResponse capacity third = (fourth, settled)) :
    simulator.turn (update, clock) = (fourth, signals ++ orders ++ answers ++ settled) := by
  simp only [turn, push, quoteLoop, signalLoop, orderLoop, responseLoop]

theorem stage_cases (engine : StrategyEngine) (input : MarketDataUpdate × TimestampNs) :
    (engine.stage input).2 = [] ∨ ∃ signal, (engine.stage input).2 = [signal] := by
  change (engine.onMarketData input.1 input.2).2.toList = [] ∨
    ∃ signal, (engine.onMarketData input.1 input.2).2.toList = [signal]
  cases (engine.onMarketData input.1 input.2).2 with
  | none => exact Or.inl rfl
  | some signal => exact Or.inr ⟨signal, rfl⟩

/-- One turn from an idle state is one message through each stage, and leaves
the simulator idle. -/
theorem turn_refines (simulator : Simulator capacity) (enough : 2 ≤ capacity)
    (idle : simulator.Idle) (input : MarketDataUpdate × TurnClock)
    (rest : List MarketDataUpdate) :
    after Pipeline.step (simulator.view (input.1 :: rest)) (turnActions input.2) =
        (simulator.turn input).1.view rest ∧
      emitted Pipeline.step (simulator.view (input.1 :: rest)) (turnActions input.2) =
        (simulator.turn input).2 ∧
      (simulator.turn input).1.Idle := by
  obtain ⟨update, clock⟩ := input
  obtain ⟨pushed, push, published⟩ :=
    SpscQueue.push_empty simulator.bus.marketToStrategy (.marketData update) enough idle.quotes
  obtain ⟨noQuotes, toOms, quoteLoop, noQuote, signals⟩ :=
    drain_quotes { simulator with bus := { simulator.bus with marketToStrategy := pushed } }
      enough clock.strategy update published idle.signals
  rcases stage_cases simulator.strategy (update, clock.strategy) with quiet | ⟨signal, trade⟩
  · rw [quiet] at quoteLoop signals
    rw [turn_eq simulator _ _ _ _ update clock pushed _ _ _ _ push quoteLoop
      (drain_idle _ _ _ _ ((idle_pops _).1 signals))
      (drain_idle _ _ _ _ ((idle_pops _).2.1 idle.orders))
      (drain_idle _ _ _ _ ((idle_pops _).2.2 idle.responses))]
    refine ⟨?_, ?_, noQuote, signals, idle.orders, idle.responses⟩
    · simp [turnActions, Pipeline.step, view, quiet]
    · simp [turnActions, Pipeline.step, view, quiet]
  · rw [trade] at quoteLoop signals
    obtain ⟨noSignals, toGateway, signalLoop, noSignal, orders⟩ :=
      drain_signals
        { simulator with
          strategy := (simulator.strategy.stage (update, clock.strategy)).1
          bus := { simulator.bus with
            marketToStrategy := noQuotes, strategyToOms := toOms } }
        enough clock.order clock.reject signal signals idle.orders
    by_cases accepted : simulator.oms.Accepts signal
    · obtain ⟨issued, placed⟩ : ∃ issued,
          simulator.oms.stage (signal, clock.order, clock.reject) =
            (issued, [simulator.oms.orderFor signal clock.order]) :=
        ⟨_, OrderManager.stage_accept simulator.oms signal clock.order clock.reject accepted⟩
      rw [placed] at signalLoop orders
      obtain ⟨answer, answered, -⟩ := simulator.gateway.stage_answer
        (simulator.oms.orderFor signal clock.order, clock.gateway)
      obtain ⟨noOrders, fromGateway, orderLoop, noOrder, responses⟩ :=
        drain_orders
          { simulator with
            strategy := (simulator.strategy.stage (update, clock.strategy)).1
            oms := issued
            bus := { simulator.bus with
              marketToStrategy := noQuotes, strategyToOms := noSignals
              omsToGateway := toGateway } }
          enough clock.gateway (simulator.oms.orderFor signal clock.order) orders idle.responses
      rw [answered] at orderLoop responses
      obtain ⟨noResponses, responseLoop, noResponse⟩ :=
        drain_responses
          { simulator with
            strategy := (simulator.strategy.stage (update, clock.strategy)).1
            oms := issued
            gateway := (simulator.gateway.stage
              (simulator.oms.orderFor signal clock.order, clock.gateway)).1
            bus := ⟨noQuotes, noSignals, noOrders, fromGateway⟩ }
          enough answer responses
      rw [turn_eq simulator _ _ _ _ update clock pushed _ _ _ _ push quoteLoop signalLoop orderLoop
        responseLoop]
      refine ⟨?_, ?_, noQuote, noSignal, noOrder, noResponse⟩
      · simp [turnActions, Pipeline.step, view, trade, placed, answered]
      · simp [turnActions, Pipeline.step, view, trade, placed, answered]
    · have refused := OrderManager.stage_refuse simulator.oms signal clock.order clock.reject
        accepted
      rw [refused] at signalLoop orders
      rw [turn_eq simulator _ _ _ _ update clock pushed _ _ _ _ push quoteLoop signalLoop
        (drain_idle _ _ _ _ ((idle_pops _).2.1 orders))
        (drain_idle _ _ _ _ ((idle_pops _).2.2 idle.responses))]
      refine ⟨?_, ?_, noQuote, noSignal, orders, idle.responses⟩
      · simp [turnActions, Pipeline.step, view, trade, refused]
      · simp [turnActions, Pipeline.step, view, trade, refused]

/-! ### Runs -/

/-- The turns for a whole feed are a run of the pipeline on its updates. -/
theorem run_refines (simulator : Simulator capacity) (enough : 2 ≤ capacity)
    (idle : simulator.Idle) (feed : List (MarketDataUpdate × TurnClock)) :
    after Pipeline.step (simulator.view (feed.map Prod.fst))
        (feed.flatMap fun input => turnActions input.2) =
          (after turn simulator feed).view [] ∧
      emitted Pipeline.step (simulator.view (feed.map Prod.fst))
        (feed.flatMap fun input => turnActions input.2) = emitted turn simulator feed := by
  induction feed generalizing simulator with
  | nil => exact ⟨rfl, rfl⟩
  | cons input feed ih =>
      obtain ⟨states, outputs, again⟩ :=
        simulator.turn_refines enough idle input (feed.map Prod.fst)
      obtain ⟨final, later⟩ := ih (simulator.turn input).1 again
      rw [List.flatMap_cons, List.map_cons, after_append, emitted_append, states, outputs]
      exact ⟨final, congrArg ((simulator.turn input).2 ++ ·) later⟩

theorem turnActions_lossless (clock : TurnClock) :
    ∀ action ∈ turnActions clock, action.Lossless := by
  simp [turnActions, Pipeline.Action.Lossless]

/-- What the pipeline is going to do is what the simulator does. -/
theorem outcome_view (simulator : Simulator capacity) (enough : 2 ≤ capacity)
    (idle : simulator.Idle) (feed : List (MarketDataUpdate × TurnClock)) :
    (simulator.view (feed.map Prod.fst)).outcome =
      Pipeline.Outcome.behind {
        signals := [], orders := [], answers := []
        strategy := (after turn simulator feed).strategy
        oms := (after turn simulator feed).oms
        gateway := (after turn simulator feed).gateway } (emitted turn simulator feed) := by
  obtain ⟨states, outputs⟩ := simulator.run_refines enough idle feed
  have lossless : ∀ action ∈ feed.flatMap fun input => turnActions input.2,
      action.Lossless := by
    intro action member
    obtain ⟨input, -, part⟩ := List.mem_flatMap.mp member
    exact turnActions_lossless input.2 action part
  have issued : (simulator.view (feed.map Prod.fst)).Issued :=
    ⟨by simp [view], by simp [view]⟩
  rw [Pipeline.outcome_run _ _ lossless issued, states, outputs,
    Pipeline.outcome_drained _ ⟨rfl, rfl, rfl, rfl, rfl⟩]
  rfl

/-- The simulator of the source, before its loop. -/
def start : Simulator busCapacity where
  bus := .empty (by decide)

theorem start_idle : start.Idle := by
  refine ⟨?_, ?_, ?_, ?_⟩ <;> simp [start, LocalBus.empty]

end Simulator
end TradingPlatform
